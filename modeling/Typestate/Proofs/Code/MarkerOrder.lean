import Typestate.Proofs.Code.Automaton
import Typestate.Proofs.Lattice.Order
import Typestate.Proofs.Lattice.Refusal

/-!
# The order of the markers

The module of the stages declares a type for each stage in the order in which the search finds them.
What is written depends on nothing but the members, so it is the lexicographic list of their stages,
also where the indexes of optional members lie between those of mandatory ones.
-/

namespace Typestate

namespace MemberList

/-- The names of the markers, in the lexicographic order of the sequences. -/
def markerNames (members : MemberList) : List String :=
  members.sequences.map fun sequence => Naming.marker (.after (.ofList sequence)) members

variable {members : MemberList} {h : members.Distinct}

/-- The markers stand in the order of the sequences. -/
theorem map_name_markers {target : Target} {naming : Naming} :
    (StageModule.ofLattice target naming (members.lattice h)).markers.map StageMarker.name =
      members.markerNames := by
  have hnames : (members.lattice h).stages.map
      (fun stage => Naming.marker (.after stage.supplied) members) = members.markerNames := by
    have hsupplied := congrArg (List.map fun supplied => Naming.marker (.after supplied) members)
      (map_supplied_stages (h := h))
    rw [List.map_map, List.map_map] at hsupplied
    exact hsupplied
  rw [StageModule.ofLattice, List.map_map, ← hnames]
  rfl

end MemberList

/-- The module is read with its name, and its types are the complete marker and the others. -/
theorem StageModule.readTypes (target : Target) (lattice : Lattice) :
    ∃ items,
      readModule? (ofLattice target (.ofTarget target) lattice).tokens =
        some (target.stagesModule, items) ∧
      items.filterMap ModuleItem.type? = Naming.completeMarker ::
        (ofLattice target (.ofTarget target) lattice).markers.map StageMarker.name :=
  ⟨_, readModule?_tokens _ (isWord_visibility_ofTarget target (by decide)), types_eq _⟩

/-- **Order.** Whatever members a lattice is built of, the sequences of its stages ascend strictly,
and they are the sequences of all sets of supplied members after which something is left to supply,
sorted. The module of the stages declares its types in the same order, after the complete one. -/
theorem buildUnder_sorted {members : MemberList} {limit : ℕ} {flag : Option CancelFlag}
    {lattice : Lattice} (hbuild : Lattice.buildUnder members limit flag = .ok lattice) :
    (lattice.stages.map fun stage => members.sequence stage.supplied.toFinset).Pairwise
      (List.Lex (· < ·)) ∧
    lattice.stages.map (fun stage => members.sequence stage.supplied.toFinset) =
      (members.stageSets.image members.sequence).sort ∧
    lattice.stages.map Stage.supplied = members.sequences.map IndexSet.ofList ∧
    ∀ target : Target,
      (StageModule.ofLattice target (.ofTarget target) lattice).markers.map StageMarker.name =
        members.markerNames ∧
      ∃ items,
        readModule? (StageModule.ofLattice target (.ofTarget target) lattice).tokens =
          some (target.stagesModule, items) ∧
        items.filterMap ModuleItem.type? = Naming.completeMarker :: members.markerNames := by
  obtain ⟨h, rfl⟩ := Lattice.of_buildUnder hbuild
  refine ⟨MemberList.lex_stages, MemberList.map_sequence_stages, MemberList.map_supplied_stages,
    fun target => ⟨MemberList.map_name_markers, ?_⟩⟩
  obtain ⟨items, hread, htypes⟩ := StageModule.readTypes target (members.lattice h)
  exact ⟨items, hread, htypes.trans (by rw [MemberList.map_name_markers])⟩

/-- Two mandatory members and two optional ones, one before them and one between them. -/
def interleavedMembers : MemberList where
  toList :=
    [⟨"note", "Note", ⟨"String"⟩, false, 1, .provided, .argument⟩,
      ⟨"id", "Id", ⟨"u64"⟩, true, 3, .provided, .argument⟩,
      ⟨"size", "Size", ⟨"u32"⟩, false, 7, .provided, .argument⟩,
      ⟨"owner", "Owner", ⟨"String"⟩, true, 40, .provided, .argument⟩]
  sorted := by simp

/-- After both mandatory members come the optional ones, though the index of one is the lowest of
all, and only then does the second mandatory member come without the first. -/
theorem buildUnder_sorted_interleavedMembers :
    ∃ lattice, Lattice.buildUnder interleavedMembers 6 (some ⟨false⟩) = .ok lattice ∧
      lattice.stages.map (fun stage => stage.supplied.toList) =
        [[], [3], [3, 40], [1, 3, 40], [3, 7, 40], [40]] ∧
      ∀ target : Target,
        (StageModule.ofLattice target (.ofTarget target) lattice).markers.map StageMarker.name =
          ["Root", "Exclude_Id", "Exclude_Id_Owner", "Exclude_Note_Id_Owner",
            "Exclude_Id_Size_Owner", "Exclude_Owner"] := by
  have hdistinct : interleavedMembers.Distinct := by decide
  have hsequences : interleavedMembers.sequences =
      [[], [3], [3, 40], [3, 40, 1], [3, 40, 7], [40]] := by
    rw [← MemberList.map_sequence_stages (h := hdistinct), MemberList.map_sequence_eq_sets]
    rfl
  have hbuild : Lattice.buildUnder interleavedMembers 6 (some ⟨false⟩) =
      .ok (interleavedMembers.lattice hdistinct) := by
    rw [Lattice.buildUnder_of_distinct hdistinct]
    rfl
  obtain ⟨-, -, hsupplied, hmarkers⟩ := buildUnder_sorted hbuild
  refine ⟨_, hbuild, ?_, fun target => (hmarkers target).1.trans ?_⟩
  · have hlists := congrArg (List.map IndexSet.toList) hsupplied
    rw [List.map_map, hsequences] at hlists
    exact hlists
  · rw [MemberList.markerNames, hsequences]
    decide +kernel

end Typestate
