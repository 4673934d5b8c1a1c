import Typestate.Proofs.Code.Clash
import Typestate.Proofs.Grammar.FieldReference

/-!
# The identity of a stage as a text

The identity of a set of members joins their names by low lines, and a name may have low lines of
its own. So the text says no more than the pieces between low lines, and sets of different members
may have one text. The lattice itself keeps its stages by their sets. The text tells stages apart
where no two of them read the same, which is so where no name has a low line.
-/

namespace Typestate

/-- An accepted member has a name with characters. -/
theorem Member.Accepted.toList_name_ne_nil {member : Member} (h : member.Accepted) :
    member.name.toList ≠ [] := by
  intro hempty
  obtain ⟨hlex, -⟩ := lex?_of_isIdentifierText h.isIdentifierText_name
  have hnothing : Token.lex? "" = some [] := rfl
  rw [String.toList_eq_nil_iff.mp hempty, hnothing] at hlex
  exact List.cons_ne_nil _ _ (Option.some.inj hlex).symm

namespace IndexSet

variable {members : MemberList}

/-- The characters of the identity of a set. -/
theorem toList_canonical (supplied : IndexSet) :
    (supplied.canonical members).toList =
      ['_'].intercalate ((supplied.members members).map fun member => member.name.toList) := by
  rw [canonical, String.toList_intercalate, List.map_map]
  rfl

/-- Only the empty set has no text. -/
theorem canonical_eq_empty (h : members.Distinct)
    (haccepted : ∀ member ∈ members.toList, member.Accepted) {supplied : IndexSet}
    (hknows : members.Knows supplied) :
    supplied.canonical members = (empty.canonical members) ↔ supplied = .empty := by
  constructor
  · intro hsame
    rw [← MemberList.supplied_eq_nil h hknows]
    cases hmembers : supplied.members members with
    | nil => rfl
    | cons member rest =>
      have hmember : member ∈ members.toList :=
        MemberList.mem_of_mem_supplied h (hmembers ▸ List.mem_cons_self)
      have htext := congrArg String.toList hsame
      rw [toList_canonical, toList_canonical, hmembers] at htext
      cases rest with
      | nil =>
        rw [List.map_singleton, List.intercalate_singleton] at htext
        exact absurd htext (haccepted member hmember).toList_name_ne_nil
      | cons next others =>
        rw [List.map_cons, List.map_cons, List.intercalate_cons_cons] at htext
        have hjoint := List.append_eq_nil_iff.mp (List.append_assoc _ _ _ ▸ htext)
        exact absurd hjoint.1 (haccepted member hmember).toList_name_ne_nil
  · intro hempty
    rw [hempty]

/-- Two sets have one text exactly if the names of their members have the same pieces between low
lines. -/
theorem canonical_eq_iff (h : members.Distinct)
    (haccepted : ∀ member ∈ members.toList, member.Accepted) {first second : IndexSet}
    (hfirst : members.Knows first) (hsecond : members.Knows second) :
    first.canonical members = second.canonical members ↔
      members.piecesOf Member.name first = members.piecesOf Member.name second := by
  have hnil : ∀ {supplied : IndexSet}, members.Knows supplied →
      (members.piecesOf Member.name supplied = [] ↔ supplied = .empty) :=
    MemberList.piecesOf_eq_nil h Member.name
  by_cases hfirstEmpty : first = .empty
  · subst hfirstEmpty
    rw [eq_comm, canonical_eq_empty h haccepted hsecond, (hnil hfirst).mpr rfl, @eq_comm _ [],
      hnil hsecond]
  by_cases hsecondEmpty : second = .empty
  · subst hsecondEmpty
    rw [canonical_eq_empty h haccepted hfirst, (hnil hsecond).mpr rfl, hnil hfirst]
  · rw [← String.toList_inj, toList_canonical, toList_canonical,
      MemberList.joined_eq_iff h Member.name hfirst hsecond hfirstEmpty hsecondEmpty]

end IndexSet

namespace Lattice

variable {members : MemberList} {limit : ℕ} {flag : Option CancelFlag} {lattice : Lattice}

/-- **Identity.** Two stages of a lattice have one text exactly if the names of the members supplied
in them read the same, piece by piece between low lines. So the text tells all stages apart exactly
if no two of them read the same, and it does so if no name has a low line. -/
theorem canonical_identifies_iff (hbuild : Lattice.buildUnder members limit flag = .ok lattice)
    (haccepted : ∀ member ∈ members.toList, member.Accepted) :
    (∀ first ∈ lattice.stages, ∀ second ∈ lattice.stages,
      (first.supplied.canonical members = second.supplied.canonical members ↔
        members.piecesOf Member.name first.supplied =
          members.piecesOf Member.name second.supplied)) ∧
    ((lattice.stages.map fun stage => stage.supplied.canonical members).Nodup ↔
      (lattice.stages.map fun stage => members.piecesOf Member.name stage.supplied).Nodup) ∧
    ((∀ member ∈ members.toList, '_' ∉ member.name.toList) →
      (lattice.stages.map fun stage => stage.supplied.canonical members).Nodup) := by
  obtain ⟨h, rfl⟩ := Lattice.of_buildUnder hbuild
  have hknows : ∀ stage ∈ (members.lattice h).stages, members.Knows stage.supplied :=
    fun stage hstage => StageModule.knows_of_mem_stages h hstage
  have hsets : ((members.lattice h).stages.map Stage.supplied).Nodup := MemberList.nodup_supplied
  have hiff : ∀ first ∈ (members.lattice h).stages, ∀ second ∈ (members.lattice h).stages,
      (first.supplied.canonical members = second.supplied.canonical members ↔
        members.piecesOf Member.name first.supplied =
          members.piecesOf Member.name second.supplied) := fun first hfirst second hsecond =>
    IndexSet.canonical_eq_iff h haccepted (hknows first hfirst) (hknows second hsecond)
  refine ⟨hiff, ?_, fun hnone => ?_⟩
  · rw [List.nodup_map_iff_inj_on hsets.of_map, List.nodup_map_iff_inj_on hsets.of_map]
    exact forall₂_congr fun first hfirst => forall₂_congr fun second hsecond =>
      imp_congr_left (hiff first hfirst second hsecond)
  · rw [List.nodup_map_iff_inj_on hsets.of_map]
    intro first hfirst second hsecond hsame
    have hsupplied : first.supplied = second.supplied :=
      MemberList.eq_of_piecesOf_eq h (fun hdiffers => hdiffers.name) hnone (hknows first hfirst)
        (hknows second hsecond) ((hiff first hfirst second hsecond).mp hsame)
    exact List.inj_on_of_nodup_map hsets hfirst hsecond hsupplied

/-- A low line in a name is no harm by itself. -/
theorem canonical_identifies_plainMembers :
    ∃ lattice, Lattice.build StageModule.plainMembers = .ok lattice ∧
      (∀ member ∈ StageModule.plainMembers.toList, member.Accepted) ∧
      (lattice.stages.map fun stage =>
        stage.supplied.canonical StageModule.plainMembers).Nodup := by
  have h : StageModule.plainMembers.Distinct := by decide
  have hbuild : Lattice.build StageModule.plainMembers =
      .ok (StageModule.plainMembers.lattice h) := by
    rw [Lattice.build_of_distinct h]
    exact if_pos (by decide +revert)
  have haccepted : ∀ member ∈ StageModule.plainMembers.toList, member.Accepted :=
    StageModule.accepted_of_names (by decide +kernel)
  have hpieces : ∀ h : StageModule.plainMembers.Distinct,
      ((StageModule.plainMembers.roster h).sets.map
        (StageModule.plainMembers.piecesOf Member.name)).Nodup := by decide +kernel
  obtain ⟨-, hiff, -⟩ := canonical_identifies_iff hbuild haccepted
  refine ⟨_, hbuild, haccepted, hiff.mpr ?_⟩
  rw [MemberList.lattice_stages, List.map_map]
  exact hpieces h

/-- Two members and a third one whose name is theirs joined by a low line. In upper camel case the
low line is cut away, so the three names differ. -/
def joinedMembers : MemberList where
  toList :=
    [⟨"a", "A", ⟨"i32"⟩, true, 0, .provided, .argument⟩,
      ⟨"b", "B", ⟨"i32"⟩, true, 1, .provided, .argument⟩,
      ⟨"a_b", "AB", ⟨"i32"⟩, true, 2, .provided, .argument⟩]
  sorted := by simp

/-- Supplying the first two members and supplying the third one lead to different stages with one
text, although the members are accepted and the lattice is built. -/
theorem canonical_joinedMembers :
    ∃ lattice, Lattice.build joinedMembers = .ok lattice ∧
      (∀ member ∈ joinedMembers.toList, member.Accepted) ∧
      ∃ first ∈ lattice.stages, ∃ second ∈ lattice.stages, first.supplied ≠ second.supplied ∧
        first.supplied.canonical joinedMembers = second.supplied.canonical joinedMembers := by
  have h : joinedMembers.Distinct := by decide
  have hbuild : Lattice.build joinedMembers = .ok (joinedMembers.lattice h) := by
    rw [Lattice.build_of_distinct h]
    exact if_pos (by decide +revert)
  have hmem : ∀ h : joinedMembers.Distinct, .ofList [0, 1] ∈ (joinedMembers.roster h).sets ∧
      .ofList [2] ∈ (joinedMembers.roster h).sets := by decide
  have hstage : ∀ supplied ∈ (joinedMembers.roster h).sets,
      ∃ stage ∈ (joinedMembers.lattice h).stages, stage.supplied = supplied := by
    intro supplied hsupplied
    rw [MemberList.lattice_stages]
    exact ⟨_, List.mem_map_of_mem hsupplied, rfl⟩
  obtain ⟨first, hfirst, hfirstSet⟩ := hstage _ (hmem h).1
  obtain ⟨second, hsecond, hsecondSet⟩ := hstage _ (hmem h).2
  refine ⟨_, hbuild, StageModule.accepted_of_names (by decide +kernel), first, hfirst, second,
    hsecond, ?_, ?_⟩
  · rw [hfirstSet, hsecondSet]
    decide
  · rw [hfirstSet, hsecondSet]
    decide +kernel

end Lattice

end Typestate
