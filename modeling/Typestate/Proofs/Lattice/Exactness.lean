import Mathlib.Data.Finset.Card
import Mathlib.Data.Finset.SDiff
import Typestate.Proofs.Lattice.Closed

/-!
# Exactness of the lattice

The stages of a lattice are the reachable combinations of supplied members and no others: as long as
a mandatory member is missing no optional one has been supplied. Every step out of a stage leads to
the stage with one more member, and every stage that a step leads to can be looked up.
-/

namespace Typestate

/-- The set of indexes as a finite set. -/
def IndexSet.toFinset (set : IndexSet) : Finset ℕ := set.toList.toFinset

@[simp] theorem IndexSet.mem_toFinset {set : IndexSet} {index : ℕ} :
    index ∈ set.toFinset ↔ index ∈ set := List.mem_toFinset

@[simp] theorem IndexSet.toFinset_ofList (indexes : List ℕ) :
    (IndexSet.ofList indexes).toFinset = indexes.toFinset := by
  ext index
  simp

@[simp] theorem IndexSet.toFinset_insert (set : IndexSet) (index : ℕ) :
    (set.insert index).toFinset = Insert.insert index set.toFinset := by
  ext other
  simp

/-- Sets are equal if they are equal as finite sets. -/
theorem IndexSet.toFinset_injective : Function.Injective IndexSet.toFinset := by
  intro first second h
  refine IndexSet.ext fun index => ?_
  rw [← mem_toFinset, h, mem_toFinset]

/-- Part of a list without repetition is left out exactly if its set is smaller. -/
theorem sublist_ne_iff_ssubset {taken members : List ℕ} (hsub : taken.Sublist members)
    (hnodup : members.Nodup) : taken ≠ members ↔ taken.toFinset ⊂ members.toFinset := by
  have hsubset : taken.toFinset ⊆ members.toFinset := fun member hmember =>
    List.mem_toFinset.mpr (hsub.subset (List.mem_toFinset.mp hmember))
  rw [Finset.ssubset_iff_subset_ne, and_iff_right hsubset, not_iff_not]
  constructor
  · intro hsame
    subst hsame
    rfl
  · intro hsame
    apply hsub.eq_of_length_le
    have hcard := congrArg Finset.card hsame
    rw [List.toFinset_card_of_nodup hnodup,
      List.toFinset_card_of_nodup (hsub.nodup hnodup)] at hcard
    exact hcard.ge

/-- Every subset of a list without repetition is the set of a part of the list. -/
theorem exists_sublist_toFinset {members : List ℕ} {part : Finset ℕ}
    (hpart : part ⊆ members.toFinset) :
    ∃ taken : List ℕ, taken.Sublist members ∧ taken.toFinset = part := by
  refine ⟨members.filter fun member => member ∈ part, List.filter_sublist, ?_⟩
  ext member
  simp only [List.mem_toFinset, List.mem_filter, decide_eq_true_eq]
  exact and_iff_right_of_imp fun hmember => List.mem_toFinset.mp (hpart hmember)

namespace Roster

variable {roster : Roster} {supplied : IndexSet}

/-- The enumerated sets are the proper subsets of the mandatory members, and all mandatory members
together with a proper subset of the optional ones. -/
theorem mem_sets_iff_toFinset :
    supplied ∈ roster.sets ↔
      supplied.toFinset ⊂ roster.mandatory.toFinset ∨
        ∃ part ⊂ roster.optional.toFinset,
          supplied.toFinset = roster.mandatory.toFinset ∪ part := by
  obtain ⟨hmandatory, hoptional, -⟩ := List.nodup_append.mp roster.nodup
  rw [mem_sets]
  constructor
  · intro hcases
    rcases hcases with ⟨taken, hsub, hne, rfl⟩ | ⟨taken, hsub, hne, rfl⟩
    · refine Or.inl ?_
      rw [IndexSet.toFinset_ofList]
      exact (sublist_ne_iff_ssubset hsub hmandatory).mp hne
    · refine Or.inr ⟨taken.toFinset, (sublist_ne_iff_ssubset hsub hoptional).mp hne, ?_⟩
      rw [IndexSet.toFinset_ofList, List.toFinset_append]
  · intro hcases
    rcases hcases with hpart | ⟨part, hpart, hsupplied⟩
    · obtain ⟨taken, hsub, htaken⟩ := exists_sublist_toFinset hpart.subset
      refine Or.inl ⟨taken, hsub, ?_, IndexSet.toFinset_injective ?_⟩
      · rw [sublist_ne_iff_ssubset hsub hmandatory, htaken]
        exact hpart
      · rw [IndexSet.toFinset_ofList, htaken]
    · obtain ⟨taken, hsub, htaken⟩ := exists_sublist_toFinset hpart.subset
      refine Or.inr ⟨taken, hsub, ?_, IndexSet.toFinset_injective ?_⟩
      · rw [sublist_ne_iff_ssubset hsub hoptional, htaken]
        exact hpart
      · rw [IndexSet.toFinset_ofList, List.toFinset_append, htaken, hsupplied]

/-- Enumerated sets consist of members, leave some member out, and hold an optional member only with
all mandatory ones. -/
theorem of_mem_sets (hsupplied : supplied ∈ roster.sets) :
    (∀ member ∈ supplied, member ∈ roster.members) ∧
      (∃ member ∈ roster.members, member ∉ supplied) ∧
        ((∀ member ∈ roster.mandatory, member ∈ supplied) ∨
          ∀ member ∈ roster.optional, member ∉ supplied) := by
  have hdisjoint : roster.mandatory.Disjoint roster.optional :=
    List.disjoint_of_nodup_append roster.nodup
  rcases mem_sets_iff_toFinset.mp hsupplied with hpart | ⟨part, hpart, hunion⟩
  · obtain ⟨missing, hmissing, hout⟩ := Finset.exists_of_ssubset hpart
    have hsubset : ∀ member ∈ supplied, member ∈ roster.mandatory := fun member hmember =>
      List.mem_toFinset.mp (hpart.subset (IndexSet.mem_toFinset.mpr hmember))
    refine ⟨fun member hmember => List.mem_append_left _ (hsubset member hmember),
      ⟨missing, List.mem_append_left _ (List.mem_toFinset.mp hmissing),
        mt IndexSet.mem_toFinset.mpr hout⟩, Or.inr fun member hmember hin => ?_⟩
    exact hdisjoint (hsubset member hin) hmember
  · obtain ⟨missing, hmissing, hout⟩ := Finset.exists_of_ssubset hpart
    have hmem : ∀ member, member ∈ supplied ↔ member ∈ roster.mandatory ∨ member ∈ part := by
      intro member
      rw [← IndexSet.mem_toFinset, hunion, Finset.mem_union, List.mem_toFinset]
    rw [List.mem_toFinset] at hmissing
    refine ⟨fun member hmember => ?_, ⟨missing, List.mem_append_right _ hmissing, ?_⟩,
      Or.inl fun member hmember => (hmem member).mpr (Or.inl hmember)⟩
    · rcases (hmem member).mp hmember with h | h
      · exact List.mem_append_left _ h
      · exact List.mem_append_right _ (List.mem_toFinset.mp (hpart.subset h))
    · rw [hmem, not_or]
      exact ⟨fun h => hdisjoint h hmissing, hout⟩

/-- A set of members that leaves some member out is enumerated if it holds all mandatory members or
no optional one. -/
theorem mem_sets_of_members (hsubset : ∀ member ∈ supplied, member ∈ roster.members)
    (hleft : ∃ member ∈ roster.members, member ∉ supplied)
    (hphase : (∀ member ∈ roster.mandatory, member ∈ supplied) ∨
      ∀ member ∈ roster.optional, member ∉ supplied) : supplied ∈ roster.sets := by
  rw [mem_sets_iff_toFinset]
  by_cases hall : ∀ member ∈ roster.mandatory, member ∈ supplied
  · obtain ⟨missing, hmissing, hout⟩ := hleft
    refine Or.inr ⟨roster.optional.toFinset ∩ supplied.toFinset, ?_, ?_⟩
    · rw [Finset.ssubset_iff_of_subset Finset.inter_subset_left]
      refine ⟨missing, List.mem_toFinset.mpr ?_, ?_⟩
      · exact (List.mem_append.mp hmissing).resolve_left fun h => hout (hall missing h)
      · rw [Finset.mem_inter, IndexSet.mem_toFinset]
        exact fun h => hout h.2
    · ext member
      simp only [IndexSet.mem_toFinset, Finset.mem_union, Finset.mem_inter, List.mem_toFinset]
      constructor
      · intro hmember
        exact (List.mem_append.mp (hsubset member hmember)).imp_right fun h => ⟨h, hmember⟩
      · intro hcases
        rcases hcases with h | ⟨-, h⟩
        · exact hall member h
        · exact h
  · have hnone := hphase.resolve_left hall
    push Not at hall
    obtain ⟨missing, hmissing, hout⟩ := hall
    refine Or.inl ((Finset.ssubset_iff_of_subset fun member hmember => ?_).mpr
      ⟨missing, List.mem_toFinset.mpr hmissing, mt IndexSet.mem_toFinset.mp hout⟩)
    rw [IndexSet.mem_toFinset] at hmember
    refine List.mem_toFinset.mpr ((List.mem_append.mp (hsubset member hmember)).resolve_right ?_)
    exact fun h => hnone member h hmember

/-- The enumerated sets consist of members, leave some member out, and hold an optional member only
with all mandatory ones; and all such sets are enumerated. -/
theorem mem_sets_iff :
    supplied ∈ roster.sets ↔
      (∀ member ∈ supplied, member ∈ roster.members) ∧
        (∃ member ∈ roster.members, member ∉ supplied) ∧
          ((∀ member ∈ roster.mandatory, member ∈ supplied) ∨
            ∀ member ∈ roster.optional, member ∉ supplied) := by
  constructor
  · exact of_mem_sets
  · intro hsupplied
    obtain ⟨hsubset, hleft, hphase⟩ := hsupplied
    exact mem_sets_of_members hsubset hleft hphase

/-- Nothing is left of a list exactly if all of it has been supplied. -/
theorem left_eq_nil {members : List ℕ} :
    left supplied members = [] ↔ ∀ member ∈ members, member ∈ supplied := by
  simp [left, List.filter_eq_nil_iff]

/-- What is left of a list of members is the difference of the sets. -/
theorem toFinset_left (members : List ℕ) :
    (left supplied members).toFinset = members.toFinset \ supplied.toFinset := by
  ext member
  simp [left]

/-- A member is offered as long as it has not been supplied, and an optional one only after all
mandatory ones. -/
theorem mem_offered {member : ℕ} :
    member ∈ roster.offered supplied ↔
      member ∉ supplied ∧ (member ∈ roster.mandatory ∨
        member ∈ roster.optional ∧ ∀ other ∈ roster.mandatory, other ∈ supplied) := by
  have hmem : ∀ members : List ℕ,
      member ∈ left supplied members ↔ member ∈ members ∧ member ∉ supplied := by
    intro members
    simp [left]
  unfold offered
  by_cases hall : ∀ other ∈ roster.mandatory, other ∈ supplied
  · rw [if_pos (left_eq_nil.mpr hall), hmem]
    constructor
    · intro hboth
      obtain ⟨hmember, hout⟩ := hboth
      exact ⟨hout, Or.inr ⟨hmember, hall⟩⟩
    · intro hboth
      rcases hboth with ⟨hout, hmember | ⟨hmember, -⟩⟩
      · exact absurd (hall member hmember) hout
      · exact ⟨hmember, hout⟩
  · rw [if_neg (mt left_eq_nil.mp hall), hmem]
    constructor
    · intro hboth
      obtain ⟨hmember, hout⟩ := hboth
      exact ⟨hout, Or.inl hmember⟩
    · intro hboth
      rcases hboth with ⟨hout, hmember | ⟨-, hall'⟩⟩
      · exact ⟨hmember, hout⟩
      · exact absurd hall' hall

/-- A step leads from an enumerated set to an enumerated set, unless nothing is left. -/
theorem insert_mem_sets {member : ℕ} (hsupplied : supplied ∈ roster.sets)
    (hmember : member ∈ roster.offered supplied)
    (hleft : ∃ other ∈ roster.members, other ∉ supplied.insert member) :
    supplied.insert member ∈ roster.sets := by
  obtain ⟨hsubset, -, hphase⟩ := mem_sets_iff.mp hsupplied
  obtain ⟨hout, hoffered⟩ := mem_offered.mp hmember
  refine mem_sets_iff.mpr ⟨fun other hother => ?_, hleft, ?_⟩
  · rcases IndexSet.mem_insert.mp hother with rfl | hother
    · exact List.mem_append.mpr (hoffered.imp_right And.left)
    · exact hsubset other hother
  · rcases hoffered with hmandatory | ⟨-, hall⟩
    · rcases hphase with hall | hnone
      · exact absurd (hall member hmandatory) hout
      · refine Or.inr fun other hother hin => ?_
        rcases IndexSet.mem_insert.mp hin with rfl | hin
        · exact List.disjoint_of_nodup_append roster.nodup hmandatory hother
        · exact hnone other hother hin
    · exact Or.inl fun other hother => IndexSet.mem_insert.mpr (Or.inr (hall other hother))

end Roster

namespace MemberList

/-- The members that have to be supplied, as a finite set of indexes. -/
def mandatorySet (members : MemberList) : Finset ℕ := members.mandatoryIndexes.toFinset

/-- The members that may be left out, as a finite set of indexes. -/
def optionalSet (members : MemberList) : Finset ℕ := members.optionalIndexes.toFinset

end MemberList

/-- What is left in a stage is what has not been supplied, and its steps supply each offered member
once, in ascending order. -/
structure Stage.Exact (stage : Stage) (members : MemberList) : Prop where
  mandatory_ascending : stage.mandatory.Pairwise (· < ·)
  mandatory_eq : stage.mandatory.toFinset = members.mandatorySet \ stage.supplied.toFinset
  optional_ascending : stage.optional.Pairwise (· < ·)
  optional_eq : stage.optional.toFinset = members.optionalSet \ stage.supplied.toFinset
  edges_eq : stage.edges = stage.offered.map fun member =>
    { source := stage.key
      member := member
      target :=
        if insert member stage.supplied.toFinset = members.mandatorySet ∪ members.optionalSet then
          .complete
        else .after (stage.supplied.insert member) }

/-- The stages of a lattice are those of the members, each is exact, and each can be looked up. -/
structure Lattice.Exact (lattice : Lattice) (members : MemberList) : Prop where
  /-- The supplied sets are the proper subsets of the mandatory members, and all mandatory members
  with a proper subset of the optional ones. -/
  mem_stages : ∀ set : Finset ℕ,
    set ∈ lattice.stages.map (fun stage => stage.supplied.toFinset) ↔
      set ⊂ members.mandatorySet ∨
        ∃ part ⊂ members.optionalSet, set = members.mandatorySet ∪ part
  nodup_stages : (lattice.stages.map fun stage => stage.supplied.toFinset).Nodup
  stage_exact : ∀ stage ∈ lattice.stages, stage.Exact members
  stage?_eq_some : ∀ key stage,
    lattice.stage? key = some stage ↔ stage ∈ lattice.stages ∧ key = stage.key
  /-- A step leads to a stage or to the end. -/
  target_found : ∀ edge ∈ lattice.edges,
    edge.target = .complete ∨ ∃ stage ∈ lattice.stages, edge.target = stage.key
  root_eq : lattice.root = if members.toList = [] then .complete else .after .empty

namespace MemberList

variable {members : MemberList} {h : members.Distinct} {supplied : IndexSet}

/-- Whether the builder is complete is seen from the finite sets. -/
theorem roster_key (hsubset : ∀ member ∈ supplied, member ∈ (members.roster h).members) :
    (members.roster h).key supplied =
      if supplied.toFinset = members.mandatorySet ∪ members.optionalSet then .complete
      else .after supplied := by
  have hall : (members.mandatorySet ∪ members.optionalSet) =
      (members.roster h).members.toFinset := (List.toFinset_append).symm
  have hiff : (∀ member ∈ (members.roster h).members, member ∈ supplied) ↔
      supplied.toFinset = members.mandatorySet ∪ members.optionalSet := by
    rw [hall, Finset.ext_iff]
    simp only [IndexSet.mem_toFinset, List.mem_toFinset]
    exact ⟨fun hmem member => ⟨hsubset member, hmem member⟩, fun hmem member => (hmem member).mpr⟩
  rw [Roster.key]
  exact if_congr hiff rfl rfl

/-- The stage of an enumerated set is exact. -/
theorem stage_exact (hsupplied : supplied ∈ (members.roster h).sets) :
    ((members.roster h).stage supplied).Exact members where
  mandatory_ascending := h.ascending_mandatoryIndexes.filter _
  mandatory_eq := Roster.toFinset_left _
  optional_ascending := h.ascending_optionalIndexes.filter _
  optional_eq := Roster.toFinset_left _
  edges_eq := by
    have hoffered : ((members.roster h).stage supplied).offered =
        (members.roster h).offered supplied := by
      simp [Stage.offered, Roster.offered, Roster.stage]
    rw [hoffered]
    refine List.map_congr_left fun member hmember => ?_
    have hsubset : ∀ other ∈ supplied.insert member, other ∈ (members.roster h).members := by
      intro other hother
      rcases IndexSet.mem_insert.mp hother with rfl | hother
      · exact List.mem_append.mpr ((Roster.mem_offered.mp hmember).2.imp_right And.left)
      · exact (Roster.mem_sets_iff.mp hsupplied).1 other hother
    rw [Roster.step, roster_key hsubset, IndexSet.toFinset_insert]
    rfl

/-- Steps out of the stage of an enumerated set lead to such a stage or to the end. -/
theorem target_found (hsupplied : supplied ∈ (members.roster h).sets) {member : ℕ}
    (hmember : member ∈ (members.roster h).offered supplied) :
    (members.roster h).key (supplied.insert member) = .complete ∨
      supplied.insert member ∈ (members.roster h).sets ∧
        (members.roster h).key (supplied.insert member) = .after (supplied.insert member) := by
  by_cases hall : ∀ other ∈ (members.roster h).members, other ∈ supplied.insert member
  · exact Or.inl (if_pos hall)
  · refine Or.inr ⟨Roster.insert_mem_sets hsupplied hmember ?_, if_neg hall⟩
    push Not at hall
    exact hall

/-- The supplied sets of the stages, as finite sets, are the enumerated ones. -/
theorem map_toFinset_stages :
    (members.lattice h).stages.map (fun stage => stage.supplied.toFinset) =
      (members.roster h).sets.map IndexSet.toFinset := by
  rw [lattice_stages, List.map_map]
  rfl

/-- The supplied sets are the proper subsets of the mandatory members, and all mandatory members
with a proper subset of the optional ones. -/
theorem mem_map_toFinset_stages {set : Finset ℕ} :
    set ∈ (members.lattice h).stages.map (fun stage => stage.supplied.toFinset) ↔
      set ⊂ members.mandatorySet ∨
        ∃ part ⊂ members.optionalSet, set = members.mandatorySet ∪ part := by
  rw [map_toFinset_stages, List.mem_map]
  constructor
  · intro hfound
    obtain ⟨supplied, hsupplied, hset⟩ := hfound
    rw [← hset]
    exact Roster.mem_sets_iff_toFinset.mp hsupplied
  · intro hset
    have hsame : (IndexSet.ofList set.toList).toFinset = set := by
      rw [IndexSet.toFinset_ofList, Finset.toList_toFinset]
    refine ⟨.ofList set.toList, Roster.mem_sets_iff_toFinset.mpr ?_, hsame⟩
    rw [hsame]
    exact hset

/-- A builder begins complete only if there are no members. -/
theorem lattice_root :
    (members.lattice h).root = if members.toList = [] then .complete else .after .empty := by
  have hiff : (∀ member ∈ (members.roster h).members, member ∈ IndexSet.empty) ↔
      members.toList = [] := by
    rw [List.eq_nil_iff_forall_not_mem]
    constructor
    · intro hnone member hmember
      exact IndexSet.not_mem_empty (hnone _ (mem_indexes.mpr ⟨member, hmember, rfl⟩))
    · intro hnone index hindex
      obtain ⟨member, hmember, -⟩ := mem_indexes.mp hindex
      exact absurd hmember (hnone member)
  exact if_congr hiff rfl rfl

end MemberList

namespace Lattice

variable {members : MemberList} {limit : ℕ} {flag : Option CancelFlag} {lattice : Lattice}

/-- **Exactness.** Whatever members a lattice is built of, within whatever limit and under whatever
flag, its stages are exactly those of the members. -/
theorem build_exact (hbuild : buildUnder members limit flag = .ok lattice) :
    lattice.Exact members := by
  obtain ⟨h, rfl⟩ := of_buildUnder hbuild
  refine ⟨fun set => MemberList.mem_map_toFinset_stages, ?_, fun stage hstage => ?_,
    fun key stage => ?_, fun edge hedge => ?_, MemberList.lattice_root⟩
  · rw [MemberList.map_toFinset_stages]
    exact (members.roster h).nodup_sets.map IndexSet.toFinset_injective
  · rw [MemberList.lattice_stages, List.mem_map] at hstage
    obtain ⟨supplied, hsupplied, rfl⟩ := hstage
    exact MemberList.stage_exact hsupplied
  · cases key with
    | after supplied =>
      rw [MemberList.lattice_stage?_eq_some, Stage.key, StageKey.after.injEq, eq_comm]
    | complete => simp [stage?, Stage.key]
  · rw [edges, MemberList.lattice_stages, List.mem_flatMap] at hedge
    obtain ⟨stage, hstage, hedge⟩ := hedge
    obtain ⟨supplied, hsupplied, rfl⟩ := List.mem_map.mp hstage
    obtain ⟨member, hmember, rfl⟩ := List.mem_map.mp hedge
    refine (MemberList.target_found hsupplied hmember).imp_right fun hfound => ?_
    rw [MemberList.lattice_stages]
    exact ⟨_, List.mem_map_of_mem hfound.1, hfound.2⟩

/-- Two mandatory members and an optional one between them, with gaps between the indexes. -/
def sparseMembers : MemberList where
  toList :=
    [⟨"id", "Id", ⟨"u64"⟩, true, 3, .provided, .argument⟩,
      ⟨"note", "Note", ⟨"String"⟩, false, 7, .provided, .argument⟩,
      ⟨"owner", "Owner", ⟨"String"⟩, true, 40, .provided, .argument⟩]
  sorted := by simp

theorem sparseMembers_distinct : sparseMembers.Distinct := by decide

/-- Four stages are enough for two mandatory members and an optional one. -/
theorem build_sparseMembers :
    Lattice.build sparseMembers 4 = .ok (sparseMembers.lattice sparseMembers_distinct) := by
  rw [build_of_distinct sparseMembers_distinct]
  exact if_pos (by decide)

theorem build_exact_sparseMembers :
    ∃ lattice, Lattice.build sparseMembers 4 = .ok lattice ∧ lattice.Exact sparseMembers :=
  ⟨_, build_sparseMembers, build_exact build_sparseMembers⟩

end Lattice

end Typestate
