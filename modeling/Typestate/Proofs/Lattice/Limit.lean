import Mathlib.Algebra.BigOperators.Group.Finset.Basic
import Mathlib.Data.Nat.Choose.Sum
import Typestate.Proofs.Lattice.Exactness

/-!
# The number of stages

The stages of a lattice are counted by the subsets of its members: one for each proper subset of the
mandatory members and one for each proper subset of the optional ones, and a step for each member
that is left in them. The search compares its limit with what it has found so far, somewhere in the
middle of its way; still it fails exactly if the whole count is above the limit.
-/

namespace Typestate

/-- Whatever is left over in a subset is counted by the subset that is left over. -/
theorem sum_card_sdiff_powerset (members : Finset ℕ) :
    ∑ part ∈ members.powerset, (members \ part).card = ∑ part ∈ members.powerset, part.card := by
  have hleft : ∀ part ∈ members.powerset, members \ part ∈ members.powerset := fun part _ =>
    Finset.mem_powerset.mpr Finset.sdiff_subset
  have hback : ∀ part ∈ members.powerset, members \ (members \ part) = part := fun part hpart =>
    Finset.sdiff_sdiff_eq_self (Finset.mem_powerset.mp hpart)
  exact Finset.sum_nbij' (members \ ·) (members \ ·) hleft hleft hback hback fun _ _ => rfl

/-- Each member is left over in half of all subsets, and nothing is left over in the whole set. -/
theorem sum_card_sdiff_ssubsets (members : Finset ℕ) :
    ∑ part ∈ members.ssubsets, (members \ part).card = members.card * 2 ^ (members.card - 1) := by
  calc ∑ part ∈ members.ssubsets, (members \ part).card
      = ∑ part ∈ members.powerset, (members \ part).card :=
        Finset.sum_erase _ (by rw [Finset.sdiff_self, Finset.card_empty])
    _ = ∑ part ∈ members.powerset, part.card := sum_card_sdiff_powerset members
    _ = ∑ size ∈ Finset.range (members.card + 1), size * members.card.choose size := by
        rw [Finset.sum_powerset_apply_card fun size => size]
        exact Finset.sum_congr rfl fun size _ => Nat.mul_comm _ _
    _ = members.card * 2 ^ (members.card - 1) := Nat.sum_range_mul_choose _

/-- All subsets but the whole set are proper. -/
theorem card_ssubsets (members : Finset ℕ) : members.ssubsets.card = 2 ^ members.card - 1 := by
  rw [Finset.ssubsets, Finset.card_erase_of_mem (Finset.mem_powerset_self members),
    Finset.card_powerset]

namespace Roster

variable {roster : Roster}

theorem disjoint_toFinset : Disjoint roster.mandatory.toFinset roster.optional.toFinset := by
  rw [List.disjoint_toFinset_iff_disjoint]
  exact List.disjoint_of_nodup_append roster.nodup

/-- The enumerated sets, counted with a weight, are those of both phases. -/
theorem sum_sets (weight : Finset ℕ → ℕ) :
    (roster.sets.map fun supplied => weight supplied.toFinset).sum =
      ∑ part ∈ roster.mandatory.toFinset.ssubsets, weight part +
        ∑ part ∈ roster.optional.toFinset.ssubsets,
          weight (roster.mandatory.toFinset ∪ part) := by
  set mandatory := roster.mandatory.toFinset
  set optional := roster.optional.toFinset
  have hnodup : (roster.sets.map IndexSet.toFinset).Nodup :=
    roster.nodup_sets.map IndexSet.toFinset_injective
  have hsets : (roster.sets.map IndexSet.toFinset).toFinset =
      mandatory.ssubsets ∪ optional.ssubsets.image (mandatory ∪ ·) := by
    ext set
    rw [List.mem_toFinset, List.mem_map, Finset.mem_union, Finset.mem_image,
      Finset.mem_ssubsets]
    constructor
    · intro ⟨supplied, hsupplied, hset⟩
      rw [← hset]
      refine (mem_sets_iff_toFinset.mp hsupplied).imp_right fun ⟨part, hpart, hunion⟩ => ?_
      exact ⟨part, Finset.mem_ssubsets.mpr hpart, hunion.symm⟩
    · intro hset
      have hsame : (IndexSet.ofList set.toList).toFinset = set := by
        rw [IndexSet.toFinset_ofList, Finset.toList_toFinset]
      refine ⟨.ofList set.toList, mem_sets_iff_toFinset.mpr ?_, hsame⟩
      rw [hsame]
      refine hset.imp_right fun ⟨part, hpart, hunion⟩ => ?_
      exact ⟨part, Finset.mem_ssubsets.mp hpart, hunion.symm⟩
  -- A set of the second phase holds all mandatory members, one of the first phase does not.
  have hdisjoint : Disjoint mandatory.ssubsets (optional.ssubsets.image (mandatory ∪ ·)) := by
    rw [Finset.disjoint_left]
    intro set hset himage
    obtain ⟨part, -, hunion⟩ := Finset.mem_image.mp himage
    exact (Finset.mem_ssubsets.mp hset).not_subset (hunion ▸ Finset.subset_union_left)
  have hinjective : Set.InjOn (mandatory ∪ ·) (optional.ssubsets : Set (Finset ℕ)) := by
    intro first hfirst second hsecond hunion
    have hapart : ∀ part ∈ optional.ssubsets, Disjoint mandatory part := fun part hpart =>
      disjoint_toFinset.mono_right (Finset.mem_ssubsets.mp hpart).subset
    rw [← Finset.union_sdiff_cancel_left (hapart first hfirst),
      ← Finset.union_sdiff_cancel_left (hapart second hsecond)]
    exact congrArg (· \ mandatory) hunion
  calc (roster.sets.map fun supplied => weight supplied.toFinset).sum
      = ∑ set ∈ (roster.sets.map IndexSet.toFinset).toFinset, weight set := by
        rw [List.sum_toFinset weight hnodup, List.map_map]
        rfl
    _ = _ := by rw [hsets, Finset.sum_union hdisjoint, Finset.sum_image hinjective]

/-- There are as many enumerated sets as proper subsets in both phases. -/
theorem length_sets :
    roster.sets.length =
      (2 ^ roster.mandatory.length - 1) + (2 ^ roster.optional.length - 1) := by
  obtain ⟨hmandatory, hoptional, -⟩ := List.nodup_append.mp roster.nodup
  have hcount := roster.sum_sets fun _ => 1
  rwa [List.map_const', List.sum_replicate_nat, Nat.mul_one, ← Finset.card_eq_sum_ones,
    ← Finset.card_eq_sum_ones, card_ssubsets, card_ssubsets,
    List.toFinset_card_of_nodup hmandatory, List.toFinset_card_of_nodup hoptional] at hcount

/-- What is left of a list without repetition is counted by the difference of the sets. -/
theorem length_left {supplied : IndexSet} {members : List ℕ} (hnodup : members.Nodup) :
    (left supplied members).length = (members.toFinset \ supplied.toFinset).card := by
  have hleft : (left supplied members).Nodup := hnodup.filter _
  rw [← toFinset_left, List.toFinset_card_of_nodup hleft]

/-- As many members are offered as are left in the phase. -/
theorem length_offered (supplied : IndexSet) :
    (roster.offered supplied).length =
      if roster.mandatory.toFinset ⊆ supplied.toFinset then
        (roster.optional.toFinset \ supplied.toFinset).card
      else (roster.mandatory.toFinset \ supplied.toFinset).card := by
  obtain ⟨hmandatory, hoptional, -⟩ := List.nodup_append.mp roster.nodup
  have hover : left supplied roster.mandatory = [] ↔
      roster.mandatory.toFinset ⊆ supplied.toFinset := by
    rw [← List.length_eq_zero_iff, length_left hmandatory, Finset.card_eq_zero,
      Finset.sdiff_eq_empty_iff_subset]
  rw [offered, ← length_left hmandatory, ← length_left hoptional]
  by_cases hleft : left supplied roster.mandatory = []
  · rw [if_pos hleft, if_pos (hover.mp hleft)]
  · rw [if_neg hleft, if_neg (mt hover.mpr hleft)]

/-- In each phase every member is offered in half of the sets of its phase. -/
theorem sum_length_offered :
    (roster.sets.map fun supplied => (roster.offered supplied).length).sum =
      roster.mandatory.length * 2 ^ (roster.mandatory.length - 1) +
        roster.optional.length * 2 ^ (roster.optional.length - 1) := by
  obtain ⟨hmandatory, hoptional, -⟩ := List.nodup_append.mp roster.nodup
  rw [List.map_congr_left fun supplied _ => roster.length_offered supplied]
  rw [roster.sum_sets fun supplied =>
    if roster.mandatory.toFinset ⊆ supplied then (roster.optional.toFinset \ supplied).card
    else (roster.mandatory.toFinset \ supplied).card]
  rw [← List.toFinset_card_of_nodup hmandatory, ← List.toFinset_card_of_nodup hoptional,
    ← sum_card_sdiff_ssubsets, ← sum_card_sdiff_ssubsets]
  congr 1
  · refine Finset.sum_congr rfl fun part hpart => if_neg ?_
    exact (Finset.mem_ssubsets.mp hpart).not_subset
  · refine Finset.sum_congr rfl fun part _ => ?_
    rw [if_pos Finset.subset_union_left, Finset.sdiff_union_distrib,
      Finset.sdiff_eq_self_of_disjoint disjoint_toFinset.symm,
      Finset.inter_eq_right.mpr Finset.sdiff_subset]

end Roster

namespace MemberList

variable {members : MemberList} {h : members.Distinct}

/-- The number of stages: the proper subsets of the mandatory members and those of the optional
ones. -/
def stageCount (members : MemberList) : ℕ :=
  (2 ^ members.mandatory.length - 1) + (2 ^ members.optional.length - 1)

/-- The number of steps: each member is left in half of the subsets of its phase. -/
def edgeCount (members : MemberList) : ℕ :=
  members.mandatory.length * 2 ^ (members.mandatory.length - 1) +
    members.optional.length * 2 ^ (members.optional.length - 1)

theorem length_mandatory_roster : (members.roster h).mandatory.length = members.mandatory.length :=
  List.length_map Member.index

theorem length_optional_roster : (members.roster h).optional.length = members.optional.length :=
  List.length_map Member.index

/-- The enumeration has as many sets as there are stages. -/
theorem length_roster_sets : (members.roster h).sets.length = members.stageCount := by
  rw [Roster.length_sets, stageCount, length_mandatory_roster, length_optional_roster]

theorem length_lattice_stages : (members.lattice h).stages.length = members.stageCount := by
  rw [lattice_stages, List.length_map, length_roster_sets]

theorem length_lattice_edges : (members.lattice h).edges.length = members.edgeCount := by
  have hedges : ((members.lattice h).stages.map fun stage => stage.edges.length) =
      (members.roster h).sets.map fun supplied =>
        ((members.roster h).offered supplied).length := by
    rw [lattice_stages, List.map_map]
    exact List.map_congr_left fun supplied _ => List.length_map _
  rw [Lattice.edges, List.length_flatMap, hedges, Roster.sum_length_offered, edgeCount,
    length_mandatory_roster, length_optional_roster]

end MemberList

namespace Lattice

/-- **The limit.** For members that clash nowhere there is one lattice, whose stages and steps are
counted by the subsets of its members. Unless a flag is attached that is set, it is built within
every limit that its stages keep to, and within a lower one the building fails with that limit. -/
theorem buildUnder_eq_within_limit {members : MemberList}
    (hclash : firstClash? [] members.toList = none) :
    ∃ lattice : Lattice,
      (∀ (limit : ℕ) (flag : Option CancelFlag), (∀ attached ∈ flag, attached.isSet = false) →
        buildUnder members limit flag =
          if members.stageCount ≤ limit then .ok lattice
          else .error (.stageLimitExceeded limit)) ∧
      lattice.stages.length = members.stageCount ∧ lattice.edges.length = members.edgeCount := by
  have h : members.Distinct := firstClash?_toList.mp hclash
  refine ⟨members.lattice h, fun limit flag hflag => ?_, MemberList.length_lattice_stages,
    MemberList.length_lattice_edges⟩
  rw [buildUnder_of_not_stops (CancelFlag.stops_eq_false.mpr hflag), build_of_distinct h,
    MemberList.length_roster_sets]

/-- Two mandatory members and an optional one have four stages and five steps, so three stages are
too few by one, with a flag that is not set as without one. -/
theorem buildUnder_eq_within_limit_sparseMembers :
    firstClash? [] sparseMembers.toList = none ∧
      (∀ attached ∈ some (CancelFlag.mk false), attached.isSet = false) ∧ ∃ lattice : Lattice,
        buildUnder sparseMembers 4 none = .ok lattice ∧
        buildUnder sparseMembers 4 (some ⟨false⟩) = .ok lattice ∧
        buildUnder sparseMembers 3 (some ⟨false⟩) = .error (.stageLimitExceeded 3) ∧
        lattice.stages.length = 4 ∧ lattice.edges.length = 5 := by
  have hclash : firstClash? [] sparseMembers.toList = none := by decide
  have hunset : ∀ attached ∈ some (CancelFlag.mk false), attached.isSet = false := by decide
  obtain ⟨lattice, hbuild, hstages, hedges⟩ := buildUnder_eq_within_limit hclash
  have hcount : sparseMembers.stageCount = 4 := by decide
  rw [hcount] at hbuild hstages
  refine ⟨hclash, hunset, lattice, ?_, ?_, ?_, hstages, ?_⟩
  · rw [hbuild 4 none (by decide), if_pos (Nat.le_refl 4)]
  · rw [hbuild 4 _ hunset, if_pos (Nat.le_refl 4)]
  · rw [hbuild 3 _ hunset, if_neg (by decide)]
  · rw [hedges]
    decide

end Lattice

end Typestate
