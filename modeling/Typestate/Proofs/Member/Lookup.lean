import Mathlib.Data.Finset.Dedup
import Mathlib.Data.List.Pairwise
import Typestate.Lattice.Fault
import Typestate.Proofs.Lattice.Enumeration

/-!
# Members by their indexes

In a list of members that differ from each other the indexes ascend strictly. So an index belongs to
at most one member, and the search by halves finds it.
-/

namespace Typestate.MemberList

/-- A member before the middle of an ascending list is in the first half, any other is not. -/
theorem mem_take_iff {members : List Member} {place : ℕ} (hplace : place < members.length)
    (hascending : members.Pairwise fun first second => first.index < second.index)
    {member : Member} (hless : member.index < members[place].index) :
    member ∈ members ↔ member ∈ members.take place := by
  constructor
  · intro hmember
    obtain ⟨other, hother, rfl⟩ := List.mem_iff_getElem.mp hmember
    have hbefore : other < place := by
      by_contra hnot
      rcases Nat.lt_or_eq_of_le (Nat.le_of_not_lt hnot) with h | rfl
      · exact absurd (List.pairwise_iff_getElem.mp hascending place other hplace hother h)
          (Nat.lt_asymm hless)
      · exact Nat.lt_irrefl _ hless
    exact List.mem_take_iff_getElem.mpr ⟨other, by omega, rfl⟩
  · exact List.mem_of_mem_take

/-- A member from the middle of an ascending list on is in the second half. -/
theorem mem_drop_iff {members : List Member} {place : ℕ} (hplace : place < members.length)
    (hascending : members.Pairwise fun first second => first.index < second.index)
    {member : Member} (hnot : ¬ member.index < members[place].index) :
    member ∈ members ↔ member ∈ members.drop place := by
  constructor
  · intro hmember
    obtain ⟨other, hother, rfl⟩ := List.mem_iff_getElem.mp hmember
    have hafter : place ≤ other := by
      by_contra hbefore
      exact hnot <|
        List.pairwise_iff_getElem.mp hascending other place hother hplace (by omega)
    refine List.mem_drop_iff_getElem.mpr ⟨other - place, by omega, ?_⟩
    simp only [Nat.add_sub_cancel' hafter]
  · exact List.mem_of_mem_drop

/-- The search by halves of a list in strictly ascending order finds the member of the index. -/
theorem search_eq_some {index : ℕ} {members : List Member} {member : Member}
    (hascending : members.Pairwise fun first second => first.index < second.index) :
    search index members = some member ↔ member ∈ members ∧ member.index = index := by
  induction hlength : members.length using Nat.strong_induction_on generalizing members with
  | _ length ih =>
    subst hlength
    unfold search
    by_cases hlong : 2 ≤ members.length
    · have hplace : members.length / 2 < members.length := by omega
      rw [dif_pos hlong]
      by_cases hless : index < members[members.length / 2].index
      · have hshorter : (members.take (members.length / 2)).length < members.length := by
          rw [List.length_take]
          omega
        rw [if_pos hless, ih _ hshorter (hascending.sublist (List.take_sublist _ _)) rfl]
        apply and_congr_left
        intro hsame
        subst hsame
        exact (mem_take_iff hplace hascending hless).symm
      · have hshorter : (members.drop (members.length / 2)).length < members.length := by
          rw [List.length_drop]
          omega
        rw [if_neg hless, ih _ hshorter (hascending.sublist (List.drop_sublist _ _)) rfl]
        apply and_congr_left
        intro hsame
        subst hsame
        exact (mem_drop_iff hplace hascending hless).symm
    · rw [dif_neg hlong]
      rcases members with _ | ⟨only, _ | ⟨next, rest⟩⟩
      · simp
      · rw [List.find?_singleton, List.mem_singleton]
        grind
      · exact absurd (by simp) hlong

/-- The members differ from each other in name, in upper camel case and in index. -/
def Distinct (members : MemberList) : Prop := members.toList.Pairwise Member.Differs

instance (members : MemberList) : Decidable members.Distinct :=
  inferInstanceAs (Decidable (members.toList.Pairwise Member.Differs))

variable {members : MemberList}

/-- The indexes of the members that have to be supplied. -/
def mandatoryIndexes (members : MemberList) : List ℕ := members.mandatory.map Member.index

/-- The indexes of the members that may be left out. -/
def optionalIndexes (members : MemberList) : List ℕ := members.optional.map Member.index

/-- An index of a member is one of a mandatory or of an optional member. -/
theorem mem_indexes {index : ℕ} :
    index ∈ members.mandatoryIndexes ++ members.optionalIndexes ↔
      ∃ member ∈ members.toList, member.index = index := by
  simp only [mandatoryIndexes, optionalIndexes, mandatory, optional, List.mem_append, List.mem_map,
    List.mem_filter, Bool.not_eq_true']
  constructor
  · intro hcases
    rcases hcases with ⟨member, ⟨hmember, -⟩, hindex⟩ | ⟨member, ⟨hmember, -⟩, hindex⟩
    · exact ⟨member, hmember, hindex⟩
    · exact ⟨member, hmember, hindex⟩
  · intro hfound
    obtain ⟨member, hmember, hindex⟩ := hfound
    cases hmandatory : member.mandatory
    · exact Or.inr ⟨member, ⟨hmember, hmandatory⟩, hindex⟩
    · exact Or.inl ⟨member, ⟨hmember, hmandatory⟩, hindex⟩

instance : Std.Symm Member.Differs := ⟨fun _ _ hdiffers => hdiffers.symm⟩

namespace Distinct

/-- Distinct members have ascending indexes. -/
theorem ascending (h : members.Distinct) :
    members.toList.Pairwise fun first second => first.index < second.index :=
  (members.sorted.and h).imp fun ⟨hle, hdiffers⟩ => lt_of_le_of_ne hle hdiffers.index

/-- The member of an index is found. -/
theorem get?_eq_some (h : members.Distinct) {index : ℕ} {member : Member} :
    members.get? index = some member ↔ member ∈ members.toList ∧ member.index = index :=
  search_eq_some h.ascending

/-- Distinct members with one index are the same member. -/
theorem eq_of_index_eq (h : members.Distinct) {first second : Member}
    (hfirst : first ∈ members.toList) (hsecond : second ∈ members.toList)
    (hindex : first.index = second.index) : first = second := by
  have hget : members.get? second.index = some first := h.get?_eq_some.mpr ⟨hfirst, hindex⟩
  rw [h.get?_eq_some.mpr ⟨hsecond, rfl⟩] at hget
  exact (Option.some.inj hget).symm

/-- Different members differ in all that items are named after. -/
theorem forall_ne (h : members.Distinct) {first second : Member}
    (hfirst : first ∈ members.toList) (hsecond : second ∈ members.toList)
    (hne : first ≠ second) : first.Differs second :=
  List.Pairwise.forall h hfirst hsecond hne

theorem ascending_mandatoryIndexes (h : members.Distinct) :
    members.mandatoryIndexes.Pairwise (· < ·) :=
  List.pairwise_map.mpr (h.ascending.filter _)

theorem ascending_optionalIndexes (h : members.Distinct) :
    members.optionalIndexes.Pairwise (· < ·) :=
  List.pairwise_map.mpr (h.ascending.filter _)

/-- No index belongs to both a mandatory and an optional member. -/
theorem disjoint_indexes (h : members.Distinct) :
    members.mandatoryIndexes.Disjoint members.optionalIndexes := by
  intro index hmandatory hoptional
  obtain ⟨first, hfirst, rfl⟩ := List.mem_map.mp hmandatory
  obtain ⟨second, hsecond, hindex⟩ := List.mem_map.mp hoptional
  obtain ⟨hfirst, hrequired⟩ := List.mem_filter.mp hfirst
  obtain ⟨hsecond, hleft⟩ := List.mem_filter.mp hsecond
  rw [h.eq_of_index_eq hsecond hfirst hindex, hrequired] at hleft
  exact absurd hleft Bool.false_ne_true

end Distinct

/-- The members of a builder by their indexes. -/
def roster (members : MemberList) (h : members.Distinct) : Roster where
  mandatory := members.mandatoryIndexes
  optional := members.optionalIndexes
  nodup := by
    refine List.Nodup.append ?_ ?_ h.disjoint_indexes
    · exact h.ascending_mandatoryIndexes.imp Nat.ne_of_lt
    · exact h.ascending_optionalIndexes.imp Nat.ne_of_lt

end Typestate.MemberList
