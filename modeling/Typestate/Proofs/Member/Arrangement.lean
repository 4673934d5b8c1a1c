import Mathlib.Data.List.Nodup
import Mathlib.Data.List.Pairwise
import Typestate.Lattice.Basic

/-!
# Arrangements of members

A list of members is the given members in ascending order of their indexes, and in the order in
which they were given where the indexes are equal. The search by halves finds the last member of an
index. If the indexes are distinct, there is only one such arrangement, so the order in which the
members were given does not matter.
-/

namespace Typestate

namespace MemberList

variable {members : List Member} {index : ℕ}

/-- The members of an index, in order. -/
def ofIndex (index : ℕ) (members : List Member) : List Member :=
  members.filter fun member => member.index == index

@[simp] theorem mem_ofIndex {member : Member} :
    member ∈ ofIndex index members ↔ member ∈ members ∧ member.index = index := by
  simp [ofIndex]

theorem ofIndex_append (before after : List Member) :
    ofIndex index (before ++ after) = ofIndex index before ++ ofIndex index after :=
  List.filter_append before after

/-! ### Sorting -/

/-- The members are the given ones. -/
theorem perm_ofList (members : List Member) : (ofList members).toList.Perm members :=
  List.mergeSort_perm members _

/-- Members of one index keep their order. -/
theorem ofIndex_ofList (index : ℕ) (members : List Member) :
    ofIndex index (ofList members).toList = ofIndex index members := by
  have hsame : (ofIndex index members).Pairwise
      fun first second => decide (first.index ≤ second.index) = true := by
    refine List.pairwise_of_forall_mem_list fun first hfirst second hsecond => ?_
    rw [(mem_ofIndex.mp hfirst).2, (mem_ofIndex.mp hsecond).2]
    exact decide_eq_true (Nat.le_refl index)
  have hsublist : (ofIndex index members).Sublist (ofList members).toList := by
    refine List.sublist_mergeSort ?_ ?_ hsame List.filter_sublist
    · intro first second third
      simp only [decide_eq_true_eq]
      omega
    · intro first second
      simp only [Bool.or_eq_true, decide_eq_true_eq]
      omega
  have hkept : (ofIndex index members).Sublist (ofIndex index (ofList members).toList) := by
    have hfiltered := hsublist.filter fun member => member.index == index
    simpa only [ofIndex, List.filter_filter, Bool.and_self] using hfiltered
  exact (hkept.eq_of_length ((perm_ofList members).filter _).length_eq.symm).symm

/-- Members of distinct indexes have one arrangement only. -/
theorem ofList_eq_of_perm {others : List Member} (hperm : others.Perm members)
    (hdistinct : (members.map Member.index).Nodup) : ofList others = ofList members := by
  have hlists : (ofList others).toList = (ofList members).toList := by
    refine List.Perm.eq_of_pairwise ?_ (ofList others).sorted (ofList members).sorted
      ((perm_ofList others).trans (hperm.trans (perm_ofList members).symm))
    intro first second hfirst hsecond hle hge
    refine List.inj_on_of_nodup_map hdistinct ?_ ?_ (Nat.le_antisymm hle hge)
    · exact hperm.subset ((perm_ofList others).subset hfirst)
    · exact (perm_ofList members).subset hsecond
  calc
    ofList others = ⟨(ofList others).toList, (ofList others).sorted⟩ := rfl
    _ = ofList members := by simp only [hlists]

/-! ### Searching -/

/-- Before the middle of a sorted list a smaller index has all of its members. -/
theorem ofIndex_take {place : ℕ} (hplace : place < members.length)
    (hsorted : members.Pairwise fun first second => first.index ≤ second.index)
    (hless : index < members[place].index) :
    ofIndex index (members.take place) = ofIndex index members := by
  have hnone : ofIndex index (members.drop place) = [] := by
    refine List.eq_nil_iff_forall_not_mem.mpr fun member hmember => ?_
    obtain ⟨hdrop, rfl⟩ := mem_ofIndex.mp hmember
    obtain ⟨offset, hoffset, rfl⟩ := List.mem_drop_iff_getElem.mp hdrop
    rcases Nat.eq_zero_or_pos offset with rfl | hpositive
    · exact Nat.lt_irrefl _ hless
    · exact absurd hless (Nat.not_lt.mpr
        (List.pairwise_iff_getElem.mp hsorted place _ hplace (Nat.add_comm offset place ▸ hoffset) (by omega)))
  calc
    ofIndex index (members.take place) =
        ofIndex index (members.take place) ++ ofIndex index (members.drop place) := by
      rw [hnone, List.append_nil]
    _ = ofIndex index members := by rw [← ofIndex_append, List.take_append_drop]

/-- From the middle of a sorted list on stands the last member of an index that is not smaller, if
there is one at all. -/
theorem getLast?_ofIndex_drop {place : ℕ} (hplace : place < members.length)
    (hsorted : members.Pairwise fun first second => first.index ≤ second.index)
    (hnot : ¬ index < members[place].index) :
    (ofIndex index (members.drop place)).getLast? = (ofIndex index members).getLast? := by
  have hparts : ofIndex index members =
      ofIndex index (members.take place) ++ ofIndex index (members.drop place) := by
    rw [← ofIndex_append, List.take_append_drop]
  rw [hparts, List.getLast?_append]
  cases hbefore : ofIndex index (members.take place) with
  | nil => simp
  | cons first rest =>
    -- A member of the index in the first half is at most the one in the middle, so that has the
    -- index, too.
    have hfirst : first ∈ ofIndex index (members.take place) := hbefore ▸ List.mem_cons_self
    obtain ⟨htake, hindex⟩ := mem_ofIndex.mp hfirst
    obtain ⟨before, hless, rfl⟩ := List.mem_take_iff_getElem.mp htake
    have hle := List.pairwise_iff_getElem.mp hsorted before place (by omega) hplace (by omega)
    have hmiddle : members[place] ∈ ofIndex index (members.drop place) :=
      mem_ofIndex.mpr ⟨List.mem_drop_iff_getElem.mpr ⟨0, by omega, rfl⟩, by omega⟩
    obtain ⟨last, hlast⟩ := Option.isSome_iff_exists.mp
      (List.getLast?_isSome.mpr (List.ne_nil_of_mem hmiddle))
    rw [hlast, Option.some_or]

/-- The search by halves of a sorted list finds the last member of the index. -/
theorem search_eq_getLast? (index : ℕ) (members : List Member)
    (hsorted : members.Pairwise fun first second => first.index ≤ second.index) :
    search index members = (ofIndex index members).getLast? := by
  induction hlength : members.length using Nat.strongRecOn generalizing members with
  | ind length ih =>
    subst hlength
    unfold search
    by_cases hlong : 2 ≤ members.length
    · have hplace : members.length / 2 < members.length := by omega
      rw [dif_pos hlong]
      by_cases hless : index < members[members.length / 2].index
      · have hshorter : (members.take (members.length / 2)).length < members.length := by
          rw [List.length_take]
          omega
        rw [if_pos hless, ih _ hshorter _ (hsorted.sublist (List.take_sublist _ _)) rfl,
          ofIndex_take hplace hsorted hless]
      · have hshorter : (members.drop (members.length / 2)).length < members.length := by
          rw [List.length_drop]
          omega
        rw [if_neg hless, ih _ hshorter _ (hsorted.sublist (List.drop_sublist _ _)) rfl,
          getLast?_ofIndex_drop hplace hsorted hless]
    · rw [dif_neg hlong]
      rcases members with _ | ⟨only, _ | ⟨next, rest⟩⟩
      · rfl
      · cases hindex : only.index == index with
        | true => simp [ofIndex, hindex]
        | false => simp [ofIndex, hindex]
      · exact absurd (by simp) hlong

/-- What is found for an index is the last of the given members that have it. -/
theorem get?_ofList (index : ℕ) (members : List Member) :
    (ofList members).get? index = (ofIndex index members).getLast? := by
  rw [get?, search_eq_getLast? index _ (ofList members).sorted, ofIndex_ofList]

/-- A member is found for an index exactly if one has it. -/
theorem isSome_get?_ofList :
    ((ofList members).get? index).isSome = true ↔ ∃ member ∈ members, member.index = index := by
  rw [get?_ofList, List.getLast?_isSome, ← List.isEmpty_eq_false_iff,
    List.isEmpty_eq_false_iff_exists_mem]
  exact exists_congr fun member => mem_ofIndex

/-- What is found for an index has it. -/
theorem mem_of_get?_ofList {member : Member} (h : (ofList members).get? index = some member) :
    member ∈ members ∧ member.index = index := by
  rw [get?_ofList] at h
  exact mem_ofIndex.mp (List.mem_of_getLast? h)

/-- Of distinct indexes each has at most one member. -/
theorem length_ofIndex_le (index : ℕ) (hdistinct : (members.map Member.index).Nodup) :
    (ofIndex index members).length ≤ 1 := by
  have hcount := List.nodup_iff_count_le_one.mp hdistinct index
  rwa [List.count, List.countP_map, List.countP_eq_length_filter] at hcount

/-- Among members of distinct indexes, what is found for an index is what a search from the first
member on finds. -/
theorem get?_ofList_eq_find? (hdistinct : (members.map Member.index).Nodup) :
    (ofList members).get? index = members.find? fun member => member.index == index := by
  rw [get?_ofList, ← List.head?_filter, ← ofIndex]
  have hshort := length_ofIndex_le index hdistinct
  rcases hparts : ofIndex index members with _ | ⟨only, _ | ⟨next, rest⟩⟩
  · rfl
  · rfl
  · rw [hparts] at hshort
    simp at hshort

/-- **Members in order.** A list of members holds the given members, whatever their indexes are, in
ascending order and in the given order where the indexes are equal. For an index the last of the
given members that have it is found, so one is found exactly if there is one, as by a search from
the first member on, which finds the same one if the indexes are distinct. In this case any other
arrangement of the members gives the same list, and so the same lattice or the same refusal. -/
theorem ofList_spec (members : List Member) :
    (ofList members).toList.Perm members ∧
      (ofList members).toList.Pairwise (fun first second => first.index ≤ second.index) ∧
      (∀ index : ℕ, (ofList members).toList.filter (fun member => member.index == index) =
        members.filter fun member => member.index == index) ∧
      (∀ index : ℕ, ((ofList members).get? index).isSome = true ↔
        ∃ member ∈ members, member.index = index) ∧
      (∀ (index : ℕ) (member : Member), (ofList members).get? index = some member →
        member ∈ members ∧ member.index = index) ∧
      (∀ index : ℕ, (ofList members).get? index =
        (members.filter fun member => member.index == index).getLast?) ∧
      (∀ index : ℕ, ((ofList members).get? index).isSome =
        (members.find? fun member => member.index == index).isSome) ∧
      ((members.map Member.index).Nodup →
        (∀ index : ℕ, (ofList members).get? index =
          members.find? fun member => member.index == index) ∧
        ∀ others : List Member, others.Perm members → ofList others = ofList members ∧
          ∀ (limit : ℕ) (flag : Option CancelFlag),
            Lattice.buildUnder (ofList others) limit flag =
              Lattice.buildUnder (ofList members) limit flag) := by
  refine ⟨perm_ofList members, (ofList members).sorted, fun index => ofIndex_ofList index members,
    fun index => isSome_get?_ofList, fun index member => mem_of_get?_ofList,
    fun index => get?_ofList index members, fun index => ?_, fun hdistinct => ⟨fun index =>
      get?_ofList_eq_find? hdistinct, fun others hperm => ?_⟩⟩
  · rw [Bool.eq_iff_iff, isSome_get?_ofList, List.find?_isSome]
    exact exists_congr fun member => and_congr_right fun _ => beq_iff_eq.symm
  · have hsame := ofList_eq_of_perm hperm hdistinct
    exact ⟨hsame, fun limit flag => by rw [hsame]⟩

/-- Members that are given from the last to the first. -/
def reversedMembers : List Member :=
  [⟨"tail", "Tail", ⟨"u8"⟩, false, 40, .provided, .field "tail"⟩,
    ⟨"body", "Body", ⟨"u8"⟩, true, 7, .provided, .field "body"⟩,
    ⟨"head", "Head", ⟨"u8"⟩, true, 0, .provided, .argument⟩]

/-- The same members from the first to the last give the same list and the same lattice. -/
theorem ofList_spec_reversedMembers :
    (reversedMembers.map Member.index).Nodup ∧
      (ofList reversedMembers).get? 7 = reversedMembers[1]? ∧
      reversedMembers.reverse.Perm reversedMembers ∧
      ofList reversedMembers.reverse = ofList reversedMembers ∧
      Lattice.buildUnder (ofList reversedMembers.reverse) 9 none =
        Lattice.buildUnder (ofList reversedMembers) 9 none := by
  have hdistinct : (reversedMembers.map Member.index).Nodup := by decide
  obtain ⟨-, -, -, -, -, -, -, hspec⟩ := ofList_spec reversedMembers
  obtain ⟨hfind, hothers⟩ := hspec hdistinct
  obtain ⟨hlist, hbuild⟩ := hothers _ (List.reverse_perm reversedMembers)
  exact ⟨hdistinct, hfind 7, List.reverse_perm reversedMembers, hlist, hbuild 9 none⟩

end MemberList

end Typestate
