import Std.Data.TreeMap
import Typestate.Member.List

/-!
# Sets of members

A set of members is held by their indexes, in ascending order and without repetition, so equal
sets are equal as values whatever order their members arrived in.
-/

namespace Typestate

/-- A set of indexes of members. -/
structure IndexSet where
  /-- The indexes in ascending order. -/
  toList : List Nat
  ascending : toList.Pairwise (· < ·)
  deriving DecidableEq

namespace IndexSet

instance : Membership Nat IndexSet where
  mem set index := index ∈ set.toList

instance (index : Nat) (set : IndexSet) : Decidable (index ∈ set) :=
  inferInstanceAs (Decidable (index ∈ set.toList))

/-- Put an index into its place in an ascending list. -/
def insertInto (index : Nat) : List Nat → List Nat
  | [] => [index]
  | first :: rest =>
    if index < first then index :: first :: rest
    else if index = first then first :: rest
    else first :: insertInto index rest

/-- Insertion adds the index and nothing else. -/
theorem mem_insertInto {index other : Nat} {list : List Nat} :
    other ∈ insertInto index list ↔ other = index ∨ other ∈ list := by
  induction list with
  | nil => simp [insertInto]
  | cons first rest ih =>
    unfold insertInto
    split
    · simp
    · split
      · rename_i equal
        simp only [List.mem_cons, equal]
        constructor
        · exact Or.inr
        · intro hcases
          rcases hcases with h | h
          · exact Or.inl h
          · exact h
      · simp only [List.mem_cons, ih]
        exact or_left_comm

/-- Insertion keeps a list ascending. -/
theorem ascending_insertInto {index : Nat} {list : List Nat} (ascending : list.Pairwise (· < ·)) :
    (insertInto index list).Pairwise (· < ·) := by
  induction list with
  | nil => simp [insertInto]
  | cons first rest ih =>
    obtain ⟨above, ascending⟩ := List.pairwise_cons.1 ascending
    unfold insertInto
    split
    · rename_i less
      refine List.pairwise_cons.2 ⟨fun other member => ?_, List.pairwise_cons.2 ⟨above, ascending⟩⟩
      rcases List.mem_cons.1 member with rfl | member
      · exact less
      · exact Nat.lt_trans less (above other member)
    · split
      · exact List.pairwise_cons.2 ⟨above, ascending⟩
      · refine List.pairwise_cons.2 ⟨fun other member => ?_, ih ascending⟩
        rcases mem_insertInto.1 member with rfl | member
        · omega
        · exact above other member

/-- The set without members. -/
def empty : IndexSet := ⟨[], List.Pairwise.nil⟩

/-- The set with one more member. -/
def insert (set : IndexSet) (index : Nat) : IndexSet :=
  ⟨insertInto index set.toList, ascending_insertInto set.ascending⟩

/-- The set of the given members. -/
def ofList (indexes : List Nat) : IndexSet := indexes.foldl insert empty

/-- The set has the given member. -/
def contains (set : IndexSet) (index : Nat) : Bool := set.toList.contains index

/-- The number of members. -/
def size (set : IndexSet) : Nat := set.toList.length

/-- The set has no members. -/
def isEmpty (set : IndexSet) : Bool := set.toList.isEmpty

/-- The order of the sets, by their ascending lists. -/
def compare (first second : IndexSet) : Ordering := Ord.compare first.toList second.toList

/-- The members of the set, as far as the list knows them. -/
def members (set : IndexSet) (list : MemberList) : List Member := set.toList.filterMap list.get?

/-- The identity of the set: the names of its members in the order of their indexes. -/
def canonical (set : IndexSet) (list : MemberList) : String :=
  "_".intercalate ((set.members list).map Member.name)

/-! ### Membership -/

/-- A set is its ascending list. -/
theorem eq_of_toList_eq {first second : IndexSet} (h : first.toList = second.toList) :
    first = second := by
  cases first
  cases second
  simp only at h
  subst h
  rfl

/-- No member is repeated. -/
theorem nodup (set : IndexSet) : set.toList.Nodup := set.ascending.imp Nat.ne_of_lt

/-- Sets with the same members are equal. -/
theorem ext {first second : IndexSet} (h : ∀ index, index ∈ first ↔ index ∈ second) :
    first = second := by
  have hperm : first.toList.Perm second.toList :=
    (List.perm_ext_iff_of_nodup first.nodup second.nodup).mpr h
  exact eq_of_toList_eq <| hperm.eq_of_pairwise
    (fun _ _ _ _ hless hmore => absurd hmore (Nat.lt_asymm hless)) first.ascending second.ascending

@[simp] theorem mem_toList {set : IndexSet} {index : Nat} : index ∈ set.toList ↔ index ∈ set :=
  Iff.rfl

@[simp] theorem contains_eq_true {set : IndexSet} {index : Nat} :
    set.contains index = true ↔ index ∈ set := by
  simp [contains]

@[simp] theorem contains_eq_false {set : IndexSet} {index : Nat} :
    set.contains index = false ↔ index ∉ set := by
  rw [← contains_eq_true, Bool.not_eq_true]

@[simp] theorem not_mem_empty {index : Nat} : index ∉ empty := List.not_mem_nil

/-- A set with one more member has that member and those it had. -/
@[simp] theorem mem_insert {set : IndexSet} {index other : Nat} :
    other ∈ set.insert index ↔ other = index ∨ other ∈ set := mem_insertInto

/-- Putting a member in is adding it at the end of the list of members. -/
theorem ofList_concat (indexes : List Nat) (index : Nat) :
    ofList (indexes ++ [index]) = (ofList indexes).insert index := by
  simp [ofList]

/-- The set of a list has the members of the list. -/
@[simp] theorem mem_ofList {indexes : List Nat} {index : Nat} :
    index ∈ ofList indexes ↔ index ∈ indexes := by
  suffices h : ∀ set : IndexSet, index ∈ indexes.foldl insert set ↔ index ∈ set ∨ index ∈ indexes by
    simpa only [ofList, not_mem_empty, false_or] using h empty
  induction indexes with
  | nil => simp
  | cons first rest ih =>
    intro set
    rw [List.foldl_cons, ih, mem_insert, List.mem_cons]
    constructor
    · intro hcases
      rcases hcases with (h | h) | h
      · exact Or.inr (Or.inl h)
      · exact Or.inl h
      · exact Or.inr (Or.inr h)
    · intro hcases
      rcases hcases with h | h | h
      · exact Or.inl (Or.inr h)
      · exact Or.inl (Or.inl h)
      · exact Or.inr h

/-- Lists with the same members have the same set, whatever their order. -/
theorem ofList_congr {first second : List Nat} (h : ∀ index, index ∈ first ↔ index ∈ second) :
    ofList first = ofList second :=
  ext fun index => by rw [mem_ofList, mem_ofList, h]

@[simp] theorem isEmpty_eq_true {set : IndexSet} : set.isEmpty = true ↔ set = empty := by
  constructor
  · intro h
    exact eq_of_toList_eq (List.isEmpty_iff.mp h)
  · intro hsame
    subst hsame
    rfl

/-! ### The order as a key -/

instance : Std.TransCmp compare where
  eq_swap := by
    intro first second
    exact Std.OrientedOrd.eq_swap
  isLE_trans := by
    intro first second third
    exact Std.TransOrd.isLE_trans

instance : Std.LawfulEqCmp compare where
  compare_self := by
    intro set
    exact Std.ReflOrd.compare_self
  eq_of_compare := by
    intro first second h
    exact eq_of_toList_eq (Std.LawfulEqOrd.eq_of_compare h)

end IndexSet

end Typestate
