import Typestate.Member.Basic

/-!
# Lists of members

The members of one builder in ascending order of their indexes. Members of the same index keep the
order in which they were given.
-/

namespace Typestate

/-- The members of one builder, in ascending order of their indexes. -/
structure MemberList where
  toList : List Member
  sorted : toList.Pairwise (fun first second => first.index ≤ second.index)

namespace MemberList

/-- Members in ascending order of their indexes. -/
def ofList (members : List Member) : MemberList where
  toList := members.mergeSort fun first second => first.index ≤ second.index
  sorted := by
    refine (List.pairwise_mergeSort ?_ ?_ members).imp fun {first second} before => ?_
    · intro first second third
      simp only [decide_eq_true_eq]
      omega
    · intro first second
      simp only [Bool.or_eq_true, decide_eq_true_eq]
      omega
    · exact of_decide_eq_true before

/-- The last member with the given index in a sorted list, found by halving the list. -/
def search (index : Nat) (members : List Member) : Option Member :=
  if h : 2 ≤ members.length then
    have : members.length / 2 < members.length := by omega
    if index < members[members.length / 2].index then
      search index (members.take (members.length / 2))
    else search index (members.drop (members.length / 2))
  else members.find? fun member => member.index == index
termination_by members.length
decreasing_by
  · simp only [List.length_take]; omega
  · simp only [List.length_drop]; omega

/-- The member with the given index; of several, the last one. -/
def get? (members : MemberList) (index : Nat) : Option Member := search index members.toList

/-- The first member of the given name. -/
def byName? (members : MemberList) (name : String) : Option Member :=
  members.toList.find? fun member => member.name == name

/-- The members that have to be supplied. -/
def mandatory (members : MemberList) : List Member := members.toList.filter Member.mandatory

/-- The members that may be left out. -/
def optional (members : MemberList) : List Member :=
  members.toList.filter fun member => !member.mandatory

/-- The arguments of the constructor. -/
def arguments (members : MemberList) : List Member :=
  members.toList.filter fun member => member.origin.isArgument

/-- The members that end up in fields, with the references to the fields. -/
def fields (members : MemberList) : List (Member × String) :=
  members.toList.filterMap fun member =>
    match member.origin with
    | .field reference => some (member, reference)
    | .argument => none

end MemberList

end Typestate
