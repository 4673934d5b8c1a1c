import Typestate.Lattice.Basic

/-!
# Calling a search off

A search looks at its flag whenever it arrives at a set, before it looks at anything else. So a
search that is called off finds nothing, whatever its members and its limit are, and a flag that is
attached but not set changes no step of a search.
-/

namespace Typestate

/-- Nothing calls a search off exactly if no flag is attached to it that is set. -/
theorem CancelFlag.stops_eq_false {flag : Option CancelFlag} :
    stops flag = false ↔ ∀ attached ∈ flag, attached.isSet = false := by
  cases flag with
  | none => simp
  | some attached => simp

namespace Search

variable {flag : Option CancelFlag} {limit : Nat}

/-- A search that is called off fails at the first set, even if nothing is left to supply there or
the limit has been reached. -/
theorem visit_of_stops (h : CancelFlag.stops flag = true) (mandatory optional : List Nat)
    (supplied : IndexSet) (search : Search) :
    visit flag limit mandatory optional supplied search = .error .cancelled := by
  rw [visit, if_pos h]

/-- A flag that is not set changes no step of a search. -/
theorem of_not_stops (h : CancelFlag.stops flag = false) :
    (∀ mandatory optional supplied search,
      visit flag limit mandatory optional supplied search =
        visit none limit mandatory optional supplied search) ∧
    ∀ waiting supplied passed next search,
      takeSteps flag limit waiting supplied passed next search =
        takeSteps none limit waiting supplied passed next search := by
  apply visit.mutual_induct flag limit
  case case1 =>
    intro mandatory optional supplied search hstops
    exact absurd (h.symm.trans hstops) Bool.false_ne_true
  case case2 =>
    intro mandatory optional supplied search _ hnothing
    simp [visit, h, -Bool.and_eq_true, hnothing]
  case case3 =>
    intro mandatory optional supplied search _ _ hknows
    simp [visit, h, hknows]
  case case4 =>
    intro mandatory optional supplied search _ _ _ hfull
    simp [visit, h, hfull]
  case case5 =>
    intro mandatory optional supplied search _ _ _ _ entered hnone ih
    simp [visit, h, hnone, ← ih, entered]
  case case6 =>
    intro mandatory optional supplied search _ _ _ _ entered hsome ih
    simp [visit, h, hsome, ← ih, entered]
  case case7 =>
    intro waiting supplied passed search
    rw [takeSteps, takeSteps]
  case case8 =>
    intro supplied passed member later search optional ihLater ihMember
    rw [takeSteps, takeSteps]
    simp only [ihLater, ihMember]
  case case9 =>
    intro supplied passed member later search ihLater ihMember
    rw [takeSteps, takeSteps]
    simp only [ihLater, ihMember]

end Search

namespace Lattice

variable {members : MemberList} {limit : Nat} {flag : Option CancelFlag}

/-- A flag that is not set leaves the lattice as it is without a flag. -/
theorem buildUnder_of_not_stops (h : CancelFlag.stops flag = false) :
    buildUnder members limit flag = build members limit := by
  unfold build buildUnder
  simp only [(Search.of_not_stops h).1]
  rfl

/-- A search that is called off answers with a clash of the members, if there is one. -/
theorem buildUnder_of_stops (h : CancelFlag.stops flag = true) :
    buildUnder members limit flag =
      .error ((firstClash? [] members.toList).getD .cancelled) := by
  unfold buildUnder
  cases firstClash? [] members.toList with
  | some error => rfl
  | none =>
    simp only [Search.visit_of_stops h]
    rfl

end Lattice

end Typestate
