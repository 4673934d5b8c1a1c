import Typestate.Lattice.Basic

/-!
# Errors

The three kinds of errors under one type.
-/

namespace Typestate

/-- An error of any kind. -/
inductive Error where
  | lattice (error : LatticeError)
  | member (error : MemberError)
  | target (error : TargetError)
  deriving DecidableEq, Repr

namespace Error

/-- The error in words. -/
def message : Error → String
  | .lattice error => error.message
  | .member error => error.message
  | .target error => error.message

/-- The names of the members that the error is about. -/
def members : Error → List String
  | .lattice error => error.members
  | .member error => [error.member]
  | .target _ => []

/-- An error about a member as an error of any kind. -/
def ofMember {α : Type} : Except MemberError α → Except Error α := Except.mapError .member

/-- An error about a target as an error of any kind. -/
def ofTarget {α : Type} : Except TargetError α → Except Error α := Except.mapError .target

/-- An error about a lattice as an error of any kind. -/
def ofLattice {α : Type} : Except LatticeError α → Except Error α := Except.mapError .lattice

end Error

end Typestate
