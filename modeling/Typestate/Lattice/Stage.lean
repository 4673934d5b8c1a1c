import Typestate.Lattice.IndexSet

/-!
# Stages

A stage of a builder is known by the set of members that have been supplied, never by the order in
which they were. As long as a mandatory member is missing, mandatory members are offered; then the
optional ones are, and the value can be built. Where nothing is left to supply the builder is
complete.
-/

namespace Typestate

/-- Where a builder stands. -/
inductive StageKey where
  /-- Something is left to supply after the given members. -/
  | after (supplied : IndexSet)
  /-- Nothing is left to supply. -/
  | complete
  deriving DecidableEq

namespace StageKey

/-- Where a builder stands that has been supplied nothing. -/
def root : StageKey := .after .empty

/-- Nothing is left to supply. -/
def isComplete : StageKey → Bool
  | .after _ => false
  | .complete => true

/-- Nothing has been supplied, and something is left to. -/
def isRoot : StageKey → Bool
  | .after supplied => supplied.isEmpty
  | .complete => false

end StageKey

/-- The step from one stage to the next by which a member is supplied. -/
structure Edge where
  source : StageKey
  member : Nat
  target : StageKey
  deriving DecidableEq

/-- A stage in which something is left to supply. -/
structure Stage where
  supplied : IndexSet
  /-- The mandatory members that are left, in ascending order. -/
  mandatory : List Nat
  /-- The optional members that are left, in ascending order. -/
  optional : List Nat
  /-- The steps out of the stage, in the order in which members are offered. -/
  edges : List Edge
  deriving DecidableEq

namespace Stage

/-- The key of the stage. -/
def key (stage : Stage) : StageKey := .after stage.supplied

/-- No mandatory member is left. -/
def canBuild (stage : Stage) : Bool := stage.mandatory.isEmpty

/-- Nothing has been supplied. -/
def isRoot (stage : Stage) : Bool := stage.supplied.isEmpty

/-- The members that can be supplied next: mandatory ones as long as there are any. -/
def offered (stage : Stage) : List Nat :=
  if stage.mandatory.isEmpty then stage.optional else stage.mandatory

/-- The step out of the stage that supplies the given member. -/
def edge? (stage : Stage) (member : Nat) : Option Edge :=
  stage.edges.find? fun edge => edge.member == member

end Stage

end Typestate
