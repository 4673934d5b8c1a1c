import Typestate.Lattice.Search
import Typestate.Target.Basic

/-!
# The lattice of stages

All stages that a builder can be in, as the search from the stage in which nothing has been supplied
finds them, and how a builder walks from one to the next.
-/

namespace Typestate

/-- All stages that a builder can be in. -/
structure Lattice where
  members : MemberList
  /-- The stages in which something is left to supply. -/
  found : Search
  /-- Where a builder begins. -/
  root : StageKey

namespace Lattice

/-- The lattice of the given members, which must differ in name, in upper camel case and in index
and must not have more stages than the limit. A flag may be attached to the search for its stages. -/
def buildUnder (members : MemberList) (limit : Nat) (flag : Option CancelFlag) :
    Except LatticeError Lattice :=
  match firstClash? [] members.toList with
  | some error => .error error
  | none => do
    let mandatory := members.mandatory.map Member.index
    let optional := members.optional.map Member.index
    let (root, found) ← Search.visit flag limit mandatory optional .empty .empty
    return ⟨members, found, root⟩

/-- The lattice of the given members, unless it has been called off. -/
def build (members : MemberList) (limit : Nat := defaultStageLimit) (cancelled : Bool := false) :
    Except LatticeError Lattice :=
  buildUnder members limit (CancelFlag.ofBool cancelled)

/-- The stages in which something is left to supply, in the order in which they are found. -/
def stages (lattice : Lattice) : List Stage := lattice.found.stages.toList

/-- The stage with the given key, if something is left to supply in it. -/
def stage? (lattice : Lattice) : StageKey → Option Stage
  | .after supplied => lattice.found.stage? supplied
  | .complete => none

/-- The steps between stages. -/
def edges (lattice : Lattice) : List Edge := lattice.stages.flatMap Stage.edges

/-- A value can be built here. -/
def canBuild (lattice : Lattice) : StageKey → Bool
  | .after supplied => (lattice.stage? (.after supplied)).any Stage.canBuild
  | .complete => true

/-- Where the builder stands after supplying a member, if it is offered. -/
def step (lattice : Lattice) (key : StageKey) (member : Nat) : Option StageKey := do
  let stage ← lattice.stage? key
  let edge ← stage.edge? member
  return edge.target

/-- Where the builder stands after supplying members one after another from the beginning. -/
def walk (lattice : Lattice) (path : List Nat) : Option StageKey :=
  path.foldlM lattice.step lattice.root

end Lattice

end Typestate
