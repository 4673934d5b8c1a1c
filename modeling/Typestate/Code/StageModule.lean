import Typestate.Code.Naming

/-!
# The module of stages

The first generated item: the traits of stages, a trait for each member whose associated type is
the stage after it, and a marker type for each stage.
-/

namespace Typestate

open Token

/-- The trait of stages in which a member can be supplied. -/
structure MemberTrait where
  name : String
  member : String
  deriving DecidableEq, Repr

/-- A stage as a type. -/
structure StageMarker where
  name : String
  /-- The names of the members that have been supplied. -/
  supplied : List String
  canBuild : Bool
  /-- For each member that can be supplied its trait and the marker of the stage after it. -/
  transitions : List (String × String)
  deriving DecidableEq, Repr

/-- The module of the stages of one target. -/
structure StageModule where
  visibility : List Token
  name : String
  target : String
  traits : List MemberTrait
  markers : List StageMarker

/-- The trait of a member. -/
def MemberTrait.ofMember (member : Member) : MemberTrait :=
  ⟨Naming.memberTrait member, member.name⟩

/-- The trait of a member, as tokens. -/
def MemberTrait.tokens (item : MemberTrait) : List Token :=
  doc ("Stages that still accept `" ++ item.member ++ "`.") ++
    phrase "pub trait" ++ [.word item.name] ++ phrase ":" ++ [.word Naming.stageTrait] ++
    [braces (phrase "type Next :" ++ [.word Naming.stageTrait] ++ phrase ";")]

namespace StageMarker

/-- A step out of a stage: the trait of its member and the marker of its target. -/
def transition? (members : MemberList) (edge : Edge) : Option (String × String) :=
  (members.get? edge.member).map fun member =>
    (Naming.memberTrait member, Naming.marker edge.target members)

/-- A stage as a type. -/
def ofStage (members : MemberList) (stage : Stage) : StageMarker where
  name := Naming.marker stage.key members
  supplied := (stage.supplied.members members).map Member.name
  canBuild := stage.canBuild
  transitions := stage.edges.filterMap (transition? members)

/-- What the documentation of a marker says. -/
def summary (item : StageMarker) : String :=
  if item.supplied.isEmpty then "Nothing supplied yet."
  else "Supplied so far: " ++
    ", ".intercalate (item.supplied.map fun name => "`" ++ name ++ "`") ++ "."

/-- The implementation of a trait without items, as tokens. -/
def implementation (implemented name : String) : List Token :=
  [.word "impl", .word implemented, .word "for", .word name, braces []]

/-- The implementation of the trait of a member, as tokens. -/
def transitionTokens (name : String) (step : String × String) : List Token :=
  [.word "impl", .word step.1, .word "for", .word name,
    braces (phrase "type Next =" ++ [.word step.2] ++ phrase ";")]

/-- A stage as a type, as tokens. -/
def tokens (item : StageMarker) : List Token :=
  doc item.summary ++ phrase "pub enum" ++ [.word item.name, braces []] ++
    implementation Naming.stageTrait item.name ++
    (if item.canBuild then implementation Naming.canBuildTrait item.name else []) ++
    item.transitions.flatMap (transitionTokens item.name)

end StageMarker

namespace StageModule

/-- The module of the stages of a lattice. -/
def ofLattice (target : Target) (naming : Naming) (lattice : Lattice) : StageModule where
  visibility := naming.visibility
  name := naming.stagesModule
  target := target.name
  traits := lattice.members.toList.map .ofMember
  markers := lattice.stages.map (.ofStage lattice.members)

/-- What stands in the module, as tokens. -/
def body (item : StageModule) : List Token :=
  doc ("Implemented by every stage of the `" ++ item.target ++ "` builder.") ++
    phrase "pub trait" ++ [.word Naming.stageTrait, braces []] ++
    doc "Stages in which `build` is available." ++
    phrase "pub trait" ++ [.word Naming.canBuildTrait] ++ phrase ":" ++
    [.word Naming.stageTrait, braces []] ++
    item.traits.flatMap MemberTrait.tokens ++
    doc "Every member supplied; only `build` remains." ++
    phrase "pub enum" ++ [.word Naming.completeMarker, braces []] ++
    StageMarker.implementation Naming.stageTrait Naming.completeMarker ++
    StageMarker.implementation Naming.canBuildTrait Naming.completeMarker ++
    item.markers.flatMap StageMarker.tokens

/-- The module, as tokens. -/
def tokens (item : StageModule) : List Token :=
  doc ("Stage types of the `" ++ item.target ++ "` builder.") ++
    phrase "#" ++
    [brackets (phrase "allow" ++ [parens (phrase "dead_code , non_camel_case_types")])] ++
    item.visibility ++ phrase "mod" ++ [.word item.name, braces item.body]

end StageModule

end Typestate
