import Typestate.Member.List

/-!
# Targets

A target is a type for which a builder is generated: its name and visibility, how a value of it is
made, the members of the builder, the fields that the builder leaves alone, and how the generated
items are called.
-/

namespace Typestate

/-- What a name in the description of a target is for. -/
inductive NameRole where
  | target | factory | builder | stagesModule
  deriving DecidableEq, Repr

/-- What a name is for, in words. -/
def NameRole.text : NameRole → String
  | .target => "target"
  | .factory => "factory"
  | .builder => "builder"
  | .stagesModule => "stages module"

/-- Why no constructor of a target can be called. -/
inductive ConstructorFault where
  /-- There are arguments for a constructor, but no constructor. -/
  | undesignated
  | enumeration
  | union
  | generic
  deriving DecidableEq, Repr

/-- The fault of a constructor in words. -/
def ConstructorFault.message : ConstructorFault → String
  | .undesignated => "constructor arguments declared without a designated constructor"
  | .enumeration => "enums have no single constructor"
  | .union => "unions are not supported"
  | .generic => "generic targets are not supported"

/-- Why there is no such target. -/
inductive TargetError where
  | invalidName (role : NameRole) (name : String)
  | malformedConstructor (path : String)
  | malformedVisibility (visibility : String)
  | unresolvedConstructor (target : String) (fault : ConstructorFault)
  deriving DecidableEq, Repr

/-- The error in words. -/
def TargetError.message : TargetError → String
  | .invalidName role name => "invalid " ++ role.text ++ " identifier '" ++ name ++ "'"
  | .malformedConstructor path =>
    "malformed constructor path '" ++ path ++ "' (" ++ refusal ++ ")"
  | .malformedVisibility visibility => "malformed visibility '" ++ visibility ++ "'"
  | .unresolvedConstructor target fault =>
    "cannot resolve a usable constructor for '" ++ target ++ "': " ++ fault.message

/-- How a value of the target is made. -/
inductive Construction where
  /-- By naming each of its fields. -/
  | literal
  /-- By calling a function, given by its path. -/
  | function (path : String)
  deriving DecidableEq, Repr

/-- A field that the builder leaves alone. A constructor sets it by itself; otherwise it gets its
default. -/
structure FixedField where
  reference : String
  default : DefaultText
  deriving DecidableEq, Repr

/-- The number of stages that a builder may have if nothing else is said. -/
def defaultStageLimit : Nat := 4096

/-- How the generated items are called, and how many stages they may have. -/
structure Settings where
  /-- The function of the target that begins a builder. -/
  factory : String := "builder"
  /-- The type of the builder, if it is named. -/
  builderName : Option String := none
  /-- The module of the stages, if it is named. -/
  stagesModule : Option String := none
  stageLimit : Nat := defaultStageLimit
  deriving DecidableEq, Repr

/-- A type for which a builder is generated. -/
structure Target where
  name : String
  visibility : String
  construction : Construction
  members : MemberList
  fixed : List FixedField
  settings : Settings

namespace Target

/-- The name of the type of the builder. -/
def builderName (target : Target) : String :=
  target.settings.builderName.getD (target.name ++ "Builder")

/-- The name of the module of the stages. -/
def stagesModule (target : Target) : String :=
  target.settings.stagesModule.getD (Text.snakeCase target.name ++ "_builder_stages")

end Target

end Typestate
