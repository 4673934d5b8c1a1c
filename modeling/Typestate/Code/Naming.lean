import Typestate.Lattice.Basic

/-!
# Names of generated items

Every stage has a marker type and every member a trait. The marker of a stage is named after the
members that have been supplied, in upper camel case and in the order of their indexes.
-/

namespace Typestate

/-- The names of the items that are generated for one target. -/
structure Naming where
  /-- The visibility of the items, as tokens. -/
  visibility : List Token
  target : String
  builder : String
  stagesModule : String
  factory : String

namespace Naming

/-- The names for a target. -/
def ofTarget (target : Target) : Naming where
  visibility := ((Grammar.readVisibility? target.visibility).getD []).flatMap Grammar.Node.tokens
  target := target.name
  builder := target.builderName
  stagesModule := target.stagesModule
  factory := target.settings.factory

/-- The trait of stages. -/
def stageTrait : String := "Stage"

/-- The trait of stages in which a value can be built. -/
def canBuildTrait : String := "CanBuild"

/-- The marker of the stage in which nothing has been supplied. -/
def rootMarker : String := "Root"

/-- The marker of the stage in which nothing is left to supply. -/
def completeMarker : String := "Complete"

/-- The trait of stages in which a member can be supplied. -/
def memberTrait (member : Member) : String := "Add" ++ member.displayName

/-- The method that supplies a member. -/
def method (member : Member) : String := "add_" ++ member.name

/-- The marker of a stage. -/
def marker (key : StageKey) (members : MemberList) : String :=
  match key with
  | .complete => completeMarker
  | .after supplied =>
    if supplied.isEmpty then rootMarker
    else "Exclude_" ++ "_".intercalate ((supplied.members members).map Member.displayName)

end Naming

end Typestate
