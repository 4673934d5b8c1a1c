import Typestate.Error

/-!
# Drafts

A draft describes a target before anything has been looked at. Finishing it checks all texts, gives
the members their indexes, arguments first, and drops the fields that an argument of the same name
stands for. The first fault found is the answer; the order of the checks is fixed.
-/

namespace Typestate

/-- A member as it is described. -/
structure MemberDraft where
  name : String
  type : String
  fallback : Fallback
  deriving DecidableEq, Repr

/-- A member that ends up in a field, as it is described. -/
structure FieldDraft where
  member : MemberDraft
  /-- The name or the index of the field. -/
  reference : String
  deriving DecidableEq, Repr

/-- A field that the builder leaves alone, as it is described. -/
structure FixedDraft where
  reference : String
  /-- The text of the default, if there is one. -/
  default : Option String
  deriving DecidableEq, Repr

/-- A description of a target. -/
structure Draft where
  target : String
  visibility : String := ""
  constructor : Option String := none
  arguments : List MemberDraft := []
  fields : List FieldDraft := []
  fixed : List FixedDraft := []
  settings : Settings := {}
  deriving DecidableEq, Repr

namespace Draft

/-! ### Describing -/

/-- Say who may see the generated items. -/
def withVisibility (draft : Draft) (visibility : String) : Draft :=
  { draft with visibility := visibility }

/-- Designate the function that makes a value of the target. -/
def withConstructor (draft : Draft) (path : String) : Draft :=
  { draft with constructor := some path }

/-- Say how the generated items are called. -/
def withSettings (draft : Draft) (settings : Settings) : Draft :=
  { draft with settings := settings }

/-- Add an argument of the constructor. -/
def addArgument (draft : Draft) (argument : MemberDraft) : Draft :=
  { draft with arguments := draft.arguments ++ [argument] }

/-- Add a member that ends up in a field. -/
def addField (draft : Draft) (field : FieldDraft) : Draft :=
  { draft with fields := draft.fields ++ [field] }

/-- Add a field that the builder leaves alone. -/
def addFixed (draft : Draft) (field : FixedDraft) : Draft :=
  { draft with fixed := draft.fixed ++ [field] }

/-! ### Finishing -/

/-- A name has to be an identifier. -/
def checkName (role : NameRole) (name : String) : Except TargetError Unit :=
  if isIdentifierText name then .ok () else .error (.invalidName role name)

/-- A name has to be an identifier, if there is one. -/
def checkName? (role : NameRole) : Option String → Except TargetError Unit
  | some name => checkName role name
  | none => .ok ()

/-- The visibility has to be one. -/
def checkVisibility (text : String) : Except TargetError Unit :=
  match Grammar.readVisibility? text with
  | some _ => .ok ()
  | none => .error (.malformedVisibility text)

/-- How a value of the target is made. Arguments ask for a constructor. -/
def construction (draft : Draft) : Except TargetError Construction :=
  match draft.constructor with
  | some path =>
    match Grammar.readPath? path with
    | some _ => .ok (.function path)
    | none => .error (.malformedConstructor path)
  | none =>
    if draft.arguments.isEmpty then .ok .literal
    else .error (.unresolvedConstructor draft.target .undesignated)

/-- The checks before the members are looked at. -/
def checkHeader (draft : Draft) : Except TargetError Construction := do
  checkName .target draft.target
  checkName .factory draft.settings.factory
  checkName? .builder draft.settings.builderName
  checkName? .stagesModule draft.settings.stagesModule
  checkVisibility draft.visibility
  draft.construction

/-- An argument stands for the field. -/
def isShadowed (draft : Draft) (field : FieldDraft) : Bool :=
  draft.arguments.any fun argument => argument.name == field.member.name

/-- The fields that no argument stands for. -/
def ownFields (draft : Draft) : List FieldDraft :=
  draft.fields.filter fun field => !draft.isShadowed field

/-- The member that an argument describes. -/
def argumentMember (argument : MemberDraft) (index : Nat) : Except MemberError Member :=
  Member.make argument.name argument.type argument.fallback index .argument

/-- The member that a field describes. The reference to the field is looked at first. -/
def fieldMember (field : FieldDraft) (index : Nat) : Except MemberError Member := do
  let origin ← Origin.ofField field.member.name field.reference
  Member.make field.member.name field.member.type field.member.fallback index origin

/-- Members made one after another, with indexes from a first one on. -/
def number {α : Type} (make : α → Nat → Except MemberError Member) (first : Nat) :
    List α → Except MemberError (List Member)
  | [] => .ok []
  | draft :: rest => do
    let member ← make draft first
    return member :: (← number make (first + 1) rest)

/-- A field that the builder leaves alone, with its default. -/
def fixedField (field : FixedDraft) : Except MemberError FixedField := do
  let _ ← Origin.ofField field.reference field.reference
  match field.default with
  | some text => return ⟨field.reference, ← DefaultText.read field.reference text⟩
  | none => return ⟨field.reference, .provided⟩

/-- The members of the target, arguments first. -/
def members (draft : Draft) : Except MemberError (List Member) := do
  let arguments ← number argumentMember 0 draft.arguments
  let fields ← number fieldMember draft.arguments.length draft.ownFields
  return arguments ++ fields

/-- The target that is described, if nothing is wrong with it. -/
def finish (draft : Draft) : Except Error Target := do
  let construction ← Error.ofTarget draft.checkHeader
  let members ← Error.ofMember draft.members
  let fixed ← Error.ofMember (draft.fixed.mapM fixedField)
  return {
    name := draft.target
    visibility := draft.visibility
    construction := construction
    members := .ofList members
    fixed := fixed
    settings := draft.settings }

end Draft

end Typestate
