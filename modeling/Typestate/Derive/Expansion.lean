import Typestate.Derive.Options
import Typestate.Generation
import Typestate.Target.Draft

/-!
# Expansion

From the declaration of a struct to its builder. Each field of the struct plays one part: an
argument of the constructor, a field that the builder leaves alone, or a member that ends up in the
field. Whatever is wrong is said in place of the generated items.
-/

namespace Typestate.Derive

open Grammar

/-- A field of a struct with its options and its place among the fields. -/
structure StructField where
  position : Nat
  /-- The name of the field; the fields of a tuple have none. -/
  name : Option String
  /-- The type of the field as text. -/
  type : String
  options : FieldOptions
  deriving DecidableEq, Repr

/-- A struct with its options. -/
structure Struct where
  name : String
  /-- The visibility of the struct as text. -/
  visibility : String
  options : TargetOptions
  fields : List StructField
  deriving DecidableEq, Repr

namespace StructField

/-- The name of the member for the field: the one that is given, else that of the field without
the sign of being raw, else one made of its position. -/
def memberName (field : StructField) : String :=
  match field.options.name, field.name with
  | some name, _ => name
  | none, some name => Word.unraw name
  | none, none => "field_" ++ toString field.position

/-- How the field is referred to: by name or by position. -/
def reference (field : StructField) : String := field.name.getD (toString field.position)

/-- What the member for the field falls back to. -/
def fallback (field : StructField) : Fallback :=
  match field.options.default with
  | none => .required
  | some .provided => .provided
  | some (.expression text) => .expression text

/-- The default of a field that the builder leaves alone, if it has one of its own. -/
def fixedDefault (field : StructField) : Option String :=
  match field.options.default with
  | some (.expression text) => some text
  | _ => none

/-- The member for the field. -/
def draft (field : StructField) : MemberDraft := ⟨field.memberName, field.type, field.fallback⟩

/-- Options of the field that do not go together. -/
def conflicts (hasConstructor : Bool) (field : StructField) : List Fault :=
  (if field.options.skip && field.options.argument then [.skippedArgument] else []) ++
    if field.options.skip && hasConstructor && field.options.default.isSome then [.skippedDefault]
    else []

/-- Add the field to the description of its target. -/
def addTo (draft : Draft) (field : StructField) : Draft :=
  if field.options.skip then draft.addFixed ⟨field.reference, field.fixedDefault⟩
  else if field.options.argument then draft.addArgument field.draft
  else draft.addField ⟨field.draft, field.reference⟩

end StructField

namespace Struct

/-- How the generated items are called. -/
def settings (struct : Struct) : Settings :=
  let default : Settings := {}
  { factory := struct.options.factory.getD default.factory
    builderName := struct.options.name
    stagesModule := struct.options.stages
    stageLimit := struct.options.stageLimit.getD default.stageLimit }

/-- The description of the target. -/
def draft (struct : Struct) : Draft :=
  struct.fields.foldl StructField.addTo
    { target := struct.name
      visibility := struct.visibility
      constructor := struct.options.constructor
      settings := struct.settings }

/-- Options that do not go together. -/
def conflicts (struct : Struct) : List Fault :=
  struct.fields.flatMap (StructField.conflicts struct.options.constructor.isSome)

end Struct

/-- The fields with their options, and the faults of the options. -/
def readFields (position : Nat) : List Field → List StructField × List Fault
  | [] => ([], [])
  | field :: rest =>
    let reading := Reading.ofAttributes fieldRules {} field.attributes
    let (fields, faults) := readFields (position + 1) rest
    (⟨position, field.name, field.type.render, reading.options⟩ :: fields,
      reading.faults ++ faults)

/-- The struct with its options, or the faults of the options, those of the struct first. -/
def readStruct (declaration : Declaration) (fields : Fields) : Except (List Fault) Struct :=
  let reading := Reading.ofAttributes targetRules {} declaration.attributes
  let (fields, faults) := readFields 0 fields.toList
  let struct : Struct :=
    { name := declaration.name
      visibility := Token.render (declaration.visibility.flatMap Node.tokens)
      options := reading.options
      fields := fields }
  match reading.faults ++ faults with
  | [] => if struct.conflicts.isEmpty then .ok struct else .error struct.conflicts
  | faults => .error faults

/-- What a declaration turns into. -/
inductive Expansion where
  /-- Messages of what is wrong. -/
  | refused (messages : List String)
  /-- The generated items. -/
  | generated (items : Generated)

/-- Expand a struct. -/
def expandStruct (struct : Struct) : Expansion :=
  match struct.draft.finish >>= fun target => generate target with
  | .ok items => .generated items
  | .error error => .refused [error.message]

/-- Expand a declaration. Whatever its options, there is no builder for an enumeration, for a union
or for a type with parameters. -/
def expand (declaration : Declaration) : Expansion :=
  let refuse (fault : ConstructorFault) : Expansion :=
    .refused [(TargetError.unresolvedConstructor declaration.name fault).message]
  match declaration.shape with
  | .enumeration => refuse .enumeration
  | .union => refuse .union
  | .struct fields =>
    if !declaration.generics.isEmpty then refuse .generic
    else
      match readStruct declaration fields with
      | .ok struct => expandStruct struct
      | .error faults => .refused (faults.map Fault.message)

/-- Expand the declaration that tokens make up, if they make up one. -/
def expandTokens? (tokens : List Token) : Option Expansion :=
  (readDeclaration? tokens).map expand

end Typestate.Derive
