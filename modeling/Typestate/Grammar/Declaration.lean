import Typestate.Grammar.Generics
import Typestate.Grammar.Visibility

/-!
# Declarations of types

Structs, enumerations and unions, with what stands in front of them and the fields they hold.
-/

namespace Typestate.Grammar

open Grammar.Parser

/-- A declared field. -/
structure Field where
  attributes : List Meta
  visibility : List Node
  /-- The name of the field; the fields of a tuple have none. -/
  name : Option String
  type : Node

/-- The fields of a struct or of a variant. -/
inductive Fields where
  | named (fields : List Field)
  | tuple (fields : List Field)
  | unit

/-- The fields in the order in which they are declared. -/
def Fields.toList : Fields → List Field
  | .named fields => fields
  | .tuple fields => fields
  | .unit => []

/-- What kind of type is declared. -/
inductive Shape where
  | struct (fields : Fields)
  | enumeration
  | union

/-- A declared type. -/
structure Declaration where
  attributes : List Meta
  visibility : List Node
  name : String
  /-- The parameters of the type. -/
  generics : List Node
  shape : Shape

/-- A declared field as a tree. -/
def Field.node (field : Field) : Node :=
  .construct .fieldDeclaration (field.attributes.map Meta.outerNode) <|
    field.visibility ++
      (match field.name with
        | some name => [.word name, .operator ":"]
        | none => []) ++ [field.type]

/-- Constructs between commas up to the last token, and where commas stood is not kept. -/
def commaListAtMost {α : Type} (parser : Parser α) : Nat → Parser (List α)
  | 0 => fail
  | rounds + 1 => do
    if (← ahead).isEmpty then return []
    else
      let first ← parser
      if (← ahead).isEmpty then return [first]
      else
        let _ ← operator ","
        return first :: (← commaListAtMost parser rounds)

/-- Constructs between commas up to the last token. -/
def commaList {α : Type} (parser : Parser α) : Parser (List α) := do
  commaListAtMost parser ((← ahead).length + 1)

/-- A field with a name, given what to do with a list of fields in place of its type. Such a list
may stand for the type if the name of the field is a low line; it is kept as it is read. -/
def namedFieldOver (sorts : Sorts) (nested : Parser Unit) : Parser Field := do
  let attributes ← outerMetas sorts
  let visibility ← visibility
  let isUnnamed := isWord "_" (← ahead)
  let name ← if isUnnamed then anyWord else identifier
  let _ ← operator ":"
  let tokens ← ahead
  let isNested := isUnnamed &&
    (isWord "struct" tokens || (isWord "union" tokens && isGroup .brace (afterOne tokens)))
  let type ←
    if isNested then asRead do
      let _ ← anyWord
      nested
    else sorts.type true
  return ⟨attributes, visibility, some name, type⟩

/-- Fields with names in braces, for so many levels of fields within fields. -/
def nestedFields (sorts : Sorts) : Nat → Parser Unit
  | 0 => fail
  | levels + 1 => do
    let _ ← inside .brace (commaList (namedFieldOver sorts (nestedFields sorts levels)))

/-- A field with a name. -/
def namedField (sorts : Sorts) : Parser Field := do
  namedFieldOver sorts (nestedFields sorts (Token.sizeList (← ahead)))

/-- A field without a name. -/
def tupleField (sorts : Sorts) : Parser Field := do
  let attributes ← outerMetas sorts
  let visibility ← visibility
  return ⟨attributes, visibility, none, ← sorts.type true⟩

/-- Fields with names in braces. -/
def namedFields (sorts : Sorts) : Parser (List Field) :=
  inside .brace (commaList (namedField sorts))

/-- Fields without names in parentheses. -/
def tupleFields (sorts : Sorts) : Parser (List Field) :=
  inside .parenthesis (commaList (tupleField sorts))

/-- The fields of a struct and the conditions on its parameters. Conditions stand before braces or
a semicolon, or after parentheses. -/
def structFields (sorts : Sorts) : Parser Fields := do
  let isConditional := isWord "where" (← ahead)
  let _ ← whereClause sorts
  let tokens ← ahead
  if !isConditional && isGroup .parenthesis tokens then
    let fields ← tupleFields sorts
    let _ ← whereClause sorts
    let _ ← operator ";"
    return .tuple fields
  else if isGroup .brace tokens then return .named (← namedFields sorts)
  else
    let _ ← operator ";"
    return .unit

/-- A variant of an enumeration, with fields and a number of its own or without. -/
def variant (sorts : Sorts) : Parser Unit := do
  let _ ← outerMetas sorts
  let _ ← visibility
  let _ ← identifier
  let tokens ← ahead
  let _ ←
    if isGroup .brace tokens then namedFields sorts
    else if isGroup .parenthesis tokens then tupleFields sorts
    else pure []
  let _ ← onlyIf (isOp "=") do
    let _ ← operator "="
    one sorts.expression

/-- The variants of an enumeration. -/
def variants (sorts : Sorts) : Parser (List Unit) := do
  let _ ← whereClause sorts
  inside .brace (commaList (variant sorts))

/-- A declaration of a type. -/
def declaration (sorts : Sorts) : Parser Declaration := do
  let attributes ← outerMetas sorts
  let visibility ← visibility
  let word ← anyWord
  let name ← identifier
  let parameters ← generics sorts
  if word == "struct" then
    return ⟨attributes, visibility, name, parameters, .struct (← structFields sorts)⟩
  else if word == "enum" then
    let _ ← variants sorts
    return ⟨attributes, visibility, name, parameters, .enumeration⟩
  else if word == "union" then
    let _ ← whereClause sorts
    let _ ← namedFields sorts
    return ⟨attributes, visibility, name, parameters, .union⟩
  else expected ["`struct`", "`enum`", "`union`"]

end Typestate.Grammar
