import Typestate.Grammar.Sorts

/-!
# Attributes

An attribute is a path, alone, with a group of tokens, or with a value. Attributes stand before
what they describe, or inside it after a number sign and an exclamation mark. The paths here have
no arguments.
-/

namespace Typestate.Grammar

open Grammar.Parser

/-- The names of a path without arguments. -/
structure PlainPath where
  /-- The path begins with two colons. -/
  leading : Bool
  names : List String
  deriving DecidableEq

/-- The path as a tree. -/
def PlainPath.node (path : PlainPath) : Node :=
  .branch .path <|
    (if path.leading then [.operator "::"] else []) ++
      (path.names.map Node.word).intersperse (.operator "::")

/-- Words that name a place in the tree of modules, and `Self`. -/
def pathWords : List String := ["super", "self", "Self", "crate"]

/-- A word that a path without arguments may hold stands at the front. -/
def isPathWord : List Token → Bool
  | .word text :: _ => Word.isIdentifier text || pathWords.contains text
  | _ => false

/-- Names with two colons between any two of them, given which words count as names. -/
def namesAtMost (allowed : List Token → Bool) : Nat → Parser (List String)
  | 0 => fail
  | rounds + 1 => do
    let name ← anyWord
    if isOp "::" (← ahead) then
      let _ ← operator "::"
      if allowed (← ahead) then
        let others ← namesAtMost allowed rounds
        return name :: others
      else expected ["path segment after `::`"]
    else return [name]

/-- A path without arguments. -/
def plainPath : Parser PlainPath := do
  let leading ← operator? "::"
  let names ←
    if isPathWord (← ahead) then namesAtMost isPathWord ((← ahead).length + 1)
    else pure [← identifier]
  return ⟨!leading.isEmpty, names⟩

/-- What stands after the path of an attribute. -/
inductive MetaBody where
  /-- Nothing. -/
  | word
  /-- A group of tokens. -/
  | list (delimiter : Delimiter) (tokens : List Token)
  /-- A value after an equals sign. -/
  | value (node : Node)

/-- The content of an attribute. -/
structure Meta where
  path : PlainPath
  body : MetaBody

/-- The content of an attribute as a tree. -/
def Meta.node (content : Meta) : Node :=
  let body : List Node :=
    match content.body with
    | .word => []
    | .list delimiter tokens => [.group delimiter [.verbatim tokens]]
    | .value node => [.operator "=", node]
  .branch .attributeContent (content.path.node :: body)

/-- A literal is all that is left. -/
def isLastLiteral (tokens : List Token) : Bool :=
  match literal tokens with
  | .ok found => found.rest.isEmpty
  | .error _ => false

/-- The value of an attribute: a literal if it is all that is left, else an expression that does
not begin with an attribute. -/
def metaValue (sorts : Sorts) : Parser Node := do
  let tokens ← ahead
  if isLastLiteral tokens then literal
  else if isOp "#" tokens && isGroup .bracket (afterOne tokens) then
    refuse "unexpected attribute inside of attribute"
  else sorts.expression

/-- What stands after the path of an attribute. -/
def metaBody (sorts : Sorts) : Parser MetaBody := fun tokens =>
  match tokens with
  | .group delimiter body :: rest => .ok ⟨.list delimiter body, rest, none⟩
  | _ =>
    if isOp "=" tokens && !isOp "==" tokens && !isOp "=>" tokens then
      (do
        let _ ← operator "="
        return MetaBody.value (← metaValue sorts) : Parser MetaBody) tokens
    else .ok ⟨.word, tokens, none⟩

/-- The content of an attribute. Its path may be the word that marks unsafe code. -/
def metaContent (sorts : Sorts) : Parser Meta := do
  let path ← if isWord "unsafe" (← ahead) then pure ⟨false, [← anyWord]⟩ else plainPath
  return ⟨path, ← metaBody sorts⟩

/-- An attribute before what it describes. -/
def outerMeta (sorts : Sorts) : Parser Meta := do
  let _ ← operator "#"
  inside .bracket (metaContent sorts)

/-- An attribute as a tree. -/
def Meta.outerNode (content : Meta) : Node :=
  .branch .outerAttribute [.operator "#", .group .bracket [content.node]]

/-- The attributes before what they describe. -/
def outerMetas (sorts : Sorts) : Parser (List Meta) :=
  repeatWhile (isOp "#") do return [← outerMeta sorts]

/-- The attributes before what they describe, as trees. -/
def outerAttributes (sorts : Sorts) : Parser (List Node) := do
  return (← outerMetas sorts).map Meta.outerNode

/-- An attribute of what it stands in. -/
def innerAttribute (sorts : Sorts) : Parser (List Node) := do
  let pound ← operator "#"
  let bang ← operator "!"
  let content ← group .bracket (do return [(← metaContent sorts).node])
  return [.branch .innerAttribute [pound, bang, content]]

/-- The attributes of what they stand in. -/
def innerAttributes (sorts : Sorts) : Parser (List Node) :=
  repeatWhile (fun tokens => isOp "#" tokens && isOp "!" (afterOne tokens)) (innerAttribute sorts)

end Typestate.Grammar
