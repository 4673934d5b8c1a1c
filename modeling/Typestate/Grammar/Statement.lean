import Typestate.Grammar.Expression
import Typestate.Grammar.Item

/-!
# Statements

A block is a list of declarations of values, items, calls of macros and expressions. An expression
that does not end with a block needs a semicolon unless it is the last statement.
-/

namespace Typestate.Grammar

open Grammar.Parser

/-- What a call of a macro in place of a statement turns out to be. -/
inductive CallStatement where
  /-- A declaration: a name follows the exclamation mark. -/
  | item
  /-- A statement of its own: a group in braces follows, and nothing is applied to it. -/
  | statement
  /-- The beginning of an expression, or no call. -/
  | expression
  deriving DecidableEq

/-- What a call of a macro at the front turns out to be. -/
def callStatement (tokens : List Token) : CallStatement :=
  match plainPath tokens with
  | .ok found =>
    let body := afterOne found.rest
    if !isOp "!" found.rest then .expression
    else if isIdentifier body || isWord "try" body then .item
    else if isGroup .brace body && !isDot (afterOne body) && !isOp "?" (afterOne body) then
      .statement
    else .expression
  | .error _ => .expression

/-- A semicolon, if it is there. -/
def semicolon? : Parser (List Node) := operator? ";"

/-- The declaration of a value. -/
def localStatement (sorts : Sorts) (attributes : List Node) : Parser Node := do
  let word ← keyword "let"
  let shape ← sorts.pattern
  let type ← onlyIf (isOp ":") do
    return [← operator ":", ← sorts.type true]
  let value ← onlyIf (isOp "=") do
    let equals ← operator "="
    let value ← sorts.expression
    let otherwise ← onlyIf (fun tokens => !value.endsInBraces && isWord "else" tokens) do
      return [← keyword "else", ← block sorts]
    return equals :: value :: otherwise
  return .construct .declaration attributes (word :: shape :: type ++ value ++ [← operator ";"])

/-- Words that begin an item whatever follows. -/
def itemWords : List String :=
  ["pub", "extern", "use", "fn", "mod", "type", "struct", "enum", "trait", "impl", "macro"]

/-- An item begins here rather than an expression. -/
def beginsItem (tokens : List Token) : Bool :=
  let second := afterOne tokens
  let third := afterOne second
  isAnyOf itemWords tokens ||
    (isWord "crate" tokens && !isOp "::" second) ||
    (isWord "static" tokens && (isWord "mut" second || isIdentifier second)) ||
    (isWord "const" tokens &&
      !(isGroup .brace second || isWord "static" second ||
        (isWord "async" second && !isAnyOf ["unsafe", "extern", "fn"] third) ||
        isWord "move" second || isOp "|" second)) ||
    (isWord "unsafe" tokens && !isGroup .brace second) ||
    (isWord "async" tokens && isAnyOf ["unsafe", "extern", "fn"] second) ||
    (isWord "union" tokens && isIdentifier second) ||
    (isWord "auto" tokens && isWord "trait" second) ||
    (isWord "default" tokens && isAnyOf ["unsafe", "impl"] second)

/-- A call of a macro in braces, as a statement. -/
def callOfMacro (attributes : List Node) : Parser Node := do
  let path ← plainPath
  let body ← callBody
  return .construct .macroStatement attributes (path.node :: body.nodes ++ (← semicolon?))

/-- Put attributes in front of the operand that an expression begins with. They do not reach into
calls and the like, nor into ranges. -/
def Node.withLeadingAttributes (attributes : List Node) : Node → Node
  | .construct .assign others [first, sign, second] =>
    .construct .assign others [first.withLeadingAttributes attributes, sign, second]
  | .construct .binary others [first, sign, second] =>
    .construct .binary others [first.withLeadingAttributes attributes, sign, second]
  | .construct .cast others [operand, sign, type] =>
    .construct .cast others [operand.withLeadingAttributes attributes, sign, type]
  | node => node.withAttributes attributes

/-- An expression as a statement, and whether a semicolon is missing after it unless it is the last
one. An expression that is kept as it is read keeps its attributes, too. -/
def expressionStatement (sorts : Sorts) (attributes : List Node) (start : List Token) :
    Parser (Bool × Node) := do
  let value ← sorts.bodyExpression
  let value ←
    if value.isVerbatim then keepFrom start
    else pure (value.withLeadingAttributes attributes)
  let semicolon ← semicolon?
  return (semicolon.isEmpty && !value.isStatement,
    .branch .expressionStatement (value :: semicolon))

/-- A statement, and whether a semicolon is missing after it unless it is the last one. -/
def statement (sorts : Sorts) : Parser (Bool × Node) := do
  let start ← ahead
  let attributes ← outerAttributes sorts
  let tokens ← ahead
  match callStatement tokens with
  | .statement => return (false, ← callOfMacro attributes)
  | kind =>
    if isWord "let" tokens then return (false, ← localStatement sorts attributes)
    else if beginsItem tokens || kind = .item then
      return (false, ← sorts.item attributes start)
    else expressionStatement sorts attributes start

/-- The statements of a block up to its last token. -/
def statementsAtMost (sorts : Sorts) : Nat → Parser (List Node)
  | 0 => fail
  | rounds + 1 => do
    if (← ahead).isEmpty then return []
    else if isOp ";" (← ahead) then
      let semicolon ← operator ";"
      return .branch .emptyStatement [semicolon] :: (← statementsAtMost sorts rounds)
    else
      let (isOpen, first) ← statement sorts
      if isOpen && !(← ahead).isEmpty then refuse "unexpected token, expected `;`"
      else return first :: (← statementsAtMost sorts rounds)

/-- The statements of a block. -/
def statementsWhere (sorts : Sorts) : Parser (List Node) := do
  statementsAtMost sorts ((← ahead).length + 1)

end Typestate.Grammar
