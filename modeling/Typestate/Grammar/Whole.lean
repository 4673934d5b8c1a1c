import Typestate.Grammar.Parentheses
import Typestate.Grammar.Statement
import Typestate.Token.Lexer

/-!
# Whole texts

The knot of the sorts, and the texts that are read as a whole: a type, an expression, a path, a
visibility, the name of a field or a declaration. A text is read only if the grammar takes all of
its tokens.
-/

namespace Typestate.Grammar

open Grammar.Parser

/-- The sorts one step deeper. -/
def Sorts.deeper (sorts : Sorts) : Sorts where
  type := typeWhere sorts
  bound := boundWhere sorts
  operand := operandWhere sorts
  operators := operatorsWhere sorts
  bodyExpression := bodyExpressionWhere sorts
  pattern := patternWhere sorts
  statements := statementsWhere sorts
  item := itemWhere sorts
  useTree := useTreeWhere sorts

/-- The sorts so many steps deeper. -/
def Sorts.deepened : Nat → Sorts → Sorts
  | 0, sorts => sorts
  | steps + 1, sorts => deepened steps sorts.deeper

/-- The sorts, deep enough for the given tokens: a construct that takes no token of its own leads
to one that does after a few steps. -/
def Sorts.for (tokens : List Token) : Sorts := Sorts.deepened (8 * Token.sizeList tokens + 16) .none

/-- Read all of the given tokens, or say why they are not what a parser asks for. -/
def readTokens {α : Type} (parser : Sorts → Parser α) (tokens : List Token) : Except Mismatch α :=
  all (parser (Sorts.for tokens)) tokens

/-- Read all of the given tokens. -/
def readTokens? {α : Type} (parser : Sorts → Parser α) (tokens : List Token) : Option α :=
  (readTokens parser tokens).toOption

/-- Read all of a text. -/
def read? {α : Type} (parser : Sorts → Parser α) (text : String) : Option α :=
  Token.lex? text >>= readTokens? parser

/-- Read a type. -/
def readType? (text : String) : Option Node := read? (fun sorts => sorts.type true) text

/-- Read an expression. -/
def readExpression? (text : String) : Option Node := read? Sorts.expression text

/-- Read a path as it stands in a type. -/
def readPath? (text : String) : Option Path := read? path text

/-- Read a visibility, which is empty if nothing is said. -/
def readVisibility? (text : String) : Option (List Node) := read? (fun _ => visibility) text

/-- Read the name or the index of a field. -/
def readFieldReference? (text : String) : Option Node :=
  (read? (fun _ => fieldReference) text).map Prod.snd

/-- Read an identifier by itself. -/
def readIdentifier? (text : String) : Option String := read? (fun _ => identifier) text

/-- Read the declaration of a type. -/
def readDeclaration? (tokens : List Token) : Option Declaration := readTokens? declaration tokens

end Typestate.Grammar
