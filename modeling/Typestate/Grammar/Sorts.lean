import Typestate.Grammar.Operator

/-!
# The sorts of the grammar

Types, expressions, patterns, statements and items contain each other. Each construct is therefore
described over parsers for the sorts, and the knot is tied once, by iterating the description. A
parser that is `n` steps deep reads every text whose constructs are nested at most `n` deep.
-/

namespace Typestate.Grammar

/-- What a bound may hold beside traits and lifetimes. -/
structure BoundRules where
  /-- A list of captured parameters. -/
  captures : Bool
  /-- A mark of constness. -/
  constness : Bool

/-- Parsers for the sorts that contain each other. -/
structure Sorts where
  /-- A type; the flag allows further bounds after a plus. -/
  type : Bool → Parser Node
  /-- A bound on a type. -/
  bound : BoundRules → Parser Node
  /-- An operand with its signs and what is applied to it; the flag allows a brace to open a
  literal of a struct. -/
  operand : Bool → Parser Node
  /-- Operators of at least a precedence, and their operands, after a first operand. -/
  operators : Bool → Precedence → Node → Parser Node
  /-- An expression that ends early if it can stand as a statement. -/
  bodyExpression : Parser Node
  /-- A pattern without alternatives. -/
  pattern : Parser Node
  /-- The statements of a block. -/
  statements : Parser (List Node)
  /-- An item, given the text from its attributes on, the attributes read already. -/
  item : List Node → List Token → Parser Node
  /-- What a use declaration brings in; the flag allows a path from the root. -/
  useTree : Bool → Parser (Bool × Node)

namespace Sorts

/-- The sorts of which nothing is read. -/
def none : Sorts where
  type := fun _ => Parser.fail
  bound := fun _ => Parser.fail
  operand := fun _ => Parser.fail
  operators := fun _ _ _ => Parser.fail
  bodyExpression := Parser.fail
  pattern := Parser.fail
  statements := Parser.fail
  item := fun _ _ => Parser.fail
  useTree := fun _ => Parser.fail

/-- An expression, in which a brace may open a literal of a struct or not. -/
def expressionWhere (sorts : Sorts) (structs : Bool) : Parser Node := do
  let first ← sorts.operand structs
  sorts.operators structs .jump first

/-- An expression. -/
def expression (sorts : Sorts) : Parser Node := sorts.expressionWhere true

/-- An expression before a block. -/
def head (sorts : Sorts) : Parser Node := sorts.expressionWhere false

end Sorts

end Typestate.Grammar
