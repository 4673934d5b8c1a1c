import Typestate.Grammar.Parser

/-!
# Operators between expressions

The operators that stand between two expressions, longest first, and how tightly each binds.
-/

namespace Typestate.Grammar

/-- How tightly an operator binds, loosest first. The last two are those of the signs before an
operand and of an operand by itself. -/
inductive Precedence where
  | jump | assign | range | or | and | condition | compare | bitOr | bitXor | bitAnd | shift
  | sum | product | cast | sign | atom
  deriving DecidableEq, Repr

namespace Precedence

/-- The place of a precedence in the order. -/
def level : Precedence → Nat
  | .jump => 0
  | .assign => 1
  | .range => 2
  | .or => 3
  | .and => 4
  | .condition => 5
  | .compare => 6
  | .bitOr => 7
  | .bitXor => 8
  | .bitAnd => 9
  | .shift => 10
  | .sum => 11
  | .product => 12
  | .cast => 13
  | .sign => 14
  | .atom => 15

instance : LT Precedence := ⟨fun first second => first.level < second.level⟩

instance : LE Precedence := ⟨fun first second => first.level ≤ second.level⟩

instance (first second : Precedence) : Decidable (first < second) :=
  inferInstanceAs (Decidable (first.level < second.level))

instance (first second : Precedence) : Decidable (first ≤ second) :=
  inferInstanceAs (Decidable (first.level ≤ second.level))

end Precedence

/-- Operators between two operands and their precedence. Of two operators with a common beginning
the longer one stands first. -/
def binaryOperators : List (String × Precedence) :=
  [("+=", .assign), ("-=", .assign), ("*=", .assign), ("/=", .assign), ("%=", .assign),
    ("^=", .assign), ("&=", .assign), ("|=", .assign), ("<<=", .assign), (">>=", .assign),
    ("&&", .and), ("||", .or), ("<<", .shift), (">>", .shift), ("==", .compare),
    ("<=", .compare), ("!=", .compare), (">=", .compare), ("+", .sum), ("-", .sum),
    ("*", .product), ("/", .product), ("%", .product), ("^", .bitXor), ("&", .bitAnd),
    ("|", .bitOr), ("<", .compare), (">", .compare)]

/-- The precedence of an operator between two operands. -/
def Precedence.ofOperator (text : String) : Precedence := (binaryOperators.lookup text).getD .atom

/-- The operator between two operands at the front. -/
def binaryOperator? (tokens : List Token) : Option (String × Precedence) :=
  binaryOperators.find? fun entry => isOp entry.1 tokens

/-- The precedence of whatever goes on an expression at the front. -/
def nextPrecedence (tokens : List Token) : Precedence :=
  match binaryOperator? tokens with
  | some (_, precedence) => precedence
  | none =>
    if isOp "=" tokens && !isOp "=>" tokens then .assign
    else if isOp ".." tokens then .range
    else if isWord "as" tokens then .cast
    else .jump

/-- The node is a comparison. Comparisons do not chain. -/
def Node.isComparison : Node → Bool
  | .construct .binary _ [_, .operator text, _] => Precedence.ofOperator text == .compare
  | _ => false

end Typestate.Grammar
