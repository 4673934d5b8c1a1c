import Typestate.Text.Quoted
import Typestate.Token.Basic

/-!
# Mismatches

Why tokens are not what the grammar asks for, and how that is said. Tokens that are left in a group
count as a mismatch too, but only when all else is read, since each other mismatch says more.
-/

namespace Typestate.Grammar

/-- Why tokens are not read. -/
inductive Mismatch where
  /-- One of several things should stand at some place; the flag says that nothing stands there. -/
  | expected (choices : List String) (atEnd : Bool)
  /-- A keyword stands in place of an identifier. -/
  | keyword (word : String)
  /-- What stands at some place is understood, but not allowed there. -/
  | refused (reason : String)
  /-- Tokens are left over in a group between the given delimiters, or outside of all groups. -/
  | excess (within : Option Delimiter)
  deriving DecidableEq, Repr

/-- A pair of delimiters in words. -/
def delimiterName : Delimiter → String
  | .parenthesis => "parentheses"
  | .bracket => "square brackets"
  | .brace => "curly braces"

/-- What is missing at some place, in words. -/
def expectation : List String → String
  | [choice] => "expected " ++ choice
  | [first, second] => "expected " ++ first ++ " or " ++ second
  | choices => "expected one of: " ++ ", ".intercalate choices

/-- The mismatch in words. -/
def Mismatch.message : Mismatch → String
  | .expected [] atEnd => if atEnd then "unexpected end of input" else "unexpected token"
  | .expected choices atEnd =>
    (if atEnd then "unexpected end of input, " else "") ++ expectation choices
  | .keyword word => "expected identifier, found keyword " ++ Text.ticked word
  | .refused reason => reason
  | .excess none => "unexpected token"
  | .excess (some delimiter) =>
    "unexpected token, expected " ++ Text.ticked (delimiter.closing true)

end Typestate.Grammar
