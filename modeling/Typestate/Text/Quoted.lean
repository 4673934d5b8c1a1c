import Typestate.Unicode.Printable

/-!
# Quoted text

A text as a string literal. Quotes and backslashes are escaped, the usual controls have a short
escape, and every other character that is not shown by itself is written by its code point.
-/

namespace Typestate.Text

open Typestate.Unicode

/-- A character written by its code point in hexadecimal. -/
def codePointEscape (c : Char) : List Char :=
  ['\\', 'u', '\x7b'] ++ Nat.toDigits 16 c.toNat ++ ['\x7d']

/-- A digit that would read as part of a short escape for the null character. -/
def isOctalDigit (c : Char) : Bool := '0' ≤ c && c ≤ '7'

/-- A character inside a string literal, given the text that follows it. -/
def quotedChar (c : Char) (after : List Char) : List Char :=
  if c = '\x00' then
    match after with
    | next :: _ => if isOctalDigit next then ['\\', 'x', '0', '0'] else ['\\', '0']
    | [] => ['\\', '0']
  else if c = '\t' then ['\\', 't']
  else if c = '\r' then ['\\', 'r']
  else if c = '\n' then ['\\', 'n']
  else if c = '\\' then ['\\', '\\']
  else if c = '"' then ['\\', '"']
  else if isShown c then [c]
  else codePointEscape c

/-- The inside of a string literal. -/
def quotedChars : List Char → List Char
  | [] => []
  | c :: after => quotedChar c after ++ quotedChars after

/-- The string literal of a text. -/
def quoted (text : String) : String :=
  String.ofList (['"'] ++ quotedChars text.toList ++ ['"'])

/-- A piece of source text between backticks, as messages cite it. -/
def ticked (text : String) : String := "`" ++ text ++ "`"

end Typestate.Text
