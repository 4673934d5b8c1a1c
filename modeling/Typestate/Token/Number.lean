import Typestate.Token.Word

/-!
# Numbers in source text

How far a number reaches, and what its digits say. A number with a point or an exponent is tried
first; a point counts only if neither a second point nor a word follows. The value of a whole
number is kept exact, whatever its size.
-/

namespace Typestate.Number

open Typestate.Unicode

/-- A decimal digit or a low line between digits. -/
def isDigitPart (c : Char) : Bool := c.isDigit || c == '_'

/-- A hexadecimal digit or a low line. -/
def isHexPart (c : Char) : Bool :=
  isDigitPart c || ('a' ≤ c && c ≤ 'f') || ('A' ≤ c && c ≤ 'F')

/-- The number of characters of an exponent after its letter, if it has a digit. -/
def exponentLength? (text : List Char) : Option Nat :=
  let digits := text.takeWhile isDigitPart
  if digits.any Char.isDigit then some digits.length
  else
    match text.drop digits.length with
    | c :: rest =>
      let signed := rest.takeWhile isDigitPart
      if (c == '+' || c == '-') && signed.any Char.isDigit then
        some (digits.length + 1 + signed.length)
      else none
    | [] => none

/-- A suffix at the beginning of a text, or nothing. -/
def suffixLength (text : List Char) : Nat := (Word.length? text).getD 0

/-- The number with its suffix is followed by no further part of a word. -/
def withSuffix? (text : List Char) (count : Nat) : Option Nat :=
  match text.drop count with
  | c :: rest =>
    if isIdentifierStart c then some (count + suffixLength (c :: rest))
    else if isIdentifierPart c then none
    else some count
  | [] => some count

/-- The number of characters of the digits of a number with a point or an exponent. -/
def floatDigits? (text : List Char) : Option Nat :=
  match text with
  | first :: _ =>
    if first.isDigit then
      let whole := (text.takeWhile isDigitPart).length
      let pointed? : Option (Nat × Bool) :=
        match text.drop whole with
        | '.' :: c :: rest =>
          if c == '.' || isIdentifierStart c then none
          else some (whole + 1 + ((c :: rest).takeWhile isDigitPart).length, true)
        | ['.'] => some (whole + 1, true)
        | _ => some (whole, false)
      match pointed? with
      | none => none
      | some (count, hasPoint) =>
        match text.drop count with
        | c :: rest =>
          if c == 'e' || c == 'E' then
            match exponentLength? rest with
            | some exponent => some (count + 1 + exponent)
            | none => if hasPoint then some count else none
          else if hasPoint then some count else none
        | [] => if hasPoint then some count else none
    else none
  | [] => none

/-- The number of characters of a number with a point or an exponent, suffix included. -/
def floatLength? (text : List Char) : Option Nat :=
  (floatDigits? text).bind (withSuffix? text)

/-- The number of characters of the digits of a whole number in a base other than ten. -/
def baseDigits? (base : Nat) (text : List Char) : Option Nat :=
  let digits := text.takeWhile (if base = 16 then isHexPart else isDigitPart)
  if base ≠ 16 && digits.any (fun c => c != '_' && c.toNat - '0'.toNat ≥ base) then none
  else if digits.any (· != '_') then some digits.length
  else none

/-- The number of characters of the digits of a whole number. -/
def wholeDigits? : List Char → Option Nat
  | '0' :: 'x' :: rest => (baseDigits? 16 rest).map (· + 2)
  | '0' :: 'o' :: rest => (baseDigits? 8 rest).map (· + 2)
  | '0' :: 'b' :: rest => (baseDigits? 2 rest).map (· + 2)
  | c :: rest => if c.isDigit then some ((rest.takeWhile isDigitPart).length + 1) else none
  | [] => none

/-- The number of characters of a whole number, suffix included. -/
def wholeLength? (text : List Char) : Option Nat :=
  (wholeDigits? text).bind (withSuffix? text)

end Typestate.Number
