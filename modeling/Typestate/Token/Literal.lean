import Typestate.Token.Quotation

/-!
# What literals mean

The value of a whole number and of a string, and which kind of value a literal has, all read from
the literal as it is written.
-/

namespace Typestate.Literal

open Typestate.Quotation (isHexDigit hexValue)

/-- The kinds of literals. -/
inductive Kind where
  | string | byteString | nullTerminated | byte | character | whole | float | unknown
  deriving DecidableEq, Repr

/-- After the letter of an exponent, it has digits, or a sign. -/
def isExponent : List Char → Bool
  | '_' :: rest => isExponent rest
  | c :: _ => c == '-' || c == '+' || c.isDigit
  | [] => false

/-- The digits of a whole number in a base, given the value so far and whether a digit has been
seen: the value and the suffix. A number with a point or an exponent is not whole. -/
def wholeFrom (base value : Nat) (seen : Bool) : List Char → Option (Nat × List Char)
  | [] => if seen then some (value, []) else none
  | c :: rest =>
    if c = '_' then wholeFrom base value seen rest
    else if c.isDigit || (base > 10 && isHexDigit c) then
      if hexValue c < base then wholeFrom base (value * base + hexValue c) true rest else none
    else if base = 10 && (c == '.' || ((c == 'e' || c == 'E') && isExponent rest)) then none
    else if seen then some (value, c :: rest)
    else none

/-- The value and the suffix of a whole number. -/
def wholeValue? (literal : String) : Option (Nat × String) :=
  let found :=
    match literal.toList with
    | '0' :: 'x' :: rest => wholeFrom 16 0 false rest
    | '0' :: 'o' :: rest => wholeFrom 8 0 false rest
    | '0' :: 'b' :: rest => wholeFrom 2 0 false rest
    | c :: rest => if c.isDigit then wholeFrom 10 0 false (c :: rest) else none
    | [] => none
  found.map fun (value, suffix) => (value, String.ofList suffix)

/-- The kind of a literal. -/
def kind (literal : String) : Kind :=
  match literal.toList with
  | '"' :: _ => .string
  | 'r' :: _ => .string
  | 'b' :: '\'' :: _ => .byte
  | 'b' :: _ => .byteString
  | 'c' :: _ => .nullTerminated
  | '\'' :: _ => .character
  | c :: _ =>
    if !c.isDigit then .unknown
    else if (wholeValue? literal).isSome then .whole
    else .float
  | [] => .unknown

/-- The literal is a number. -/
def isNumber (literal : String) : Bool :=
  match literal.toList with
  | c :: _ => c.isDigit
  | [] => false

/-- The largest index of a field. -/
def maxIndex : Nat := UInt32.size - 1

/-- The index of a field: a whole number of 32 bits without a suffix. -/
def index? (literal : String) : Option Nat :=
  match wholeValue? literal with
  | some (value, suffix) => if suffix.isEmpty && value ≤ maxIndex then some value else none
  | none => none

/-- A blank that is passed over after an escaped line end; other blanks are part of the text. -/
def isLineBlank (c : Char) : Bool := c == ' ' || c == '\t' || c == '\n' || c == '\r'

/-- The text inside a quoted literal, escapes resolved; the literal is well formed. The flag says
that blanks after an escaped line end are being passed over. -/
def unescaped : Nat → Bool → List Char → List Char
  | 0, _, _ => []
  | steps + 1, skipping, text =>
    match text with
    | [] => []
    | '\\' :: 'n' :: rest => '\n' :: unescaped steps false rest
    | '\\' :: 'r' :: rest => '\r' :: unescaped steps false rest
    | '\\' :: 't' :: rest => '\t' :: unescaped steps false rest
    | '\\' :: '\\' :: rest => '\\' :: unescaped steps false rest
    | '\\' :: '\'' :: rest => '\'' :: unescaped steps false rest
    | '\\' :: '"' :: rest => '"' :: unescaped steps false rest
    | '\\' :: '0' :: rest => '\x00' :: unescaped steps false rest
    | '\\' :: 'x' :: first :: second :: rest =>
      Char.ofNat (hexValue first * 16 + hexValue second) :: unescaped steps false rest
    | '\\' :: 'u' :: '\x7b' :: rest =>
      let digits := (rest.takeWhile (· != '\x7d')).filter (· != '_')
      let code := digits.foldl (fun value c => value * 16 + hexValue c) 0
      Char.ofNat code :: unescaped steps false ((rest.dropWhile (· != '\x7d')).drop 1)
    | '\\' :: '\n' :: rest => unescaped steps true rest
    | '\\' :: '\r' :: rest => unescaped steps true rest
    | '"' :: _ => []
    | '\r' :: '\n' :: rest =>
      if skipping then unescaped steps true rest else '\n' :: unescaped steps false rest
    | c :: rest =>
      if skipping && isLineBlank c then unescaped steps true rest
      else c :: unescaped steps false rest

/-- The text up to the quote and number signs that close a raw string. -/
def rawText (signs : Nat) : List Char → List Char
  | [] => []
  | c :: rest =>
    if c = '"' && rest.take signs == List.replicate signs '#' then [] else c :: rawText signs rest

/-- The text that a string literal stands for. -/
def stringValue? (literal : String) : Option String :=
  match literal.toList with
  | '"' :: rest => some (String.ofList (unescaped rest.length false rest))
  | 'r' :: rest =>
    let signs := (rest.takeWhile (· == '#')).length
    some (String.ofList (rawText signs (rest.drop (signs + 1))))
  | _ => none

end Typestate.Literal
