import Typestate.Token.Word

/-!
# Quoted literals in source text

How far a string or character literal reaches. Strings are read by an automaton that sees one
character at a time; what it admits differs between text, bytes and null-terminated strings.
The text that a string literal stands for is read beside it.
-/

namespace Typestate.Quotation

/-- What a string literal holds. -/
inductive Content where
  /-- Characters. -/
  | text
  /-- Bytes, written in ASCII. -/
  | bytes
  /-- Characters and bytes without a null. -/
  | nullTerminated
  deriving DecidableEq, Repr

/-- A hexadecimal digit. -/
def isHexDigit (c : Char) : Bool :=
  c.isDigit || ('a' ≤ c && c ≤ 'f') || ('A' ≤ c && c ≤ 'F')

/-- The value of a hexadecimal digit. -/
def hexValue (c : Char) : Nat :=
  if c.isDigit then c.toNat - '0'.toNat
  else if 'a' ≤ c then c.toNat - 'a'.toNat + 10
  else c.toNat - 'A'.toNat + 10

/-- The code point is that of a character. -/
def isScalar (code : Nat) : Bool := code < 0xd800 || (0xe000 ≤ code && code < 0x110000)

/-- Where the reading of a string literal stands. -/
inductive State where
  /-- Between two characters. -/
  | plain
  /-- After a carriage return, which a line feed must follow. -/
  | afterReturn
  /-- After a backslash. -/
  | escaped
  /-- Before the first of two hexadecimal digits. -/
  | hexFirst
  /-- Before the second of two hexadecimal digits. -/
  | hexSecond (first : Char)
  /-- Before the brace of a code point. -/
  | codeOpen
  /-- Among the digits of a code point. -/
  | codeDigits (value count : Nat)
  /-- In the blanks after an escaped line end. -/
  | continued
  /-- After a carriage return among those blanks. -/
  | continuedReturn
  deriving DecidableEq, Repr

/-- What one character does to the reading. -/
inductive Step where
  /-- The reading goes on. -/
  | next (state : State)
  /-- The closing quote is reached. -/
  | done
  /-- The literal is malformed. -/
  | fail

/-- The step from between two characters. -/
def plainStep (content : Content) (c : Char) : Step :=
  if c = '"' then .done
  else if c = '\r' then .next .afterReturn
  else if c = '\\' then .next .escaped
  else
    match content with
    | .text => .next .plain
    | .bytes => if c.toNat < 128 then .next .plain else .fail
    | .nullTerminated => if c = '\x00' then .fail else .next .plain

/-- The step after a backslash. -/
def escapedStep (content : Content) (c : Char) : Step :=
  if c = 'x' then .next .hexFirst
  else if ['n', 'r', 't', '\\', '\'', '"'].contains c then .next .plain
  else if c = '0' then if content = .nullTerminated then .fail else .next .plain
  else if c = 'u' then if content = .bytes then .fail else .next .codeOpen
  else if c = '\n' then .next .continued
  else if c = '\r' then .next .continuedReturn
  else .fail

/-- The step among the digits of a code point, of which there are at most six. -/
def codeStep (content : Content) (value count : Nat) (c : Char) : Step :=
  if isHexDigit c then
    if count = 6 then .fail else .next (.codeDigits (value * 16 + hexValue c) (count + 1))
  else if c = '_' && count > 0 then .next (.codeDigits value count)
  else if c = '\x7d' && count > 0 then
    if isScalar value && !(content = .nullTerminated && value = 0) then .next .plain else .fail
  else .fail

/-- One step of the reading of a string literal. -/
def step (content : Content) (state : State) (c : Char) : Step :=
  match state with
  | .plain => plainStep content c
  | .afterReturn => if c = '\n' then .next .plain else .fail
  | .escaped => escapedStep content c
  | .hexFirst =>
    if (if content = .text then '0' ≤ c && c ≤ '7' else isHexDigit c) then .next (.hexSecond c)
    else .fail
  | .hexSecond first =>
    if isHexDigit c && !(content = .nullTerminated && first = '0' && c = '0') then .next .plain
    else .fail
  | .codeOpen => if c = '\x7b' then .next (.codeDigits 0 0) else .fail
  | .codeDigits value count => codeStep content value count c
  | .continued =>
    if c = ' ' || c = '\t' || c = '\n' then .next .continued
    else if c = '\r' then .next .continuedReturn
    else plainStep content c
  | .continuedReturn => if c = '\n' then .next .continued else .fail

/-- Read on to the closing quote: the number of characters read, counted from `count`. -/
def closedAt (content : Content) (state : State) (count : Nat) : List Char → Option Nat
  | [] => none
  | c :: rest =>
    match step content state c with
    | .next following => closedAt content following (count + 1) rest
    | .done => some (count + 1)
    | .fail => none

/-- Read on to the quote and number signs that close a raw string. -/
def rawClosedAt (content : Content) (signs : Nat) (count : Nat) : List Char → Option Nat
  | [] => none
  | '\r' :: '\n' :: rest => rawClosedAt content signs (count + 2) rest
  | c :: rest =>
    if c = '"' && (rest.take signs == List.replicate signs '#') then some (count + 1 + signs)
    else if c = '\r' then none
    else
      match content with
      | .text => rawClosedAt content signs (count + 1) rest
      | .bytes => if c.toNat < 128 then rawClosedAt content signs (count + 1) rest else none
      | .nullTerminated => if c = '\x00' then none else rawClosedAt content signs (count + 1) rest

/-- The number of characters of a raw string from its number signs on; there are at most 255. -/
def rawLength? (content : Content) (text : List Char) : Option Nat :=
  let signs := (text.takeWhile (· == '#')).length
  match text.drop signs with
  | '"' :: rest => if signs > 255 then none else rawClosedAt content signs (signs + 1) rest
  | _ => none

/-- The number of characters of a string literal without its suffix. -/
def stringLength? : List Char → Option Nat
  | '"' :: rest => closedAt .text .plain 1 rest
  | 'r' :: rest => (rawLength? .text rest).map (· + 1)
  | 'b' :: '"' :: rest => closedAt .bytes .plain 2 rest
  | 'b' :: 'r' :: rest => (rawLength? .bytes rest).map (· + 2)
  | 'c' :: '"' :: rest => closedAt .nullTerminated .plain 2 rest
  | 'c' :: 'r' :: rest => (rawLength? .nullTerminated rest).map (· + 2)
  | _ => none

/-- The number of characters up to the brace that ends a code point. -/
def codeLength? (value digits count : Nat) : List Char → Option Nat
  | [] => none
  | c :: rest =>
    match codeStep .text value digits c with
    | .next (.codeDigits value digits) => codeLength? value digits (count + 1) rest
    | .next _ => some (count + 1)
    | .done => none
    | .fail => none

/-- The number of characters of an escape, from the one after the backslash on. -/
def escapeLength? (content : Content) : List Char → Option Nat
  | 'x' :: first :: second :: _ =>
    let isHigh := if content = .text then '0' ≤ first && first ≤ '7' else isHexDigit first
    if isHigh && isHexDigit second then some 3 else none
  | 'u' :: '\x7b' :: rest => if content = .text then codeLength? 0 0 2 rest else none
  | c :: _ => if ['n', 'r', 't', '\\', '0', '\'', '"'].contains c then some 1 else none
  | [] => none

/-- The number of characters of one quoted character and the apostrophe after it. -/
def characterClosedAt (content : Content) (text : List Char) : Option Nat :=
  let length? :=
    match text with
    | '\\' :: rest => (escapeLength? content rest).map (· + 1)
    | c :: _ => if content = .bytes && c.toNat ≥ 128 then none else some 1
    | [] => none
  match length? with
  | some count =>
    match text.drop count with
    | '\'' :: _ => some (count + 1)
    | _ => none
  | none => none

/-- The number of characters of a character literal without its suffix. -/
def characterLength? : List Char → Option Nat
  | 'b' :: '\'' :: rest => (characterClosedAt .bytes rest).map (· + 2)
  | '\'' :: rest => (characterClosedAt .text rest).map (· + 1)
  | _ => none

end Typestate.Quotation
