import Typestate.Unicode.Identifier

/-!
# Words

How far a word reaches in source text, and which words a language keeps for itself. A word may
be written raw, after `r#`, which turns a keyword into a plain identifier.
-/

namespace Typestate.Word

open Typestate.Unicode

/-- The number of characters of the plain word at the beginning of a text. -/
def length? : List Char → Option Nat
  | [] => none
  | c :: rest =>
    if isIdentifierStart c then some ((rest.takeWhile isIdentifierPart).length + 1) else none

/-- Words that keep their meaning even when written raw. -/
def neverRaw : List String := ["_", "super", "self", "Self", "crate"]

/-- The number of characters of the word, plain or raw, at the beginning of a text. -/
def lengthMaybeRaw? : List Char → Option Nat
  | 'r' :: '#' :: rest =>
    match length? rest with
    | some count =>
      if neverRaw.contains (String.ofList (rest.take count)) then none else some (count + 2)
    | none => none
  | text => length? text

/-- The words that are no identifiers: keywords in use, keywords kept for later, the low line. -/
def reserved : List String :=
  ["_", "abstract", "as", "async", "await", "become", "box", "break", "const", "continue",
    "crate", "do", "dyn", "else", "enum", "extern", "false", "final", "fn", "for", "if", "impl",
    "in", "let", "loop", "macro", "match", "mod", "move", "mut", "override", "priv", "pub", "ref",
    "return", "Self", "self", "static", "struct", "super", "trait", "true", "try", "type",
    "typeof", "unsafe", "unsized", "use", "virtual", "where", "while", "yield"]

/-- The word may name something. -/
def isIdentifier (word : String) : Bool := !reserved.contains word

/-- The word without the sign of being raw. -/
def unraw (word : String) : String :=
  match word.toList with
  | 'r' :: '#' :: rest => String.ofList rest
  | _ => word

/-- The word is written raw. -/
def isRaw (word : String) : Bool :=
  match word.toList with
  | 'r' :: '#' :: _ => true
  | _ => false

end Typestate.Word
