import Typestate.Text.Quoted
import Typestate.Token.Basic
import Typestate.Token.Number
import Typestate.Token.Quotation
import Typestate.Unicode.Blank

/-!
# From text to tokens

Blanks and comments separate tokens and are dropped. A comment that documents what follows stands
for an attribute with its text. Each step of the lexer takes at least one character, so a text of
`n` characters needs at most `n + 1` steps.
-/

namespace Typestate.Lexer

open Typestate.Unicode

/-- The characters up to the end of the line, and the rest from the line feed on. -/
def takeLine : List Char → List Char × List Char
  | [] => ([], [])
  | '\n' :: rest => ([], '\n' :: rest)
  | '\r' :: '\n' :: rest => ([], '\n' :: rest)
  | c :: rest =>
    let (line, after) := takeLine rest
    (c :: line, after)

/-- Read on to the end of a block comment, which may hold others: the number of characters. -/
def blockClosedAt (depth count : Nat) : List Char → Option Nat
  | '/' :: '*' :: rest => blockClosedAt (depth + 1) (count + 2) rest
  | '*' :: '/' :: rest =>
    if depth ≤ 1 then some (count + 2) else blockClosedAt (depth - 1) (count + 2) rest
  | _ :: rest => blockClosedAt depth (count + 1) rest
  | [] => none

/-- A carriage return without a line feed after it. -/
def hasBareReturn : List Char → Bool
  | '\r' :: '\n' :: rest => hasBareReturn rest
  | c :: rest => c == '\r' || hasBareReturn rest
  | [] => false

/-- A comment at the beginning of a text. -/
inductive Comment where
  /-- A comment to be dropped. -/
  | plain (rest : List Char)
  /-- A comment that documents what follows, or what it stands in. -/
  | doc (inner : Bool) (text rest : List Char)

/-- The block comment at the beginning of a text, from its opening on. -/
def blockComment? (input : List Char) (make : List Char → List Char → Comment) : Option Comment :=
  (blockClosedAt 0 0 input).map fun count =>
    make ((input.take (count - 2)).drop 3) (input.drop count)

/-- The comment at the beginning of a text. -/
def comment? : List Char → Option Comment
  | '/' :: '/' :: '/' :: '/' :: rest => some (.plain (takeLine rest).2)
  | '/' :: '/' :: '/' :: rest => some (.doc false (takeLine rest).1 (takeLine rest).2)
  | '/' :: '/' :: '!' :: rest => some (.doc true (takeLine rest).1 (takeLine rest).2)
  | '/' :: '/' :: rest => some (.plain (takeLine rest).2)
  | '/' :: '*' :: '*' :: '/' :: rest => some (.plain rest)
  | '/' :: '*' :: '*' :: '*' :: rest =>
    blockComment? ('/' :: '*' :: '*' :: '*' :: rest) fun _ after => .plain after
  | '/' :: '*' :: '*' :: rest => blockComment? ('/' :: '*' :: '*' :: rest) (.doc false)
  | '/' :: '*' :: '!' :: rest => blockComment? ('/' :: '*' :: '!' :: rest) (.doc true)
  | '/' :: '*' :: rest => blockComment? ('/' :: '*' :: rest) fun _ after => .plain after
  | _ => none

/-- The attribute that a documenting comment stands for. -/
def docTokens (inner : Bool) (text : List Char) : List Token :=
  let bang : List Token := if inner then [.mark '!' .alone] else []
  .mark '#' .alone :: bang ++
    [.group .bracket [.word "doc", .mark '=' .alone, .literal (Text.quoted (String.ofList text))]]

/-- The punctuation characters. -/
def marks : List Char := "~!@#$%^&*-=+|;:,<.>/?'".toList

/-- A text begins with a punctuation character that opens no comment. -/
def startsWithMark : List Char → Bool
  | '/' :: '/' :: _ => false
  | '/' :: '*' :: _ => false
  | c :: _ => marks.contains c
  | [] => false

/-- The number of characters of the literal at the beginning of a text, suffix included. -/
def literalLength? (text : List Char) : Option Nat :=
  match Quotation.stringLength? text with
  | some count => some (count + Number.suffixLength (text.drop count))
  | none =>
    match Quotation.characterLength? text with
    | some count => some (count + Number.suffixLength (text.drop count))
    | none =>
      match Number.floatLength? text with
      | some count => some count
      | none => Number.wholeLength? text

/-- Beginnings of quoted literals, which no word has. -/
def quotedStarts : List (List Char) :=
  ["r\"", "r#\"", "r##", "b\"", "b'", "br\"", "br#", "c\"", "cr\"", "cr#"].map String.toList

/-- The number of characters of the word at the beginning of a text. -/
def wordLength? (text : List Char) : Option Nat :=
  if quotedStarts.any fun start => start.isPrefixOf text then none else Word.lengthMaybeRaw? text

/-- An apostrophe before this text begins a lifetime. -/
def beginsLifetime (text : List Char) : Bool :=
  match Word.lengthMaybeRaw? text with
  | some count =>
    match text.drop count with
    | '\'' :: _ => false
    | '#' :: _ => ['r', '#'].isPrefixOf text
    | _ => true
  | none => false

/-- The mark at the beginning of a text. -/
def mark? (text : List Char) : Option Token :=
  if startsWithMark text then
    match text with
    | '\'' :: rest => if beginsLifetime rest then some (.mark '\'' .joint) else none
    | c :: rest => some (.mark c (if startsWithMark rest then .joint else .alone))
    | [] => none
  else none

/-- A stand-in that some tools leave for a token that they could not show. -/
def errorLiteral : String := "(/*ERROR*/)"

/-- The token other than a group at the beginning of a text, and its number of characters. -/
def leaf? (text : List Char) : Option (Token × Nat) :=
  match literalLength? text with
  | some count => some (.literal (String.ofList (text.take count)), count)
  | none =>
    match mark? text with
    | some token => some (token, 1)
    | none =>
      match wordLength? text with
      | some count => some (.word (String.ofList (text.take count)), count)
      | none => none

/-- The delimiter that a character opens. -/
def opening? (c : Char) : Option Delimiter :=
  if c = '(' then some .parenthesis
  else if c = '[' then some .bracket
  else if c = '\x7b' then some .brace
  else none

/-- The delimiter that a character closes. -/
def closing? (c : Char) : Option Delimiter :=
  if c = ')' then some .parenthesis
  else if c = ']' then some .bracket
  else if c = '\x7d' then some .brace
  else none

/-- Groups that are open, innermost first, with the tokens before each in reverse. -/
abbrev Frames := List (Delimiter × List Token)

/-- Where the lexer stands: the open groups, the tokens of the innermost one in reverse, and the
text that is left. -/
structure Position where
  frames : Frames
  tokens : List Token
  input : List Char

/-- One step from a text that is not at its end. -/
def advance? (position : Position) (c : Char) (rest : List Char) : Option Position :=
  let input := c :: rest
  let push (found : List Token) (after : List Char) : Position :=
    { position with tokens := found.reverse ++ position.tokens, input := after }
  if isBlank c then some (push [] rest)
  else
    match comment? input with
    | some (.plain after) => some (push [] after)
    | some (.doc inner text after) =>
      if hasBareReturn text then none else some (push (docTokens inner text) after)
    | none =>
      if errorLiteral.toList.isPrefixOf input then
        some (push [.literal errorLiteral] (input.drop errorLiteral.length))
      else
        match opening? c, closing? c with
        | some delimiter, _ => some ⟨(delimiter, position.tokens) :: position.frames, [], rest⟩
        | none, some delimiter =>
          match position.frames with
          | (opened, outer) :: frames =>
            if opened = delimiter then
              some ⟨frames, .group delimiter position.tokens.reverse :: outer, rest⟩
            else none
          | [] => none
        | none, none => (leaf? input).map fun (token, count) => push [token] (input.drop count)

/-- Run the lexer for at most the given number of steps. -/
def run : Nat → Position → Option (List Token)
  | 0, _ => none
  | steps + 1, position =>
    match position.input with
    | [] => if position.frames.isEmpty then some position.tokens.reverse else none
    | c :: rest => (advance? position c rest).bind (run steps)

end Lexer

/-- The tokens of a text, if it consists of tokens. A byte order mark in front is dropped. -/
def Token.lex? (text : String) : Option (List Token) :=
  let chars :=
    match text.toList with
    | '\ufeff' :: rest => rest
    | chars => chars
  Lexer.run (chars.length + 1) ⟨[], [], chars⟩

end Typestate
