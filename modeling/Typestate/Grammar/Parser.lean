import Typestate.Grammar.Mismatch
import Typestate.Grammar.Tree
import Typestate.Token.Literal

/-!
# Parsers

A parser takes something from the front of a list of tokens, or says why it does not. What comes
next is decided by looking at the tokens, so a parser that has begun a construct does not go back.
An operator is recognised if its characters stand joined; whether its last character is joined to
what follows does not matter, so `&&` also begins with the operator `&`.

Tokens that are left over in a group do not stop a parser: the first such group is noted beside
what is found, and refused when all is read.
-/

namespace Typestate.Grammar

/-- What a parser finds. -/
structure Found (α : Type) where
  value : α
  /-- The tokens after it. -/
  rest : List Token
  /-- The delimiters of the first group of which tokens are left over. -/
  excess : Option Delimiter

/-- Take something from the front of a list of tokens. -/
def Parser (α : Type) := List Token → Except Mismatch (Found α)

namespace Parser

instance : Monad Parser where
  pure value := fun tokens => .ok ⟨value, tokens, none⟩
  bind parser next := fun tokens => do
    let found ← parser tokens
    let more ← next found.value found.rest
    return { more with excess := found.excess.or more.excess }

/-- The parser that always fails. -/
def fail {α : Type} : Parser α := fun _ => .error (.expected [] false)

/-- Fail where one of several things should stand. -/
def expected {α : Type} (choices : List String) : Parser α := fun tokens =>
  .error (.expected choices tokens.isEmpty)

/-- Fail although what stands here is understood. -/
def refuse {α : Type} (reason : String) : Parser α := fun _ => .error (.refused reason)

/-- The tokens that are left, none of them taken. -/
def ahead : Parser (List Token) := fun tokens => .ok ⟨tokens, tokens, none⟩

/-- Try one parser, and another from the same place if it fails. -/
def orElse {α : Type} (first second : Parser α) : Parser α := fun tokens =>
  match first tokens with
  | .ok found => .ok found
  | .error _ => second tokens

end Parser

/-! ### Looking ahead -/

/-- What follows an operator whose characters stand joined at the front. -/
def afterOperator? : List Char → List Token → Option (List Token)
  | [c], .mark found _ :: rest => if found == c && found != '\'' then some rest else none
  | c :: others, .mark found .joint :: rest =>
    if found == c && found != '\'' then afterOperator? others rest else none
  | _, _ => none

/-- An operator stands at the front. -/
def isOp (text : String) (tokens : List Token) : Bool := (afterOperator? text.toList tokens).isSome

/-- The given word stands at the front. -/
def isWord (text : String) : List Token → Bool
  | .word found :: _ => found == text
  | _ => false

/-- Some word stands at the front. -/
def isAnyWord : List Token → Bool
  | .word _ :: _ => true
  | _ => false

/-- One of several words stands at the front. -/
def isAnyOf (words : List String) (tokens : List Token) : Bool :=
  words.any fun word => isWord word tokens

/-- An identifier stands at the front. -/
def isIdentifier : List Token → Bool
  | .word found :: _ => Word.isIdentifier found
  | _ => false

/-- A lifetime stands at the front. -/
def isLifetime : List Token → Bool
  | .mark '\'' .joint :: .word _ :: _ => true
  | _ => false

/-- A group stands at the front. -/
def isGroup (delimiter : Delimiter) : List Token → Bool
  | token :: _ => token.isGroup delimiter
  | [] => false

/-- A literal stands at the front: a literal token, a truth value or a negative number. -/
def isLiteral : List Token → Bool
  | .literal _ :: _ => true
  | .word text :: _ => text == "true" || text == "false"
  | .mark '-' _ :: .literal text :: _ => Literal.isNumber text
  | _ => false

/-- A string literal stands at the front. -/
def isString : List Token → Bool
  | .literal text :: _ => (Literal.stringValue? text).isSome
  | _ => false

/-- The tokens after the first one; a lifetime counts as one token. -/
def afterOne : List Token → List Token
  | .mark '\'' .joint :: .word _ :: rest => rest
  | _ :: rest => rest
  | [] => []

/-- One of several operators stands at the front. -/
def isOneOf (operators : List String) (tokens : List Token) : Bool :=
  operators.any fun text => isOp text tokens

/-- No token is left. -/
def isAtEnd (tokens : List Token) : Bool := tokens.isEmpty

namespace Parser

/-! ### Single tokens -/

/-- Take an operator. That one is missing is said alike at the end and elsewhere. -/
def operator (text : String) : Parser Node := fun tokens =>
  match afterOperator? text.toList tokens with
  | some rest => .ok ⟨.operator text, rest, none⟩
  | none => .error (.expected [Text.ticked text] false)

/-- Take a given word. -/
def keyword (text : String) : Parser Node := fun tokens =>
  match tokens with
  | .word found :: rest =>
    if found == text then .ok ⟨.word text, rest, none⟩ else expected [Text.ticked text] tokens
  | _ => expected [Text.ticked text] tokens

/-- Take any word. -/
def anyWord : Parser String
  | .word text :: rest => .ok ⟨text, rest, none⟩
  | tokens => expected ["ident"] tokens

/-- Take an identifier. -/
def identifier : Parser String
  | .word text :: rest =>
    if Word.isIdentifier text then .ok ⟨text, rest, none⟩ else .error (.keyword text)
  | tokens => expected ["identifier"] tokens

/-- Take a lifetime. -/
def lifetime : Parser Node
  | .mark '\'' .joint :: .word name :: rest => .ok ⟨.lifetime name, rest, none⟩
  | tokens => expected ["lifetime"] tokens

/-- Take a literal. A negative number is written with its sign apart. -/
def literal : Parser Node := fun tokens =>
  match tokens with
  | .literal text :: rest => .ok ⟨.branch .literal [.literal text], rest, none⟩
  | .word text :: rest =>
    if text == "true" || text == "false" then .ok ⟨.branch .literal [.word text], rest, none⟩
    else expected ["literal"] tokens
  | .mark '-' _ :: .literal text :: rest =>
    if Literal.isNumber text then
      .ok ⟨.branch .literal [.operator "-", .literal text], rest, none⟩
    else expected ["literal"] tokens
  | _ => expected ["literal"] tokens

/-- Take a string literal. -/
def string : Parser Node := fun tokens =>
  match tokens with
  | .literal text :: rest =>
    if (Literal.stringValue? text).isSome then .ok ⟨.literal text, rest, none⟩
    else expected ["string literal"] tokens
  | _ => expected ["string literal"] tokens

/-- Take a group and what a parser finds inside it. -/
def inside {α : Type} (delimiter : Delimiter) (parser : Parser α) : Parser α := fun tokens =>
  match tokens with
  | .group found body :: rest =>
    if found = delimiter then do
      let inner ← parser body
      let own := if inner.rest.isEmpty then none else some delimiter
      return ⟨inner.value, rest, inner.excess.or own⟩
    else expected [delimiterName delimiter] tokens
  | _ => expected [delimiterName delimiter] tokens

/-- Take a group as a tree, the inside of which a parser reads. -/
def group (delimiter : Delimiter) (parser : Parser (List Node)) : Parser Node := do
  return .group delimiter (← inside delimiter parser)

/-- Take a group of any kind as it is. -/
def anyGroup : Parser (Delimiter × Node)
  | .group delimiter body :: rest =>
    .ok ⟨(delimiter, .group delimiter [.verbatim body]), rest, none⟩
  | tokens => expected ["delimiter"] tokens

/-- Take all tokens that are left as they are. -/
def others : Parser (List Node) := fun tokens => .ok ⟨[.verbatim tokens], [], none⟩

/-- Take a group between given delimiters as it is. -/
def groupAsRead (delimiter : Delimiter) : Parser Node := group delimiter others

/-! ### Combinations -/

/-- Run a parser of several trees if a look ahead allows it. -/
def onlyIf (look : List Token → Bool) (parser : Parser (List Node)) : Parser (List Node) :=
  fun tokens => if look tokens then parser tokens else .ok ⟨[], tokens, none⟩

/-- Take a tree as a list of one. -/
def one (parser : Parser Node) : Parser (List Node) := do
  return [← parser]

/-- Run a parser of one tree if a look ahead allows it; the place of the tree is kept otherwise. -/
def slotIf (look : List Token → Bool) (parser : Parser Node) : Parser Node :=
  fun tokens => if look tokens then parser tokens else .ok ⟨.nothing, tokens, none⟩

/-- Take an operator if it is there. -/
def operator? (text : String) : Parser (List Node) := onlyIf (isOp text) (one (operator text))

/-- Take a word if it is there. -/
def keyword? (text : String) : Parser (List Node) := onlyIf (isWord text) (one (keyword text))

/-- Take a lifetime if it is there. -/
def lifetime? : Parser (List Node) := onlyIf isLifetime (one lifetime)

/-- Take a word as a tree. -/
def wordNode (parser : Parser String) : Parser Node := do
  return .word (← parser)

/-- Repeat a parser while a look ahead asks for more, at most the given number of times. -/
def repeatAtMost {α : Type} (more : List Token → Bool) (parser : Parser (List α)) :
    Nat → Parser (List α)
  | 0 => fail
  | rounds + 1 => do
    if more (← ahead) then
      let first ← parser
      let others ← repeatAtMost more parser rounds
      return first ++ others
    else return []

/-- Repeat a parser, which takes at least one token each time, while a look ahead asks for more. -/
def repeatWhile {α : Type} (more : List Token → Bool) (parser : Parser (List α)) :
    Parser (List α) := do
  repeatAtMost more parser ((← ahead).length + 1)

/-- Constructs up to where a look ahead sees the end, a separator between any two of them, in at
most the given number of rounds. -/
def separatedAtMost (separator : String) (atEnd : List Token → Bool) (parser : Parser (List Node)) :
    Nat → Parser (List Node)
  | 0 => fail
  | rounds + 1 => do
    if atEnd (← ahead) then return []
    else
      let first ← parser
      if atEnd (← ahead) then return first
      else
        let between ← operator separator
        let others ← separatedAtMost separator atEnd parser rounds
        return first ++ between :: others

/-- Constructs up to where a look ahead sees the end, a separator between any two of them. -/
def separated (separator : String) (atEnd : List Token → Bool) (parser : Parser (List Node)) :
    Parser (List Node) := do
  separatedAtMost separator atEnd parser ((← ahead).length + 1)

/-- Constructs between commas up to the last token. -/
def commaSeparated (parser : Parser (List Node)) : Parser (List Node) :=
  separated "," isAtEnd parser

/-- Constructs as long as a separator leads to the next one, in at most the given number of
rounds; a look ahead after the separator sees whether there is a next one. -/
def linkedAtMost (separator : String) (more : List Token → Bool) (parser : Parser (List Node)) :
    Nat → Parser (List Node)
  | 0 => fail
  | rounds + 1 => do
    let first ← parser
    if isOp separator (← ahead) then
      let between ← operator separator
      if more (← ahead) then
        let others ← linkedAtMost separator more parser rounds
        return first ++ between :: others
      else return first ++ [between]
    else return first

/-- One or more constructs, as long as a separator leads to the next one. -/
def linked (separator : String) (more : List Token → Bool) (parser : Parser (List Node)) :
    Parser (List Node) := do
  linkedAtMost separator more parser ((← ahead).length + 1)

/-- Constructs as long as a separator leads to the next one; none where a look ahead sees the
end. -/
def linkedUpTo (separator : String) (atEnd : List Token → Bool) (parser : Parser (List Node)) :
    Parser (List Node) :=
  onlyIf (fun tokens => !atEnd tokens) (linked separator (fun tokens => !atEnd tokens) parser)

/-- Keep all tokens from a start on as they were read. -/
def keepFrom (start : List Token) : Parser Node := fun tokens =>
  .ok ⟨.verbatim (start.take (start.length - tokens.length)), tokens, none⟩

/-- Keep the tokens that a parser takes as they are. -/
def asRead {α : Type} (parser : Parser α) : Parser Node := do
  let start ← ahead
  let _ ← parser
  keepFrom start

/-- What a parser finds that takes all tokens. -/
def all {α : Type} (parser : Parser α) (tokens : List Token) : Except Mismatch α := do
  let found ← parser tokens
  match found.excess with
  | some delimiter => .error (.excess (some delimiter))
  | none => if found.rest.isEmpty then return found.value else .error (.excess none)

end Parser

end Typestate.Grammar
