/-!
# Tokens

Source text as trees of tokens: words, punctuation marks, literals, and groups between
delimiters. A mark knows whether it is joined to what follows, which is how an operator of
several characters is told from its parts.

Text is written back in one fixed layout: tokens are set apart by one space, except that nothing
follows a joined mark, and only braces have space inside.
-/

namespace Typestate

/-- Whether something follows a punctuation mark at once. -/
inductive Spacing where
  /-- The mark stands by itself. -/
  | alone
  /-- The mark is joined to the token after it. -/
  | joint
  deriving DecidableEq, Repr

/-- The three pairs of delimiters. -/
inductive Delimiter where
  | parenthesis
  | bracket
  | brace
  deriving DecidableEq, Repr

/-- A token, or a group of tokens between delimiters. -/
inductive Token where
  /-- An identifier, a keyword or a low line. -/
  | word (text : String)
  /-- A punctuation character. -/
  | mark (char : Char) (spacing : Spacing)
  /-- A literal as it is written, with its suffix. -/
  | literal (text : String)
  /-- The tokens between a pair of delimiters. -/
  | group (delimiter : Delimiter) (body : List Token)
  deriving Repr

/-- What is written before the tokens of a group. -/
def Delimiter.opening : Delimiter → String
  | .parenthesis => "("
  | .bracket => "["
  | .brace => "\x7b "

/-- What is written after the tokens of a group, which may be none. -/
def Delimiter.closing (delimiter : Delimiter) (isEmpty : Bool) : String :=
  match delimiter with
  | .parenthesis => ")"
  | .bracket => "]"
  | .brace => if isEmpty then "\x7d" else " \x7d"

namespace Token

/-- The token is a mark that joins what follows it. -/
def isJoint : Token → Bool
  | .mark _ .joint => true
  | _ => false

/-- The token is a group between the given delimiters. -/
def isGroup (delimiter : Delimiter) : Token → Bool
  | .group found _ => found == delimiter
  | _ => false

mutual

/-- Write a token after the given text. -/
def renderOnto (out : String) : Token → String
  | .word text => out ++ text
  | .mark char _ => out.push char
  | .literal text => out ++ text
  | .group delimiter body =>
    renderListOnto (out ++ delimiter.opening) body ++ delimiter.closing body.isEmpty

/-- Write tokens after the given text, with a space after each but the last and joined marks. -/
def renderListOnto (out : String) : List Token → String
  | [] => out
  | token :: rest =>
    let out := token.renderOnto out
    renderListOnto (if token.isJoint || rest.isEmpty then out else out.push ' ') rest

end

/-- The text of tokens. -/
def render (tokens : List Token) : String := renderListOnto "" tokens

mutual

/-- The number of tokens in a token, counting a group and each token in it. -/
def size : Token → Nat
  | .word _ => 1
  | .mark _ _ => 1
  | .literal _ => 1
  | .group _ body => sizeList body + 1

/-- The number of tokens in a list, groups opened. -/
def sizeList : List Token → Nat
  | [] => 0
  | token :: rest => token.size + sizeList rest

end

/-- The marks of one operator: all but the last are joint. -/
def ofOperator : List Char → List Token
  | [] => []
  | [c] => [.mark c .alone]
  | c :: rest => .mark c .joint :: ofOperator rest

/-- A lifetime, which is an apostrophe joined to a name. -/
def ofLifetime (name : String) : List Token := [.mark '\'' .joint, .word name]

end Token

end Typestate
