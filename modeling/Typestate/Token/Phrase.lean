import Typestate.Text.Quoted
import Typestate.Token.Basic

/-!
# Phrases

Tokens for source text that is written out: words and operators set apart by blanks, groups and
documentation.
-/

namespace Typestate.Token

/-- One word or one operator of a phrase. -/
def ofPiece (piece : List Char) : List Token :=
  match piece with
  | [] => []
  | c :: _ => if c.isAlpha || c == '_' then [.word (String.ofList piece)] else ofOperator piece

/-- The tokens of a phrase, given the piece read so far. -/
def phraseFrom (piece : List Char) : List Char → List Token
  | [] => ofPiece piece
  | c :: rest =>
    if c == ' ' then ofPiece piece ++ phraseFrom [] rest else phraseFrom (piece ++ [c]) rest

/-- The tokens of words and operators that are set apart by blanks. -/
def phrase (text : String) : List Token := phraseFrom [] text.toList

/-- Tokens in parentheses. -/
def parens (body : List Token) : Token := .group .parenthesis body

/-- Tokens in brackets. -/
def brackets (body : List Token) : Token := .group .bracket body

/-- Tokens in braces. -/
def braces (body : List Token) : Token := .group .brace body

/-- A string literal of a text. -/
def string (text : String) : Token := .literal (Text.quoted text)

/-- The documentation of what follows. -/
def doc (text : String) : List Token := phrase "#" ++ [brackets (phrase "doc =" ++ [string text])]

/-- Code that fails to compile with the given message. -/
def diagnostic (message : String) : List Token :=
  phrase ":: core :: compile_error !" ++ [braces [string message]]

end Typestate.Token
