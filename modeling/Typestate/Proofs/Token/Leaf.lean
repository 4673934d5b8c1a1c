import Typestate.Token.Lexer

/-!
# Texts of one token

A text that is one leaf up to its end has that leaf as its only token, unless a blank, a comment or
a group begins with its first character.
-/

namespace Typestate

namespace Lexer

open Unicode

/-- Characters that a comment, a group or a mark of byte order begins with, or a group ends with. -/
def otherStarts : List Char := ['/', '(', ')', '[', ']', '\x7b', '\x7d', '\ufeff']

/-- The character is no blank, and no other begins what is not a leaf. -/
structure BeginsLeaf (c : Char) : Prop where
  blank : isBlank c = false
  other : c ∉ otherStarts

variable {c : Char} {rest : List Char}

theorem comment?_eq_none (h : c ≠ '/') : comment? (c :: rest) = none := by
  unfold comment?
  split <;> simp_all

/-- The characters that delimit groups. -/
def delimiters : List Char := ['(', ')', '[', ']', '\x7b', '\x7d']

/-- Nothing but a leaf is found where neither a blank nor a comment nor a group begins or ends. -/
theorem advance?_of_comment? (hblank : isBlank c = false) (hcomment : comment? (c :: rest) = none)
    (hdelimiter : c ∉ delimiters) (position : Position) :
    advance? position c rest =
      (leaf? (c :: rest)).map fun (token, count) =>
        { position with
          tokens := token :: position.tokens
          input := (c :: rest).drop count } := by
  simp only [delimiters, List.mem_cons, List.not_mem_nil, or_false, not_or] at hdelimiter
  have herror : errorLiteral.toList.isPrefixOf (c :: rest) = false := by
    simp [errorLiteral, List.isPrefixOf, Ne.symm hdelimiter.1]
  have hopening : opening? c = none := by simp [opening?, hdelimiter]
  have hclosing : closing? c = none := by simp [closing?, hdelimiter]
  simp [advance?, hblank, hcomment, herror, hopening, hclosing]

/-- Nothing but a leaf is found at the beginning of the text. -/
theorem advance?_eq_leaf? (h : BeginsLeaf c) (position : Position) :
    advance? position c rest =
      (leaf? (c :: rest)).map fun (token, count) =>
        { position with
          tokens := token :: position.tokens
          input := (c :: rest).drop count } := by
  have hother := h.other
  simp only [otherStarts, List.mem_cons, List.not_mem_nil, or_false, not_or] at hother
  exact advance?_of_comment? h.blank (comment?_eq_none hother.1) (by simp [delimiters, hother])
    position

end Lexer

/-- A leaf that is a whole text is its only token. -/
theorem Token.lex?_of_leaf? {c : Char} {rest : List Char} {token : Token}
    (h : Lexer.BeginsLeaf c) (hleaf : Lexer.leaf? (c :: rest) = some (token, rest.length + 1)) :
    Token.lex? (String.ofList (c :: rest)) = some [token] := by
  have hmark : c ≠ '\ufeff' := by
    rintro rfl
    exact h.other (by decide)
  unfold Token.lex?
  rw [String.toList_ofList]
  split
  · rename_i others hparts
    exact absurd (List.cons.inj hparts).1 hmark
  · simp [Lexer.run, Lexer.advance?_eq_leaf? h, hleaf]

end Typestate
