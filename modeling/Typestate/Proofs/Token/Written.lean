import Typestate.Proofs.Token.LeafExtent

/-!
# Reading what is written

Tokens are written with blanks between them but behind joined marks. What is written so is read as
the same tokens, if every word and every literal is a leaf by itself and every joined mark has a mark
behind it. The tokens of a text are of this kind, those of its groups included.
-/

namespace Typestate

open Unicode

/-! ### Tokens as characters -/

namespace Token

mutual

/-- The characters of a token as it is written. -/
def chars : Token → List Char
  | .word text => text.toList
  | .mark char _ => [char]
  | .literal text => text.toList
  | .group delimiter body =>
    delimiter.opening.toList ++ (charsList body ++ (delimiter.closing body.isEmpty).toList)

/-- The characters of tokens as they are written. -/
def charsList : List Token → List Char
  | [] => []
  | token :: rest =>
    token.chars ++ if token.isJoint || rest.isEmpty then charsList rest else ' ' :: charsList rest

end

mutual

/-- A token is written character by character. -/
theorem toList_renderOnto (out : String) :
    ∀ token : Token, (token.renderOnto out).toList = out.toList ++ token.chars
  | .word _ => by simp only [renderOnto, chars, String.toList_append]
  | .mark _ _ => by simp only [renderOnto, chars, String.toList_push]
  | .literal _ => by simp only [renderOnto, chars, String.toList_append]
  | .group delimiter body => by
    rw [renderOnto, chars, String.toList_append, toList_renderListOnto _ body,
      String.toList_append, List.append_assoc, List.append_assoc]

/-- Tokens are written character by character. -/
theorem toList_renderListOnto (out : String) :
    ∀ tokens : List Token, (renderListOnto out tokens).toList = out.toList ++ charsList tokens
  | [] => (List.append_nil _).symm
  | token :: rest => by
    rw [renderListOnto, charsList, toList_renderListOnto _ rest]
    split
    · rw [toList_renderOnto, List.append_assoc]
    · rw [String.toList_push, toList_renderOnto, List.append_assoc, List.append_assoc]
      rfl

end

theorem toList_render (tokens : List Token) : (render tokens).toList = charsList tokens :=
  toList_renderListOnto "" tokens

end Token

open Token

namespace Lexer

/-! ### Tokens that are read back -/

/-- The character that the first token begins with, if it may follow a joined mark. -/
def frontMark? : List Token → Option Char
  | .mark c _ :: _ => some c
  | .literal text :: _ => text.toList.head?
  | _ => none

/-- The tokens are read back as they are written. The last of them may be a joined mark of the given
ones. -/
inductive WrittenTo : (Char → Prop) → List Token → Prop
  | nil {isOpen} : WrittenTo isOpen []
  | leaf {isOpen token spelling rest} (hspelling : spelled? token = some spelling)
    (hleaf : leaf? spelling = some (token, spelling.length)) (hrest : WrittenTo isOpen rest) :
    WrittenTo isOpen (token :: rest)
  | unknown {isOpen rest} (hrest : WrittenTo isOpen rest) :
    WrittenTo isOpen (.literal errorLiteral :: rest)
  | alone {isOpen c rest} (hmark : c ∈ marks) (hquote : c ≠ '\'') (hrest : WrittenTo isOpen rest) :
    WrittenTo isOpen (.mark c .alone :: rest)
  | joint {isOpen c rest} (hmark : c ∈ marks) (hquote : c ≠ '\'') {next : Char}
    (hnext : frontMark? rest = some next) (hnextMark : next ∈ marks)
    (hcomment : c = '/' → next ∉ ['/', '*']) (hrest : WrittenTo isOpen rest) :
    WrittenTo isOpen (.mark c .joint :: rest)
  | lifetime {isOpen token spelling rest} (hspelling : spelled? token = some spelling)
    (hlifetime : ∀ tail, EndsLeaf tail → beginsLifetime (spelling ++ tail) = true)
    (hrest : WrittenTo isOpen (token :: rest)) : WrittenTo isOpen (.mark '\'' .joint :: token :: rest)
  | last {isOpen c} (hopen : isOpen c) : WrittenTo isOpen [.mark c .joint]
  | group {isOpen delimiter body rest} (hbody : WrittenTo (fun _ => False) body)
    (hrest : WrittenTo isOpen rest) : WrittenTo isOpen (.group delimiter body :: rest)

/-- The tokens are read back as they are written. -/
abbrev Written : List Token → Prop := WrittenTo fun _ => False

/-- Every character that a word or a literal begins with begins nothing else. -/
theorem beginsLeaf_of_leaf? {token : Token} {spelling : List Char}
    (hspelling : spelled? token = some spelling)
    (hleaf : leaf? spelling = some (token, spelling.length)) :
    ∃ c rest, spelling = c :: rest ∧ BeginsLeaf c := by
  have hquoted : ∀ c ∈ '"' :: '\'' :: quoteSigns, BeginsLeaf c := by
    have hall : ('"' :: '\'' :: quoteSigns).all
        (fun c => !isBlank c && !otherStarts.contains c) = true := by decide
    intro c hc
    have hhere := List.all_eq_true.mp hall c hc
    simp only [Bool.and_eq_true, Bool.not_eq_true'] at hhere
    exact ⟨hhere.1, by simpa using hhere.2⟩
  have hsigned : ∀ {quote : Char}, quote ∈ ['"', '\''] → afterSigns? spelling = some quote →
      ∃ c rest, spelling = c :: rest ∧ BeginsLeaf c := by
    intro quote hquote hafter
    cases spelling with
    | nil => contradiction
    | cons c rest =>
      refine ⟨c, rest, rfl, hquoted c ?_⟩
      by_cases hc : c ∈ quoteSigns
      · exact List.mem_cons_of_mem _ (List.mem_cons_of_mem _ hc)
      · rw [afterSigns?, List.dropWhile_cons_of_neg (by simpa using hc)] at hafter
        rw [Option.some.inj hafter]
        exact List.mem_append_left quoteSigns hquote
  unfold leaf? at hleaf
  split at hleaf
  · rename_i count hliteral
    unfold literalLength? at hliteral
    split at hliteral
    · rename_i hstring
      exact hsigned (by decide) (afterSigns?_of_stringLength? hstring)
    · split at hliteral
      · rename_i hcharacter
        exact hsigned (by decide) (afterSigns?_of_characterLength? hcharacter)
      · cases spelling with
        | nil => contradiction
        | cons c rest =>
          refine ⟨c, rest, rfl, ?_⟩
          cases hc : c.isDigit with
          | true => exact beginsLeaf_of_isDigit hc
          | false =>
            rw [Number.floatLength?_eq_none hc, Number.wholeLength?_eq_none hc] at hliteral
            contradiction
  · split at hleaf
    · rename_i hmark
      rw [← (Prod.mk.inj (Option.some.inj hleaf)).1, spelled?_of_mark? hmark] at hspelling
      contradiction
    · split at hleaf
      · rename_i count hlength
        obtain ⟨-, rfl⟩ := Prod.mk.inj (Option.some.inj hleaf)
        unfold wordLength? at hlength
        split at hlength
        · contradiction
        · have hword := Word.isWord_take hlength
          rw [List.take_length] at hword
          obtain ⟨c, rest, rfl, hstart⟩ := hword.exists_cons
          exact ⟨c, rest, rfl, isBlank_of_start hstart, (not_mem_of_isIdentifierStart hstart).2.2⟩
      · contradiction

/-! ### Comments -/

/-- A comment opens at the beginning of the text. -/
def opensComment : List Char → Bool
  | '/' :: second :: _ => second == '/' || second == '*'
  | _ => false

theorem opensComment_cons {c : Char} (h : c ≠ '/') (rest : List Char) :
    opensComment (c :: rest) = false := by
  unfold opensComment
  split
  · rename_i hparts
    exact absurd (List.cons.inj hparts).1 h
  · rfl

theorem comment?_of_opensComment {text : List Char} (h : opensComment text = false) :
    comment? text = none := by
  unfold comment?
  split <;> first | rfl | (simp [opensComment] at h)

theorem startsWithMark_of_opensComment {c : Char} {rest : List Char}
    (h : opensComment (c :: rest) = false) : startsWithMark (c :: rest) = marks.contains c := by
  unfold startsWithMark
  split
  · rename_i hparts
    rw [hparts] at h
    contradiction
  · rename_i hparts
    rw [hparts] at h
    contradiction
  · rename_i hparts
    rw [(List.cons.inj hparts).1]
  · contradiction

theorem mem_marks_of_startsWithMark {c : Char} {rest : List Char}
    (h : startsWithMark (c :: rest) = true) :
    opensComment (c :: rest) = false ∧ c ∈ marks := by
  have hopens : opensComment (c :: rest) = false := by
    by_contra hnot
    unfold opensComment at hnot
    split at hnot
    · rename_i second others hparts
      rw [hparts] at h
      rw [Bool.not_eq_false, Bool.or_eq_true, beq_iff_eq, beq_iff_eq] at hnot
      rcases hnot with rfl | rfl
      · contradiction
      · contradiction
    · contradiction
  rw [startsWithMark_of_opensComment hopens] at h
  exact ⟨hopens, by simpa using h⟩

/-- Nothing that ends a leaf opens a comment, nor is it a mark. -/
theorem opensComment_of_endsLeaf {tail : List Char} (h : EndsLeaf tail) :
    opensComment tail = false ∧ startsWithMark tail = false := by
  cases tail with
  | nil => exact ⟨rfl, rfl⟩
  | cons c rest =>
    have hall : leafEnds.all (fun d => d != '/' && !marks.contains d) = true := by decide
    have hc := List.all_eq_true.mp hall c (endsLeaf_cons.mp h)
    rw [Bool.and_eq_true, bne_iff_ne, Bool.not_eq_true'] at hc
    have hopens := opensComment_cons hc.1 rest
    exact ⟨hopens, by rw [startsWithMark_of_opensComment hopens, hc.2]⟩

/-! ### Characters of written tokens -/

/-- What is written behind a token that is no joined mark: a blank before the next one. -/
def separatedChars (rest : List Token) : List Char :=
  if rest.isEmpty then [] else ' ' :: charsList rest

theorem charsList_cons {token : Token} (h : token.isJoint = false) (rest : List Token) :
    charsList (token :: rest) = token.chars ++ separatedChars rest := by
  rw [charsList, separatedChars, h, Bool.false_or]
  cases rest with
  | nil => rfl
  | cons next others => rfl

theorem endsLeaf_separatedChars (rest : List Token) {tail : List Char} (h : EndsLeaf tail) :
    EndsLeaf (separatedChars rest ++ tail) := by
  cases rest with
  | nil => exact h
  | cons next others => exact endsLeaf_cons.mpr (by decide)

/-- A word or a literal is no joined mark, and is written as it is spelled. -/
theorem chars_of_spelled? {token : Token} {spelling : List Char}
    (h : spelled? token = some spelling) : token.isJoint = false ∧ token.chars = spelling := by
  unfold spelled? at h
  split at h
  · exact ⟨rfl, Option.some.inj h⟩
  · exact ⟨rfl, Option.some.inj h⟩
  · contradiction

/-- Tokens begin with the character that may follow a joined mark, if there is one. -/
theorem charsList_of_frontMark? {tokens : List Token} {next : Char}
    (h : frontMark? tokens = some next) : ∃ others, charsList tokens = next :: others := by
  unfold frontMark? at h
  split at h
  · rw [← Option.some.inj h, charsList]
    exact ⟨_, rfl⟩
  · rename_i text rest
    cases hparts : text.toList with
    | nil =>
      rw [hparts] at h
      contradiction
    | cons c others =>
      rw [hparts] at h
      rw [charsList, chars, hparts, Option.some.inj h]
      exact ⟨_, rfl⟩
  · contradiction

/-- No comment opens where tokens are written. -/
theorem WrittenTo.opensComment_eq_false {isOpen : Char → Prop} {tokens : List Token}
    (h : WrittenTo isOpen tokens) (hopen : ∀ c, ¬ isOpen c) {tail : List Char}
    (htail : EndsLeaf tail) : opensComment (charsList tokens ++ tail) = false := by
  cases h with
  | nil => exact (opensComment_of_endsLeaf htail).1
  | leaf hspelling hleaf hrest =>
    obtain ⟨hjoint, hchars⟩ := chars_of_spelled? hspelling
    obtain ⟨c, others, hparts, hbegins⟩ := beginsLeaf_of_leaf? hspelling hleaf
    rw [charsList_cons hjoint, hchars, hparts]
    refine opensComment_cons ?_ _
    rintro rfl
    exact hbegins.other (by decide)
  | unknown hrest =>
    have hparts : errorLiteral.toList = '(' :: errorLiteral.toList.tail := by decide
    rw [charsList_cons rfl, chars, hparts]
    exact opensComment_cons (by decide) _
  | alone hmark hquote hrest =>
    rename_i c rest
    rw [charsList_cons rfl, List.append_assoc]
    change opensComment (c :: (separatedChars rest ++ tail)) = false
    have hends := endsLeaf_separatedChars rest htail
    generalize separatedChars rest ++ tail = others at hends
    unfold opensComment
    split
    · rename_i second more hparts
      obtain ⟨-, rfl⟩ := List.cons.inj hparts
      have hall : leafEnds.all (fun d => !(d == '/' || d == '*')) = true := by decide
      simpa using List.all_eq_true.mp hall second (endsLeaf_cons.mp hends)
    · rfl
  | joint hmark hquote hnext hnextMark hcomment hrest =>
    rename_i c rest next
    obtain ⟨others, hothers⟩ := charsList_of_frontMark? hnext
    have hchars : charsList (.mark c .joint :: rest) = c :: next :: others := by
      rw [charsList, hothers]
      rfl
    rw [hchars]
    by_cases hslash : c = '/'
    · have hnone := hcomment hslash
      simp only [List.mem_cons, List.not_mem_nil, or_false, not_or] at hnone
      rw [hslash]
      simp [opensComment, hnone]
    · exact opensComment_cons hslash _
  | lifetime hspelling hlifetime hrest => exact opensComment_cons (by decide) _
  | last hlast => exact absurd hlast (hopen _)
  | group hbody hrest =>
    rename_i delimiter body rest
    rw [charsList_cons rfl, chars]
    cases delimiter with
    | parenthesis => exact opensComment_cons (by decide) _
    | bracket => exact opensComment_cons (by decide) _
    | brace => exact opensComment_cons (by decide) _

/-- No mark of byte order stands before written tokens. -/
theorem WrittenTo.ne_byteOrder {isOpen : Char → Prop} {tokens : List Token}
    (h : WrittenTo isOpen tokens) (hopen : ∀ c, ¬ isOpen c) (rest : List Char) :
    charsList tokens ≠ '\ufeff' :: rest := by
  intro hparts
  cases h with
  | nil => contradiction
  | leaf hspelling hleaf hrest =>
    obtain ⟨hjoint, hchars⟩ := chars_of_spelled? hspelling
    obtain ⟨c, others, rfl, hbegins⟩ := beginsLeaf_of_leaf? hspelling hleaf
    rw [charsList_cons hjoint, hchars] at hparts
    rw [(List.cons.inj hparts).1] at hbegins
    exact hbegins.other (by decide)
  | unknown hrest =>
    obtain ⟨others, hothers⟩ : ∃ others, errorLiteral.toList = '(' :: others :=
      ⟨errorLiteral.toList.tail, by decide⟩
    rw [charsList_cons rfl, chars, hothers] at hparts
    exact absurd (List.cons.inj hparts).1 (by decide)
  | alone hmark hquote hrest =>
    rw [(List.cons.inj hparts).1] at hmark
    exact absurd hmark (by decide)
  | joint hmark hquote hnext hnextMark hcomment hrest =>
    rw [(List.cons.inj hparts).1] at hmark
    exact absurd hmark (by decide)
  | lifetime hspelling hlifetime hrest => exact absurd (List.cons.inj hparts).1 (by decide)
  | last hlast => exact hopen _ hlast
  | group hbody hrest =>
    rename_i delimiter body rest
    rw [charsList_cons rfl, chars] at hparts
    cases delimiter with
    | parenthesis => exact absurd (List.cons.inj hparts).1 (by decide)
    | bracket => exact absurd (List.cons.inj hparts).1 (by decide)
    | brace => exact absurd (List.cons.inj hparts).1 (by decide)

/-! ### Single tokens at the front -/

/-- A mark other than an apostrophe is read alone or joined, as what follows it is a mark or not. -/
theorem leaf?_mark {c : Char} (hmark : c ∈ marks) (hquote : c ≠ '\'') {rest : List Char}
    (hcomment : opensComment (c :: rest) = false) :
    leaf? (c :: rest) = some (.mark c (if startsWithMark rest then .joint else .alone), 1) := by
  have hmarks : marks.all (fun d => d == '\'' || (!d.isDigit && d != '"' && d != 'r' && d != 'b' &&
      d != 'c')) = true := by decide
  have hother := List.all_eq_true.mp hmarks c hmark
  simp only [Bool.or_eq_true, beq_iff_eq, hquote, false_or, Bool.and_eq_true, Bool.not_eq_true',
    bne_iff_ne] at hother
  obtain ⟨⟨⟨⟨hdigit, hdouble⟩, hr⟩, hb⟩, hc⟩ := hother
  have hstring : Quotation.stringLength? (c :: rest) = none := by
    unfold Quotation.stringLength?
    split <;> simp_all
  have hcharacter : Quotation.characterLength? (c :: rest) = none := by
    unfold Quotation.characterLength?
    split <;> simp_all
  have hliteral : literalLength? (c :: rest) = none := by
    rw [literalLength?, hstring, hcharacter, Number.floatLength?_eq_none hdigit,
      Number.wholeLength?_eq_none hdigit]
  have hfound : mark? (c :: rest) =
      some (.mark c (if startsWithMark rest then .joint else .alone)) := by
    unfold mark?
    rw [startsWithMark_of_opensComment hcomment, if_pos (by simpa using hmark)]
    split
    · rename_i hparts
      exact absurd (List.cons.inj hparts).1 hquote
    · rename_i hparts
      obtain ⟨rfl, rfl⟩ := List.cons.inj hparts
      rfl
    · contradiction
  rw [leaf?, hliteral, hfound]

/-- An apostrophe before a lifetime is no character literal. -/
theorem characterLength?_of_beginsLifetime {rest : List Char} (h : beginsLifetime rest = true) :
    Quotation.characterLength? ('\'' :: rest) = none := by
  cases rest with
  | nil => rfl
  | cons c others =>
    have hlength : ∀ more, others ≠ '\'' :: more := by
      rintro more rfl
      have hplain : Word.lengthMaybeRaw? (c :: '\'' :: more) = Word.length? (c :: '\'' :: more) := by
        unfold Word.lengthMaybeRaw?
        split
        · rename_i hparts
          exact absurd (List.cons.inj (List.cons.inj hparts).2).1 (by decide)
        · rfl
      have hpart : isIdentifierPart '\'' = false := by decide +kernel
      rw [beginsLifetime, hplain, Word.length?,
        List.takeWhile_cons_of_neg (Bool.eq_false_iff.mp hpart)] at h
      cases hstart : isIdentifierStart c with
      | true => simp [hstart] at h
      | false => simp [hstart] at h
    have hescape : c ≠ '\\' := by
      rintro rfl
      have hstart : isIdentifierStart '\\' = false := by decide +kernel
      simp [beginsLifetime, Word.lengthMaybeRaw?, Word.length?, hstart] at h
    have hclosed : Quotation.characterClosedAt .text (c :: others) = none := by
      simp [Quotation.characterClosedAt]
    rw [Quotation.characterLength?, hclosed]
    rfl

/-- An apostrophe is read before a lifetime. -/
theorem leaf?_apostrophe {rest : List Char} (h : beginsLifetime rest = true) :
    leaf? ('\'' :: rest) = some (.mark '\'' .joint, 1) := by
  have hliteral : literalLength? ('\'' :: rest) = none := by
    rw [literalLength?, characterLength?_of_beginsLifetime h]
    rfl
  have hstarts : startsWithMark ('\'' :: rest) = true := by
    rw [startsWithMark_of_opensComment (opensComment_cons (by decide) rest)]
    rfl
  rw [leaf?, hliteral, mark?, if_pos hstarts]
  simp only [h, if_true]

/-! ### Running over written tokens -/

/-- The lexer gets from one position to another one in no more steps than characters. -/
def Position.Reaches (start finish : Position) : Prop :=
  ∃ count, count + finish.input.length ≤ start.input.length ∧
    ∀ steps, run (count + steps) start = run steps finish

namespace Position

theorem Reaches.refl (position : Position) : position.Reaches position :=
  ⟨0, by rw [Nat.zero_add], fun steps => by rw [Nat.zero_add]⟩

theorem Reaches.trans {first second third : Position} (h : first.Reaches second)
    (hnext : second.Reaches third) : first.Reaches third := by
  obtain ⟨count, hcount, hrun⟩ := h
  obtain ⟨more, hmore, hrunMore⟩ := hnext
  refine ⟨count + more, by omega, fun steps => ?_⟩
  rw [Nat.add_assoc, hrun, hrunMore]

variable {frames : Frames} {tokens : List Token} {c : Char} {rest : List Char} {next : Position}

/-- One step. -/
theorem Reaches.advance (h : advance? ⟨frames, tokens, c :: rest⟩ c rest = some next)
    (hlength : next.input.length ≤ rest.length) : Reaches ⟨frames, tokens, c :: rest⟩ next := by
  refine ⟨1, by rw [List.length_cons]; omega, fun steps => ?_⟩
  rw [Nat.add_comm, run]
  simp only [h, Option.bind_some]

/-- A blank is passed over. -/
theorem Reaches.blank :
    Reaches ⟨frames, tokens, ' ' :: rest⟩ ⟨frames, tokens, rest⟩ :=
  .advance (by simp [Lexer.advance?, (by decide : isBlank ' ' = true)]) (Nat.le_refl _)

/-- A leaf is taken as a token. -/
theorem Reaches.leaf {token : Token} {count : ℕ} (hblank : isBlank c = false)
    (hcomment : opensComment (c :: rest) = false) (hdelimiter : c ∉ delimiters)
    (h : leaf? (c :: rest) = some (token, count + 1)) :
    Reaches ⟨frames, tokens, c :: rest⟩ ⟨frames, token :: tokens, rest.drop count⟩ := by
  refine .advance ?_ (List.length_drop .. ▸ Nat.sub_le _ _)
  rw [advance?_of_comment? hblank (comment?_of_opensComment hcomment) hdelimiter, h]
  rfl

/-- What separates tokens is passed over. -/
theorem Reaches.separated (others : List Token) (tail : List Char) :
    Reaches ⟨frames, tokens, separatedChars others ++ tail⟩
      ⟨frames, tokens, charsList others ++ tail⟩ := by
  cases others with
  | nil => exact .refl _
  | cons first more => exact .blank

/-- The stand-in for a token is taken as a literal. -/
theorem Reaches.unknown : Reaches ⟨frames, tokens, errorLiteral.toList ++ rest⟩
    ⟨frames, .literal errorLiteral :: tokens, rest⟩ := by
  obtain ⟨others, hparts⟩ : ∃ others, errorLiteral.toList = '(' :: others :=
    ⟨errorLiteral.toList.tail, by decide⟩
  have hfound : errorLiteral.toList.isPrefixOf ('(' :: (others ++ rest)) = true :=
    List.isPrefixOf_iff_prefix.mpr ⟨rest, by rw [hparts, List.cons_append]⟩
  have hdrop : ('(' :: (others ++ rest)).drop errorLiteral.length = rest := by
    rw [← String.length_toList, hparts, ← List.cons_append, List.drop_left]
  have hstep : Lexer.advance? ⟨frames, tokens, '(' :: (others ++ rest)⟩ '(' (others ++ rest) =
      some ⟨frames, .literal errorLiteral :: tokens, rest⟩ := by
    simp [Lexer.advance?, (by decide : isBlank '(' = false), comment?_eq_none, hfound, hdrop]
  rw [hparts]
  exact .advance hstep (List.suffix_append others rest).length_le

/-- The character of a delimiter opens a group, unless it begins the stand-in for a token. -/
theorem advance?_opening {delimiter : Delimiter} (hopening : opening? c = some delimiter)
    (hcomment : opensComment rest = false) :
    Lexer.advance? ⟨frames, tokens, c :: rest⟩ c rest =
      some ⟨(delimiter, tokens) :: frames, [], rest⟩ := by
  have hmem : c ∈ ['(', '[', '\x7b'] := by
    by_contra hnone
    simp only [List.mem_cons, List.not_mem_nil, or_false, not_or] at hnone
    simp [opening?, hnone] at hopening
  have hall : ['(', '[', '\x7b'].all (fun d => !isBlank d && d != '/') = true := by decide
  have hplain := List.all_eq_true.mp hall c hmem
  rw [Bool.and_eq_true, Bool.not_eq_true', bne_iff_ne] at hplain
  have herror : errorLiteral.toList.isPrefixOf (c :: rest) = false := by
    rw [Bool.eq_false_iff]
    intro hfound
    obtain ⟨others, hothers⟩ := List.isPrefixOf_iff_prefix.mp hfound
    have hparts : errorLiteral.toList = '(' :: '/' :: '*' :: errorLiteral.toList.drop 3 := by decide
    rw [hparts, List.cons_append] at hothers
    rw [← (List.cons.inj hothers).2] at hcomment
    contradiction
  simp [Lexer.advance?, hplain.1, comment?_eq_none hplain.2, herror, hopening]

/-- A group is opened. -/
theorem Reaches.opening (delimiter : Delimiter) (hcomment : opensComment rest = false) :
    Reaches ⟨frames, tokens, delimiter.opening.toList ++ rest⟩
      ⟨(delimiter, tokens) :: frames, [], rest⟩ := by
  cases delimiter with
  | parenthesis => exact .advance (advance?_opening rfl hcomment) (Nat.le_refl _)
  | bracket => exact .advance (advance?_opening rfl hcomment) (Nat.le_refl _)
  | brace =>
    have hblank : opensComment (' ' :: rest) = false := opensComment_cons (by decide) rest
    exact (Reaches.advance (advance?_opening rfl hblank) (Nat.le_refl _)).trans .blank

/-- The character of a delimiter closes its group. -/
theorem advance?_closing {delimiter : Delimiter} (hclosing : closing? c = some delimiter)
    (body : List Token) :
    Lexer.advance? ⟨(delimiter, tokens) :: frames, body.reverse, c :: rest⟩ c rest =
      some ⟨frames, .group delimiter body :: tokens, rest⟩ := by
  have hmem : c ∈ [')', ']', '\x7d'] := by
    by_contra hnone
    simp only [List.mem_cons, List.not_mem_nil, or_false, not_or] at hnone
    simp [closing?, hnone] at hclosing
  have hall : [')', ']', '\x7d'].all
      (fun d => !isBlank d && d != '/' && d != '(' && (opening? d).isNone) = true := by decide
  have hplain := List.all_eq_true.mp hall c hmem
  simp only [Bool.and_eq_true, Bool.not_eq_true', bne_iff_ne, Option.isNone_iff_eq_none] at hplain
  obtain ⟨⟨⟨hblank, hslash⟩, hparenthesis⟩, hopening⟩ := hplain
  have herror : errorLiteral.toList.isPrefixOf (c :: rest) = false := by
    simp [errorLiteral, List.isPrefixOf, Ne.symm hparenthesis]
  simp [Lexer.advance?, hblank, comment?_eq_none hslash, herror, hopening, hclosing]

/-- A group is closed. -/
theorem Reaches.closing (delimiter : Delimiter) (body : List Token) (isEmpty : Bool) :
    Reaches ⟨(delimiter, tokens) :: frames, body.reverse,
        (delimiter.closing isEmpty).toList ++ rest⟩
      ⟨frames, .group delimiter body :: tokens, rest⟩ := by
  cases delimiter with
  | parenthesis =>
    have hchars : (Delimiter.parenthesis.closing isEmpty).toList = [')'] := by
      cases isEmpty <;> rfl
    rw [hchars]
    exact .advance (advance?_closing rfl body) (Nat.le_refl _)
  | bracket =>
    have hchars : (Delimiter.bracket.closing isEmpty).toList = [']'] := by
      cases isEmpty <;> rfl
    rw [hchars]
    exact .advance (advance?_closing rfl body) (Nat.le_refl _)
  | brace =>
    have hbrace : Reaches ⟨(.brace, tokens) :: frames, body.reverse, '\x7d' :: rest⟩
        ⟨frames, .group .brace body :: tokens, rest⟩ :=
      .advance (advance?_closing rfl body) (Nat.le_refl _)
    cases isEmpty with
    | true => exact hbrace
    | false => exact Reaches.blank.trans hbrace

end Position

/-- What closes a group ends a leaf. -/
theorem endsLeaf_closing (delimiter : Delimiter) (isEmpty : Bool) (rest : List Char) :
    EndsLeaf ((delimiter.closing isEmpty).toList ++ rest) := by
  have hfirst : ∃ c ∈ leafEnds, ∃ others, (delimiter.closing isEmpty).toList = c :: others := by
    cases delimiter with
    | parenthesis => exact ⟨')', by decide, [], by cases isEmpty <;> rfl⟩
    | bracket => exact ⟨']', by decide, [], by cases isEmpty <;> rfl⟩
    | brace =>
      cases isEmpty with
      | true => exact ⟨'\x7d', by decide, [], rfl⟩
      | false => exact ⟨' ', by decide, ['\x7d'], rfl⟩
  obtain ⟨c, hc, others, hchars⟩ := hfirst
  rw [hchars]
  exact endsLeaf_cons.mpr hc

/-- The marks are no blanks and delimit no groups. -/
theorem plain_of_mem_marks {c : Char} (h : c ∈ marks) : isBlank c = false ∧ c ∉ delimiters := by
  have hall : marks.all (fun d => !isBlank d && !delimiters.contains d) = true := by decide
  have hc := List.all_eq_true.mp hall c h
  rw [Bool.and_eq_true, Bool.not_eq_true', Bool.not_eq_true'] at hc
  exact ⟨hc.1, by simpa using hc.2⟩

/-- No leaf begins with a delimiter. -/
theorem BeginsLeaf.not_mem_delimiters {c : Char} (h : BeginsLeaf c) : c ∉ delimiters := by
  have hall : delimiters.all otherStarts.contains = true := by decide
  exact fun hc => h.other (by simpa using List.all_eq_true.mp hall c hc)

/-- Written tokens are read one after another, up to what ends a leaf. -/
theorem WrittenTo.reaches {isOpen : Char → Prop} {written : List Token}
    (h : WrittenTo isOpen written) (hopen : ∀ c, ¬ isOpen c) (frames : Frames)
    (tokens : List Token) {tail : List Char} (htail : EndsLeaf tail) :
    Position.Reaches ⟨frames, tokens, charsList written ++ tail⟩
      ⟨frames, written.reverse ++ tokens, tail⟩ := by
  induction h generalizing frames tokens tail with
  | nil => exact .refl _
  | leaf hspelling hleaf hrest ih =>
    rename_i token spelling rest
    obtain ⟨hjoint, hchars⟩ := chars_of_spelled? hspelling
    obtain ⟨c, others, rfl, hbegins⟩ := beginsLeaf_of_leaf? hspelling hleaf
    have hends := endsLeaf_separatedChars rest htail
    have hagain := (leaf?_append hleaf hspelling).2.2.2 _ hends
    have hslash : c ≠ '/' := by
      rintro rfl
      exact hbegins.other (by decide)
    have htoken : Position.Reaches
        ⟨frames, tokens, c :: (others ++ (separatedChars rest ++ tail))⟩
        ⟨frames, token :: tokens, (others ++ (separatedChars rest ++ tail)).drop others.length⟩ :=
      .leaf hbegins.blank (opensComment_cons hslash _) hbegins.not_mem_delimiters hagain
    rw [List.drop_left] at htoken
    rw [charsList_cons hjoint, hchars, List.append_assoc, List.cons_append, List.reverse_cons,
      List.append_assoc]
    exact htoken.trans ((Position.Reaches.separated rest tail).trans (ih hopen _ _ htail))
  | unknown hrest ih =>
    rename_i rest
    rw [charsList_cons rfl, List.append_assoc, List.reverse_cons, List.append_assoc]
    exact Position.Reaches.unknown.trans
      ((Position.Reaches.separated rest tail).trans (ih hopen _ _ htail))
  | alone hmark hquote hrest ih =>
    rename_i c rest
    have hcomment := (WrittenTo.alone hmark hquote hrest).opensComment_eq_false hopen htail
    rw [charsList_cons rfl rest] at hcomment
    change opensComment (c :: (separatedChars rest ++ tail)) = false at hcomment
    obtain ⟨hblank, hdelimiter⟩ := plain_of_mem_marks hmark
    have hleaf := leaf?_mark hmark hquote hcomment
    rw [(opensComment_of_endsLeaf (endsLeaf_separatedChars rest htail)).2] at hleaf
    have htoken : Position.Reaches ⟨frames, tokens, c :: (separatedChars rest ++ tail)⟩
        ⟨frames, .mark c .alone :: tokens, separatedChars rest ++ tail⟩ :=
      .leaf hblank hcomment hdelimiter hleaf
    rw [charsList_cons rfl, List.append_assoc, List.reverse_cons, List.append_assoc]
    exact htoken.trans ((Position.Reaches.separated rest tail).trans (ih hopen _ _ htail))
  | joint hmark hquote hnext hnextMark hslash hrest ih =>
    rename_i c rest next
    have hcomment : opensComment (c :: (charsList rest ++ tail)) = false :=
      (WrittenTo.joint hmark hquote hnext hnextMark hslash hrest).opensComment_eq_false hopen htail
    obtain ⟨hblank, hdelimiter⟩ := plain_of_mem_marks hmark
    have hstarts : startsWithMark (charsList rest ++ tail) = true := by
      have hrestComment := hrest.opensComment_eq_false hopen htail
      obtain ⟨others, hothers⟩ := charsList_of_frontMark? hnext
      rw [hothers, List.cons_append] at hrestComment ⊢
      rw [startsWithMark_of_opensComment hrestComment]
      simpa using hnextMark
    have hleaf := leaf?_mark hmark hquote hcomment
    rw [hstarts] at hleaf
    have htoken : Position.Reaches ⟨frames, tokens, c :: (charsList rest ++ tail)⟩
        ⟨frames, .mark c .joint :: tokens, charsList rest ++ tail⟩ :=
      .leaf hblank hcomment hdelimiter hleaf
    rw [List.reverse_cons, List.append_assoc]
    exact htoken.trans (ih hopen _ _ htail)
  | lifetime hspelling hlifetime hrest ih =>
    rename_i token spelling rest
    obtain ⟨hjoint, hchars⟩ := chars_of_spelled? hspelling
    have hbegins : beginsLifetime (charsList (token :: rest) ++ tail) = true := by
      rw [charsList_cons hjoint, hchars, List.append_assoc]
      exact hlifetime _ (endsLeaf_separatedChars rest htail)
    have htoken : Position.Reaches ⟨frames, tokens, '\'' :: (charsList (token :: rest) ++ tail)⟩
        ⟨frames, .mark '\'' .joint :: tokens, charsList (token :: rest) ++ tail⟩ :=
      .leaf (by decide) (opensComment_cons (by decide) _) (by decide) (leaf?_apostrophe hbegins)
    rw [List.reverse_cons, List.append_assoc]
    exact htoken.trans (ih hopen _ _ htail)
  | last hlast => exact absurd hlast (hopen _)
  | group hbody hrest ihBody ih =>
    rename_i delimiter body rest
    have hclosed : ∀ c : Char, ¬ (fun _ => False) c := fun _ => not_false
    have hends := endsLeaf_closing delimiter body.isEmpty (separatedChars rest ++ tail)
    rw [charsList_cons rfl, chars, List.append_assoc, List.append_assoc, List.append_assoc,
      List.reverse_cons, List.append_assoc]
    refine (Position.Reaches.opening delimiter (hbody.opensComment_eq_false hclosed hends)).trans ?_
    refine (ihBody hclosed _ _ hends).trans ?_
    rw [List.append_nil]
    refine (Position.Reaches.closing delimiter body body.isEmpty).trans ?_
    exact (Position.Reaches.separated rest tail).trans (ih hopen _ _ htail)

end Lexer

open Lexer

/-- Written tokens are the tokens of what is written. -/
theorem Token.lex?_render {tokens : List Token} (h : Written tokens) :
    lex? (render tokens) = some tokens := by
  have hclosed : ∀ c : Char, ¬ (fun _ => False) c := fun _ => not_false
  obtain ⟨count, hcount, hrun⟩ := h.reaches hclosed [] [] endsLeaf_nil
  simp only [List.append_nil] at hcount hrun
  have hread : run ((charsList tokens).length + 1) ⟨[], [], charsList tokens⟩ = some tokens := by
    obtain ⟨more, hmore⟩ := Nat.exists_eq_add_of_le hcount
    have hsteps : (charsList tokens).length + 1 = count + (more + 1) := by
      rw [List.length_nil] at hmore
      omega
    rw [hsteps, hrun]
    simp [run]
  unfold lex?
  rw [toList_render]
  split
  · rename_i hparts
    exact absurd hparts (h.ne_byteOrder hclosed _)
  · exact hread

end Typestate
