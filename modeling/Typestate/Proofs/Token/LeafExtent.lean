import Typestate.Proofs.Token.NumberExtent

/-!
# The extent of words and literals

A word or a literal at the beginning of a text is found again, alone or in front of what ends a
leaf.
-/

namespace Typestate

open Unicode

namespace Lexer

/-- Characters that may stand before the quote of a literal. -/
def quoteSigns : List Char := ['r', 'b', 'c', '#']

/-- The first character that is no sign of a quoted literal. -/
def afterSigns? (text : List Char) : Option Char :=
  (text.dropWhile fun c => quoteSigns.contains c).head?

theorem afterSigns?_cons {c : Char} (h : c ∈ quoteSigns) (rest : List Char) :
    afterSigns? (c :: rest) = afterSigns? rest := by
  rw [afterSigns?, List.dropWhile_cons_of_pos (by simpa using h)]
  rfl

theorem afterSigns?_of_rawLength? {content : Quotation.Content} {text : List Char} {n : ℕ}
    (h : Quotation.rawLength? content text = some n) : afterSigns? text = some '"' := by
  obtain ⟨after, htext, -⟩ := exists_takeWhile (· == '#') text
  have hall : ∀ c ∈ text.takeWhile (· == '#'), quoteSigns.contains c = true := by
    intro c hc
    rw [beq_iff_eq.mp (List.mem_takeWhile_imp (p := (· == '#')) hc)]
    rfl
  unfold Quotation.rawLength? at h
  dsimp only at h
  generalize text.takeWhile (· == '#') = signs at htext hall h
  rw [htext, List.drop_left] at h
  split at h
  · rw [htext, afterSigns?, List.dropWhile_append_of_pos hall]
    rfl
  · contradiction

/-- A string has nothing but signs before its quote. -/
theorem afterSigns?_of_stringLength? {text : List Char} {n : ℕ}
    (h : Quotation.stringLength? text = some n) : afterSigns? text = some '"' := by
  unfold Quotation.stringLength? at h
  split at h
  · rfl
  · obtain ⟨m, hm, -⟩ := Option.map_eq_some_iff.mp h
    rw [afterSigns?_cons (by decide), afterSigns?_of_rawLength? hm]
  · rfl
  · obtain ⟨m, hm, -⟩ := Option.map_eq_some_iff.mp h
    rw [afterSigns?_cons (by decide), afterSigns?_cons (by decide), afterSigns?_of_rawLength? hm]
  · rfl
  · obtain ⟨m, hm, -⟩ := Option.map_eq_some_iff.mp h
    rw [afterSigns?_cons (by decide), afterSigns?_cons (by decide), afterSigns?_of_rawLength? hm]
  · contradiction

/-- A character literal has nothing but a sign before its apostrophe. -/
theorem afterSigns?_of_characterLength? {text : List Char} {n : ℕ}
    (h : Quotation.characterLength? text = some n) : afterSigns? text = some '\'' := by
  unfold Quotation.characterLength? at h
  split at h
  · rfl
  · rfl
  · contradiction

/-- What begins with a digit is no quoted literal. -/
theorem quoted_eq_none_of_isDigit {c : Char} (h : c.isDigit = true) (rest : List Char) :
    Quotation.stringLength? (c :: rest) = none ∧ Quotation.characterLength? (c :: rest) = none := by
  have hfirst := mem_digitChars h
  simp only [digitChars, List.mem_cons, List.not_mem_nil, or_false] at hfirst
  rcases hfirst with rfl | rfl | rfl | rfl | rfl | rfl | rfl | rfl | rfl | rfl <;>
    exact ⟨rfl, rfl⟩

/-- A quoted literal and its suffix reach as far in front of what ends a leaf. -/
theorem withSuffix_append {find whole : List Char → Option ℕ} {text : List Char} {count : ℕ}
    (hfind : Quotation.FoundBeforeAny find text count)
    (hwhole : ∀ text count, find text = some count →
      whole text = some (count + Number.suffixLength (text.drop count))) :
    FoundBeforeEnd whole text (count + Number.suffixLength (text.drop count)) := by
  obtain ⟨quoted, behind, rfl, rfl, hquoted⟩ := hfind
  rw [List.drop_left]
  obtain ⟨suffix, after, rfl, hlength, hsuffix⟩ := Number.suffixLength_append behind
  refine ⟨quoted ++ suffix, after, (List.append_assoc ..).symm, ?_, fun tail htail => ?_⟩
  · rw [hlength, List.length_append]
  · rw [List.append_assoc, hwhole _ _ (hquoted _), List.drop_left, hsuffix tail htail, hlength]

/-- What has nothing but signs before an apostrophe is no string. -/
theorem stringLength?_of_characterLength? {text : List Char} {n : ℕ}
    (h : Quotation.characterLength? text = some n) : Quotation.stringLength? text = none := by
  rw [Option.eq_none_iff_forall_ne_some]
  intro count hcount
  have hsame := (afterSigns?_of_stringLength? hcount).symm.trans (afterSigns?_of_characterLength? h)
  exact absurd (Option.some.inj hsame) (by decide)

/-- What is read as a number is a literal as long. -/
theorem literalLength?_of_float {text : List Char} {n : ℕ}
    (h : Number.floatLength? text = some n) : literalLength? text = some n := by
  cases text with
  | nil => contradiction
  | cons c rest =>
    cases hc : c.isDigit with
    | false =>
      rw [Number.floatLength?_eq_none hc] at h
      contradiction
    | true =>
      obtain ⟨hstring, hcharacter⟩ := quoted_eq_none_of_isDigit hc rest
      rw [literalLength?, hstring, hcharacter, h]

theorem literalLength?_of_whole {text : List Char} {n : ℕ}
    (hfloat : Number.floatLength? text = none) (h : Number.wholeLength? text = some n) :
    literalLength? text = some n := by
  cases text with
  | nil => contradiction
  | cons c rest =>
    cases hc : c.isDigit with
    | false =>
      rw [Number.wholeLength?_eq_none hc] at h
      contradiction
    | true =>
      obtain ⟨hstring, hcharacter⟩ := quoted_eq_none_of_isDigit hc rest
      rw [literalLength?, hstring, hcharacter, hfloat, h]

/-- A literal reaches as far in front of what ends a leaf. -/
theorem literalLength?_append {text : List Char} {n : ℕ} (h : literalLength? text = some n) :
    FoundBeforeEnd literalLength? text n := by
  unfold literalLength? at h
  split at h
  · rename_i count hstring
    rw [← Option.some.inj h]
    exact withSuffix_append (Quotation.stringLength?_append hstring)
      fun _ _ hfound => by rw [literalLength?, hfound]
  · split at h
    · rename_i count hcharacter
      rw [← Option.some.inj h]
      exact withSuffix_append (Quotation.characterLength?_append hcharacter)
        fun _ _ hfound => by rw [literalLength?, stringLength?_of_characterLength? hfound, hfound]
    · split at h
      · rename_i count hfloat
        obtain rfl := Option.some.inj h
        obtain ⟨found, after, htext, hlength, htail⟩ := Number.floatLength?_append hfloat
        exact ⟨found, after, htext, hlength,
          fun tail hends => literalLength?_of_float (htail tail hends)⟩
      · rename_i hfloat
        have hwhole : ∃ found after, text = found ++ after ∧ n = found.length ∧
            ∀ tail, EndsLeaf tail → Number.floatLength? (found ++ tail) = none ∧
              Number.wholeLength? (found ++ tail) = some n := by
          cases hbased : Number.isBased text with
          | false => exact Number.wholeLength?_decimal hbased hfloat h
          | true =>
            obtain ⟨letter, rest, rfl, hletter⟩ := Number.isBased_eq_true hbased
            exact Number.wholeLength?_based hletter h
        obtain ⟨found, after, htext, hlength, htail⟩ := hwhole
        exact ⟨found, after, htext, hlength, fun tail hends =>
          literalLength?_of_whole (htail tail hends).1 (htail tail hends).2⟩

/-- A literal has at least one character. -/
theorem pos_of_literalLength? {text : List Char} {n : ℕ} (h : literalLength? text = some n) :
    0 < n := by
  obtain ⟨found, after, rfl, rfl, htail⟩ := literalLength?_append h
  cases found with
  | nil => exact absurd (htail [] endsLeaf_nil) (by decide)
  | cons c rest => exact Nat.succ_pos _

/-- No character of a word ends a leaf, and a beginning without such characters is one of the word. -/
theorem prefix_of_prefix_append {start word tail : List Char} (hstart : ∀ c ∈ start, c ∉ leafEnds)
    (htail : EndsLeaf tail) (h : start <+: word ++ tail) : start <+: word := by
  rcases List.prefix_or_prefix_of_prefix h (List.prefix_append word tail) with hshort | hlong
  · exact hshort
  · obtain ⟨others, rfl⟩ := hlong
    rw [List.prefix_append_right_inj] at h
    cases others with
    | nil => exact (List.append_nil word).symm ▸ List.prefix_rfl
    | cons c rest =>
      obtain ⟨more, rfl⟩ := h
      exact absurd (htail c rfl) (hstart c (by simp))

/-- Neither a word nor what ends a leaf has a quote behind its signs. -/
theorem afterSigns?_append_ne {quote : Char} (hquote : quote ∉ leafEnds) {word tail : List Char}
    (hword : quote ∉ word) (htail : EndsLeaf tail) : afterSigns? (word ++ tail) ≠ some quote := by
  induction word with
  | nil =>
    cases tail with
    | nil => nofun
    | cons c rest =>
      have hc := endsLeaf_cons.mp htail
      have hsigns : ¬quoteSigns.contains c = true := by
        have hall : leafEnds.all (fun d => !quoteSigns.contains d) = true := by decide
        simpa using List.all_eq_true.mp hall c hc
      rw [List.nil_append, afterSigns?, List.dropWhile_cons_of_neg hsigns]
      intro hsame
      exact hquote (Option.some.inj hsame ▸ hc)
  | cons c rest ih =>
    rw [List.mem_cons, not_or] at hword
    by_cases hc : c ∈ quoteSigns
    · rw [List.cons_append, afterSigns?_cons hc]
      exact ih hword.2
    · rw [List.cons_append, afterSigns?, List.dropWhile_cons_of_neg (by simpa using hc)]
      intro hsame
      exact hword.1 (Option.some.inj hsame).symm

/-- A word reaches as far in front of what ends a leaf. -/
theorem lengthMaybeRaw?_append {word tail : List Char} (h : Word.IsWord word)
    (htail : EndsLeaf tail) : Word.lengthMaybeRaw? (word ++ tail) = some word.length := by
  have hends : ∀ c ∈ tail.head?, isIdentifierPart c = false :=
    fun c hc => leafClass_identifierPart c (htail c hc)
  cases h with
  | plain hstart hrest =>
    rename_i c rest
    unfold Word.lengthMaybeRaw?
    split
    · rename_i others hparts
      exfalso
      have hsign := (List.cons.inj hparts).2
      cases rest with
      | nil =>
        obtain rfl : tail = '#' :: others := hsign
        exact absurd (endsLeaf_cons.mp htail) (by decide)
      | cons d more =>
        obtain ⟨rfl, -⟩ := List.cons.inj hsign
        exact absurd (hrest '#' List.mem_cons_self) (by decide +kernel)
    · exact Word.length?_cons hstart hrest hends
  | raw hstart hrest hraw =>
    rename_i c rest
    have hlength := Word.length?_cons hstart hrest hends
    have htake : (c :: rest ++ tail).take (rest.length + 1) = c :: rest :=
      List.take_left' rfl
    rw [List.cons_append, List.cons_append, Word.lengthMaybeRaw?]
    simp only [hlength, htake, hraw]
    rfl

/-- A word is found again in front of what ends a leaf. -/
theorem leaf?_word_append {word : List Char} (hword : Word.IsWord word)
    (hquoted : quotedStarts.any (fun start => start.isPrefixOf word) = false) {tail : List Char}
    (htail : EndsLeaf tail) :
    leaf? (word ++ tail) = some (.word (String.ofList word), word.length) := by
  have hliteral : literalLength? (word ++ tail) = none ∧ mark? (word ++ tail) = none := by
    have hstring : Quotation.stringLength? (word ++ tail) = none :=
      Option.eq_none_iff_forall_ne_some.mpr fun count hcount =>
        afterSigns?_append_ne (by decide) (hword.not_mem (by decide)) htail
          (afterSigns?_of_stringLength? hcount)
    have hcharacter : Quotation.characterLength? (word ++ tail) = none :=
      Option.eq_none_iff_forall_ne_some.mpr fun count hcount =>
        afterSigns?_append_ne (by decide) (hword.not_mem (by decide)) htail
          (afterSigns?_of_characterLength? hcount)
    obtain ⟨c, rest, rfl, hstart⟩ := hword.exists_cons
    obtain ⟨hfloat, hwhole, hmark⟩ := unmarked_of_isIdentifierStart (rest ++ tail) hstart
    rw [List.cons_append] at hstring hcharacter ⊢
    exact ⟨by rw [literalLength?, hstring, hcharacter, hfloat, hwhole], hmark⟩
  have hlength : wordLength? (word ++ tail) = some word.length := by
    have hnone : quotedStarts.any (fun start => start.isPrefixOf (word ++ tail)) = false := by
      rw [List.any_eq_false] at hquoted ⊢
      intro start hstart hfound
      have hclean : quotedStarts.all (fun start => start.all fun c => !leafEnds.contains c) =
          true := by decide
      refine hquoted start hstart ?_
      rw [List.isPrefixOf_iff_prefix] at hfound ⊢
      refine prefix_of_prefix_append (fun c hc => ?_) htail hfound
      simpa using List.all_eq_true.mp (List.all_eq_true.mp hclean start hstart) c hc
    rw [wordLength?, hnone, if_neg Bool.false_ne_true, lengthMaybeRaw?_append hword htail]
  simp only [leaf?, hliteral.1, hliteral.2, hlength, List.take_left]

/-- The characters of a word or a literal. -/
def spelled? : Token → Option (List Char)
  | .word text => some text.toList
  | .literal text => some text.toList
  | _ => none

/-- What is read as a mark is that mark: an apostrophe before a lifetime, or a mark that is joint if
another one follows. -/
theorem mark?_eq_some {text : List Char} {token : Token} (h : mark? text = some token) :
    ∃ c rest, text = c :: rest ∧ startsWithMark text = true ∧
      ((c = '\'' ∧ beginsLifetime rest = true ∧ token = .mark '\'' .joint) ∨
        (c ≠ '\'' ∧ token = .mark c (if startsWithMark rest then .joint else .alone))) := by
  unfold mark? at h
  split at h
  · rename_i hstarts
    split at h
    · rename_i rest
      split at h
      · rename_i hlifetime
        exact ⟨_, rest, rfl, hstarts, .inl ⟨rfl, hlifetime, (Option.some.inj h).symm⟩⟩
      · contradiction
    · rename_i c rest hquote
      exact ⟨c, rest, rfl, hstarts, .inr ⟨hquote, (Option.some.inj h).symm⟩⟩
    · contradiction
  · contradiction

/-- A mark has no spelling. -/
theorem spelled?_of_mark? {text : List Char} {token : Token} (h : mark? text = some token) :
    spelled? token = none := by
  obtain ⟨c, rest, -, -, ⟨-, -, rfl⟩ | ⟨-, rfl⟩⟩ := mark?_eq_some h
  · rfl
  · rfl

/-- What is neither a word nor a literal is a mark. -/
theorem mark?_of_leaf? {chars : List Char} {token : Token} {n : ℕ}
    (h : leaf? chars = some (token, n)) (hspelling : spelled? token = none) :
    mark? chars = some token ∧ n = 1 := by
  unfold leaf? at h
  split at h
  · rw [← (Prod.mk.inj (Option.some.inj h)).1] at hspelling
    contradiction
  · split at h
    · rename_i hmark
      obtain ⟨rfl, rfl⟩ := Prod.mk.inj (Option.some.inj h)
      exact ⟨hmark, rfl⟩
    · split at h
      · rw [← (Prod.mk.inj (Option.some.inj h)).1] at hspelling
        contradiction
      · contradiction

/-- What is read as a word is one. -/
theorem isWord_of_leaf? {chars : List Char} {text : String} {n : ℕ}
    (h : leaf? chars = some (.word text, n)) : Word.IsWord text.toList := by
  unfold leaf? at h
  split at h
  · exact Token.noConfusion (Prod.mk.inj (Option.some.inj h)).1
  · split at h
    · rename_i hmark
      have hnone := spelled?_of_mark? hmark
      rw [(Prod.mk.inj (Option.some.inj h)).1] at hnone
      contradiction
    · split at h
      · rename_i hlength
        unfold wordLength? at hlength
        split at hlength
        · contradiction
        · have hword := Word.isWord_take hlength
          rw [← Token.word.inj (Prod.mk.inj (Option.some.inj h)).1, String.toList_ofList]
          exact hword
      · contradiction

/-- What is read as a literal is found as one. -/
theorem literalLength?_of_leaf? {chars : List Char} {text : String} {n : ℕ}
    (h : leaf? chars = some (.literal text, n)) : literalLength? chars = some n := by
  unfold leaf? at h
  split at h
  · rename_i hliteral
    rw [hliteral, (Prod.mk.inj (Option.some.inj h)).2]
  · split at h
    · rename_i hmark
      have hnone := spelled?_of_mark? hmark
      rw [(Prod.mk.inj (Option.some.inj h)).1] at hnone
      contradiction
    · split at h
      · exact Token.noConfusion (Prod.mk.inj (Option.some.inj h)).1
      · contradiction

/-- A word or a literal at the beginning of a text is found again in front of what ends a leaf. -/
theorem leaf?_append {text : List Char} {token : Token} {n : ℕ} {spelling : List Char}
    (h : leaf? text = some (token, n)) (hspelling : spelled? token = some spelling) :
    (∃ after, text = spelling ++ after) ∧ n = spelling.length ∧ spelling ≠ [] ∧
      ∀ tail, EndsLeaf tail → leaf? (spelling ++ tail) = some (token, n) := by
  unfold leaf? at h
  split at h
  · rename_i count hliteral
    obtain ⟨rfl, rfl⟩ := Prod.mk.inj (Option.some.inj h)
    have hpositive := pos_of_literalLength? hliteral
    obtain ⟨found, after, rfl, rfl, htail⟩ := literalLength?_append hliteral
    rw [List.take_left, spelled?, String.toList_ofList] at hspelling
    obtain rfl := Option.some.inj hspelling
    refine ⟨⟨after, rfl⟩, rfl, List.ne_nil_of_length_pos hpositive, fun tail hends => ?_⟩
    simp only [leaf?, htail tail hends, List.take_left]
  · split at h
    · rename_i found hmark
      obtain ⟨rfl, -⟩ := Prod.mk.inj (Option.some.inj h)
      rw [spelled?_of_mark? hmark] at hspelling
      contradiction
    · split at h
      · rename_i count hlength
        obtain ⟨rfl, rfl⟩ := Prod.mk.inj (Option.some.inj h)
        rw [spelled?, String.toList_ofList] at hspelling
        obtain rfl := Option.some.inj hspelling
        unfold wordLength? at hlength
        split at hlength
        · contradiction
        · rename_i hquoted
          have hword := Word.isWord_take hlength
          have hcount : count = (text.take count).length := by
            rw [List.length_take, Nat.min_eq_left (Word.le_length_of_lengthMaybeRaw? hlength)]
          refine ⟨⟨text.drop count, (List.take_append_drop count text).symm⟩, hcount, ?_,
            fun tail hends => ?_⟩
          · obtain ⟨c, rest, hparts, -⟩ := hword.exists_cons
            rw [hparts]
            exact List.cons_ne_nil c rest
          · rw [leaf?_word_append hword (quotedStarts_take (Bool.eq_false_iff.mpr hquoted)) hends,
              ← hcount]
      · contradiction

end Lexer

end Typestate
