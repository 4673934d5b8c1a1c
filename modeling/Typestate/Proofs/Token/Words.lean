import Typestate.Proofs.Token.Numeral

/-!
# Words of a text

Every word among the tokens of a text, in a group or not, is spelled like a word, and as a text it
is one token: that word. So a word that is taken from a text and put into another one is read there
as it stood.
-/

namespace Typestate

open Unicode

/-- The word is among the tokens that the token consists of. -/
inductive Token.HoldsWord (text : String) : Token → Prop where
  | word : HoldsWord text (.word text)
  | group {delimiter : Delimiter} {body : List Token} {token : Token} (hmem : token ∈ body)
    (hword : HoldsWord text token) : HoldsWord text (.group delimiter body)

namespace Word

/-- The characters are a word, plain or raw. -/
inductive IsWord : List Char → Prop where
  | plain {c : Char} {rest : List Char} (hstart : isIdentifierStart c = true)
    (hrest : ∀ d ∈ rest, isIdentifierPart d = true) : IsWord (c :: rest)
  | raw {c : Char} {rest : List Char} (hstart : isIdentifierStart c = true)
    (hrest : ∀ d ∈ rest, isIdentifierPart d = true)
    (hraw : neverRaw.contains (String.ofList (c :: rest)) = false) :
    IsWord ('r' :: '#' :: c :: rest)

/-- A plain word reaches to its end. -/
theorem length?_of_parts {c : Char} {rest : List Char} (hstart : isIdentifierStart c = true)
    (hrest : ∀ d ∈ rest, isIdentifierPart d = true) :
    length? (c :: rest) = some (rest.length + 1) := by
  rw [length?, if_pos hstart, List.takeWhile_eq_self_iff.mpr hrest]

/-- What is found at the beginning of a text is a plain word. -/
theorem length?_eq_some {text : List Char} {count : ℕ} (h : length? text = some count) :
    ∃ c rest, text.take count = c :: rest ∧ isIdentifierStart c = true ∧
      ∀ d ∈ rest, isIdentifierPart d = true := by
  unfold length? at h
  split at h
  · contradiction
  · rename_i c others
    split at h
    · rename_i hstart
      obtain rfl := Option.some.inj h
      refine ⟨c, others.takeWhile isIdentifierPart, ?_, hstart, ?_⟩
      · rw [List.take_succ_cons, ← List.prefix_iff_eq_take.mp (List.takeWhile_prefix _)]
      · exact fun d hd => List.mem_takeWhile_imp hd
    · contradiction

/-- What is taken from the beginning of a text is a word. -/
theorem isWord_take {text : List Char} {count : ℕ} (h : lengthMaybeRaw? text = some count) :
    IsWord (text.take count) := by
  unfold lengthMaybeRaw? at h
  split at h
  · rename_i others
    split at h
    · rename_i length hlength
      split at h
      · contradiction
      · rename_i hraw
        obtain rfl := Option.some.inj h
        obtain ⟨c, rest, htake, hstart, hrest⟩ := length?_eq_some hlength
        rw [htake] at hraw
        rw [List.take_succ_cons, List.take_succ_cons, htake]
        exact .raw hstart hrest (Bool.eq_false_iff.mpr hraw)
    · contradiction
  · obtain ⟨c, rest, htake, hstart, hrest⟩ := length?_eq_some h
    rw [htake]
    exact .plain hstart hrest

namespace IsWord

variable {chars : List Char}

/-- A word reaches to its end. -/
theorem lengthMaybeRaw?_eq (h : IsWord chars) : lengthMaybeRaw? chars = some chars.length := by
  cases h with
  | plain hstart hrest =>
    unfold lengthMaybeRaw?
    split
    · rename_i others hparts
      obtain ⟨rfl, rfl⟩ := List.cons.inj hparts
      exact absurd (hrest '#' List.mem_cons_self) (by decide)
    · exact length?_of_parts hstart hrest
  | raw hstart hrest hraw =>
    rename_i c rest
    have htake : (c :: rest).take (rest.length + 1) = c :: rest := List.take_length (l := c :: rest)
    simp only [lengthMaybeRaw?, length?_of_parts hstart hrest, htake, hraw]
    rfl

/-- A word begins like an identifier. -/
theorem exists_cons (h : IsWord chars) :
    ∃ c rest, chars = c :: rest ∧ isIdentifierStart c = true := by
  cases h with
  | plain hstart hrest => exact ⟨_, _, rfl, hstart⟩
  | raw hstart hrest hraw => exact ⟨_, _, rfl, by decide⟩

/-- A word holds no quotes. -/
theorem not_mem (h : IsWord chars) {quote : Char} (hquote : quote ∈ ['"', '\'']) :
    quote ∉ chars := by
  have hquotes : ['"', '\''].all (fun d => !isIdentifierStart d && !isIdentifierPart d &&
      d != 'r' && d != '#') = true := by decide
  have hnone := List.all_eq_true.mp hquotes quote hquote
  simp only [Bool.and_eq_true, Bool.not_eq_true', bne_iff_ne] at hnone
  obtain ⟨⟨⟨hnostart, hnopart⟩, hnor⟩, hnosign⟩ := hnone
  have hparts : ∀ {c : Char} {rest : List Char}, isIdentifierStart c = true →
      (∀ d ∈ rest, isIdentifierPart d = true) → quote ∉ c :: rest := by
    intro c rest hstart hrest hmem
    rcases List.mem_cons.mp hmem with rfl | hmem
    · rw [hnostart] at hstart
      contradiction
    · rw [hrest quote hmem] at hnopart
      contradiction
  cases h with
  | plain hstart hrest => exact hparts hstart hrest
  | raw hstart hrest hraw =>
    intro hmem
    rcases List.mem_cons.mp hmem with hmem | hmem
    · exact hnor hmem
    · rcases List.mem_cons.mp hmem with hmem | hmem
      · exact hnosign hmem
      · exact hparts hstart hrest hmem

end IsWord

end Word

namespace Quotation

/-- There is no raw string without a quote. -/
theorem rawLength?_eq_none {text : List Char} (h : '"' ∉ text) (content : Content) :
    rawLength? content text = none := by
  unfold rawLength?
  dsimp only
  split
  · rename_i rest hrest
    exact absurd (List.mem_of_mem_drop (hrest ▸ List.mem_cons_self)) h
  · rfl

/-- There is no string without a quote. -/
theorem stringLength?_eq_none {text : List Char} (h : '"' ∉ text) : stringLength? text = none := by
  unfold stringLength?
  split <;> simp_all [rawLength?_eq_none]

/-- There is no character literal without an apostrophe. -/
theorem characterLength?_eq_none {text : List Char} (h : '\'' ∉ text) :
    characterLength? text = none := by
  unfold characterLength?
  split <;> simp_all

end Quotation

namespace Number

variable {c : Char} {rest : List Char}

/-- A number begins with a digit. -/
theorem floatLength?_eq_none (h : c.isDigit = false) : floatLength? (c :: rest) = none := by
  simp [floatLength?, floatDigits?, h]

theorem wholeLength?_eq_none (h : c.isDigit = false) : wholeLength? (c :: rest) = none := by
  have hdigits : wholeDigits? (c :: rest) = none := by
    unfold wholeDigits?
    split <;> simp_all
  rw [wholeLength?, hdigits, Option.bind_none]

end Number

namespace Lexer

variable {c : Char} {rest : List Char}

/-- No word begins with a digit, with a mark, or with what begins no leaf. -/
theorem not_mem_of_isIdentifierStart (h : isIdentifierStart c = true) :
    c ∉ digitChars ∧ c ∉ marks ∧ c ∉ otherStarts := by
  have hothers :
      (digitChars ++ marks ++ otherStarts).all (fun d => !isIdentifierStart d) = true := by
    decide +kernel
  have hnone : c ∉ digitChars ++ marks ++ otherStarts := by
    intro hmem
    have hnostart := List.all_eq_true.mp hothers c hmem
    rw [h] at hnostart
    exact absurd hnostart (by decide)
  simpa [not_or] using hnone

/-- What begins like an identifier is no number and no mark. -/
theorem unmarked_of_isIdentifierStart (rest : List Char) (h : isIdentifierStart c = true) :
    Number.floatLength? (c :: rest) = none ∧ Number.wholeLength? (c :: rest) = none ∧
      mark? (c :: rest) = none := by
  obtain ⟨hdigit, hmarks, -⟩ := not_mem_of_isIdentifierStart h
  have hnumber : c.isDigit = false := Bool.eq_false_iff.mpr fun hc => hdigit (mem_digitChars hc)
  have hstarts : startsWithMark (c :: rest) = false := by
    unfold startsWithMark
    split <;> simp_all
  refine ⟨Number.floatLength?_eq_none hnumber, Number.wholeLength?_eq_none hnumber, ?_⟩
  simp [mark?, hstarts]

/-- A word that no quoted literal begins with is a leaf up to its end. -/
theorem leaf?_of_isWord {chars : List Char} (h : Word.IsWord chars)
    (hquoted : quotedStarts.any (fun start => start.isPrefixOf chars) = false) :
    leaf? chars = some (.word (String.ofList chars), chars.length) := by
  obtain ⟨c, rest, rfl, hstart⟩ := h.exists_cons
  obtain ⟨hfloat, hwhole, hmark⟩ := unmarked_of_isIdentifierStart rest hstart
  have hliteral : literalLength? (c :: rest) = none := by
    rw [literalLength?, Quotation.stringLength?_eq_none (h.not_mem (by decide)),
      Quotation.characterLength?_eq_none (h.not_mem (by decide)), hfloat, hwhole]
  have hword : wordLength? (c :: rest) = some (rest.length + 1) := by
    rw [wordLength?, hquoted, if_neg Bool.false_ne_true, h.lengthMaybeRaw?_eq, List.length_cons]
  rw [leaf?, hliteral, hmark, hword]
  simp

/-- The characters of a word that is found are no beginning of a quoted literal either. -/
theorem quotedStarts_take {text : List Char} {count : ℕ}
    (h : quotedStarts.any (fun start => start.isPrefixOf text) = false) :
    quotedStarts.any (fun start => start.isPrefixOf (text.take count)) = false := by
  rw [List.any_eq_false] at h ⊢
  intro start hstart hprefix
  refine h start hstart ?_
  rw [List.isPrefixOf_iff_prefix] at hprefix ⊢
  exact hprefix.trans (List.take_prefix count text)

/-- A word at the beginning of a text is one token by itself. -/
theorem lex?_of_wordLength? {c : Char} {rest : List Char} {count : ℕ} (hblank : isBlank c = false)
    (h : wordLength? (c :: rest) = some count) :
    Token.lex? (String.ofList ((c :: rest).take count)) =
      some [.word (String.ofList ((c :: rest).take count))] := by
  unfold wordLength? at h
  split at h
  · contradiction
  · rename_i hquoted
    have hword := Word.isWord_take h
    obtain ⟨first, others, htake, hstart⟩ := hword.exists_cons
    have hfirst : first = c := by
      cases count with
      | zero => contradiction
      | succ count => exact (List.cons.inj htake).1.symm
    have hleaf := leaf?_of_isWord hword (quotedStarts_take (Bool.eq_false_iff.mpr hquoted))
    rw [htake] at hleaf ⊢
    rw [hfirst] at hstart hleaf ⊢
    exact Token.lex?_of_leaf? ⟨hblank, (not_mem_of_isIdentifierStart hstart).2.2⟩ hleaf

end Lexer

/-! ### All words of a text -/

namespace Token

/-- Every word that the token holds is one token by itself. -/
def WordsApart (token : Token) : Prop :=
  ∀ text, token.HoldsWord text → lex? text = some [.word text]

/-- Every word that the token holds is an allowed one. -/
def EachWord (allowed : String → Prop) (token : Token) : Prop :=
  ∀ text, token.HoldsWord text → allowed text

variable {allowed : String → Prop}

@[simp] theorem eachWord_word {text : String} : (word text).EachWord allowed ↔ allowed text := by
  constructor
  · exact fun h => h text .word
  · intro h found hword
    cases hword
    exact h

@[simp] theorem eachWord_mark {c : Char} {spacing : Spacing} :
    (mark c spacing).EachWord allowed :=
  fun _ hword => nomatch hword

@[simp] theorem eachWord_literal {text : String} : (literal text).EachWord allowed :=
  fun _ hword => nomatch hword

@[simp] theorem eachWord_group {delimiter : Delimiter} {body : List Token} :
    (group delimiter body).EachWord allowed ↔ ∀ token ∈ body, token.EachWord allowed := by
  constructor
  · exact fun h token hmem text hword => h text (.group hmem hword)
  · intro h text hword
    cases hword with
    | group hmem hword => exact h _ hmem text hword

end Token

namespace Lexer

/-- The words that are found in texts are allowed. -/
def AllowsFound (allowed : String → Prop) : Prop :=
  ∀ ⦃c : Char⦄ ⦃rest : List Char⦄ ⦃count : ℕ⦄, isBlank c = false →
    wordLength? (c :: rest) = some count → allowed (String.ofList ((c :: rest).take count))

variable {allowed : String → Prop}

/-- The only word of an attribute that a comment stands for is its name. -/
theorem AllowsFound.eachWord_docTokens (hallowed : AllowsFound allowed) (inner : Bool)
    (text : List Char) : ∀ token ∈ docTokens inner text, token.EachWord allowed := by
  have hdoc : allowed "doc" := @hallowed 'd' ['o', 'c'] 3 rfl rfl
  cases inner <;> simp [docTokens, hdoc]

theorem eachWord_of_mark? {chars : List Char} {token : Token} (h : mark? chars = some token) :
    token.EachWord allowed := by
  unfold mark? at h
  split at h
  · split at h
    · split at h
      · rw [← Option.some.inj h]
        exact Token.eachWord_mark
      · contradiction
    · rw [← Option.some.inj h]
      exact Token.eachWord_mark
    · contradiction
  · contradiction

/-- What is read in one step and is no group. -/
theorem AllowsFound.eachWord_of_leaf? (hallowed : AllowsFound allowed) {c : Char} {rest : List Char}
    {token : Token} {count : ℕ} (hblank : isBlank c = false)
    (h : leaf? (c :: rest) = some (token, count)) : token.EachWord allowed := by
  unfold leaf? at h
  split at h
  · rw [← (Prod.mk.inj (Option.some.inj h)).1]
    exact Token.eachWord_literal
  · split at h
    · rename_i found hmark
      rw [← (Prod.mk.inj (Option.some.inj h)).1]
      exact eachWord_of_mark? hmark
    · split at h
      · rename_i length hlength
        rw [← (Prod.mk.inj (Option.some.inj h)).1]
        exact Token.eachWord_word.mpr (hallowed hblank hlength)
      · contradiction

/-- All words that have been read, in the open groups or before them, are allowed. -/
structure Position.EachWord (allowed : String → Prop) (position : Position) : Prop where
  tokens : ∀ token ∈ position.tokens, token.EachWord allowed
  frames : ∀ frame ∈ position.frames, ∀ token ∈ frame.2, token.EachWord allowed

/-- A step of the lexer reads no word that is not allowed. -/
theorem Position.EachWord.advance? {position next : Position} {c : Char} {rest : List Char}
    (hallowed : AllowsFound allowed) (h : position.EachWord allowed)
    (hnext : advance? position c rest = some next) : next.EachWord allowed := by
  have hpush : ∀ {found : List Token} {after : List Char},
      (∀ token ∈ found, token.EachWord allowed) →
        Position.EachWord allowed
          { position with tokens := found.reverse ++ position.tokens, input := after } := by
    intro found after hfound
    refine ⟨fun token htoken => ?_, h.frames⟩
    rcases List.mem_append.mp htoken with htoken | htoken
    · exact hfound token (List.mem_reverse.mp htoken)
    · exact h.tokens token htoken
  have hnone : ∀ token ∈ ([] : List Token), token.EachWord allowed :=
    fun token htoken => absurd htoken List.not_mem_nil
  unfold Lexer.advance? at hnext
  dsimp only at hnext
  split at hnext
  · rw [← Option.some.inj hnext]
    exact hpush hnone
  · rename_i hblank
    split at hnext
    · rw [← Option.some.inj hnext]
      exact hpush hnone
    · split at hnext
      · contradiction
      · rw [← Option.some.inj hnext]
        exact hpush (hallowed.eachWord_docTokens _ _)
    · split at hnext
      · rw [← Option.some.inj hnext]
        exact hpush (by simp)
      · split at hnext
        · rw [← Option.some.inj hnext]
          exact ⟨hnone, List.forall_mem_cons.mpr ⟨h.tokens, h.frames⟩⟩
        · split at hnext
          · rename_i opened outer frames hframes
            split at hnext
            · obtain ⟨houter, hrest⟩ := List.forall_mem_cons.mp (hframes ▸ h.frames)
              rw [← Option.some.inj hnext]
              refine ⟨List.forall_mem_cons.mpr ⟨Token.eachWord_group.mpr ?_, houter⟩, hrest⟩
              exact fun token htoken => h.tokens token (List.mem_reverse.mp htoken)
            · contradiction
          · contradiction
        · obtain ⟨⟨token, count⟩, hleaf, hpushed⟩ := Option.map_eq_some_iff.mp hnext
          rw [← hpushed]
          refine hpush fun found hfound => ?_
          rw [List.mem_singleton.mp hfound]
          exact hallowed.eachWord_of_leaf? (Bool.eq_false_iff.mpr hblank) hleaf

/-- So does the whole run, in which all groups are closed. -/
theorem Position.EachWord.run {steps : ℕ} {position : Position} {tokens : List Token}
    (hallowed : AllowsFound allowed) (h : position.EachWord allowed)
    (hrun : run steps position = some tokens) : ∀ token ∈ tokens, token.EachWord allowed := by
  induction steps generalizing position with
  | zero => contradiction
  | succ steps ih =>
    unfold Lexer.run at hrun
    split at hrun
    · split at hrun
      · rw [← Option.some.inj hrun]
        exact fun token htoken => h.tokens token (List.mem_reverse.mp htoken)
      · contradiction
    · obtain ⟨next, hnext, hrest⟩ := Option.bind_eq_some_iff.mp hrun
      exact ih (h.advance? hallowed hnext) hrest

end Lexer

namespace Token

variable {text : String} {tokens : List Token}

/-- Each word among the tokens of a text is allowed if the words that are found are. -/
theorem eachWord_of_lex? {allowed : String → Prop} (hallowed : Lexer.AllowsFound allowed)
    (h : lex? text = some tokens) : ∀ token ∈ tokens, token.EachWord allowed := by
  refine Lexer.Position.EachWord.run hallowed ⟨?_, ?_⟩ h
  · exact fun token htoken => absurd htoken List.not_mem_nil
  · exact fun frame hframe => absurd hframe List.not_mem_nil

/-- Each word among the tokens of a text is one token by itself. -/
theorem wordsApart_of_lex? (h : lex? text = some tokens) : ∀ token ∈ tokens, token.WordsApart :=
  eachWord_of_lex? (fun _ _ _ => Lexer.lex?_of_wordLength?) h

/-- Each word among the tokens of a text is a word, plain or raw. -/
theorem isWord_of_lex? (h : lex? text = some tokens) :
    ∀ token ∈ tokens, token.EachWord fun word => Word.IsWord word.toList := by
  refine eachWord_of_lex? (fun c rest count _ hlength => ?_) h
  unfold Lexer.wordLength? at hlength
  split at hlength
  · contradiction
  · rw [String.toList_ofList]
    exact Word.isWord_take hlength

end Token

end Typestate
