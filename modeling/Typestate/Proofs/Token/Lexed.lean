import Typestate.Proofs.Text.QuotedText
import Typestate.Proofs.Token.Written

/-!
# Tokens of a text are written

The tokens that the lexer takes from a text are read back as they are written: a mark is joined only
if another one follows it, and what documents something is quoted.
-/

namespace Typestate

open Unicode

namespace Lexer

/-! ### Putting tokens together -/

/-- What may stand at the end of tokens may be relaxed. -/
theorem WrittenTo.mono {isOpen isOpen' : Char → Prop} {tokens : List Token}
    (h : WrittenTo isOpen tokens) (hopen : ∀ c, isOpen c → isOpen' c) :
    WrittenTo isOpen' tokens := by
  induction h generalizing isOpen' with
  | nil => exact .nil
  | leaf hspelling hleaf hrest ih => exact .leaf hspelling hleaf (ih hopen)
  | unknown hrest ih => exact .unknown (ih hopen)
  | alone hmark hquote hrest ih => exact .alone hmark hquote (ih hopen)
  | joint hmark hquote hnext hnextMark hcomment hrest ih =>
    exact .joint hmark hquote hnext hnextMark hcomment (ih hopen)
  | lifetime hspelling hlifetime hrest ih => exact .lifetime hspelling hlifetime (ih hopen)
  | last hlast => exact .last (hopen _ hlast)
  | group hbody hrest ihBody ih => exact .group hbody (ih hopen)

/-- Tokens may be put behind others, if they go on with what these leave open. -/
theorem WrittenTo.append {isOpen isOpen' : Char → Prop} {first second : List Token}
    (h : WrittenTo isOpen first) (hsecond : WrittenTo isOpen' second)
    (hopen : ∀ c, isOpen c → WrittenTo isOpen' (.mark c .joint :: second)) :
    WrittenTo isOpen' (first ++ second) := by
  induction h generalizing isOpen' with
  | nil => exact hsecond
  | leaf hspelling hleaf hrest ih => exact .leaf hspelling hleaf (ih hsecond hopen)
  | unknown hrest ih => exact .unknown (ih hsecond hopen)
  | alone hmark hquote hrest ih => exact .alone hmark hquote (ih hsecond hopen)
  | joint hmark hquote hnext hnextMark hcomment hrest ih =>
    rename_i rest next
    have hfront : frontMark? (rest ++ second) = some next := by
      cases rest with
      | nil => contradiction
      | cons token others =>
        cases token with
        | mark d spacing => exact hnext
        | literal text => exact hnext
        | word text => contradiction
        | group delimiter body => contradiction
    exact .joint hmark hquote hfront hnextMark hcomment (ih hsecond hopen)
  | lifetime hspelling hlifetime hrest ih => exact .lifetime hspelling hlifetime (ih hsecond hopen)
  | last hlast => exact hopen _ hlast
  | group hbody hrest ihBody ih => exact .group hbody (ih hsecond hopen)

/-- Written tokens may be put one behind another. -/
theorem Written.append {isOpen : Char → Prop} {first second : List Token} (h : Written first)
    (hsecond : WrittenTo isOpen second) : WrittenTo isOpen (first ++ second) :=
  WrittenTo.append h hsecond fun _ => False.elim

/-! ### Parts of written tokens -/

theorem WrittenTo.tail {isOpen : Char → Prop} {token : Token} {rest : List Token}
    (h : WrittenTo isOpen (token :: rest)) : WrittenTo isOpen rest := by
  cases h with
  | leaf hspelling hleaf hrest => exact hrest
  | unknown hrest => exact hrest
  | alone hmark hquote hrest => exact hrest
  | joint hmark hquote hnext hnextMark hcomment hrest => exact hrest
  | lifetime hspelling hlifetime hrest => exact hrest
  | last hopen => exact .nil
  | group hbody hrest => exact hrest

theorem WrittenTo.suffix {isOpen : Char → Prop} {tokens rest : List Token}
    (h : WrittenTo isOpen tokens) (hsuffix : rest <:+ tokens) : WrittenTo isOpen rest := by
  induction tokens with
  | nil =>
    obtain rfl := List.suffix_nil.mp hsuffix
    exact h
  | cons token others ih =>
    rcases List.suffix_cons_iff.mp hsuffix with rfl | hothers
    · exact h
    · exact ih h.tail hothers

theorem Written.word {text : String} {rest : List Token} (h : Written (.word text :: rest)) :
    Written [.word text] := by
  cases h with
  | leaf hspelling hleaf hrest => exact .leaf hspelling hleaf .nil

theorem Written.literal {text : String} {rest : List Token} (h : Written (.literal text :: rest)) :
    Written [.literal text] := by
  cases h with
  | leaf hspelling hleaf hrest => exact .leaf hspelling hleaf .nil
  | unknown hrest => exact .unknown .nil

theorem Written.lifetime {name : String} {rest : List Token}
    (h : Written (.mark '\'' .joint :: .word name :: rest)) : Written (Token.ofLifetime name) := by
  cases h with
  | leaf hspelling hleaf hrest => contradiction
  | joint hmark hquote hnext hnextMark hcomment hrest => exact absurd rfl hquote
  | lifetime hspelling hlifetime hrest =>
    exact WrittenTo.lifetime hspelling hlifetime (Written.word hrest)

theorem Written.body {delimiter : Delimiter} {body rest : List Token}
    (h : Written (.group delimiter body :: rest)) : Written body := by
  cases h with
  | leaf hspelling hleaf hrest => contradiction
  | group hbody hrest => exact hbody

/-- A mark that is no apostrophe is written by itself. -/
theorem Written.mark {c : Char} {spacing : Spacing} {rest : List Token} (hquote : c ≠ '\'')
    (h : Written (.mark c spacing :: rest)) : Written [.mark c .alone] := by
  cases h with
  | leaf hspelling hleaf hrest => contradiction
  | alone hmark hquote hrest => exact .alone hmark hquote .nil
  | joint hmark hquote hnext hnextMark hcomment hrest => exact .alone hmark hquote .nil
  | lifetime hspelling hlifetime hrest => contradiction
  | last hopen => exact hopen.elim

/-- Marks that are joined are written so whatever follows the second one. -/
theorem Written.joint {c d : Char} {spacing : Spacing} {rest after : List Token}
    (hquote : c ≠ '\'') (h : Written (.mark c .joint :: .mark d spacing :: rest))
    {spacing' : Spacing} (hafter : Written (.mark d spacing' :: after)) :
    Written (.mark c .joint :: .mark d spacing' :: after) := by
  cases h with
  | leaf hspelling hleaf hrest => contradiction
  | joint hmark hquote hnext hnextMark hcomment hrest =>
    exact WrittenTo.joint hmark hquote hnext hnextMark hcomment hafter
  | lifetime hspelling hlifetime hrest => contradiction

/-! ### What is open before a text -/

/-- The text goes on with a joined mark. -/
inductive OpenBefore (input : List Char) : Char → Prop
  | lifetime (h : beginsLifetime input = true) : OpenBefore input '\''
  | mark {c : Char} (hmark : c ∈ marks) (hquote : c ≠ '\'')
    (hcomment : opensComment (c :: input) = false) (hstarts : startsWithMark input = true) :
    OpenBefore input c

/-- A lifetime begins like an identifier. -/
theorem isIdentifierStart_of_beginsLifetime {c : Char} {rest : List Char}
    (h : beginsLifetime (c :: rest) = true) : isIdentifierStart c = true := by
  unfold beginsLifetime at h
  split at h
  · rename_i count hlength
    obtain ⟨first, others, hparts, hstart⟩ := (Word.isWord_take hlength).exists_cons
    cases count with
    | zero => contradiction
    | succ count =>
      rw [(List.cons.inj hparts).1]
      exact hstart
  · contradiction

/-- Nothing goes on that is neither a mark nor begins like an identifier. -/
theorem not_openBefore {c : Char} {rest : List Char} (hstart : isIdentifierStart c = false)
    (hmark : startsWithMark (c :: rest) = false) (d : Char) : ¬ OpenBefore (c :: rest) d := by
  intro h
  cases h with
  | lifetime hlifetime =>
    rw [isIdentifierStart_of_beginsLifetime hlifetime] at hstart
    contradiction
  | mark hd hquote hcomment hstarts =>
    rw [hmark] at hstarts
    contradiction

/-- Neither a blank nor a comment nor a delimiter goes on with anything. -/
theorem not_openBefore_of_delimiter {c : Char} (h : c ∈ delimiters) (rest : List Char) (d : Char) :
    ¬ OpenBefore (c :: rest) d := by
  have hall : delimiters.all
      (fun c => !isIdentifierStart c && !marks.contains c && c != '/') = true := by decide +kernel
  have hc := List.all_eq_true.mp hall c h
  simp only [Bool.and_eq_true, Bool.not_eq_true', bne_iff_ne] at hc
  refine not_openBefore hc.1.1 ?_ d
  rw [startsWithMark_of_opensComment (opensComment_cons hc.2 rest), hc.1.2]

theorem not_openBefore_of_isBlank {c : Char} (h : isBlank c = true) (rest : List Char) (d : Char) :
    ¬ OpenBefore (c :: rest) d := by
  have hmark : c ∉ marks := by
    intro hmem
    rw [(plain_of_mem_marks hmem).1] at h
    contradiction
  have hslash : c ≠ '/' := by
    rintro rfl
    exact hmark (by decide)
  refine not_openBefore ?_ ?_ d
  · by_contra hstart
    rw [isBlank_of_start (Bool.eq_true_of_not_eq_false hstart)] at h
    contradiction
  · rw [startsWithMark_of_opensComment (opensComment_cons hslash rest)]
    simpa using hmark

theorem not_openBefore_of_comment? {text : List Char} {found : Comment}
    (h : comment? text = some found) (d : Char) : ¬ OpenBefore text d := by
  have hopens : opensComment text = true := by
    by_contra hnone
    rw [comment?_of_opensComment (Bool.eq_false_iff.mpr hnone)] at h
    contradiction
  unfold opensComment at hopens
  split at hopens
  · rename_i second rest
    refine not_openBefore (by decide +kernel) ?_ d
    rw [Bool.or_eq_true, beq_iff_eq, beq_iff_eq] at hopens
    rcases hopens with rfl | rfl
    · rfl
    · rfl
  · contradiction

/-- The attribute that a comment stands for is written. -/
theorem written_docTokens (inner : Bool) (text : List Char) : Written (docTokens inner text) := by
  have hparts : ['o', 'c'].all isIdentifierPart = true := by decide +kernel
  have hword : Word.IsWord ['d', 'o', 'c'] :=
    .plain (by decide +kernel) (List.all_eq_true.mp hparts)
  have hdoc : leaf? "doc".toList = some (.word "doc", "doc".toList.length) :=
    leaf?_of_isWord hword (by decide)
  have hbody : Written [.word "doc", .mark '=' .alone,
      .literal (Text.quoted (String.ofList text))] :=
    .leaf rfl hdoc (.alone (by decide) (by decide) (.leaf rfl (Text.leaf?_quoted _) .nil))
  cases inner with
  | true =>
    exact .alone (by decide) (by decide) (.alone (by decide) (by decide) (.group hbody .nil))
  | false => exact .alone (by decide) (by decide) (.group hbody .nil)

end Lexer

/-! ### Lifetimes before quotes -/

section Quote

variable {quote : Char} {text : List Char}

/-- A word ends before a character of another class. -/
theorem Word.length?_append_of_mem (hquote : isIdentifierPart quote = false) (hmem : quote ∈ text)
    (others : List Char) : length? (text ++ others) = length? text ∧
      ∀ count, length? text = some count → count < text.length := by
  cases text with
  | nil => contradiction
  | cons c rest =>
    rw [List.cons_append, length?, length?]
    split
    · rename_i hstart
      have hrest : quote ∈ rest := by
        rcases List.mem_cons.mp hmem with rfl | hrest
        · rw [isIdentifierPart_of_start hstart] at hquote
          contradiction
        · exact hrest
      have hlt : (rest.takeWhile isIdentifierPart).length < rest.length := by
        refine lt_of_le_of_ne (List.takeWhile_prefix _).length_le fun hall => ?_
        have hparts := List.takeWhile_eq_self_iff.mp
          ((List.takeWhile_prefix isIdentifierPart).eq_of_length hall)
        rw [hparts quote hrest] at hquote
        contradiction
      rw [List.takeWhile_append, if_neg hlt.ne]
      refine ⟨rfl, fun count hcount => ?_⟩
      rw [← Option.some.inj hcount, List.length_cons]
      omega
    · exact ⟨rfl, by simp⟩

/-- So does a word that may be raw. -/
theorem Word.lengthMaybeRaw?_append_of_mem (hquote : isIdentifierPart quote = false)
    (hsign : quote ≠ '#') (hmem : quote ∈ text) (others : List Char) :
    lengthMaybeRaw? (text ++ others) = lengthMaybeRaw? text ∧
      ∀ count, lengthMaybeRaw? text = some count → count < text.length := by
  by_cases hraw : ∃ rest, text = 'r' :: '#' :: rest
  · obtain ⟨rest, rfl⟩ := hraw
    have hrest : quote ∈ rest := by
      have hr : quote ≠ 'r' := by
        rintro rfl
        exact absurd hquote (by decide +kernel)
      simpa [hr, hsign] using hmem
    obtain ⟨hsame, hless⟩ := length?_append_of_mem hquote hrest others
    rw [List.cons_append, List.cons_append, lengthMaybeRaw?, lengthMaybeRaw?, hsame]
    cases hcount : length? rest with
    | none => exact ⟨rfl, by simp⟩
    | some count =>
      have hle := hless count hcount
      simp only [List.take_append_of_le_length hle.le, true_and]
      intro whole hwhole
      split at hwhole
      · contradiction
      · rw [← Option.some.inj hwhole, List.length_cons, List.length_cons]
        omega
  · have hplain : ∀ others : List Char, lengthMaybeRaw? (text ++ others) =
        length? (text ++ others) := by
      intro others
      unfold lengthMaybeRaw?
      split
      · rename_i rest hparts
        exfalso
        cases text with
        | nil => contradiction
        | cons c more =>
          obtain ⟨rfl, hmore⟩ := List.cons.inj hparts
          cases more with
          | nil =>
            rw [List.mem_singleton.mp hmem] at hquote
            exact absurd hquote (by decide +kernel)
          | cons d more =>
            obtain ⟨rfl, -⟩ := List.cons.inj hmore
            exact hraw ⟨more, rfl⟩
      · rfl
    have hself := hplain []
    rw [List.append_nil] at hself
    rw [hplain, hself]
    exact length?_append_of_mem hquote hmem others

/-- Whether a lifetime begins is decided before a quote. -/
theorem Lexer.beginsLifetime_append_of_mem (hquote : isIdentifierPart quote = false)
    (hsign : quote ≠ '#') (hmem : quote ∈ text) (others : List Char) :
    beginsLifetime (text ++ others) = beginsLifetime text := by
  obtain ⟨hsame, hless⟩ := Word.lengthMaybeRaw?_append_of_mem hquote hsign hmem others
  unfold beginsLifetime
  rw [hsame]
  cases hcount : Word.lengthMaybeRaw? text with
  | none => rfl
  | some count =>
    have hlt := hless count hcount
    obtain ⟨d, more, hdrop⟩ := List.exists_cons_of_length_pos (l := text.drop count)
      (by rw [List.length_drop]; omega)
    have hpositive : 0 < count := by
      obtain ⟨c, rest, hparts, -⟩ := (Word.isWord_take hcount).exists_cons
      cases count with
      | zero => contradiction
      | succ count => exact Nat.succ_pos count
    have hraw : ['r', '#'].isPrefixOf (text ++ others) = ['r', '#'].isPrefixOf text := by
      have hlong : 2 ≤ text.length := by omega
      obtain ⟨c, others, rfl⟩ := List.exists_cons_of_length_pos (by omega : 0 < text.length)
      obtain ⟨d, rest, rfl⟩ := List.exists_cons_of_length_pos
        (Nat.succ_lt_succ_iff.mp hlong : 0 < others.length)
      rfl
    simp only [List.drop_append_of_le_length hlt.le, hdrop, List.cons_append]
    by_cases hapostrophe : d = '\''
    · subst hapostrophe
      rfl
    · by_cases hnumber : d = '#'
      · rw [hnumber]
        exact hraw
      · simp [hapostrophe, hnumber]

end Quote

namespace Lexer

/-- A literal that begins like an identifier holds a quote. -/
theorem quote_mem_of_literalLength? {c : Char} {rest : List Char} {n : ℕ}
    (h : literalLength? (c :: rest) = some n) (hstart : isIdentifierStart c = true) :
    '"' ∈ c :: rest ∨ '\'' ∈ c :: rest := by
  have hmem : ∀ {quote : Char}, afterSigns? (c :: rest) = some quote → quote ∈ c :: rest :=
    fun hafter => (List.dropWhile_suffix _).subset (List.mem_of_mem_head? hafter)
  obtain ⟨hfloat, hwhole, -⟩ := unmarked_of_isIdentifierStart rest hstart
  rw [literalLength?, hfloat, hwhole] at h
  cases hstring : Quotation.stringLength? (c :: rest) with
  | some count => exact .inl (hmem (afterSigns?_of_stringLength? hstring))
  | none =>
    cases hcharacter : Quotation.characterLength? (c :: rest) with
    | some count => exact .inr (hmem (afterSigns?_of_characterLength? hcharacter))
    | none =>
      rw [hstring, hcharacter] at h
      contradiction

/-- A lifetime that begins with a token begins with it in front of what ends a leaf. -/
theorem beginsLifetime_append {token : Token} {spelling : List Char}
    (hspelling : spelled? token = some spelling)
    (hleaf : leaf? spelling = some (token, spelling.length)) {after : List Char}
    (h : beginsLifetime (spelling ++ after) = true) {tail : List Char} (htail : EndsLeaf tail) :
    beginsLifetime (spelling ++ tail) = true := by
  cases token with
  | word text =>
    obtain rfl := Option.some.inj hspelling
    simp only [beginsLifetime, lengthMaybeRaw?_append (isWord_of_leaf? hleaf) htail,
      List.drop_left]
    cases tail with
    | nil => rfl
    | cons c rest =>
      have hall : leafEnds.all (fun c => c != '\'' && c != '#') = true := by decide
      have hc := List.all_eq_true.mp hall c (endsLeaf_cons.mp htail)
      rw [Bool.and_eq_true, bne_iff_ne, bne_iff_ne] at hc
      simp [hc]
  | literal text =>
    have hliteral := literalLength?_of_leaf? hleaf
    cases spelling with
    | nil => exact absurd hliteral (by decide)
    | cons c rest =>
      have hstart : isIdentifierStart c = true := isIdentifierStart_of_beginsLifetime h
      have hsame : ∀ {quote : Char}, isIdentifierPart quote = false → quote ≠ '#' →
          quote ∈ c :: rest → beginsLifetime (c :: rest ++ tail) = true := by
        intro quote hquote hsign hmem
        rw [beginsLifetime_append_of_mem hquote hsign hmem] at h ⊢
        exact h
      rcases quote_mem_of_literalLength? hliteral hstart with hdouble | hsingle
      · exact hsame (by decide +kernel) (by decide) hdouble
      · exact hsame (by decide +kernel) (by decide) hsingle
  | mark c spacing => contradiction
  | group delimiter body => contradiction

/-- A joined mark is followed by what has been read there, and a lifetime by its name. -/
theorem writtenTo_open_leaf {isOpen : Char → Prop} {input : List Char} {token : Token} {count : ℕ}
    {spelling : List Char} (hleaf : leaf? input = some (token, count))
    (hspelling : spelled? token = some spelling) {d : Char} (hopen : OpenBefore input d)
    (htoken : WrittenTo isOpen [token]) : WrittenTo isOpen [.mark d .joint, token] := by
  obtain ⟨⟨after, rfl⟩, rfl, hne, hagain⟩ := leaf?_append hleaf hspelling
  have hself := hagain [] endsLeaf_nil
  rw [List.append_nil] at hself
  cases hopen with
  | lifetime hlifetime =>
    exact .lifetime hspelling (fun tail hends =>
      beginsLifetime_append hspelling hself hlifetime hends) htoken
  | mark hmark hquote hcomment hstarts =>
    cases spelling with
    | nil => exact absurd rfl hne
    | cons c others =>
      obtain ⟨-, hc⟩ := mem_marks_of_startsWithMark hstarts
      cases token with
      | word text =>
        obtain ⟨first, rest, hparts, hstart⟩ := (isWord_of_leaf? hself).exists_cons
        rw [Option.some.inj hspelling] at hparts
        rw [← (List.cons.inj hparts).1] at hstart
        exact absurd hc (not_mem_of_isIdentifierStart hstart).2.1
      | literal text =>
        have hfront : frontMark? [.literal text] = some c :=
          congrArg List.head? (Option.some.inj hspelling)
        refine .joint hmark hquote hfront hc ?_ htoken
        rintro rfl hmem
        simp only [List.mem_cons, List.not_mem_nil, or_false] at hmem
        rcases hmem with rfl | rfl
        · contradiction
        · contradiction
      | mark e spacing => contradiction
      | group delimiter body => contradiction

/-- What has been read is written, and goes on with the text that is left. -/
structure Position.Written (position : Position) : Prop where
  tokens : WrittenTo (OpenBefore position.input) position.tokens.reverse
  frames : ∀ frame ∈ position.frames, Lexer.Written frame.2.reverse

/-- A mark goes on with what follows it, and with what stands before it. -/
theorem writtenTo_mark {c : Char} {rest : List Char} {token : Token}
    (h : mark? (c :: rest) = some token) :
    WrittenTo (OpenBefore rest) [token] ∧
      ∀ d, OpenBefore (c :: rest) d → WrittenTo (OpenBefore rest) [.mark d .joint, token] := by
  obtain ⟨first, others, hparts, hstarts, htoken⟩ := mark?_eq_some h
  obtain ⟨rfl, rfl⟩ := List.cons.inj hparts
  obtain ⟨hcomment, hmark⟩ := mem_marks_of_startsWithMark hstarts
  have hone : WrittenTo (OpenBefore rest) [token] := by
    rcases htoken with ⟨rfl, hlifetime, rfl⟩ | ⟨hquote, rfl⟩
    · exact .last (.lifetime hlifetime)
    · split
      · rename_i hnext
        exact .last (.mark hmark hquote hcomment hnext)
      · exact .alone hmark hquote .nil
  refine ⟨hone, fun d hopen => ?_⟩
  cases hopen with
  | lifetime hlifetime =>
    have hstart := isIdentifierStart_of_beginsLifetime hlifetime
    exact absurd hmark (not_mem_of_isIdentifierStart hstart).2.1
  | mark hd hquote hbefore hnext =>
    have hfront : frontMark? [token] = some c := by
      rcases htoken with ⟨rfl, -, rfl⟩ | ⟨-, rfl⟩
      · rfl
      · rfl
    refine .joint hd hquote hfront hmark ?_ hone
    rintro rfl hmem
    simp only [List.mem_cons, List.not_mem_nil, or_false] at hmem
    rcases hmem with rfl | rfl
    · contradiction
    · contradiction

/-- A step of the lexer takes what is written. -/
theorem Position.Written.advance? {position next : Position} {c : Char} {rest : List Char}
    (h : position.Written) (hinput : position.input = c :: rest)
    (hnext : advance? position c rest = some next) : next.Written := by
  have htokens : WrittenTo (OpenBefore (c :: rest)) position.tokens.reverse := hinput ▸ h.tokens
  have hpush : ∀ {found : List Token} {after : List Char},
      WrittenTo (OpenBefore after) found →
      (∀ d, OpenBefore (c :: rest) d → WrittenTo (OpenBefore after) (.mark d .joint :: found)) →
      Position.Written
        { position with tokens := found.reverse ++ position.tokens, input := after } := by
    intro found after hfound hopen
    refine ⟨?_, h.frames⟩
    rw [List.reverse_append, List.reverse_reverse]
    exact htokens.append hfound hopen
  have hclosed : (∀ d, ¬ OpenBefore (c :: rest) d) → Lexer.Written position.tokens.reverse :=
    fun hnone => htokens.mono fun d hd => hnone d hd
  unfold Lexer.advance? at hnext
  dsimp only at hnext
  split at hnext
  · rename_i hblank
    rw [← Option.some.inj hnext]
    exact hpush .nil fun d hd => absurd hd (not_openBefore_of_isBlank hblank rest d)
  · split at hnext
    · rename_i after hcomment
      rw [← Option.some.inj hnext]
      exact hpush .nil fun d hd => absurd hd (not_openBefore_of_comment? hcomment d)
    · rename_i inner text after hcomment
      split at hnext
      · contradiction
      · rw [← Option.some.inj hnext]
        refine hpush ((written_docTokens inner text).mono fun _ => False.elim) fun d hd => ?_
        exact absurd hd (not_openBefore_of_comment? hcomment d)
    · split at hnext
      · rename_i herror
        rw [← Option.some.inj hnext]
        refine hpush (.unknown .nil) fun d hd => ?_
        obtain ⟨others, hothers⟩ := List.isPrefixOf_iff_prefix.mp herror
        obtain ⟨more, hparts⟩ : ∃ more, errorLiteral.toList = '(' :: more :=
          ⟨errorLiteral.toList.tail, by decide⟩
        rw [hparts, List.cons_append] at hothers
        rw [← (List.cons.inj hothers).1] at hd
        exact absurd hd (not_openBefore_of_delimiter (by decide) rest d)
      · split at hnext
        · rename_i delimiter hopening
          have hdelimiter : c ∈ delimiters := by
            by_contra hnone
            simp only [delimiters, List.mem_cons, List.not_mem_nil, or_false, not_or] at hnone
            simp [opening?, hnone] at hopening
          rw [← Option.some.inj hnext]
          refine ⟨.nil, List.forall_mem_cons.mpr ⟨hclosed fun d => ?_, h.frames⟩⟩
          exact not_openBefore_of_delimiter hdelimiter rest d
        · rename_i delimiter hopening hclosing
          have hdelimiter : c ∈ delimiters := by
            by_contra hnone
            simp only [delimiters, List.mem_cons, List.not_mem_nil, or_false, not_or] at hnone
            simp [closing?, hnone] at hclosing
          split at hnext
          · rename_i opened outer frames hframes
            split at hnext
            · obtain ⟨houter, hrest⟩ := List.forall_mem_cons.mp (hframes ▸ h.frames)
              rw [← Option.some.inj hnext]
              refine ⟨?_, hrest⟩
              rw [List.reverse_cons]
              refine Written.append houter (.group (hclosed fun d => ?_) .nil)
              exact not_openBefore_of_delimiter hdelimiter rest d
            · contradiction
          · contradiction
        · obtain ⟨⟨token, count⟩, hleaf, hpushed⟩ := Option.map_eq_some_iff.mp hnext
          rw [← hpushed]
          cases hspelling : spelled? token with
          | some spelling =>
            obtain ⟨⟨after, htext⟩, rfl, hne, hagain⟩ := leaf?_append hleaf hspelling
            have hself := hagain [] endsLeaf_nil
            rw [List.append_nil] at hself
            have hone : ∀ {isOpen : Char → Prop}, WrittenTo isOpen [token] :=
              .leaf hspelling hself .nil
            exact hpush hone fun d hd => writtenTo_open_leaf hleaf hspelling hd hone
          | none =>
            obtain ⟨hmark, rfl⟩ := mark?_of_leaf? hleaf hspelling
            obtain ⟨hone, hopen⟩ := writtenTo_mark hmark
            exact hpush hone hopen

/-- So does the whole run. -/
theorem Position.Written.run {steps : ℕ} {position : Position} {tokens : List Token}
    (h : position.Written) (hrun : run steps position = some tokens) : Lexer.Written tokens := by
  induction steps generalizing position with
  | zero => contradiction
  | succ steps ih =>
    unfold Lexer.run at hrun
    split at hrun
    · rename_i hinput
      split at hrun
      · rw [← Option.some.inj hrun]
        refine (hinput ▸ h.tokens).mono fun d hd => ?_
        cases hd with
        | lifetime hlifetime => contradiction
        | mark hmark hquote hcomment hstarts => contradiction
      · contradiction
    · rename_i c rest hinput
      obtain ⟨next, hnext, hrest⟩ := Option.bind_eq_some_iff.mp hrun
      exact ih (h.advance? hinput hnext) hrest

end Lexer

open Lexer

/-- The tokens of a text are written. -/
theorem Token.written_of_lex? {text : String} {tokens : List Token}
    (h : lex? text = some tokens) : Written tokens := by
  refine Position.Written.run ⟨.nil, fun frame hframe => ?_⟩ h
  exact absurd hframe List.not_mem_nil

end Typestate
