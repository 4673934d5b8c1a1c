import Typestate.Proofs.Member.Accepted
import Typestate.Proofs.Code.Names
import Typestate.Proofs.Text.LowLine

/-!
# Names of members

A name is accepted exactly if it is one plain identifier that no keyword and no generated item has.
Upper camel case drops the low lines of a name and nothing else, so something is left of every
accepted name. Of a name in ASCII it changes the case only.
-/

namespace Typestate

open Unicode Grammar Grammar.Parser

/-- The text is one plain identifier that is not reserved and does not begin like the names of
generated items. -/
structure IsMemberName (name : String) : Prop where
  plain : Word.IsPlain name.toList
  unreserved : name ∉ Word.reserved
  unprefixed : ¬ ['_', '_'] <+: name.toList

/-! ### One identifier -/

namespace Word.IsPlain

variable {name : String}

/-- No quoted literal begins with a plain word. -/
theorem quotedStarts_eq_false (h : IsPlain name.toList) :
    Lexer.quotedStarts.any (fun start => start.isPrefixOf name.toList) = false := by
  have hquoted : Lexer.quotedStarts.all (fun start => start.any fun c => !isIdentifierPart c) =
      true := by decide
  rw [List.any_eq_false]
  intro start hstart hbegins
  obtain ⟨c, hc, hpart⟩ := List.any_eq_true.mp (List.all_eq_true.mp hquoted start hstart)
  rw [h.forall_part c ((List.isPrefixOf_iff_prefix.mp hbegins).subset hc)] at hpart
  contradiction

/-- A plain word is its own only token. -/
theorem lex?_eq (h : IsPlain name.toList) : Token.lex? name = some [.word name] := by
  obtain ⟨c, rest, hname, hstart, -⟩ := id h
  have hleaf := Lexer.leaf?_of_isWord h.isWord h.quotedStarts_eq_false
  have hbegins : Lexer.BeginsLeaf c :=
    ⟨isBlank_of_start hstart, (Lexer.not_mem_of_isIdentifierStart hstart).2.2⟩
  rw [String.ofList_toList] at hleaf
  rw [hname] at hleaf
  have hlex := Token.lex?_of_leaf? hbegins hleaf
  rwa [← hname, String.ofList_toList] at hlex

/-- A plain word is not written raw. -/
theorem isRaw_eq_false (h : IsPlain name.toList) : Word.isRaw name = false := by
  unfold Word.isRaw
  split
  · rename_i rest hname
    rw [hname] at h
    exact absurd (h.forall_part '#' (by simp)) (by decide)
  · rfl

/-- A plain word that is not reserved is an identifier. -/
theorem isIdentifierText_eq (h : IsPlain name.toList) (hfree : name ∉ Word.reserved) :
    isIdentifierText name = true := by
  have hidentifier : Word.isIdentifier name = true := by
    simpa [Word.isIdentifier] using hfree
  have hread : all identifier [.word name] = .ok name := by
    simp [all, identifier, hidentifier, bind, Except.bind, pure, Except.pure]
  have htokens : readTokens? (fun _ => identifier) [.word name] = some name :=
    toOption_eq_some.mpr hread
  simp [isIdentifierText, readIdentifier?, read?, h.lex?_eq, htokens]

end Word.IsPlain

/-! ### What is left of a name -/

namespace Unicode

/-- The upper case of a character is not empty. -/
theorem upperChar_ne_nil (c : Char) : upperChar c ≠ [] := by
  unfold upperChar
  split
  · exact List.cons_ne_nil _ _
  · unfold applyCaseMap
    split
    · rename_i entry hentry
      have hplain := upperSequences_plain entry (List.mem_of_find?_eq_some hentry)
      intro hnone
      rw [List.map_eq_nil_iff.mp hnone] at hplain
      contradiction
    · split
      · exact List.cons_ne_nil _ _
      · exact List.cons_ne_nil _ _

/-- Case does not matter to the lower case of an ASCII character. -/
theorem toLower_of_ascii {c : Char} (h : c.toNat < 128) :
    c.toUpper.toLower = c.toLower ∧ c.toLower.toLower = c.toLower := by
  have hall : ∀ code < 128, (Char.ofNat code).toUpper.toLower = (Char.ofNat code).toLower ∧
      (Char.ofNat code).toLower.toLower = (Char.ofNat code).toLower := by decide
  have hcode := hall c.toNat h
  rwa [Char.ofNat_toNat] at hcode

/-- The lower case of ASCII characters, whatever stands before them. -/
theorem lowerAfter_of_ascii {before chars : List Char} (h : ∀ c ∈ chars, c.toNat < 128) :
    lowerAfter before chars = chars.map Char.toLower := by
  induction chars generalizing before with
  | nil => rfl
  | cons c after ih =>
    obtain ⟨hc, hafter⟩ := List.forall_mem_cons.mp h
    have hsigma : c ≠ 'Σ' := by
      rintro rfl
      exact absurd hc (by decide)
    rw [lowerAfter, if_neg hsigma, lowerChar, if_pos hc, ih hafter]
    rfl

end Unicode

namespace Text

/-- Cutting clusters into words drops the separators and nothing else. -/
theorem flatten_wordsFrom (word : Word) (clusters : List Cluster) :
    (wordsFrom word clusters).flatten =
      word ++ (clusters.filter fun cluster => !isSeparator cluster).flatten := by
  induction clusters generalizing word with
  | nil => simp [wordsFrom]
  | cons cluster rest ih =>
    rw [wordsFrom.eq_def]
    dsimp only
    cases hseparator : isSeparator cluster with
    | true => simp [hseparator, ih]
    | false =>
      rw [if_neg Bool.false_ne_true]
      cases rest with
      | nil => simp [hseparator]
      | cons next others =>
        dsimp only
        split
        · simp [hseparator, ih]
        · simp [hseparator, ih]

/-- The words of a name hold all of it but the separators. -/
theorem flatten_words (name : List Char) :
    (words name).flatten = ((clusters name).filter fun cluster => !isSeparator cluster).flatten :=
  flatten_wordsFrom [] _

theorem capitalized_eq_nil {word : Word} : capitalized word = [] ↔ word = [] := by
  cases word with
  | nil => simp [capitalized]
  | cons c rest => simp [capitalized, upperChar_ne_nil]

/-- Nothing is left of a name in upper camel case exactly if it holds separators only. -/
theorem pascalCase_eq_empty {name : String} :
    pascalCase name = "" ↔ ∀ cluster ∈ clusters name.toList, isSeparator cluster = false →
      cluster = [] := by
  have hwords : pascalCase name = "" ↔ (words name.toList).flatten = [] := by
    rw [pascalCase, ← String.ofList_nil, String.ofList_inj, List.flatMap_eq_nil_iff,
      List.flatten_eq_nil_iff]
    exact forall₂_congr fun word _ => capitalized_eq_nil
  rw [hwords, flatten_words, List.flatten_eq_nil_iff]
  simp [List.mem_filter]

/-- Of a word in ASCII only the case is changed. -/
theorem map_toLower_capitalized {word : Word} (h : ∀ c ∈ word, c.toNat < 128) :
    (capitalized word).map Char.toLower = word.map Char.toLower := by
  cases word with
  | nil => rfl
  | cons c rest =>
    obtain ⟨hc, hrest⟩ := List.forall_mem_cons.mp h
    rw [capitalized, upperChar, if_pos hc, lower, lowerAfter_of_ascii hrest, List.singleton_append,
      List.map_cons, List.map_cons, (toLower_of_ascii hc).1, List.map_map]
    refine congrArg _ (List.map_congr_left fun d hd => ?_)
    exact (toLower_of_ascii (hrest d hd)).2

/-- A character of an identifier separates words by itself exactly if it is the low line. -/
theorem isSeparator_singleton {c : Char} (h : isIdentifierPart c = true) :
    isSeparator [c] = (c == '_') := by
  have hhyphen : c ≠ '-' := by
    rintro rfl
    exact absurd h (by decide)
  have hspace : c ≠ ' ' := by
    rintro rfl
    exact absurd h (by decide)
  have hothers : (c == '-') = false ∧ (c == ' ') = false :=
    ⟨beq_false_of_ne hhyphen, beq_false_of_ne hspace⟩
  have hsame (d : Char) : ([c] == [d]) = (c == d) := by simp
  simp only [isSeparator, hsame, hothers, Bool.or_false]

/-- The words of an identifier in ASCII hold all of it but the low lines. -/
theorem flatten_words_of_ascii {name : List Char} (hascii : ∀ c ∈ name, c.toNat < 128)
    (hparts : ∀ c ∈ name, isIdentifierPart c = true) :
    (words name).flatten = name.filter fun c => c != '_' := by
  rw [flatten_words, clusters_of_ascii hascii, List.filter_map, ← List.flatMap_def,
    List.flatMap_singleton']
  refine List.filter_congr fun c hc => ?_
  rw [Function.comp_apply, isSeparator_singleton (hparts c hc), bne]

end Text

namespace IsMemberName

variable {name : String} (h : IsMemberName name)

include h

/-- Something is left of the name of a member in upper camel case. -/
theorem displayName_ne_empty : displayName name ≠ "" := by
  intro hempty
  have hclusters := Text.pascalCase_eq_empty.mp hempty
  have hlowLines : ∀ c ∈ name.toList, c = '_' := by
    intro c hc
    rw [← flatten_clusters name.toList] at hc
    obtain ⟨cluster, hcluster, hmem⟩ := List.mem_flatten.mp hc
    have hpart : isIdentifierPart c = true :=
      h.plain.forall_part c (flatten_clusters name.toList ▸ List.mem_flatten_of_mem hcluster hmem)
    cases hseparator : Text.isSeparator cluster with
    | false =>
      rw [hclusters cluster hcluster hseparator] at hmem
      exact absurd hmem List.not_mem_nil
    | true =>
      simp only [Text.isSeparator, Bool.or_eq_true, beq_iff_eq] at hseparator
      rcases hseparator with (rfl | rfl) | rfl
      · exact List.mem_singleton.mp hmem
      · rw [List.mem_singleton.mp hmem] at hpart
        exact absurd hpart (by decide)
      · rw [List.mem_singleton.mp hmem] at hpart
        exact absurd hpart (by decide)
  -- A name of low lines only is the reserved low line, or begins with two of them.
  obtain ⟨c, rest, hname, -, -⟩ := h.plain
  rw [hname, List.forall_mem_cons] at hlowLines
  obtain ⟨rfl, hrest⟩ := hlowLines
  cases rest with
  | nil =>
    have hline : name = "_" := String.toList_injective hname
    exact h.unreserved (hline ▸ by decide)
  | cons next others =>
    rw [hrest next List.mem_cons_self] at hname
    exact h.unprefixed (hname ▸ List.prefix_append ['_', '_'] others)

/-- Of a name in ASCII upper camel case keeps all but the low lines, case aside. -/
theorem map_toLower_displayName (hascii : ∀ c ∈ name.toList, c.toNat < 128) :
    (displayName name).toList.map Char.toLower =
      (name.toList.filter fun c => c != '_').map Char.toLower := by
  rw [displayName, Text.pascalCase, String.toList_ofList,
    ← Text.flatten_words_of_ascii hascii h.plain.forall_part, List.map_flatMap, List.map_flatten,
    ← List.flatMap_def]
  refine List.flatMap_congr fun word hword => Text.map_toLower_capitalized fun c hc => ?_
  exact hascii c ((Text.cut_words name.toList).forall_subset word hword hc)

end IsMemberName

/-! ### The check of a name -/

variable {name : String}

/-- The checks before the last one leave the names of members only. -/
theorem isMemberName_of_checks (hraw : Word.isRaw name = false)
    (hidentifier : isIdentifierText name = true)
    (hlines : ['_', '_'].isPrefixOf name.toList = false) : IsMemberName name where
  plain := by
    have hword := isWord_of_isIdentifierText hidentifier
    unfold Word.isRaw at hraw
    generalize name.toList = chars at hraw hword
    cases hword with
    | plain hstart hrest => exact ⟨_, _, rfl, hstart, hrest⟩
    | raw hstart hrest hnever => contradiction
  unreserved := by simpa [Word.isIdentifier] using (lex?_of_isIdentifierText hidentifier).2
  unprefixed h := by
    rw [List.isPrefixOf_iff_prefix.mpr h] at hlines
    contradiction

/-- The first check that fails is reported; all pass exactly for the names of members, and the last
one never fails. -/
theorem nameFault?_cases (name : String) :
    (IsMemberName name ∧ nameFault? name = none) ∨
      (¬ IsMemberName name ∧ ∃ fault, fault ≠ .nothingShown ∧ nameFault? name = some fault) := by
  unfold nameFault?
  cases hraw : Word.isRaw name with
  | true =>
    refine .inr ⟨fun h => ?_, .raw, by decide, rfl⟩
    rw [h.plain.isRaw_eq_false] at hraw
    contradiction
  | false =>
    cases hidentifier : isIdentifierText name with
    | false =>
      refine .inr ⟨fun h => ?_, .notIdentifier, by decide, rfl⟩
      rw [h.plain.isIdentifierText_eq h.unreserved] at hidentifier
      contradiction
    | true =>
      cases hlines : ['_', '_'].isPrefixOf name.toList with
      | true =>
        refine .inr ⟨fun h => ?_, .reserved, by decide, rfl⟩
        exact h.unprefixed (List.isPrefixOf_iff_prefix.mp hlines)
      | false =>
        have hname := isMemberName_of_checks hraw hidentifier hlines
        have hshown : (displayName name).isEmpty = false :=
          Bool.eq_false_iff.mpr fun hempty =>
            hname.displayName_ne_empty (String.isEmpty_iff.mp hempty)
        exact .inl ⟨hname, by simp [hshown]⟩

/-- Nothing is wrong with a name exactly if it is one for a member. -/
theorem nameFault?_eq_none : nameFault? name = none ↔ IsMemberName name := by
  rcases nameFault?_cases name with ⟨hname, hnone⟩ | ⟨hname, fault, -, hfault⟩
  · exact iff_of_true hnone hname
  · exact iff_of_false (by simp [hfault]) hname

/-- A type is not refused for a name. -/
theorem TypeText.read_ne_invalidName {member text : String} {fault : NameFault} :
    TypeText.read member text ≠ .error (.invalidName name fault) := by
  unfold TypeText.read
  split
  · simp
  · simp

/-- A default is not refused for a name. -/
theorem Fallback.resolve_ne_invalidName {member : String} {fallback : Fallback}
    {fault : NameFault} : fallback.resolve member ≠ .error (.invalidName name fault) := by
  cases fallback with
  | required => simp [Fallback.resolve]
  | provided => simp [Fallback.resolve]
  | expression text =>
    simp only [Fallback.resolve, DefaultText.read]
    split
    · simp
    · split
      · simp
      · simp

/-- A member is refused for its name exactly if something is wrong with the name. -/
theorem Member.make_eq_invalidName {type : String} {fallback : Fallback} {index : ℕ}
    {origin : Origin} :
    (∃ fault, Member.make name type fallback index origin = .error (.invalidName name fault)) ↔
      nameFault? name ≠ none := by
  unfold Member.make
  cases nameFault? name with
  | some fault => exact iff_of_true ⟨fault, rfl⟩ (Option.some_ne_none fault)
  | none =>
    refine iff_of_false ?_ (not_not_intro rfl)
    rintro ⟨fault, hmake⟩
    cases htype : TypeText.read name type with
    | error error =>
      rw [htype] at hmake
      obtain rfl := Except.error.inj hmake
      exact TypeText.read_ne_invalidName htype
    | ok readType =>
      cases hdefault : fallback.resolve name with
      | error error =>
        rw [htype, hdefault] at hmake
        obtain rfl := Except.error.inj hmake
        exact Fallback.resolve_ne_invalidName hdefault
      | ok readDefault =>
        rw [htype, hdefault] at hmake
        contradiction

/-- **Names of members.** Whatever else is said of a member, it is refused for its name exactly if
the name is not, as it stands, one plain identifier that is neither reserved nor begins with two low
lines. Something is left of every other name in upper camel case, so a name is never refused because
nothing is; and if the name is in ASCII, what is left has no low line and is, case aside, the name
without its low lines. -/
theorem nameFault?_spec (name : String) :
    (nameFault? name = none ↔ IsMemberName name) ∧
      (∀ (type : String) (fallback : Fallback) (index : ℕ) (origin : Origin),
        (∃ fault, Member.make name type fallback index origin =
          .error (.invalidName name fault)) ↔ ¬ IsMemberName name) ∧
      nameFault? name ≠ some .nothingShown ∧
      (IsMemberName name → displayName name ≠ "" ∧
        ((∀ c ∈ name.toList, c.toNat < 128) → '_' ∉ (displayName name).toList ∧
          (displayName name).toList.map Char.toLower =
            (name.toList.filter fun c => c != '_').map Char.toLower)) := by
  refine ⟨nameFault?_eq_none, fun type fallback index origin => ?_, fun hfault => ?_, fun hname =>
    ⟨hname.displayName_ne_empty, fun hascii =>
      ⟨lowLine_not_mem_displayName hascii, hname.map_toLower_displayName hascii⟩⟩⟩
  · rw [Member.make_eq_invalidName, Ne, nameFault?_eq_none]
  · rcases nameFault?_cases name with ⟨-, hnone⟩ | ⟨-, fault, hshown, hsome⟩
    · rw [hnone] at hfault
      contradiction
    · rw [hsome] at hfault
      exact hshown (Option.some.inj hfault)

/-- The name of a member with low lines at its ends and in its middle. -/
theorem nameFault?_spec_lowLines :
    IsMemberName "_zip__Code2_" ∧ (∀ c ∈ "_zip__Code2_".toList, c.toNat < 128) ∧
      displayName "_zip__Code2_" ≠ "" ∧ '_' ∉ (displayName "_zip__Code2_").toList ∧
      (displayName "_zip__Code2_").toList.map Char.toLower = "zipcode2".toList := by
  have hname : IsMemberName "_zip__Code2_" := (nameFault?_spec _).1.mp (by decide +kernel)
  have hascii : ∀ c ∈ "_zip__Code2_".toList, c.toNat < 128 := by simp
  obtain ⟨-, -, -, hspec⟩ := nameFault?_spec "_zip__Code2_"
  obtain ⟨hshown, hcase⟩ := hspec hname
  obtain ⟨hline, hsame⟩ := hcase hascii
  exact ⟨hname, hascii, hshown, hline, hsame.trans (by decide)⟩

end Typestate
