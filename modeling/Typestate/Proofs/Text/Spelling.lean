import Typestate.Proofs.Text.CaseMap
import Typestate.Proofs.Token.Words
import Typestate.Text.Words

/-!
# Spelling of names that are put together

A name in upper camel case has characters of identifiers only, so it may follow after a word. A
name in snake case begins as the name does, with a letter or with the sign of a raw word, so it may
begin a word. The cuts between words never fall after that sign.
-/

namespace Typestate

open Unicode

namespace Word

/-- The characters may begin a word: they are a plain word, or one after the sign of being raw. A
word that is never raw is allowed here. -/
inductive IsStem : List Char → Prop where
  | plain {chars : List Char} (hplain : IsPlain chars) : IsStem chars
  | raw {chars : List Char} (hplain : IsPlain chars) : IsStem ('r' :: '#' :: chars)

/-- A text that a plain word reaches to the end of is a plain word. -/
theorem isPlain_of_length? {chars : List Char} (h : length? chars = some chars.length) :
    IsPlain chars := by
  obtain ⟨c, rest, htake, hstart, hrest⟩ := length?_eq_some h
  rw [List.take_length] at htake
  exact ⟨c, rest, htake, hstart, hrest⟩

/-- A plain word is a word. -/
theorem IsPlain.isWord {chars : List Char} (h : IsPlain chars) : IsWord chars := by
  obtain ⟨c, rest, rfl, hstart, hrest⟩ := h
  exact .plain hstart hrest

/-- A word is a stem. -/
theorem IsWord.isStem {chars : List Char} (h : IsWord chars) : IsStem chars := by
  cases h with
  | plain hstart hrest => exact .plain ⟨_, _, rfl, hstart, hrest⟩
  | raw hstart hrest hraw => exact .raw ⟨_, _, rfl, hstart, hrest⟩

/-- The words that are never raw are short. -/
theorem neverRaw_of_length {chars : List Char} (h : 6 ≤ chars.length) :
    neverRaw.contains (String.ofList chars) = false := by
  have hshort : ∀ word ∈ neverRaw, word.toList.length < 6 := by decide
  rw [Bool.eq_false_iff]
  intro hmem
  have hlength := hshort _ (List.contains_iff_mem.mp hmem)
  rw [String.toList_ofList] at hlength
  omega

/-- A stem becomes a word by a long enough ending. -/
theorem IsStem.isWord_append {chars ending : List Char} (h : IsStem chars)
    (hending : IsPlain ending) (hlong : 6 ≤ ending.length) : IsWord (chars ++ ending) := by
  cases h with
  | plain hplain => exact (hplain.append hending.forall_part).isWord
  | raw hplain =>
    obtain ⟨c, rest, hsame, hstart, hrest⟩ := hplain.append hending.forall_part
    rw [List.cons_append, List.cons_append, hsame]
    refine .raw hstart hrest (neverRaw_of_length ?_)
    rw [← hsame, List.length_append]
    omega

end Word

/-! ### Clusters -/

namespace Unicode

/-- Characters that are no marks that follow others: ASCII, the capital sigma, marks that are
written before others, and what has a lower case. -/
def unmarked : List Ranges :=
  [[(0, 127)], [('Σ'.toNat, 'Σ'.toNat)], leadingMarks,
    lowerRuns.map fun run => (run.first, run.last),
    lowerSequences.map fun entry => (entry.1, entry.1)]

theorem unmarked_within : ∀ ranges ∈ unmarked, ranges.within (followingMarks.gaps 0) = true := by
  decide +kernel

theorem followingMarks_ordered :
    followingMarks.ordered = true ∧ ∀ range ∈ followingMarks, 0 < range.1 := by
  decide +kernel

theorem not_mark {ranges : Ranges} (hranges : ranges ∈ unmarked) {range : ℕ × ℕ}
    (hrange : range ∈ ranges) {code : ℕ} (hfirst : range.1 ≤ code) (hlast : code ≤ range.2) :
    followingMarks.has code = false :=
  (Ranges.has_of_gaps followingMarks_ordered.1 followingMarks_ordered.2 <|
    Ranges.has_of_within (unmarked_within ranges hranges) <|
      Ranges.has_eq_true.mpr ⟨range, hrange, hfirst, hlast⟩).2

/-- A mark that follows others is not written before others. -/
theorem not_leading_of_mark {c : Char} (h : followingMarks.has c.toNat = true) :
    leadingMarks.has c.toNat = false := by
  have hranges : leadingMarks ∈ unmarked := by simp [unmarked]
  rw [Bool.eq_false_iff]
  intro hleading
  obtain ⟨range, hrange, hfirst, hlast⟩ := Ranges.has_eq_true.mp hleading
  rw [not_mark hranges hrange hfirst hlast] at h
  contradiction

/-- A mark that follows others is its own lower case. -/
theorem lowerChar_of_mark {c : Char} (h : followingMarks.has c.toNat = true) :
    lowerChar c = [c] := by
  have hascii : ¬ c.toNat < 128 := by
    intro hless
    have hranges : [(0, 127)] ∈ unmarked := by simp [unmarked]
    rw [not_mark hranges List.mem_cons_self (Nat.zero_le _) (Nat.le_of_lt_succ hless)] at h
    contradiction
  have hsequences : lowerSequences.find? (fun entry => entry.1 == c.toNat) = none := by
    refine List.find?_eq_none.mpr fun entry hentry hsame => ?_
    have hranges : (lowerSequences.map fun entry => (entry.1, entry.1)) ∈ unmarked := by
      simp [unmarked]
    rw [← beq_iff_eq.mp hsame,
      not_mark hranges (List.mem_map_of_mem hentry) (le_refl entry.1) (le_refl entry.1)] at h
    contradiction
  have hruns : lowerRuns.find? (fun run => run.has c.toNat) = none := by
    refine List.find?_eq_none.mpr fun run hrun hhas => ?_
    have hranges : (lowerRuns.map fun run => (run.first, run.last)) ∈ unmarked := by
      simp [unmarked]
    simp only [CaseRun.has, Bool.and_eq_true, decide_eq_true_eq] at hhas
    rw [not_mark hranges (List.mem_map_of_mem hrun) hhas.1.1 hhas.1.2] at h
    contradiction
  rw [lowerChar, if_neg hascii, applyCaseMap, hsequences]
  dsimp only
  rw [hruns]

/-- Lower case leaves marks that follow others alone. -/
theorem lowerAfter_of_marks {before chars : List Char}
    (h : ∀ c ∈ chars, followingMarks.has c.toNat = true) : lowerAfter before chars = chars := by
  induction chars generalizing before with
  | nil => rfl
  | cons c after ih =>
    obtain ⟨hc, hafter⟩ := List.forall_mem_cons.mp h
    have hsigma : c ≠ 'Σ' := by
      rintro rfl
      have hranges : [('Σ'.toNat, 'Σ'.toNat)] ∈ unmarked := by simp [unmarked]
      rw [not_mark hranges List.mem_cons_self le_rfl le_rfl] at hc
      contradiction
    rw [lowerAfter, if_neg hsigma, lowerChar_of_mark hc, ih hafter]
    rfl

/-- A character before a text joins its first cluster or is one by itself. -/
theorem clusters_cons_cons {c next : Char} {tail : List Char} {cluster : Cluster}
    {others : List Cluster} (h : clusters (next :: tail) = cluster :: others) :
    clusters (c :: next :: tail) =
      if joins c next then (c :: cluster) :: others else [c] :: cluster :: others := by
  rw [clusters.eq_def]
  simp only [h]

/-- A text begins with a cluster that begins as the text does. Unless its first character is written
before others, only marks that follow others join it. -/
theorem clusters_cons (c : Char) (rest : List Char) :
    ∃ marks others, clusters (c :: rest) = (c :: marks) :: others ∧ marks ++ others.flatten = rest ∧
      (leadingMarks.has c.toNat = false → ∀ d ∈ marks, followingMarks.has d.toNat = true) := by
  induction rest generalizing c with
  | nil => exact ⟨[], [], rfl, rfl, fun _ d hd => absurd hd List.not_mem_nil⟩
  | cons next tail ih =>
    obtain ⟨marks, others, hclusters, hflatten, hmarks⟩ := ih next
    rw [clusters_cons_cons hclusters]
    split
    · rename_i hjoins
      refine ⟨next :: marks, others, rfl, by rw [List.cons_append, hflatten], fun hleading => ?_⟩
      have hnext : followingMarks.has next.toNat = true := by
        unfold joins at hjoins
        split at hjoins
        · contradiction
        · rwa [hleading, Bool.false_or] at hjoins
      exact List.forall_mem_cons.mpr ⟨hnext, hmarks (not_leading_of_mark hnext)⟩
    · refine ⟨[], (next :: marks) :: others, rfl, ?_, fun _ d hd => absurd hd List.not_mem_nil⟩
      rw [List.nil_append, List.flatten_cons, List.cons_append, hflatten]

/-- Cutting a text into clusters loses nothing. -/
@[simp] theorem flatten_clusters (chars : List Char) : (clusters chars).flatten = chars := by
  cases chars with
  | nil => rfl
  | cons c rest =>
    obtain ⟨marks, others, hclusters, hflatten, -⟩ := clusters_cons c rest
    rw [hclusters, List.flatten_cons, List.cons_append, hflatten]

end Unicode

/-! ### Words -/

namespace Text

/-- The words are those of a text before which a first word has begun. The first word goes on as the
text does; if it is all of the text, there are no others. -/
def Cut (word : Word) (text : List Char) (words : List Word) : Prop :=
  ∃ more others, words = (word ++ more) :: others ∧ more <+: text ∧
    (others = [] → more = text) ∧ ∀ found ∈ others, found ⊆ text

/-- What has been taken of a text may be taken for its beginning. -/
theorem Cut.of_append {word before text : List Char} {words : List Word}
    (h : Cut (word ++ before) text words) : Cut word (before ++ text) words := by
  obtain ⟨more, others, rfl, hfront, hall, hothers⟩ := h
  refine ⟨before ++ more, others, by rw [List.append_assoc],
    (List.prefix_append_right_inj before).mpr hfront, fun hnone => by rw [hall hnone], ?_⟩
  exact fun found hfound => List.subset_append_of_subset_right before (hothers found hfound)

/-- All words of a cut from the beginning have characters of the text only. -/
theorem Cut.forall_subset {text : List Char} {words : List Word} (h : Cut [] text words) :
    ∀ found ∈ words, found ⊆ text := by
  obtain ⟨more, others, rfl, hfront, -, hothers⟩ := h
  exact List.forall_mem_cons.mpr ⟨hfront.subset, hothers⟩

/-- After a word that has ended, and what separates it from the next, a text is cut by itself. -/
theorem Cut.cons {word text : List Char} {words : List Word} (separator : List Char)
    (h : Cut [] text words) : Cut word (separator ++ text) (word :: words) := by
  refine ⟨[], words, by rw [List.append_nil], List.nil_prefix, fun hnone => ?_,
    fun found hfound => ?_⟩
  · obtain ⟨more, others, rfl, -⟩ := h
    contradiction
  · exact List.subset_append_of_subset_right separator (h.forall_subset found hfound)

/-- A cluster that is no separator is taken whole. -/
theorem cut_wordsFrom_cons {cluster : Cluster} {rest : List Cluster} (word : Word)
    (hrest : ∀ word, Cut word rest.flatten (wordsFrom word rest))
    (hcluster : isSeparator cluster = false) :
    Cut (word ++ cluster) rest.flatten (wordsFrom word (cluster :: rest)) := by
  rw [wordsFrom.eq_def]
  dsimp only
  rw [if_neg (Bool.eq_false_iff.mp hcluster)]
  split
  · split
    · exact (hrest []).cons []
    · exact hrest (word ++ cluster)
  · exact ⟨[], [], by rw [List.append_nil], List.prefix_refl _, fun _ => rfl, by simp⟩

/-- Words are a cut of the text of their clusters. -/
theorem cut_wordsFrom (word : Word) (clusters : List Cluster) :
    Cut word clusters.flatten (wordsFrom word clusters) := by
  induction clusters generalizing word with
  | nil =>
    exact ⟨[], [], by rw [wordsFrom, List.append_nil], List.prefix_refl _, fun _ => rfl, by simp⟩
  | cons cluster rest ih =>
    cases hcluster : isSeparator cluster with
    | true =>
      rw [wordsFrom.eq_def]
      simp only [hcluster, if_true]
      exact (ih []).cons cluster
    | false => exact (cut_wordsFrom_cons word ih hcluster).of_append

/-- Words of a name are a cut of it. -/
theorem cut_words (name : List Char) : Cut [] name (words name) := by
  have hcut := cut_wordsFrom [] (clusters name)
  rwa [flatten_clusters] at hcut

/-- No word ends between the two characters of the sign of being raw: marks after the second one
have no case, so nothing there looks like a capital. -/
theorem breaksBetween_sign {marks : List Char} (others : List Cluster)
    (hmarks : ∀ c ∈ marks, followingMarks.has c.toNat = true) :
    breaksBetween ['r'] ('#' :: marks) others = false := by
  have hrest : lowerAfter ['#'] marks = marks := lowerAfter_of_marks hmarks
  have hlower : lower ('#' :: marks) = '#' :: marks := congrArg (List.cons '#') hrest
  have hupper : isUpperCluster ('#' :: marks) = false := by
    rw [isUpperCluster, hlower, Bool.and_eq_false_iff, bne_eq_false_iff_eq, beq_eq_false_iff_ne]
    exact (eq_or_ne (upper ('#' :: marks)) ('#' :: marks)).imp_right Ne.symm
  have hdigit : isDigitCluster ('#' :: marks) = false := rfl
  have hfirst : isUpperCluster ['r'] = false ∧ isDigitCluster ['r'] = false := by decide
  simp [breaksBetween, hupper, hdigit, hfirst]

/-- Words of a raw name begin with the sign of being raw, after which the name is cut. -/
theorem cut_words_raw (name : List Char) : Cut ['r', '#'] name (words ('r' :: '#' :: name)) := by
  obtain ⟨marks, others, hclusters, hflatten, hmarks⟩ := clusters_cons '#' name
  have hjoins : joins 'r' '#' = false := rfl
  have hsign : isSeparator ('#' :: marks) = false := rfl
  have hwords : words ('r' :: '#' :: name) = wordsFrom ['r'] (('#' :: marks) :: others) := by
    rw [words, clusters_cons_cons hclusters, hjoins, if_neg Bool.false_ne_true, wordsFrom.eq_def]
    simp only [breaksBetween_sign others (hmarks (by decide))]
    rfl
  rw [hwords, ← hflatten]
  exact Cut.of_append (cut_wordsFrom_cons ['r'] (fun word => cut_wordsFrom word others) hsign)

/-! ### Upper camel case -/

/-- A name in upper camel case has characters of identifiers if the name has. -/
theorem forall_part_pascalCase {name : String}
    (h : ∀ c ∈ name.toList, isIdentifierPart c = true) :
    ∀ c ∈ (pascalCase name).toList, isIdentifierPart c = true := by
  intro c hc
  rw [pascalCase, String.toList_ofList, List.mem_flatMap] at hc
  obtain ⟨word, hword, hc⟩ := hc
  have hparts : ∀ d ∈ word, isIdentifierPart d = true := fun d hd =>
    h d ((cut_words name.toList).forall_subset word hword hd)
  cases word with
  | nil => exact absurd hc List.not_mem_nil
  | cons first rest =>
    obtain ⟨hfirst, hrest⟩ := List.forall_mem_cons.mp hparts
    rcases List.mem_append.mp hc with hupper | hlower
    · exact forall_part_upperChar hfirst c hupper
    · exact forall_part_lowerAfter hrest c hlower

/-! ### Snake case -/

/-- Words joined by low lines. -/
theorem intercalate_cons (first : Word) (others : List Word) :
    ['_'].intercalate (first :: others) = first ++ others.flatMap fun word => '_' :: word := by
  induction others generalizing first with
  | nil => simp [List.intercalate_singleton]
  | cons next rest ih =>
    rw [List.intercalate_cons_cons, ih, List.flatMap_cons]
    simp

/-- Low lines before words of an identifier keep it one. -/
theorem forall_part_flatMap {words : List Word}
    (h : ∀ word ∈ words, ∀ c ∈ word, isIdentifierPart c = true) :
    ∀ c ∈ words.flatMap fun word => '_' :: word, isIdentifierPart c = true := by
  intro c hc
  obtain ⟨word, hword, hc⟩ := List.mem_flatMap.mp hc
  rcases List.mem_cons.mp hc with rfl | hc
  · decide
  · exact h word hword c hc

/-- Low lines between words of an identifier keep it one. -/
theorem forall_part_intercalate {words : List Word}
    (h : ∀ word ∈ words, ∀ c ∈ word, isIdentifierPart c = true) :
    ∀ c ∈ ['_'].intercalate words, isIdentifierPart c = true := by
  cases words with
  | nil => exact fun c hc => absurd hc List.not_mem_nil
  | cons first others =>
    obtain ⟨hfirst, hothers⟩ := List.forall_mem_cons.mp h
    rw [intercalate_cons]
    exact List.forall_mem_append.mpr ⟨hfirst, forall_part_flatMap hothers⟩

/-- The words of a cut of a plain word, joined by low lines in lower case, are a plain word after
what the first one had begun with: if nothing is left for the first word, it is not the only one. -/
theorem isPlain_of_cut {before : List Char} {word : Word} {name : List Char} {words : List Word}
    (h : Cut word name words) (hname : Word.IsPlain name) :
    ∃ more others, words = (word ++ more) :: others ∧ Word.IsPlain
      (lowerAfter before more ++ (others.map lower).flatMap fun found => '_' :: found) := by
  obtain ⟨more, others, hwords, hfront, hall, hothers⟩ := h
  refine ⟨more, others, hwords, ?_⟩
  have hrest : ∀ c ∈ (others.map lower).flatMap fun found => '_' :: found,
      isIdentifierPart c = true := by
    refine forall_part_flatMap fun found hfound => ?_
    obtain ⟨other, hother, rfl⟩ := List.mem_map.mp hfound
    exact forall_part_lowerAfter fun d hd => hname.forall_part d (hothers other hother hd)
  obtain ⟨c, rest, rfl, hstart, hparts⟩ := hname
  cases more with
  | nil =>
    -- The name begins with a separator, so a low line comes first.
    cases others with
    | nil => exact absurd (hall rfl) (List.cons_ne_nil c rest).symm
    | cons other others =>
      exact ⟨'_', _, rfl, by decide, (List.forall_mem_cons.mp hrest).2⟩
  | cons d more =>
    obtain ⟨rfl, hmore⟩ := List.cons_prefix_cons.mp hfront
    have hplain : Word.IsPlain (d :: more) := ⟨d, more, rfl, hstart, fun e he =>
      hparts e (hmore.subset he)⟩
    exact (isPlain_lowerAfter hplain).append hrest

/-- A name in snake case may begin a word if the name may. -/
theorem isStem_snakeCase {name : String} (h : Word.IsStem name.toList) :
    Word.IsStem (snakeCase name).toList := by
  rw [snakeCase, String.toList_ofList]
  generalize name.toList = chars at h ⊢
  cases h with
  | plain hplain =>
    obtain ⟨more, others, hwords, hjoined⟩ := isPlain_of_cut (cut_words chars) hplain
    rw [hwords, List.map_cons, intercalate_cons]
    exact .plain hjoined
  | raw hplain =>
    obtain ⟨more, others, hwords, hjoined⟩ := isPlain_of_cut (cut_words_raw _) hplain
    rw [hwords, List.map_cons, intercalate_cons]
    exact .raw hjoined

end Text

end Typestate
