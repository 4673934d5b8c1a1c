import Mathlib.Data.List.Basic
import Typestate.Member.Basic

/-!
# Low lines in upper camel case

Names are cut at low lines, so a name in upper camel case should have none. A low line is taken for
a separator only if it is a cluster by itself; one that is written together with a mark stays. Case
maps neither make low lines nor lose them, so these are the only ones that are left.
-/

namespace Typestate

namespace Unicode

/-- No code point of the run is moved to the low line. -/
def CaseRun.avoidsLowLine (run : CaseRun) : Bool :=
  decide ((run.last : Int) + run.shift < 95) || decide (95 < (run.first : Int) + run.shift)

theorem upperRuns_avoidsLowLine : ∀ run ∈ upperRuns, run.avoidsLowLine = true := by
  decide +kernel

theorem lowerRuns_avoidsLowLine : ∀ run ∈ lowerRuns, run.avoidsLowLine = true := by
  decide +kernel

theorem upperSequences_avoidLowLine : ∀ entry ∈ upperSequences, '_' ∉ entry.2.map Char.ofNat := by
  decide +kernel

theorem lowerSequences_avoidLowLine : ∀ entry ∈ lowerSequences, '_' ∉ entry.2.map Char.ofNat := by
  decide +kernel

/-- The low line is the character of its code point and of no other. -/
theorem code_of_lowLine {code : ℕ} (h : '_' = Char.ofNat code) : code = 95 := by
  have hcode : 95 = (Char.ofNat code).toNat := congrArg Char.toNat h
  by_cases hvalid : code.isValidChar
  · rw [Char.ofNat, dif_pos hvalid] at hcode
    exact hcode.symm
  · rw [Char.ofNat, dif_neg hvalid] at hcode
    exact absurd hcode (by decide)

/-- A case map makes no low line of another character. -/
theorem lowLine_mem_applyCaseMap {runs : List CaseRun} {sequences : List (ℕ × List ℕ)} {c : Char}
    (hruns : ∀ run ∈ runs, run.avoidsLowLine = true)
    (hsequences : ∀ entry ∈ sequences, '_' ∉ entry.2.map Char.ofNat) :
    '_' ∈ applyCaseMap runs sequences c → c = '_' := by
  unfold applyCaseMap
  split
  · rename_i entry hentry
    intro hmem
    exact absurd hmem (hsequences entry (List.mem_of_find?_eq_some hentry))
  · split
    · rename_i run hrun
      intro hmem
      have hcode := code_of_lowLine (List.mem_singleton.mp hmem)
      have havoids := hruns run (List.mem_of_find?_eq_some hrun)
      have hhas := List.find?_some hrun
      simp only [CaseRun.avoidsLowLine, CaseRun.has, Bool.or_eq_true, Bool.and_eq_true,
        decide_eq_true_eq] at havoids hhas
      omega
    · intro hmem
      exact (List.mem_singleton.mp hmem).symm

/-- Among ASCII characters only the low line itself has it as its upper or lower case. -/
theorem lowLine_of_ascii {c : Char} (hascii : c.toNat < 128)
    (hcase : c.toUpper = '_' ∨ c.toLower = '_') : c = '_' := by
  have hall : ∀ code < 128, (Char.ofNat code).toUpper = '_' ∨ (Char.ofNat code).toLower = '_' →
      Char.ofNat code = '_' := by decide
  have hsame := hall c.toNat hascii
  rw [Char.ofNat_toNat] at hsame
  exact hsame hcase

@[simp] theorem lowLine_mem_upperChar {c : Char} : '_' ∈ upperChar c ↔ c = '_' := by
  constructor
  · unfold upperChar
    split
    · rename_i hascii
      intro hmem
      exact lowLine_of_ascii hascii (Or.inl (List.mem_singleton.mp hmem).symm)
    · exact lowLine_mem_applyCaseMap upperRuns_avoidsLowLine upperSequences_avoidLowLine
  · intro hsame
    subst hsame
    decide

@[simp] theorem lowLine_mem_lowerChar {c : Char} : '_' ∈ lowerChar c ↔ c = '_' := by
  constructor
  · unfold lowerChar
    split
    · rename_i hascii
      intro hmem
      exact lowLine_of_ascii hascii (Or.inr (List.mem_singleton.mp hmem).symm)
    · exact lowLine_mem_applyCaseMap lowerRuns_avoidsLowLine lowerSequences_avoidLowLine
  · intro hsame
    subst hsame
    decide

/-- Lower case keeps the low lines of a text and makes none, whatever stands before it. -/
theorem lowLine_mem_lowerAfter {before chars : List Char} :
    '_' ∈ lowerAfter before chars ↔ '_' ∈ chars := by
  induction chars generalizing before with
  | nil => rfl
  | cons c after ih =>
    rw [lowerAfter, List.mem_append, ih, List.mem_cons]
    apply or_congr_left
    by_cases hsigma : c = 'Σ'
    · rw [if_pos hsigma, hsigma]
      split
      · decide
      · decide
    · rw [if_neg hsigma, lowLine_mem_lowerChar, eq_comm]

@[simp] theorem lowLine_mem_lower {chars : List Char} : '_' ∈ lower chars ↔ '_' ∈ chars :=
  lowLine_mem_lowerAfter

/-- ASCII characters are clusters by themselves. -/
theorem clusters_of_ascii {chars : List Char} (hascii : ∀ c ∈ chars, c.toNat < 128) :
    clusters chars = chars.map fun c => [c] := by
  induction chars with
  | nil => rfl
  | cons c rest ih =>
    obtain ⟨hc, hrest⟩ := List.forall_mem_cons.mp hascii
    cases rest with
    | nil => rfl
    | cons next tail =>
      have hjoins : joins c next = false :=
        if_pos (by simp [hc, hrest next List.mem_cons_self])
      rw [clusters.eq_def]
      simp [ih hrest, hjoins]

end Unicode

namespace Text

open Unicode

/-- A word keeps the low lines that it has. -/
theorem lowLine_mem_capitalized {word : Word} : '_' ∈ capitalized word ↔ '_' ∈ word := by
  cases word with
  | nil => rfl
  | cons c rest =>
    rw [capitalized, List.mem_append, lowLine_mem_upperChar, lowLine_mem_lower, List.mem_cons,
      eq_comm]

/-- The words hold the low lines of the clusters that are no separators. -/
theorem lowLine_mem_wordsFrom {word : Word} {clusters : List Cluster} :
    (∃ found ∈ wordsFrom word clusters, '_' ∈ found) ↔
      '_' ∈ word ∨ ∃ cluster ∈ clusters, '_' ∈ cluster ∧ cluster ≠ ['_'] := by
  induction clusters generalizing word with
  | nil => simp [wordsFrom]
  | cons cluster rest ih =>
    rw [List.exists_mem_cons_iff]
    by_cases hseparator : isSeparator cluster = true
    · have hnone : ¬ ('_' ∈ cluster ∧ cluster ≠ ['_']) := by
        simp only [isSeparator, Bool.or_eq_true, beq_iff_eq] at hseparator
        rcases hseparator with (rfl | rfl) | rfl
        · simp
        · simp
        · simp
      rw [wordsFrom.eq_def]
      simp only [if_pos hseparator]
      rw [List.exists_mem_cons_iff, ih, or_iff_right hnone, or_iff_right List.not_mem_nil]
    · have hsome : ('_' ∈ cluster ∧ cluster ≠ ['_']) ↔ '_' ∈ cluster := by
        refine and_iff_left_of_imp fun _ hsame => hseparator ?_
        simp [isSeparator, hsame]
      rw [hsome, ← or_assoc, ← List.mem_append]
      cases rest with
      | nil => simp [wordsFrom, hseparator]
      | cons next others =>
        rw [wordsFrom, if_neg hseparator]
        split
        · rw [List.exists_mem_cons_iff, ih]
          simp
        · exact ih

end Text

/-- A name in upper camel case has a low line exactly if the name has one in a cluster with other
characters. -/
theorem lowLine_mem_displayName {name : String} :
    '_' ∈ (displayName name).toList ↔
      ∃ cluster ∈ Unicode.clusters name.toList, '_' ∈ cluster ∧ cluster ≠ ['_'] := by
  rw [displayName, Text.pascalCase, String.toList_ofList, List.mem_flatMap]
  simp only [Text.lowLine_mem_capitalized]
  rw [Text.words, Text.lowLine_mem_wordsFrom]
  exact or_iff_right List.not_mem_nil

/-- A name of ASCII characters has no low line in upper camel case. -/
theorem lowLine_not_mem_displayName {name : String} (hascii : ∀ c ∈ name.toList, c.toNat < 128) :
    '_' ∉ (displayName name).toList := by
  rw [lowLine_mem_displayName, Unicode.clusters_of_ascii hascii]
  intro ⟨cluster, hcluster, hlowLine, hne⟩
  obtain ⟨c, -, rfl⟩ := List.mem_map.mp hcluster
  exact hne (by rw [List.mem_singleton.mp hlowLine])

end Typestate
