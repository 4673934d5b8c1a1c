import Mathlib.Data.List.Basic
import Mathlib.Data.List.TakeWhile
import Typestate.Unicode.Blank
import Typestate.Unicode.Case
import Typestate.Unicode.Identifier

/-!
# Case maps on identifiers

A character of an identifier stays one in upper and in lower case: either a case map leaves it
alone, or it becomes a plain word, mostly a single letter. The tables of case and of identifiers are
compared range by range, since code point by code point they are too long.
-/

namespace Typestate

open Unicode

/-- The characters are a plain word: they begin like an identifier and go on like one. -/
def Word.IsPlain (chars : List Char) : Prop :=
  ∃ c rest, chars = c :: rest ∧ isIdentifierStart c = true ∧ ∀ d ∈ rest, isIdentifierPart d = true

namespace Unicode

/-! ### Comparing ranges

The comparisons are those of natural numbers as Booleans, which are computed at once on numerals.
-/

namespace Ranges

variable {ranges : Ranges} {first last code : ℕ}

/-- One of the ranges holds all code points from the first to the last. -/
def covers (ranges : Ranges) (first last : ℕ) : Bool :=
  ranges.any fun range => range.1.ble first && last.ble range.2

/-- None of the ranges holds a code point from the first to the last. -/
def avoids (ranges : Ranges) (first last : ℕ) : Bool :=
  ranges.all fun range => last.blt range.1 || range.2.blt first

/-- Each range lies in one of the outer ones, which are looked at in their order. -/
def within (ranges : Ranges) : Ranges → Bool
  | [] => ranges.isEmpty
  | outer :: others =>
    within (ranges.dropWhile fun range => outer.1.ble range.1 && range.2.ble outer.2) others

theorem has_eq_true :
    ranges.has code = true ↔ ∃ range ∈ ranges, range.1 ≤ code ∧ code ≤ range.2 := by
  simp [has]

theorem covers_eq_true :
    ranges.covers first last = true ↔ ∃ range ∈ ranges, range.1 ≤ first ∧ last ≤ range.2 := by
  simp only [covers, List.any_eq_true, Bool.and_eq_true, Nat.ble_eq]

theorem covers_self : ranges.covers code code = ranges.has code := by
  rw [Bool.eq_iff_iff, covers_eq_true, has_eq_true]

theorem has_of_covers (h : ranges.covers first last = true) (hfirst : first ≤ code)
    (hlast : code ≤ last) : ranges.has code = true := by
  obtain ⟨range, hrange, hbelow, habove⟩ := covers_eq_true.mp h
  exact has_eq_true.mpr ⟨range, hrange, hbelow.trans hfirst, hlast.trans habove⟩

theorem has_of_avoids (h : ranges.avoids first last = true) (hfirst : first ≤ code)
    (hlast : code ≤ last) : ranges.has code = false := by
  rw [Bool.eq_false_iff]
  intro hhas
  obtain ⟨range, hrange, hbelow, habove⟩ := has_eq_true.mp hhas
  have havoids := List.all_eq_true.mp h range hrange
  rw [Bool.or_eq_true, Nat.blt_eq, Nat.blt_eq] at havoids
  omega

theorem has_of_within {outers : Ranges} (h : ranges.within outers = true)
    (hcode : ranges.has code = true) : outers.has code = true := by
  induction outers generalizing ranges with
  | nil =>
    rw [List.isEmpty_iff.mp h] at hcode
    contradiction
  | cons outer others ih =>
    rw [has_eq_true] at hcode
    obtain ⟨range, hrange, hbelow, habove⟩ := hcode
    rw [← List.takeWhile_append_dropWhile (l := ranges)
      (p := fun range => outer.1.ble range.1 && range.2.ble outer.2), List.mem_append] at hrange
    rcases hrange with hinside | hlater
    · have hcovered := List.mem_takeWhile_imp hinside
      rw [Bool.and_eq_true, Nat.ble_eq, Nat.ble_eq] at hcovered
      exact has_eq_true.mpr ⟨outer, List.mem_cons_self, hcovered.1.trans hbelow,
        habove.trans hcovered.2⟩
    · obtain ⟨found, hfound, hin⟩ := has_eq_true.mp
        (ih h (has_eq_true.mpr ⟨range, hlater, hbelow, habove⟩))
      exact has_eq_true.mpr ⟨found, List.mem_cons_of_mem outer hfound, hin⟩

/-- What lies between the ranges, from a code point on. -/
def gaps (first : ℕ) : Ranges → Ranges
  | [] => [(first, 0x10ffff)]
  | range :: rest => (first, range.1 - 1) :: gaps (range.2 + 1) rest

theorem ordered_cons {range : ℕ × ℕ} {rest : Ranges} (h : ordered (range :: rest) = true) :
    range.1 ≤ range.2 ∧ (∀ other ∈ rest, range.2 + 1 < other.1) ∧ rest.ordered = true := by
  induction rest generalizing range with
  | nil => exact ⟨of_decide_eq_true h, fun other hother => absurd hother List.not_mem_nil, rfl⟩
  | cons next tail ih =>
    simp only [ordered, Bool.and_eq_true, decide_eq_true_eq] at h
    obtain ⟨⟨hrange, hnext⟩, htail⟩ := h
    obtain ⟨hle, hothers, -⟩ := ih htail
    refine ⟨hrange, List.forall_mem_cons.mpr ⟨hnext, fun other hother => ?_⟩, htail⟩
    have hother := hothers other hother
    omega

/-- Nothing between ordered ranges lies in one of them. -/
theorem has_of_gaps (hordered : ranges.ordered = true) (hfirst : ∀ range ∈ ranges, first < range.1)
    (h : (gaps first ranges).has code = true) : first ≤ code ∧ ranges.has code = false := by
  induction ranges generalizing first with
  | nil =>
    simp only [gaps, has, List.any_cons, List.any_nil, Bool.or_false, Bool.and_eq_true,
      decide_eq_true_eq] at h
    exact ⟨h.1, rfl⟩
  | cons range rest ih =>
    obtain ⟨hrange, hlater, hrest⟩ := ordered_cons hordered
    have hbefore := hfirst range List.mem_cons_self
    simp only [gaps, has, List.any_cons, Bool.or_eq_true, Bool.and_eq_true, decide_eq_true_eq,
      Bool.or_eq_false_iff, Bool.and_eq_false_iff, decide_eq_false_iff_not] at h ⊢
    rcases h with hgap | hgaps
    · refine ⟨hgap.1, .inl (by omega), ?_⟩
      rw [List.any_eq_false]
      intro other hother
      have hnext := hlater other hother
      simp only [Bool.and_eq_true, decide_eq_true_eq]
      omega
    · obtain ⟨hafter, hnone⟩ := ih hrest hlater hgaps
      exact ⟨by omega, .inr (by omega), hnone⟩

end Ranges

/-! ### Characters of identifiers by their code points -/

/-- The code point is that of a character that an identifier may begin with. -/
def isStartCode (code : ℕ) : Bool :=
  if code.blt 128 then (Char.ofNat code).isAlpha || Char.ofNat code == '_'
  else identifierStarts.covers code code

/-- The code point is that of a character that may follow in an identifier. -/
def isPartCode (code : ℕ) : Bool :=
  if code.blt 128 then (Char.ofNat code).isAlphanum || Char.ofNat code == '_'
  else identifierParts.covers code code

theorem isIdentifierStart_eq (c : Char) : isIdentifierStart c = isStartCode c.toNat := by
  simp only [isIdentifierStart, isStartCode, Nat.blt_eq, Char.ofNat_toNat, Ranges.covers_self]

theorem isIdentifierPart_eq (c : Char) : isIdentifierPart c = isPartCode c.toNat := by
  simp only [isIdentifierPart, isPartCode, Nat.blt_eq, Char.ofNat_toNat, Ranges.covers_self]

theorem toNat_ofNat {code : ℕ} (h : code.isValidChar) : (Char.ofNat code).toNat = code := by
  rw [Char.ofNat, dif_pos h]
  rfl

theorem identifierStarts_within : identifierStarts.within identifierParts = true := by
  decide +kernel

/-- What an identifier may begin with may also follow in one. -/
theorem isIdentifierPart_of_start {c : Char} (h : isIdentifierStart c = true) :
    isIdentifierPart c = true := by
  unfold isIdentifierStart at h
  unfold isIdentifierPart
  split at h
  · rename_i hascii
    rw [if_pos hascii, Char.isAlphanum]
    rw [Bool.or_eq_true] at h ⊢
    exact h.imp_left fun halpha => by rw [halpha, Bool.true_or]
  · rename_i hbeyond
    rw [if_neg hbeyond]
    exact Ranges.has_of_within identifierStarts_within h

theorem whiteSpace_begins_nothing : ∀ range ∈ whiteSpace,
    (List.range' range.1 (range.2 + 1 - range.1)).all (fun code => !isStartCode code) = true := by
  decide +kernel

/-- What an identifier may begin with is no blank. -/
theorem isBlank_of_start {c : Char} (h : isIdentifierStart c = true) : isBlank c = false := by
  have hspace : isWhiteSpace c = false := by
    rw [Bool.eq_false_iff]
    intro hwhite
    obtain ⟨range, hrange, hfirst, hlast⟩ := Ranges.has_eq_true.mp hwhite
    have hmem : c.toNat ∈ List.range' range.1 (range.2 + 1 - range.1) := by
      rw [List.mem_range'_1]
      omega
    have hnone := List.all_eq_true.mp (whiteSpace_begins_nothing range hrange) _ hmem
    rw [← isIdentifierStart_eq, h] at hnone
    contradiction
  have hmarks : c ≠ '\u200e' ∧ c ≠ '\u200f' := by
    constructor
    · rintro rfl
      exact absurd h (by decide +kernel)
    · rintro rfl
      exact absurd h (by decide +kernel)
  simp [isBlank, hspace, hmarks]

end Unicode

namespace Word

@[simp] theorem isPlain_singleton {c : Char} : IsPlain [c] ↔ isIdentifierStart c = true := by
  constructor
  · rintro ⟨d, rest, hsame, hstart, -⟩
    rwa [(List.cons.inj hsame).1]
  · exact fun hstart => ⟨c, [], rfl, hstart, fun d hd => absurd hd List.not_mem_nil⟩

namespace IsPlain

variable {chars : List Char}

/-- A plain word has characters of identifiers only. -/
theorem forall_part (h : IsPlain chars) : ∀ c ∈ chars, isIdentifierPart c = true := by
  obtain ⟨c, rest, rfl, hstart, hrest⟩ := h
  exact List.forall_mem_cons.mpr ⟨isIdentifierPart_of_start hstart, hrest⟩

/-- A plain word may be continued. -/
theorem append (h : IsPlain chars) {others : List Char}
    (hothers : ∀ c ∈ others, isIdentifierPart c = true) : IsPlain (chars ++ others) := by
  obtain ⟨c, rest, rfl, hstart, hrest⟩ := h
  exact ⟨c, rest ++ others, rfl, hstart, List.forall_mem_append.mpr ⟨hrest, hothers⟩⟩

end IsPlain

end Word

namespace Unicode

/-! ### Case maps -/

namespace CaseRun

variable {run : CaseRun} {c : Char}

/-- Where the run moves a code point. -/
def move (run : CaseRun) (code : ℕ) : ℕ := ((code : Int) + run.shift).toNat

/-- The run moves code points to those of characters. -/
def staysValid (run : CaseRun) : Bool :=
  (run.move run.last).blt 0xd800 ||
    (Nat.blt 0xdfff (run.move run.first) && (run.move run.last).blt 0x110000)

/-- The run moves all of its characters to letters, or no character of an identifier. -/
def makesLetters (run : CaseRun) : Bool :=
  -- Only runs to ASCII and runs with gaps are looked at code point by code point.
  (Nat.ble 128 (run.move run.first) &&
      identifierStarts.covers (run.move run.first) (run.move run.last)) ||
    (Nat.ble 128 run.first && identifierParts.avoids run.first run.last) ||
    (List.range' run.first (run.last + 1 - run.first)).all fun code =>
      !run.has code || isStartCode (run.move code)

/-- A character of an identifier becomes a letter by a run that moves it. -/
theorem isIdentifierStart_move (hvalid : run.staysValid = true) (hletters : run.makesLetters = true)
    (hhas : run.has c.toNat = true) (hpart : isIdentifierPart c = true) :
    isIdentifierStart (Char.ofNat (run.move c.toNat)) = true := by
  have hbounds : run.first ≤ c.toNat ∧ c.toNat ≤ run.last := by
    simp only [CaseRun.has, Bool.and_eq_true, decide_eq_true_eq] at hhas
    exact hhas.1
  have hfirst : run.move run.first ≤ run.move c.toNat := by
    unfold move
    omega
  have hlast : run.move c.toNat ≤ run.move run.last := by
    unfold move
    omega
  have hchar : (run.move c.toNat).isValidChar := by
    simp only [staysValid, Bool.or_eq_true, Bool.and_eq_true, Nat.blt_eq] at hvalid
    unfold Nat.isValidChar
    omega
  rw [isIdentifierStart_eq, toNat_ofNat hchar]
  simp only [makesLetters, Bool.or_eq_true, Bool.and_eq_true, Nat.ble_eq] at hletters
  rcases hletters with (⟨hbeyond, hcovers⟩ | ⟨hbeyond, havoids⟩) | heach
  · rw [isStartCode, if_neg (by simp; omega), Ranges.covers_self]
    exact Ranges.has_of_covers hcovers hfirst hlast
  · have hnopart := Ranges.has_of_avoids havoids hbounds.1 hbounds.2
    rw [isIdentifierPart, if_neg (by omega), hnopart] at hpart
    contradiction
  · have hmem : c.toNat ∈ List.range' run.first (run.last + 1 - run.first) := by
      rw [List.mem_range'_1]
      omega
    have hcode := List.all_eq_true.mp heach c.toNat hmem
    rwa [hhas, Bool.not_true, Bool.false_or] at hcode

end CaseRun

/-- The code points are those of a plain word. -/
def isPlainSequence : List ℕ → Bool
  | [] => false
  | code :: rest =>
    isStartCode code && rest.all isPartCode && (code :: rest).all fun code => code.blt 0xd800

theorem isPlain_of_isPlainSequence {codes : List ℕ} (h : isPlainSequence codes = true) :
    Word.IsPlain (codes.map Char.ofNat) := by
  cases codes with
  | nil => contradiction
  | cons code rest =>
    simp only [isPlainSequence, Bool.and_eq_true, List.all_eq_true, Nat.blt_eq] at h
    obtain ⟨⟨hstart, hrest⟩, hsmall⟩ := h
    have hsame : ∀ found ∈ code :: rest, (Char.ofNat found).toNat = found := fun found hfound =>
      toNat_ofNat (.inl (hsmall found hfound))
    refine ⟨Char.ofNat code, rest.map Char.ofNat, rfl, ?_, fun d hd => ?_⟩
    · rw [isIdentifierStart_eq, hsame code List.mem_cons_self]
      exact hstart
    · obtain ⟨found, hfound, rfl⟩ := List.mem_map.mp hd
      rw [isIdentifierPart_eq, hsame found (List.mem_cons_of_mem code hfound)]
      exact hrest found hfound

/-- A case map leaves a character of an identifier alone or makes a plain word of it. -/
theorem applyCaseMap_of_part {runs : List CaseRun} {sequences : List (ℕ × List ℕ)} {c : Char}
    (hruns : ∀ run ∈ runs, run.staysValid = true ∧ run.makesLetters = true)
    (hsequences : ∀ entry ∈ sequences, isPlainSequence entry.2 = true)
    (hpart : isIdentifierPart c = true) :
    applyCaseMap runs sequences c = [c] ∨ Word.IsPlain (applyCaseMap runs sequences c) := by
  unfold applyCaseMap
  split
  · rename_i entry hentry
    exact .inr (isPlain_of_isPlainSequence (hsequences entry (List.mem_of_find?_eq_some hentry)))
  · split
    · rename_i run hrun
      obtain ⟨hvalid, hletters⟩ := hruns run (List.mem_of_find?_eq_some hrun)
      have hhas : run.has c.toNat = true :=
        List.find?_some (p := fun run : CaseRun => run.has c.toNat) hrun
      exact .inr ⟨_, [], rfl, CaseRun.isIdentifierStart_move hvalid hletters hhas hpart,
        fun d hd => absurd hd List.not_mem_nil⟩
    · exact .inl rfl

theorem upperRuns_makeLetters :
    ∀ run ∈ upperRuns, run.staysValid = true ∧ run.makesLetters = true := by
  decide +kernel

theorem lowerRuns_makeLetters :
    ∀ run ∈ lowerRuns, run.staysValid = true ∧ run.makesLetters = true := by
  decide +kernel

theorem upperSequences_plain : ∀ entry ∈ upperSequences, isPlainSequence entry.2 = true := by
  decide +kernel

theorem lowerSequences_plain : ∀ entry ∈ lowerSequences, isPlainSequence entry.2 = true := by
  decide +kernel

/-- An ASCII character of an identifier has itself or a letter as its upper and its lower case. -/
theorem case_of_ascii {c : Char} (hascii : c.toNat < 128) (hpart : isIdentifierPart c = true) :
    (c.toUpper = c ∨ isIdentifierStart c.toUpper = true) ∧
      (c.toLower = c ∨ isIdentifierStart c.toLower = true) := by
  have hall : ∀ code < 128, isIdentifierPart (Char.ofNat code) = true →
      ((Char.ofNat code).toUpper = Char.ofNat code ∨
        isIdentifierStart (Char.ofNat code).toUpper = true) ∧
      ((Char.ofNat code).toLower = Char.ofNat code ∨
        isIdentifierStart (Char.ofNat code).toLower = true) := by decide +kernel
  have hsame := hall c.toNat hascii
  rw [Char.ofNat_toNat] at hsame
  exact hsame hpart

/-- Upper case leaves a character of an identifier alone or makes a plain word of it. -/
theorem upperChar_of_part {c : Char} (hpart : isIdentifierPart c = true) :
    upperChar c = [c] ∨ Word.IsPlain (upperChar c) := by
  unfold upperChar
  split
  · rename_i hascii
    exact (case_of_ascii hascii hpart).1.imp (fun h => by rw [h]) Word.isPlain_singleton.mpr
  · exact applyCaseMap_of_part upperRuns_makeLetters upperSequences_plain hpart

/-- Lower case leaves a character of an identifier alone or makes a plain word of it. -/
theorem lowerChar_of_part {c : Char} (hpart : isIdentifierPart c = true) :
    lowerChar c = [c] ∨ Word.IsPlain (lowerChar c) := by
  unfold lowerChar
  split
  · rename_i hascii
    exact (case_of_ascii hascii hpart).2.imp (fun h => by rw [h]) Word.isPlain_singleton.mpr
  · exact applyCaseMap_of_part lowerRuns_makeLetters lowerSequences_plain hpart

/-- What is left alone or made a plain word is a plain word if it begins like one. -/
theorem isPlain_of_start {c : Char} {chars : List Char} (hstart : isIdentifierStart c = true)
    (h : chars = [c] ∨ Word.IsPlain chars) : Word.IsPlain chars := by
  rcases h with rfl | hplain
  · exact Word.isPlain_singleton.mpr hstart
  · exact hplain

/-- What is left alone or made a plain word has characters of identifiers. -/
theorem forall_part_of_part {c : Char} {chars : List Char} (hpart : isIdentifierPart c = true)
    (h : chars = [c] ∨ Word.IsPlain chars) : ∀ d ∈ chars, isIdentifierPart d = true := by
  rcases h with rfl | hplain
  · exact fun d hd => List.mem_singleton.mp hd ▸ hpart
  · exact hplain.forall_part

/-- The lower case of a character in a text. -/
theorem lowerAfter_cons (before : List Char) (c : Char) (after : List Char) :
    ∃ here, lowerAfter before (c :: after) = here ++ lowerAfter (c :: before) after ∧
      (isIdentifierPart c = true → here = [c] ∨ Word.IsPlain here) := by
  refine ⟨_, rfl, fun hpart => ?_⟩
  split
  · refine .inr (Word.isPlain_singleton.mpr ?_)
    split
    · decide
    · decide
  · exact lowerChar_of_part hpart

/-- Lower case keeps the characters of identifiers, whatever stands before them. -/
theorem forall_part_lowerAfter {before chars : List Char}
    (h : ∀ c ∈ chars, isIdentifierPart c = true) :
    ∀ d ∈ lowerAfter before chars, isIdentifierPart d = true := by
  induction chars generalizing before with
  | nil => exact fun d hd => absurd hd List.not_mem_nil
  | cons c after ih =>
    obtain ⟨hc, hafter⟩ := List.forall_mem_cons.mp h
    obtain ⟨here, hlower, hhere⟩ := lowerAfter_cons before c after
    rw [hlower]
    exact List.forall_mem_append.mpr ⟨forall_part_of_part hc (hhere hc), ih hafter⟩

/-- Lower case makes a plain word of a plain word, whatever stands before it. -/
theorem isPlain_lowerAfter {before chars : List Char} (h : Word.IsPlain chars) :
    Word.IsPlain (lowerAfter before chars) := by
  obtain ⟨c, rest, rfl, hstart, hrest⟩ := h
  obtain ⟨here, hlower, hhere⟩ := lowerAfter_cons before c rest
  rw [hlower]
  exact (isPlain_of_start hstart (hhere (isIdentifierPart_of_start hstart))).append
    (forall_part_lowerAfter hrest)

/-- Upper case keeps the characters of identifiers. -/
theorem forall_part_upperChar {c : Char} (hpart : isIdentifierPart c = true) :
    ∀ d ∈ upperChar c, isIdentifierPart d = true :=
  forall_part_of_part hpart (upperChar_of_part hpart)

end Unicode

end Typestate
