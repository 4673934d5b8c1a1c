import Mathlib.Data.List.TakeWhile
import Mathlib.Tactic.IntervalCases
import Typestate.Proofs.Token.Leaf
import Typestate.Token.Literal

/-!
# Numerals

The decimal digits of a number are read as one literal, and the value of that literal is the number.
-/

namespace Typestate

/-- The characters of the ten decimal digits. -/
def digitChars : List Char := ['0', '1', '2', '3', '4', '5', '6', '7', '8', '9']

theorem mem_digitChars {c : Char} (h : c.isDigit = true) : c ∈ digitChars := by
  simp only [Char.isDigit, ge_iff_le, Bool.and_eq_true, decide_eq_true_eq,
    UInt32.le_iff_toNat_le] at h
  obtain ⟨hlow, hhigh⟩ : 48 ≤ c.toNat ∧ c.toNat ≤ 57 := h
  rw [← Char.ofNat_toNat c]
  generalize c.toNat = code at hlow hhigh
  interval_cases code <;> decide

namespace Number

theorem isDigitPart_of_isDigit {c : Char} (h : c.isDigit = true) : isDigitPart c = true := by
  rw [isDigitPart, h, Bool.true_or]

variable {first : Char} {rest : List Char}

/-- Digits alone are no number with a point or an exponent. -/
theorem floatLength?_digits (hdigits : ∀ c ∈ first :: rest, c.isDigit = true) :
    floatLength? (first :: rest) = none := by
  have hfirst : first.isDigit = true := hdigits first List.mem_cons_self
  have hall : (first :: rest).takeWhile isDigitPart = first :: rest :=
    List.takeWhile_eq_self_iff.mpr fun c hc => isDigitPart_of_isDigit (hdigits c hc)
  simp only [floatLength?, floatDigits?, hfirst, if_true, hall, List.drop_length]
  rfl

/-- Digits are one whole number up to their end. -/
theorem wholeLength?_digits (hdigits : ∀ c ∈ first :: rest, c.isDigit = true) :
    wholeLength? (first :: rest) = some (rest.length + 1) := by
  have hdigitsOf : wholeDigits? (first :: rest) = some (rest.length + 1) := by
    have hall : rest.takeWhile isDigitPart = rest :=
      List.takeWhile_eq_self_iff.mpr fun c hc =>
        isDigitPart_of_isDigit (hdigits c (List.mem_cons_of_mem _ hc))
    unfold wholeDigits?
    split
    · exact absurd (hdigits 'x' (by simp_all)) (by decide)
    · exact absurd (hdigits 'o' (by simp_all)) (by decide)
    · exact absurd (hdigits 'b' (by simp_all)) (by decide)
    · rename_i c others _ _ _ hparts
      obtain ⟨rfl, rfl⟩ := List.cons.inj hparts
      rw [if_pos (hdigits _ List.mem_cons_self), hall]
    · contradiction
  rw [wholeLength?, hdigitsOf, Option.bind_some, withSuffix?, ← List.length_cons, List.drop_length]

end Number

namespace Literal

/-- One more digit of a number. -/
theorem wholeFrom_cons {c : Char} (h : c.isDigit = true) (value : ℕ) (seen : Bool)
    (rest : List Char) :
    wholeFrom 10 value seen (c :: rest) =
      wholeFrom 10 (10 * value + (c.toNat - '0'.toNat)) true rest := by
  have hvalue : Quotation.hexValue c = c.toNat - '0'.toNat := if_pos h
  have hless : digitChars.all (fun d => d ≠ '_' ∧ d.toNat - '0'.toNat < 10) = true := by decide
  obtain ⟨hline, hbase⟩ :=
    of_decide_eq_true (List.all_eq_true.mp hless c (mem_digitChars h))
  rw [wholeFrom, if_neg hline, h, Bool.true_or, if_pos rfl, hvalue, if_pos hbase, Nat.mul_comm]

/-- The value of digits that come after others. -/
theorem wholeFrom_digits {digits : List Char} (hdigits : ∀ c ∈ digits, c.isDigit = true)
    (value : ℕ) : wholeFrom 10 value true digits = some (Nat.ofDigitChars 10 digits value, []) := by
  induction digits generalizing value with
  | nil => rfl
  | cons c rest ih =>
    obtain ⟨hdigit, hrest⟩ := List.forall_mem_cons.mp hdigits
    rw [wholeFrom_cons hdigit, ih hrest, Nat.ofDigitChars_cons]

/-- The value of digits is the number that they are written for. -/
theorem wholeValue?_digits {first : Char} {rest : List Char}
    (hdigits : ∀ c ∈ first :: rest, c.isDigit = true) :
    wholeValue? (String.ofList (first :: rest)) =
      some (Nat.ofDigitChars 10 (first :: rest) 0, "") := by
  obtain ⟨hfirst, hrest⟩ := List.forall_mem_cons.mp hdigits
  have hwhole : wholeFrom 10 0 false (first :: rest) =
      some (Nat.ofDigitChars 10 (first :: rest) 0, []) := by
    rw [wholeFrom_cons hfirst, wholeFrom_digits hrest, Nat.ofDigitChars_cons]
  unfold wholeValue?
  rw [String.toList_ofList]
  -- The letter of another base would be a digit.
  split
  · rename_i hparts
    exact absurd (hdigits 'x' (by simp [hparts])) (by decide)
  · rename_i hparts
    exact absurd (hdigits 'o' (by simp [hparts])) (by decide)
  · rename_i hparts
    exact absurd (hdigits 'b' (by simp [hparts])) (by decide)
  · rename_i c others _ _ _ hparts
    obtain ⟨rfl, rfl⟩ := List.cons.inj hparts
    rw [if_pos hfirst, hwhole]
    rfl
  · contradiction

end Literal

namespace Lexer

variable {first : Char} {rest : List Char}

/-- Digits are one literal up to their end. -/
theorem literalLength?_digits (hdigits : ∀ c ∈ first :: rest, c.isDigit = true) :
    literalLength? (first :: rest) = some (rest.length + 1) := by
  have hquoted : Quotation.stringLength? (first :: rest) = none ∧
      Quotation.characterLength? (first :: rest) = none := by
    have hfirst := mem_digitChars (hdigits first List.mem_cons_self)
    simp only [digitChars, List.mem_cons, List.not_mem_nil, or_false] at hfirst
    rcases hfirst with rfl | rfl | rfl | rfl | rfl | rfl | rfl | rfl | rfl | rfl <;>
      exact ⟨rfl, rfl⟩
  rw [literalLength?, hquoted.1, hquoted.2, Number.floatLength?_digits hdigits]
  exact Number.wholeLength?_digits hdigits

/-- Digits are a leaf up to their end. -/
theorem leaf?_digits (hdigits : ∀ c ∈ first :: rest, c.isDigit = true) :
    leaf? (first :: rest) =
      some (.literal (String.ofList (first :: rest)), rest.length + 1) := by
  rw [leaf?, literalLength?_digits hdigits]
  simp

/-- A digit begins a leaf. -/
theorem beginsLeaf_of_isDigit {c : Char} (h : c.isDigit = true) : BeginsLeaf c := by
  have hplain : digitChars.all (fun d => !Unicode.isBlank d && !otherStarts.contains d) = true := by
    decide
  have hhere := List.all_eq_true.mp hplain c (mem_digitChars h)
  simp only [Bool.and_eq_true, Bool.not_eq_true'] at hhere
  exact ⟨hhere.1, by simpa using hhere.2⟩

end Lexer

/-- Digits are one token. -/
theorem Token.lex?_digits {first : Char} {rest : List Char}
    (hdigits : ∀ c ∈ first :: rest, c.isDigit = true) :
    Token.lex? (String.ofList (first :: rest)) =
      some [.literal (String.ofList (first :: rest))] :=
  lex?_of_leaf? (Lexer.beginsLeaf_of_isDigit (hdigits first List.mem_cons_self))
    (Lexer.leaf?_digits hdigits)

/-- The decimal digits of a number. -/
theorem toString_eq_digits (n : ℕ) :
    ∃ first rest, toString n = String.ofList (first :: rest) ∧
      (∀ c ∈ first :: rest, c.isDigit = true) ∧ Nat.ofDigitChars 10 (first :: rest) 0 = n := by
  have hdigits : ∀ c ∈ Nat.toDigits 10 n, c.isDigit = true :=
    fun c hc => Nat.isDigit_of_mem_toDigits (by decide) (by decide) hc
  have hvalue : Nat.ofDigitChars 10 (Nat.toDigits 10 n) 0 = n :=
    Nat.ofDigitChars_toDigits (by decide) (by decide)
  have hstring : toString n = String.ofList (Nat.toDigits 10 n) := by
    rw [Nat.toString_eq_repr, Nat.repr_eq_ofList_toDigits]
  cases hparts : Nat.toDigits 10 n with
  | nil => exact absurd hparts Nat.toDigits_ne_nil
  | cons first rest =>
    rw [hparts] at hdigits hvalue hstring
    exact ⟨first, rest, hstring, hdigits, hvalue⟩

/-- The value of the numeral of a number is the number. -/
theorem Literal.wholeValue?_toString (n : ℕ) : wholeValue? (toString n) = some (n, "") := by
  obtain ⟨first, rest, hstring, hdigits, hvalue⟩ := toString_eq_digits n
  rw [hstring, wholeValue?_digits hdigits, hvalue]

/-- The numeral of a number is one literal. -/
theorem Token.lex?_toString (n : ℕ) : Token.lex? (toString n) = some [.literal (toString n)] := by
  obtain ⟨first, rest, hstring, hdigits, -⟩ := toString_eq_digits n
  rw [hstring, lex?_digits hdigits]

end Typestate
