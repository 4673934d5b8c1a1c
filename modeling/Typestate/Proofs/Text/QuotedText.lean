import Typestate.Proofs.Token.Words

/-!
# Quoted text is one literal

Whatever a text is, it is one string literal when it is quoted: no character of it closes the literal
before its end.
-/

namespace Typestate

open Quotation

namespace Text

/-- The digits that numbers are written with in base sixteen. -/
theorem hexDigit_digitChar {n : ℕ} (h : n < 16) :
    isHexDigit n.digitChar = true ∧ hexValue n.digitChar = n := by
  have hall : (List.range 16).all
      (fun n => isHexDigit n.digitChar && hexValue n.digitChar == n) = true := by decide
  have hhere := List.all_eq_true.mp hall n (List.mem_range.mpr h)
  rwa [Bool.and_eq_true, beq_iff_eq] at hhere

/-- One more digit of a code point. -/
theorem closedAt_digit {value digits count n : ℕ} (hn : n < 16) (hdigits : digits < 6)
    (rest : List Char) :
    closedAt .text (.codeDigits value digits) count (n.digitChar :: rest) =
      closedAt .text (.codeDigits (value * 16 + n) (digits + 1)) (count + 1) rest := by
  obtain ⟨hdigit, hvalue⟩ := hexDigit_digitChar hn
  rw [closedAt, step, codeStep, if_pos hdigit, if_neg (Nat.ne_of_lt hdigits), hvalue]

/-- The digits of a code point are read as that code point. -/
theorem closedAt_digits {n : ℕ} (hlength : (Nat.toDigits 16 n).length ≤ 6) (count : ℕ)
    (rest : List Char) :
    closedAt .text (.codeDigits 0 0) count (Nat.toDigits 16 n ++ rest) =
      closedAt .text (.codeDigits n (Nat.toDigits 16 n).length)
        (count + (Nat.toDigits 16 n).length) rest := by
  induction n using Nat.strong_induction_on generalizing rest with
  | _ n ih =>
    by_cases hn : n < 16
    · rw [Nat.toDigits_of_lt_base hn, List.singleton_append, closedAt_digit hn (by decide)]
      simp
    · have hle : 16 ≤ n := Nat.le_of_not_lt hn
      have hparts := Nat.toDigits_of_base_le (b := 16) (by decide) hle
      rw [hparts, List.length_append, List.length_singleton] at hlength ⊢
      rw [List.append_assoc, List.singleton_append,
        ih (n / 16) (Nat.div_lt_self (by omega) (by decide)) (by omega),
        closedAt_digit (Nat.mod_lt n (by decide)) (by omega)]
      have hvalue : n / 16 * 16 + n % 16 = n := by omega
      rw [hvalue, Nat.add_assoc]

/-- A character written by its code point closes nothing. -/
theorem closedAt_codePointEscape (c : Char) (count : ℕ) (rest : List Char) :
    closedAt .text .plain count (codePointEscape c ++ rest) =
      closedAt .text .plain (count + (codePointEscape c).length) rest := by
  have hvalid : c.toNat < 0xd800 ∨ 0xdfff < c.toNat ∧ c.toNat < 0x110000 := c.valid
  have hlength : (Nat.toDigits 16 c.toNat).length ≤ 6 :=
    (Nat.length_toDigits_le_iff (by decide) (by decide)).mpr (by omega)
  have hpositive : 0 < (Nat.toDigits 16 c.toNat).length := Nat.length_toDigits_pos
  have hscalar : isScalar c.toNat = true := by
    rw [isScalar, Bool.or_eq_true, Bool.and_eq_true, decide_eq_true_eq, decide_eq_true_eq,
      decide_eq_true_eq]
    omega
  have hopening : closedAt .text .plain count (codePointEscape c ++ rest) =
      closedAt .text (.codeDigits 0 0) (count + 3) (Nat.toDigits 16 c.toNat ++ '\x7d' :: rest) := by
    rw [codePointEscape, List.append_assoc, List.append_assoc]
    rfl
  have hclosing : ∀ digits count : ℕ, 0 < digits →
      closedAt .text (.codeDigits c.toNat digits) count ('\x7d' :: rest) =
        closedAt .text .plain (count + 1) rest := by
    intro digits count hdigits
    have hstep : step .text (.codeDigits c.toNat digits) '\x7d' = .next .plain := by
      simp [step, codeStep, (by decide : isHexDigit '\x7d' = false), hdigits, hscalar]
    rw [closedAt, hstep]
  rw [hopening, closedAt_digits hlength, hclosing _ _ hpositive]
  congr 1
  simp only [codePointEscape, List.length_append, List.length_cons, List.length_nil]
  omega

/-- No character of a quoted text closes the literal. -/
theorem closedAt_quotedChar (c : Char) (after : List Char) (count : ℕ) (rest : List Char) :
    closedAt .text .plain count (quotedChar c after ++ rest) =
      closedAt .text .plain (count + (quotedChar c after).length) rest := by
  unfold quotedChar
  split
  · split
    · split
      · rfl
      · rfl
    · rfl
  · split
    · rfl
    · split
      · rfl
      · split
        · rfl
        · split
          · rfl
          · split
            · rfl
            · split
              · have hstep : step .text .plain c = .next .plain := by
                  simp [step, plainStep, *]
                rw [List.singleton_append, closedAt, hstep]
                rfl
              · exact closedAt_codePointEscape c count rest

theorem closedAt_quotedChars (text : List Char) (count : ℕ) (rest : List Char) :
    closedAt .text .plain count (quotedChars text ++ rest) =
      closedAt .text .plain (count + (quotedChars text).length) rest := by
  induction text generalizing count with
  | nil => rfl
  | cons c others ih =>
    rw [quotedChars, List.append_assoc, closedAt_quotedChar, ih, List.length_append, Nat.add_assoc]

/-- A quoted text is a string literal up to its end. -/
theorem stringLength?_quoted (text : String) :
    stringLength? (quoted text).toList = some (quoted text).toList.length := by
  have hchars : (quoted text).toList = '"' :: (quotedChars text.toList ++ ['"']) := by
    rw [quoted, String.toList_ofList]
    rfl
  rw [hchars, stringLength?, closedAt_quotedChars]
  have hclosed : ∀ count : ℕ, closedAt .text .plain count ['"'] = some (count + 1) := fun _ => rfl
  rw [hclosed, List.length_cons, List.length_append, List.length_singleton]
  congr 1
  omega

/-- A quoted text is one literal. -/
theorem leaf?_quoted (text : String) :
    Lexer.leaf? (quoted text).toList =
      some (.literal (quoted text), (quoted text).toList.length) := by
  have hlength : Lexer.literalLength? (quoted text).toList =
      some (quoted text).toList.length := by
    rw [Lexer.literalLength?, stringLength?_quoted]
    simp [Number.suffixLength, Word.length?]
  simp only [Lexer.leaf?, hlength, List.take_length, String.ofList_toList]

end Text

end Typestate
