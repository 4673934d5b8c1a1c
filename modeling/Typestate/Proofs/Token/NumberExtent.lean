import Typestate.Proofs.Token.Extent

/-!
# The extent of a number

A number is made of digits, of a point with digits and an exponent if it has them, and of a suffix.
Each part ends where the next one begins, or where the number ends, so all of them are found again
in front of what ends a leaf.
-/

namespace Typestate

open Unicode Lexer

namespace Lexer

/-- The text is found up to some character, and so it is in front of what ends a leaf. -/
def FoundBeforeEnd (find : List Char → Option ℕ) (text : List Char) (n : ℕ) : Prop :=
  ∃ found after, text = found ++ after ∧ n = found.length ∧
    ∀ tail, EndsLeaf tail → find (found ++ tail) = some n

end Lexer

namespace Word

/-- A plain word is found up to the first character of another class. -/
theorem length?_cons {c : Char} {found tail : List Char} (hstart : isIdentifierStart c = true)
    (hfound : ∀ d ∈ found, isIdentifierPart d = true)
    (htail : ∀ d ∈ tail.head?, isIdentifierPart d = false) :
    length? (c :: found ++ tail) = some (found.length + 1) := by
  rw [List.cons_append, length?, if_pos hstart, takeWhile_append_of_head hfound htail]

/-- A plain word reaches as far in front of what ends a leaf. -/
theorem length?_append {text : List Char} {n : ℕ} (h : length? text = some n) :
    FoundBeforeEnd length? text n := by
  cases text with
  | nil => contradiction
  | cons c rest =>
    rw [length?] at h
    split at h
    · rename_i hstart
      obtain ⟨after, hrest, -⟩ := exists_takeWhile isIdentifierPart rest
      refine ⟨c :: rest.takeWhile isIdentifierPart, after, ?_, (Option.some.inj h).symm,
        fun tail htail => ?_⟩
      · rw [List.cons_append, ← hrest]
      · rw [length?_cons hstart (fun d hd => List.mem_takeWhile_imp hd)
          fun d hd => leafClass_identifierPart d (htail d hd)]
        exact h
    · contradiction

/-- A word is no longer than the text. -/
theorem le_length_of_length? {text : List Char} {n : ℕ} (h : length? text = some n) :
    n ≤ text.length := by
  obtain ⟨found, after, rfl, rfl, -⟩ := length?_append h
  rw [List.length_append]
  exact Nat.le_add_right _ _

theorem le_length_of_lengthMaybeRaw? {text : List Char} {n : ℕ}
    (h : lengthMaybeRaw? text = some n) : n ≤ text.length := by
  unfold lengthMaybeRaw? at h
  split at h
  · split at h
    · rename_i count hcount
      have hle := le_length_of_length? hcount
      split at h
      · contradiction
      · rw [← Option.some.inj h, List.length_cons, List.length_cons]
        omega
    · contradiction
  · exact le_length_of_length? h

end Word

namespace Number

/-- Nothing that ends a leaf begins a suffix. -/
theorem suffixLength_of_endsLeaf {tail : List Char} (h : EndsLeaf tail) : suffixLength tail = 0 := by
  cases tail with
  | nil => rfl
  | cons c rest =>
    have hstart := leafClass_identifierStart c (endsLeaf_cons.mp h)
    simp [suffixLength, Word.length?, hstart]

/-- A suffix reaches as far in front of what ends a leaf. -/
theorem suffixLength_append (text : List Char) :
    ∃ found after, text = found ++ after ∧ suffixLength text = found.length ∧
      ∀ tail, EndsLeaf tail → suffixLength (found ++ tail) = found.length := by
  cases hlength : Word.length? text with
  | none => exact ⟨[], text, rfl, by rw [suffixLength, hlength]; rfl, fun tail htail =>
      suffixLength_of_endsLeaf htail⟩
  | some n =>
    obtain ⟨found, after, htext, rfl, htail⟩ := Word.length?_append hlength
    refine ⟨found, after, htext, by rw [suffixLength, hlength]; rfl, fun tail hends => ?_⟩
    rw [suffixLength, htail tail hends]
    rfl

/-! ### Numbers -/

/-- The characters that stand between the digits of a number and what is no part of it, if that may
stand there. -/
def suffix? (text : List Char) : Option ℕ :=
  match text with
  | c :: rest =>
    if isIdentifierStart c then some (suffixLength (c :: rest))
    else if isIdentifierPart c then none
    else some 0
  | [] => some 0

theorem withSuffix?_eq (text : List Char) (count : ℕ) :
    withSuffix? text count = (suffix? (text.drop count)).map (count + ·) := by
  rw [withSuffix?]
  cases text.drop count with
  | nil => rfl
  | cons c rest =>
    simp only [suffix?]
    split
    · rfl
    · split <;> rfl

/-- Nothing that ends a leaf is a suffix, or keeps one from being left out. -/
theorem suffix?_of_endsLeaf {tail : List Char} (h : EndsLeaf tail) : suffix? tail = some 0 := by
  cases tail with
  | nil => rfl
  | cons c rest =>
    have hc := endsLeaf_cons.mp h
    simp [suffix?, leafClass_identifierStart c hc, leafClass_identifierPart c hc]

/-- A suffix is a word, or there is none; it reaches as far in front of what ends a leaf. -/
theorem suffix?_append {text : List Char} {n : ℕ} (h : suffix? text = some n) :
    ∃ found after, text = found ++ after ∧ n = found.length ∧
      (∀ c ∈ found, isIdentifierPart c = true) ∧ (∀ c ∈ after.head?, isIdentifierPart c = false) ∧
      (∀ c ∈ found.head?, isIdentifierStart c = true) ∧
      ∀ tail, EndsLeaf tail → suffix? (found ++ tail) = some n := by
  cases text with
  | nil =>
    obtain rfl := Option.some.inj h
    exact ⟨[], [], rfl, rfl, nofun, nofun, nofun, fun tail => suffix?_of_endsLeaf⟩
  | cons c rest =>
    rw [suffix?] at h
    split at h
    · rename_i hstart
      obtain ⟨after, hrest, hafter⟩ := exists_takeWhile isIdentifierPart rest
      have hparts : ∀ d ∈ rest.takeWhile isIdentifierPart, isIdentifierPart d = true :=
        fun d hd => List.mem_takeWhile_imp hd
      have hlength : n = (rest.takeWhile isIdentifierPart).length + 1 := by
        rw [← Option.some.inj h, suffixLength, Word.length?, if_pos hstart]
        rfl
      refine ⟨c :: rest.takeWhile isIdentifierPart, after, ?_, hlength, ?_, hafter, ?_, ?_⟩
      · rw [List.cons_append, ← hrest]
      · exact List.forall_mem_cons.mpr ⟨isIdentifierPart_of_start hstart, hparts⟩
      · intro d hd
        obtain rfl := Option.some.inj hd
        exact hstart
      · intro tail htail
        have hends : ∀ d ∈ tail.head?, isIdentifierPart d = false :=
          fun d hd => leafClass_identifierPart d (htail d hd)
        rw [List.cons_append, suffix?, if_pos hstart, suffixLength, ← List.cons_append,
          Word.length?_cons hstart hparts hends, hlength]
        rfl
    · rename_i hstart
      split at h
      · contradiction
      · rename_i hpart
        obtain rfl := Option.some.inj h
        refine ⟨[], c :: rest, rfl, rfl, nofun, fun d hd => ?_, nofun,
          fun tail => suffix?_of_endsLeaf⟩
        obtain rfl := Option.some.inj hd
        exact Bool.eq_false_iff.mpr hpart

/-- What a number has behind its first digits: nothing, or a point with digits. A second point or a
word takes the point away. -/
def fraction? : List Char → Option (ℕ × Bool)
  | '.' :: c :: rest =>
    if c == '.' || isIdentifierStart c then none
    else some (((c :: rest).takeWhile isDigitPart).length + 1, true)
  | ['.'] => some (1, true)
  | _ => some (0, false)

/-- An exponent with its letter. -/
def exponent? : List Char → Option ℕ
  | c :: rest => if c == 'e' || c == 'E' then (exponentLength? rest).map (· + 1) else none
  | [] => none

/-- What a number reaches to with its exponent, given where it reaches without it and whether it has a
point. -/
def withExponent? (text : List Char) : Option (ℕ × Bool) → Option ℕ
  | none => none
  | some (count, hasPoint) =>
    match text.drop count with
    | c :: rest =>
      if c == 'e' || c == 'E' then
        match exponentLength? rest with
        | some exponent => some (count + 1 + exponent)
        | none => if hasPoint then some count else none
      else if hasPoint then some count else none
    | [] => if hasPoint then some count else none

/-- A number with a point or an exponent is made of digits, a point with digits, and an exponent. -/
theorem floatDigits?_append {first : Char} {digits after : List Char} (hfirst : first.isDigit = true)
    (hdigits : ∀ c ∈ first :: digits, isDigitPart c = true)
    (hafter : ∀ c ∈ after.head?, isDigitPart c = false) :
    floatDigits? (first :: digits ++ after) = (fraction? after).bind fun point =>
      ((exponent? (after.drop point.1)).or (if point.2 then some 0 else none)).map
        (digits.length + 1 + point.1 + ·) := by
  have hdrop : ∀ count, (first :: (digits ++ after)).drop (digits.length + 1 + count) =
      after.drop count := by
    intro count
    rw [← List.cons_append, List.drop_append, List.drop_eq_nil_of_le (by simp)]
    simp
  have hwhole : ((first :: (digits ++ after)).takeWhile isDigitPart).length = digits.length + 1 := by
    rw [← List.cons_append, takeWhile_append_of_head hdigits hafter, List.length_cons]
  have hrest : (first :: (digits ++ after)).drop (digits.length + 1) = after := hdrop 0
  have hpoint : ∀ pointed? : Option (ℕ × Bool),
      pointed? = (fraction? after).map (fun point => (digits.length + 1 + point.1, point.2)) →
      withExponent? (first :: (digits ++ after)) pointed? =
        (fraction? after).bind fun point =>
          ((exponent? (after.drop point.1)).or (if point.2 then some 0 else none)).map
            (digits.length + 1 + point.1 + ·) := by
    rintro _ rfl
    cases fraction? after with
    | none => rfl
    | some point =>
      obtain ⟨count, hasPoint⟩ := point
      simp only [withExponent?, Option.map_some, Option.bind_some, hdrop]
      cases after.drop count with
      | nil => cases hasPoint <;> rfl
      | cons c rest =>
        simp only [exponent?]
        split
        · cases exponentLength? rest with
          | none => cases hasPoint <;> rfl
          | some exponent =>
            simp only [Option.map_some, Option.some_or]
            congr 1
            omega
        · cases hasPoint <;> rfl
  rw [List.cons_append, floatDigits?]
  simp only [hfirst, if_true, hwhole, hrest]
  refine hpoint _ ?_
  split
  · rw [fraction?]
    split
    · rfl
    · rw [Option.map_some]
      congr 2
      omega
  · rfl
  · rename_i hpointed hsingle
    rw [fraction?.eq_3 after hpointed hsingle]
    rfl

/-- Without a point in front there is no fraction. -/
theorem fraction?_of_no_point {text : List Char} (h : ∀ c ∈ text.head?, c ≠ '.') :
    fraction? text = some (0, false) := by
  refine fraction?.eq_3 _ (fun c rest hparts => ?_) (fun hparts => ?_)
  · exact h '.' (by rw [hparts]; rfl) rfl
  · exact h '.' (by rw [hparts]; rfl) rfl

theorem ne_point_of_mem_leafEnds {c : Char} (h : c ∈ leafEnds) : c ≠ '.' := by
  rintro rfl
  exact absurd h (by decide)

/-- A point with its digits reaches as far in front of a text with the same front. -/
theorem fraction?_append {text : List Char} {point : ℕ × Bool} (h : fraction? text = some point) :
    ∃ found after, text = found ++ after ∧ point.1 = found.length ∧
      ∀ tail, SameFront after tail → fraction? (found ++ tail) = some point := by
  unfold fraction? at h
  split at h
  · rename_i c rest
    split at h
    · contradiction
    · rename_i hc
      obtain rfl := Option.some.inj h
      obtain ⟨after, htext, hafter⟩ := exists_takeWhile isDigitPart (c :: rest)
      have hdigits : ∀ d ∈ (c :: rest).takeWhile isDigitPart, isDigitPart d = true :=
        fun d hd => List.mem_takeWhile_imp hd
      generalize (c :: rest).takeWhile isDigitPart = digits at htext hdigits
      refine ⟨'.' :: digits, after, by rw [List.cons_append, ← htext], rfl, fun tail hfront => ?_⟩
      have htail := leafClass_digitPart.head?_eq_false hafter hfront
      have hwhole := takeWhile_append_of_head hdigits htail
      cases digits with
      | cons d others =>
        obtain ⟨rfl, -⟩ := List.cons.inj htext
        rw [List.cons_append, List.cons_append, fraction?, if_neg hc, ← List.cons_append, hwhole]
      | nil =>
        cases tail with
        | nil => rfl
        | cons d others =>
          have hd : ¬(d == '.' || isIdentifierStart d) = true := by
            rcases hfront with ⟨first, before, others, hbefore, hothers⟩ | hends
            · obtain ⟨rfl, -⟩ := List.cons.inj (htext.trans hbefore)
              obtain ⟨rfl, -⟩ := List.cons.inj hothers
              exact hc
            · have hmem := endsLeaf_cons.mp hends
              simp [ne_point_of_mem_leafEnds hmem, leafClass_identifierStart d hmem]
          rw [List.cons_append, List.nil_append, fraction?, if_neg hd]
          rw [List.nil_append] at hwhole
          rw [hwhole]
  · obtain rfl := Option.some.inj h
    refine ⟨['.'], [], rfl, rfl, fun tail hfront => ?_⟩
    have hends : EndsLeaf tail := by
      rcases hfront with ⟨first, before, others, hbefore, -⟩ | hends
      · contradiction
      · exact hends
    cases tail with
    | nil => rfl
    | cons d others =>
      have hmem := endsLeaf_cons.mp hends
      simp [fraction?, ne_point_of_mem_leafEnds hmem, leafClass_identifierStart d hmem,
        leafClass_digitPart d hmem]
  · rename_i hpointed hsingle
    obtain rfl := Option.some.inj h
    refine ⟨[], text, rfl, rfl, fun tail hfront => ?_⟩
    rw [List.nil_append]
    refine fraction?_of_no_point fun d hd => ?_
    rcases hfront with ⟨first, before, others, rfl, rfl⟩ | hends
    · obtain rfl := Option.some.inj hd
      rintro rfl
      cases before with
      | nil => exact hsingle rfl
      | cons e rest => exact hpointed e rest rfl
    · exact ne_point_of_mem_leafEnds (hends d hd)

/-- An exponent reaches as far in front of a text with the same front. -/
theorem exponentLength?_append {text : List Char} {n : ℕ} (h : exponentLength? text = some n) :
    ∃ found after, text = found ++ after ∧ n = found.length ∧
      ∀ tail, SameFront after tail → exponentLength? (found ++ tail) = some n := by
  obtain ⟨after, htext, hafter⟩ := exists_takeWhile isDigitPart text
  have hdigits : ∀ d ∈ text.takeWhile isDigitPart, isDigitPart d = true :=
    fun d hd => List.mem_takeWhile_imp hd
  rw [exponentLength?] at h
  generalize text.takeWhile isDigitPart = digits at htext hdigits h
  dsimp only at h
  split at h
  · rename_i hany
    obtain rfl := Option.some.inj h
    refine ⟨digits, after, htext, rfl, fun tail hfront => ?_⟩
    have hwhole := takeWhile_append_of_head hdigits
      (leafClass_digitPart.head?_eq_false hafter hfront)
    simp only [exponentLength?, hwhole, hany, if_true]
  · rename_i hnone
    rw [htext, List.drop_left] at h
    split at h
    · rename_i c rest
      split at h
      · rename_i hsigned
        obtain rfl := Option.some.inj h
        obtain ⟨others, hrest, hothers⟩ := exists_takeWhile isDigitPart rest
        have hmore : ∀ d ∈ rest.takeWhile isDigitPart, isDigitPart d = true :=
          fun d hd => List.mem_takeWhile_imp hd
        generalize rest.takeWhile isDigitPart = signed at hrest hmore hsigned
        refine ⟨digits ++ c :: signed, others, ?_, ?_, fun tail hfront => ?_⟩
        · rw [htext, hrest]
          simp
        · rw [List.length_append, List.length_cons]
          omega
        · have hwhole : (digits ++ c :: (signed ++ tail)).takeWhile isDigitPart = digits :=
            takeWhile_append_of_head hdigits hafter
          have hrest := takeWhile_append_of_head hmore
            (leafClass_digitPart.head?_eq_false hothers hfront)
          rw [List.append_assoc, List.cons_append]
          simp only [exponentLength?, hwhole, hnone, List.drop_left, hrest, hsigned]
          rfl
      · contradiction
    · cases h

/-- What a word would give as an exponent, in front of what ends a leaf, it gives in front of
anything that is no part of the word. -/
theorem exponentLength?_of_word {word after tail : List Char} {n : ℕ}
    (hword : ∀ c ∈ word, isIdentifierPart c = true)
    (hafter : ∀ c ∈ after.head?, isIdentifierPart c = false) (htail : EndsLeaf tail)
    (h : exponentLength? (word ++ tail) = some n) :
    exponentLength? (word ++ after) = some n ∧ n ≤ word.length := by
  have hpart : ∀ c, isDigitPart c = true → isIdentifierPart c = true := by
    intro c hc
    rw [isDigitPart, Bool.or_eq_true] at hc
    rcases hc with hdigit | hline
    · have hall : digitChars.all isIdentifierPart = true := by decide +kernel
      exact List.all_eq_true.mp hall c (mem_digitChars hdigit)
    · rw [beq_iff_eq.mp hline]
      decide +kernel
  obtain ⟨others, hparts, hothers⟩ := exists_takeWhile isDigitPart word
  have hdigits : ∀ d ∈ word.takeWhile isDigitPart, isDigitPart d = true :=
    fun d hd => List.mem_takeWhile_imp hd
  generalize word.takeWhile isDigitPart = digits at hparts hdigits
  have hhead : ∀ rest : List Char, (∀ c ∈ rest.head?, isIdentifierPart c = false) →
      ∀ c ∈ (others ++ rest).head?, isDigitPart c = false := by
    intro rest hrest c hc
    cases others with
    | nil =>
      by_contra hnot
      have := hrest c hc
      rw [hpart c (Bool.eq_true_of_not_eq_false hnot)] at this
      cases this
    | cons d more => exact hothers c hc
  have hends : ∀ c ∈ tail.head?, isIdentifierPart c = false :=
    fun c hc => leafClass_identifierPart c (htail c hc)
  have hbefore := takeWhile_append_of_head hdigits (hhead tail hends)
  have hbehind := takeWhile_append_of_head hdigits (hhead after hafter)
  rw [hparts, List.append_assoc] at h ⊢
  simp only [exponentLength?, hbefore, List.drop_left] at h
  simp only [exponentLength?, hbehind, List.drop_left]
  split at h
  · rename_i hany
    rw [if_pos hany, ← Option.some.inj h, List.length_append]
    exact ⟨rfl, Nat.le_add_right _ _⟩
  · -- A sign is no part of a word, and ends no leaf.
    exfalso
    split at h
    · rename_i c rest hsign
      split at h
      · rename_i hsigned
        rw [Bool.and_eq_true, Bool.or_eq_true, beq_iff_eq, beq_iff_eq] at hsigned
        cases others with
        | nil =>
          rw [List.nil_append] at hsign
          rw [hsign] at htail
          have hmem := endsLeaf_cons.mp htail
          rcases hsigned.1 with rfl | rfl
          · exact absurd hmem (by decide)
          · exact absurd hmem (by decide)
        | cons d more =>
          obtain ⟨rfl, -⟩ := List.cons.inj hsign
          have hmem := hword d (by rw [hparts]; simp)
          have hnone : (!isIdentifierPart '+' && !isIdentifierPart '-') = true := by decide +kernel
          rw [Bool.and_eq_true, Bool.not_eq_true', Bool.not_eq_true'] at hnone
          rcases hsigned.1 with rfl | rfl
          · rw [hnone.1] at hmem
            cases hmem
          · rw [hnone.2] at hmem
            cases hmem
      · cases h
    · cases h

/-- An exponent with its letter reaches as far in front of a text with the same front. -/
theorem exponent?_append {text : List Char} {n : ℕ} (h : exponent? text = some n) :
    ∃ found after, text = found ++ after ∧ n = found.length ∧ found ≠ [] ∧
      ∀ tail, SameFront after tail → exponent? (found ++ tail) = some n := by
  cases text with
  | nil => contradiction
  | cons c rest =>
    rw [exponent?] at h
    split at h
    · rename_i hletter
      obtain ⟨m, hm, rfl⟩ := Option.map_eq_some_iff.mp h
      obtain ⟨found, after, rfl, rfl, htail⟩ := exponentLength?_append hm
      refine ⟨c :: found, after, rfl, rfl, List.cons_ne_nil _ _, fun tail hfront => ?_⟩
      rw [List.cons_append, exponent?, if_pos hletter, htail tail hfront]
      rfl
    · contradiction

/-- Nothing that ends a leaf begins an exponent. -/
theorem exponent?_of_endsLeaf {tail : List Char} (h : EndsLeaf tail) : exponent? tail = none := by
  cases tail with
  | nil => rfl
  | cons c rest =>
    have hmem := endsLeaf_cons.mp h
    have hletter : (c == 'e' || c == 'E') = false := by
      have hall : leafEnds.all (fun d => !(d == 'e' || d == 'E')) = true := by decide
      simpa using List.all_eq_true.mp hall c hmem
    rw [exponent?, hletter]
    rfl

/-- If the rest of a word may not be left out, it may not be in front of anything. -/
theorem suffix?_eq_none_of_append {found after tail : List Char}
    (hafter : ∀ c ∈ after.head?, isIdentifierPart c = false)
    (h : suffix? (found ++ after) = none) : suffix? (found ++ tail) = none := by
  cases found with
  | nil =>
    cases after with
    | nil => cases h
    | cons c rest =>
      rw [List.nil_append, suffix?, hafter c rfl] at h
      split at h <;> contradiction
  | cons c rest =>
    rw [List.cons_append, suffix?] at h ⊢
    split at h
    · contradiction
    · rename_i hstart
      rw [if_neg hstart]
      split at h
      · rename_i hpart
        rw [if_pos hpart]
      · contradiction

/-- What is a suffix and gives no exponent gives none in front of what ends a leaf. -/
theorem exponent?_of_suffix {found after tail : List Char}
    (hfound : ∀ c ∈ found, isIdentifierPart c = true)
    (hafter : ∀ c ∈ after.head?, isIdentifierPart c = false) (htail : EndsLeaf tail) {n : ℕ}
    (h : exponent? (found ++ tail) = some n) :
    exponent? (found ++ after) = some n ∧ n ≤ found.length := by
  cases found with
  | nil =>
    rw [List.nil_append, exponent?_of_endsLeaf htail] at h
    cases h
  | cons c rest =>
    rw [List.cons_append, exponent?] at h ⊢
    split at h
    · rename_i hletter
      obtain ⟨m, hm, rfl⟩ := Option.map_eq_some_iff.mp h
      obtain ⟨hsame, hle⟩ :=
        exponentLength?_of_word (fun d hd => hfound d (List.mem_cons_of_mem c hd)) hafter htail hm
      rw [if_pos hletter, hsame]
      exact ⟨rfl, Nat.succ_le_succ hle⟩
    · contradiction

/-- The digits that a text begins with, of which the first one is no low line. -/
structure BeginsNumber (digits after : List Char) : Prop where
  first : ∃ c rest, digits = c :: rest ∧ c.isDigit = true
  digits : ∀ c ∈ digits, isDigitPart c = true
  after : ∀ c ∈ after.head?, isDigitPart c = false

theorem exists_beginsNumber {c : Char} (h : c.isDigit = true) (rest : List Char) :
    ∃ digits after, c :: rest = digits ++ after ∧ BeginsNumber digits after := by
  obtain ⟨after, hrest, hafter⟩ := exists_takeWhile isDigitPart rest
  refine ⟨c :: rest.takeWhile isDigitPart, after, by rw [List.cons_append, ← hrest],
    ⟨c, _, rfl, h⟩, ?_, hafter⟩
  exact List.forall_mem_cons.mpr ⟨isDigitPart_of_isDigit h, fun d hd => List.mem_takeWhile_imp hd⟩

namespace BeginsNumber

variable {digits after : List Char}

/-- The digits of a number stand before any text with the same front. -/
theorem of_sameFront (h : BeginsNumber digits after) {tail : List Char}
    (hfront : SameFront after tail) : BeginsNumber digits tail :=
  ⟨h.first, h.digits, leafClass_digitPart.head?_eq_false h.after hfront⟩

/-- A number with a point or an exponent is made of digits, a point with digits, an exponent and a
suffix. -/
theorem floatLength?_eq (h : BeginsNumber digits after) :
    floatLength? (digits ++ after) = (fraction? after).bind fun point =>
      ((exponent? (after.drop point.1)).or (if point.2 then some 0 else none)).bind fun exponent =>
        (suffix? (after.drop (point.1 + exponent))).map
          (digits.length + point.1 + exponent + ·) := by
  obtain ⟨first, rest, rfl, hfirst⟩ := h.first
  rw [floatLength?, floatDigits?_append hfirst h.digits h.after, Option.bind_assoc]
  congr 1
  funext point
  rw [Option.bind_map]
  congr 1
  funext exponent
  have hdrop : (first :: rest ++ after).drop (rest.length + 1 + point.1 + exponent) =
      after.drop (point.1 + exponent) := by
    rw [List.drop_append, List.drop_eq_nil_of_le (by rw [List.length_cons]; omega),
      List.nil_append, List.length_cons]
    congr 1
    omega
  rw [Function.comp_apply, withSuffix?_eq, hdrop]
  rfl

end BeginsNumber

/-- A number with a point or an exponent reaches as far in front of what ends a leaf. -/
theorem floatLength?_append {text : List Char} {n : ℕ} (h : floatLength? text = some n) :
    FoundBeforeEnd floatLength? text n := by
  obtain ⟨digits, after, rfl, hdigits⟩ : ∃ digits after, text = digits ++ after ∧
      BeginsNumber digits after := by
    cases text with
    | nil => contradiction
    | cons c rest =>
      cases hc : c.isDigit with
      | true => exact exists_beginsNumber hc rest
      | false =>
        rw [floatLength?_eq_none hc] at h
        contradiction
  rw [hdigits.floatLength?_eq] at h
  obtain ⟨⟨count, hasPoint⟩, hpoint, hbehind⟩ := Option.bind_eq_some_iff.mp h
  obtain ⟨exponent, hexponent, hlast⟩ := Option.bind_eq_some_iff.mp hbehind
  obtain ⟨suffix, hsuffix, rfl⟩ := Option.map_eq_some_iff.mp hlast
  obtain ⟨point, behind, rfl, hcount, hpointTail⟩ := fraction?_append hpoint
  obtain rfl : count = point.length := hcount
  clear hlast hbehind h
  rw [List.drop_left] at hexponent
  rw [← List.drop_drop, List.drop_left] at hsuffix
  -- With the exponent or without, all parts are found again.
  cases hfound : exponent? behind with
  | none =>
    rw [hfound, Option.none_or] at hexponent
    obtain ⟨hhas, hzero⟩ := Option.ite_none_right_eq_some.mp hexponent
    obtain rfl := Option.some.inj hzero
    obtain ⟨word, rest, rfl, rfl, hword, hrest, -, hwordTail⟩ := suffix?_append hsuffix
    refine ⟨digits ++ (point ++ word), rest, by simp, ?_, fun tail htail => ?_⟩
    · simp only [List.length_append]
      omega
    · have hnone : exponent? (word ++ tail) = none := by
        by_contra hsome
        obtain ⟨m, hm⟩ := Option.ne_none_iff_exists'.mp hsome
        rw [(exponent?_of_suffix hword hrest htail hm).1] at hfound
        contradiction
      have hfront : SameFront (point ++ (word ++ rest)) (point ++ (word ++ tail)) := by
        simpa using sameFront_append (point ++ word) rest htail
      rw [List.append_assoc, List.append_assoc, (hdigits.of_sameFront hfront).floatLength?_eq,
        hpointTail _ (sameFront_append word rest htail), Option.bind_some, List.drop_left, hnone,
        Option.none_or, hexponent, Option.bind_some, ← List.drop_drop, List.drop_left,
        List.drop_zero, hwordTail tail htail]
      rfl
  | some m =>
    rw [hfound, Option.some_or] at hexponent
    obtain rfl := Option.some.inj hexponent
    obtain ⟨letter, others, rfl, rfl, hne, hletterTail⟩ := exponent?_append hfound
    rw [List.drop_left] at hsuffix
    obtain ⟨word, rest, rfl, rfl, hword, hrest, -, hwordTail⟩ := suffix?_append hsuffix
    refine ⟨digits ++ (point ++ (letter ++ word)), rest, by simp, ?_, fun tail htail => ?_⟩
    · simp only [List.length_append]
      omega
    · have hfront : SameFront (point ++ (letter ++ (word ++ rest)))
          (point ++ (letter ++ (word ++ tail))) := by
        simpa using sameFront_append (point ++ (letter ++ word)) rest htail
      have hbehind : SameFront (letter ++ (word ++ rest)) (letter ++ (word ++ tail)) := by
        simpa using sameFront_append (letter ++ word) rest htail
      rw [List.append_assoc, List.append_assoc, List.append_assoc,
        (hdigits.of_sameFront hfront).floatLength?_eq, hpointTail _ hbehind, Option.bind_some,
        List.drop_left, hletterTail _ (sameFront_append word rest htail), Option.some_or,
        Option.bind_some, ← List.drop_drop, List.drop_left, List.drop_left, hwordTail tail htail]
      rfl

/-- A number begins with the sign of a base other than ten. -/
def isBased : List Char → Bool
  | first :: second :: _ => first == '0' && ['x', 'o', 'b'].contains second
  | _ => false

theorem isBased_eq_true {text : List Char} (h : isBased text = true) :
    ∃ letter rest, text = '0' :: letter :: rest ∧ letter ∈ ['x', 'o', 'b'] := by
  unfold isBased at h
  split at h
  · rw [Bool.and_eq_true, beq_iff_eq, List.contains_iff_mem] at h
    exact ⟨_, _, by rw [h.1], h.2⟩
  · contradiction

/-- The base of a number by its letter. -/
def baseOf (letter : Char) : ℕ := if letter = 'x' then 16 else if letter = 'o' then 8 else 2

theorem wholeDigits?_based {letter : Char} (h : letter ∈ ['x', 'o', 'b']) (rest : List Char) :
    wholeDigits? ('0' :: letter :: rest) = (baseDigits? (baseOf letter) rest).map (· + 2) := by
  simp only [List.mem_cons, List.not_mem_nil, or_false] at h
  rcases h with rfl | rfl | rfl <;> rfl

theorem wholeDigits?_decimal {c : Char} {rest : List Char} (hc : c.isDigit = true)
    (h : isBased (c :: rest) = false) :
    wholeDigits? (c :: rest) = some ((rest.takeWhile isDigitPart).length + 1) := by
  unfold wholeDigits?
  split
  · rename_i hparts
    rw [hparts] at h
    contradiction
  · rename_i hparts
    rw [hparts] at h
    contradiction
  · rename_i hparts
    rw [hparts] at h
    contradiction
  · rename_i hparts
    obtain ⟨rfl, rfl⟩ := List.cons.inj hparts
    rw [if_pos hc]
  · contradiction

/-- The digits of a base reach as far in front of a text with the same front. -/
theorem baseDigits?_append {base : ℕ} {text : List Char} {n : ℕ}
    (h : baseDigits? base text = some n) :
    ∃ found after, text = found ++ after ∧ n = found.length ∧
      ∀ tail, SameFront after tail → baseDigits? base (found ++ tail) = some n := by
  have hclass : LeafClass (if base = 16 then isHexPart else isDigitPart) := by
    split
    · exact leafClass_hexPart
    · exact leafClass_digitPart
  rw [baseDigits?] at h
  generalize hisIn : (if base = 16 then isHexPart else isDigitPart) = isIn at h hclass
  obtain ⟨after, htext, hafter⟩ := exists_takeWhile isIn text
  have hdigits : ∀ d ∈ text.takeWhile isIn, isIn d = true := fun d hd => List.mem_takeWhile_imp hd
  generalize text.takeWhile isIn = digits at h htext hdigits
  have hlength : n = digits.length := by
    split at h
    · contradiction
    · exact (Option.some.inj (Option.ite_none_right_eq_some.mp h).2).symm
  refine ⟨digits, after, htext, hlength, fun tail hfront => ?_⟩
  rw [baseDigits?, hisIn,
    takeWhile_append_of_head hdigits (hclass.head?_eq_false hafter hfront)]
  exact h

/-- A number of another base has no point and no exponent. -/
theorem floatLength?_based {letter : Char} (h : letter ∈ ['x', 'o', 'b']) (rest : List Char) :
    floatLength? ('0' :: letter :: rest) = none := by
  have hletters : ['x', 'o', 'b'].all (fun c => !isDigitPart c && c != '.' && c != 'e' && c != 'E') =
      true := by decide
  have hletter := List.all_eq_true.mp hletters letter h
  simp only [Bool.and_eq_true, Bool.not_eq_true', bne_iff_ne] at hletter
  obtain ⟨⟨⟨hpart, hpoint⟩, hsmall⟩, hlarge⟩ := hletter
  have hbegins : BeginsNumber ['0'] (letter :: rest) := by
    refine ⟨⟨'0', [], rfl, rfl⟩, List.forall_mem_singleton.mpr rfl, fun c hc => ?_⟩
    obtain rfl := Option.some.inj hc
    exact hpart
  have hfraction : fraction? (letter :: rest) = some (0, false) := by
    refine fraction?.eq_3 _ (fun c others hparts => ?_) (fun hparts => ?_)
    · exact hpoint (List.cons.inj hparts).1
    · exact hpoint (List.cons.inj hparts).1
  have hexponent : exponent? (letter :: rest) = none := by simp [exponent?, hsmall, hlarge]
  have hwhole : floatLength? (['0'] ++ letter :: rest) = none := by
    rw [hbegins.floatLength?_eq, hfraction, Option.bind_some, List.drop_zero, hexponent]
    rfl
  exact hwhole

/-- A number of another base reaches as far in front of what ends a leaf. -/
theorem wholeLength?_based {letter : Char} (hletter : letter ∈ ['x', 'o', 'b']) {rest : List Char}
    {n : ℕ} (h : wholeLength? ('0' :: letter :: rest) = some n) :
    ∃ found after, '0' :: letter :: rest = found ++ after ∧ n = found.length ∧
      ∀ tail, EndsLeaf tail →
        floatLength? (found ++ tail) = none ∧ wholeLength? (found ++ tail) = some n := by
  rw [wholeLength?, wholeDigits?_based hletter, Option.bind_map] at h
  obtain ⟨count, hcount, hlast⟩ := Option.bind_eq_some_iff.mp h
  rw [Function.comp_apply, withSuffix?_eq] at hlast
  obtain ⟨suffix, hsuffix, rfl⟩ := Option.map_eq_some_iff.mp hlast
  clear hlast h
  obtain ⟨digits, behind, rfl, rfl, hdigits⟩ := baseDigits?_append hcount
  rw [List.drop_succ_cons, List.drop_succ_cons, List.drop_left] at hsuffix
  obtain ⟨word, after, rfl, rfl, -, -, -, hwordTail⟩ := suffix?_append hsuffix
  refine ⟨'0' :: letter :: (digits ++ word), after, by simp, ?_, fun tail htail => ⟨?_, ?_⟩⟩
  · simp only [List.length_cons, List.length_append]
    omega
  · exact floatLength?_based hletter _
  · rw [List.cons_append, List.cons_append, List.append_assoc, wholeLength?,
      wholeDigits?_based hletter, hdigits _ (sameFront_append word after htail), Option.map_some,
      Option.bind_some, withSuffix?_eq, List.drop_succ_cons, List.drop_succ_cons, List.drop_left,
      hwordTail tail htail]
    rfl

/-- A whole number of base ten is made of digits and a suffix. -/
theorem BeginsNumber.wholeLength?_eq {digits after : List Char} (h : BeginsNumber digits after)
    (hbased : isBased (digits ++ after) = false) :
    wholeLength? (digits ++ after) = (suffix? after).map (digits.length + ·) := by
  obtain ⟨c, rest, rfl, hc⟩ := h.first
  have hrest : (rest ++ after).takeWhile isDigitPart = rest :=
    takeWhile_append_of_head (fun d hd => h.digits d (List.mem_cons_of_mem c hd)) h.after
  rw [List.cons_append] at hbased ⊢
  rw [wholeLength?, wholeDigits?_decimal hc hbased, Option.bind_some, hrest, withSuffix?_eq,
    List.drop_succ_cons, List.drop_left]
  rfl

/-- Digits in front of a text with the same front name another base only if they did. -/
theorem BeginsNumber.isBased_of_sameFront {digits after tail : List Char}
    (h : BeginsNumber digits after) (hfront : SameFront after tail)
    (hbased : isBased (digits ++ after) = false) : isBased (digits ++ tail) = false := by
  obtain ⟨c, rest, rfl, -⟩ := h.first
  cases rest with
  | cons d more => exact hbased
  | nil =>
    rcases hfront with ⟨d, before, more, rfl, rfl⟩ | hends
    · exact hbased
    · cases tail with
      | nil => rfl
      | cons d more =>
        have hall : leafEnds.all (fun d => !(['x', 'o', 'b'].contains d)) = true := by decide
        have hd := List.all_eq_true.mp hall d (endsLeaf_cons.mp hends)
        rw [Bool.not_eq_true'] at hd
        rw [List.singleton_append, isBased, hd, Bool.and_false]

/-- A whole number with its suffix has no exponent in front of what ends a leaf, if it had none. -/
theorem BeginsNumber.floatLength?_of_suffix {digits word after tail : List Char}
    (h : BeginsNumber digits (word ++ after)) (hword : ∀ c ∈ word, isIdentifierPart c = true)
    (hstart : ∀ c ∈ word.head?, isIdentifierStart c = true)
    (hafter : ∀ c ∈ after.head?, isIdentifierPart c = false)
    (hfloat : floatLength? (digits ++ (word ++ after)) = none) (htail : EndsLeaf tail) :
    floatLength? (digits ++ (word ++ tail)) = none := by
  have hletters : ∀ c ∈ word.head?, c ≠ '.' := by
    rintro c hc rfl
    exact absurd (hstart _ hc) (by decide +kernel)
  have hheads : ∀ c ∈ (word ++ tail).head?, c ≠ '.' := by
    cases word with
    | nil => exact fun c hc => ne_point_of_mem_leafEnds (htail c hc)
    | cons c rest => exact hletters
  rw [(h.of_sameFront (sameFront_append word after htail)).floatLength?_eq,
    fraction?_of_no_point hheads, Option.bind_some, List.drop_zero]
  cases hexponent : exponent? (word ++ tail) with
  | none => rfl
  | some m =>
    -- What is an exponent now was one before, and what follows it kept it from being a number.
    obtain ⟨hbefore, hle⟩ := exponent?_of_suffix hword hafter htail hexponent
    have hpoint : fraction? (word ++ after) = some (0, false) := by
      cases word with
      | nil =>
        rw [List.nil_append, exponent?_of_endsLeaf htail] at hexponent
        cases hexponent
      | cons c rest => exact fraction?_of_no_point hletters
    rw [h.floatLength?_eq, hpoint, Option.bind_some, List.drop_zero, hbefore, Option.some_or,
      Option.bind_some, Nat.zero_add, Option.map_eq_none_iff,
      List.drop_append_of_le_length hle] at hfloat
    rw [Option.some_or, Option.bind_some, Nat.zero_add, Option.map_eq_none_iff,
      List.drop_append_of_le_length hle]
    exact suffix?_eq_none_of_append hafter hfloat

/-- A whole number of base ten reaches as far in front of what ends a leaf. -/
theorem wholeLength?_decimal {text : List Char} (hbased : isBased text = false) {n : ℕ}
    (hfloat : floatLength? text = none) (h : wholeLength? text = some n) :
    ∃ found after, text = found ++ after ∧ n = found.length ∧
      ∀ tail, EndsLeaf tail →
        floatLength? (found ++ tail) = none ∧ wholeLength? (found ++ tail) = some n := by
  obtain ⟨digits, behind, rfl, hdigits⟩ : ∃ digits after, text = digits ++ after ∧
      BeginsNumber digits after := by
    cases text with
    | nil => contradiction
    | cons c rest =>
      cases hc : c.isDigit with
      | true => exact exists_beginsNumber hc rest
      | false =>
        rw [wholeLength?_eq_none hc] at h
        contradiction
  rw [hdigits.wholeLength?_eq hbased] at h
  obtain ⟨suffix, hsuffix, rfl⟩ := Option.map_eq_some_iff.mp h
  obtain ⟨word, after, rfl, rfl, hword, hafter, hstart, hwordTail⟩ := suffix?_append hsuffix
  refine ⟨digits ++ word, after, by simp, by rw [List.length_append], fun tail htail => ?_⟩
  have hfront := sameFront_append word after htail
  rw [List.append_assoc, (hdigits.of_sameFront hfront).wholeLength?_eq
    (hdigits.isBased_of_sameFront hfront hbased), hwordTail tail htail]
  exact ⟨hdigits.floatLength?_of_suffix hword hstart hafter hfloat htail, rfl⟩

end Number

end Typestate
