import Typestate.Proofs.Text.CaseMap
import Typestate.Proofs.Token.Words

/-!
# The extent of a quoted literal

How far a word or a literal reaches is decided by its own characters, and by the character behind
it only as far as that one could go on with it. So a leaf that is found at the beginning of a text
is found again in front of anything that goes on with no leaf: a blank, the end of a group, or the
end of the text. A quoted literal closes by itself, whatever stands behind it.
-/

namespace Typestate

open Unicode

namespace Lexer

/-- Characters that end a leaf wherever they stand. -/
def leafEnds : List Char := [' ', ')', ']', '\x7d']

/-- Nothing that goes on with a leaf stands at the beginning. -/
def EndsLeaf (tail : List Char) : Prop := ∀ c ∈ tail.head?, c ∈ leafEnds

/-- The second text begins with the same character as the first one, or with nothing that goes on
with a leaf. -/
def SameFront (first second : List Char) : Prop :=
  (∃ c before after, first = c :: before ∧ second = c :: after) ∨ EndsLeaf second

theorem endsLeaf_nil : EndsLeaf [] := nofun

theorem endsLeaf_cons {c : Char} {rest : List Char} : EndsLeaf (c :: rest) ↔ c ∈ leafEnds := by
  simp [EndsLeaf]

/-- A common part goes on alike whatever it goes on with. -/
theorem sameFront_append (common after : List Char) {tail : List Char} (h : EndsLeaf tail) :
    SameFront (common ++ after) (common ++ tail) := by
  cases common with
  | nil => exact .inr h
  | cons c rest => exact .inl ⟨c, rest ++ after, rest ++ tail, rfl, rfl⟩

/-- A class of characters that holds none of those that end a leaf. -/
def LeafClass (isIn : Char → Bool) : Prop := ∀ c ∈ leafEnds, isIn c = false

theorem leafClass_identifierPart : LeafClass isIdentifierPart := by
  have h : leafEnds.all (fun c => !isIdentifierPart c) = true := by decide +kernel
  intro c hc
  simpa using List.all_eq_true.mp h c hc

theorem leafClass_identifierStart : LeafClass isIdentifierStart := by
  have h : leafEnds.all (fun c => !isIdentifierStart c) = true := by decide +kernel
  intro c hc
  simpa using List.all_eq_true.mp h c hc

theorem leafClass_digitPart : LeafClass Number.isDigitPart := by
  have h : leafEnds.all (fun c => !Number.isDigitPart c) = true := by decide
  intro c hc
  simpa using List.all_eq_true.mp h c hc

theorem leafClass_hexPart : LeafClass Number.isHexPart := by
  have h : leafEnds.all (fun c => !Number.isHexPart c) = true := by decide
  intro c hc
  simpa using List.all_eq_true.mp h c hc

section Class

variable {isIn : Char → Bool} {found after tail : List Char}

/-- Where a class ends before a text, it ends before one with the same front. -/
theorem LeafClass.head?_eq_false (hclass : LeafClass isIn)
    (hafter : ∀ c ∈ after.head?, isIn c = false) (hfront : SameFront after tail) :
    ∀ c ∈ tail.head?, isIn c = false := by
  rcases hfront with ⟨c, before, others, rfl, rfl⟩ | hends
  · exact hafter
  · exact fun c hc => hclass c (hends c hc)

/-- The characters of a class end where the next one is of another class. -/
theorem takeWhile_append_of_head (hfound : ∀ c ∈ found, isIn c = true)
    (htail : ∀ c ∈ tail.head?, isIn c = false) : (found ++ tail).takeWhile isIn = found := by
  rw [List.takeWhile_append_of_pos hfound]
  cases tail with
  | nil => simp
  | cons c rest =>
    rw [List.takeWhile_cons_of_neg (by simp [htail c (by simp)]), List.append_nil]

/-- A text is the characters of a class in front of it and what follows them. -/
theorem exists_takeWhile (isIn : Char → Bool) (text : List Char) :
    ∃ after, text = text.takeWhile isIn ++ after ∧ ∀ c ∈ after.head?, isIn c = false := by
  refine ⟨text.dropWhile isIn, List.takeWhile_append_dropWhile.symm, fun c hc => ?_⟩
  have := List.head?_dropWhile_not isIn text
  rw [Option.mem_def.mp hc] at this
  simpa using this

end Class

end Lexer

open Lexer

/-! ### Quoted literals -/

namespace Quotation

/-- A string closes where it closes, whatever stands behind it. -/
theorem closedAt_append {content : Content} {state : State} {count n : ℕ} {text : List Char}
    (h : closedAt content state count text = some n) :
    ∃ found after, text = found ++ after ∧ n = count + found.length ∧
      ∀ tail, closedAt content state count (found ++ tail) = some n := by
  induction text generalizing state count with
  | nil => contradiction
  | cons c rest ih =>
    rw [closedAt] at h
    split at h
    · rename_i following hstep
      obtain ⟨found, after, rfl, rfl, htail⟩ := ih h
      refine ⟨c :: found, after, rfl, by rw [List.length_cons]; omega, fun tail => ?_⟩
      rw [List.cons_append, closedAt, hstep]
      exact htail tail
    · rename_i hstep
      refine ⟨[c], rest, rfl, (Option.some.inj h).symm, fun tail => ?_⟩
      rw [List.cons_append, closedAt, hstep]
      exact h
    · contradiction

/-- One step of the way to the end of a raw string. -/
theorem rawClosedAt_cons {content : Content} {signs count : ℕ} {c : Char} {rest : List Char}
    (hc : c ≠ '\r') :
    rawClosedAt content signs count (c :: rest) =
      if c = '"' ∧ rest.take signs = List.replicate signs '#' then some (count + 1 + signs)
      else if (content = .bytes ∧ 128 ≤ c.toNat) ∨ (content = .nullTerminated ∧ c = '\x00') then none
      else rawClosedAt content signs (count + 1) rest := by
  rw [rawClosedAt.eq_def]
  split
  · contradiction
  · rename_i hparts
    exact absurd (List.cons.inj hparts).1 hc
  · rename_i first others _ hparts
    obtain ⟨rfl, rfl⟩ := List.cons.inj hparts
    by_cases hascii : c.toNat < 128
    · cases content <;> simp [hc, hascii, Nat.not_le.mpr hascii]
    · cases content <;> simp [hc, hascii, Nat.le_of_not_lt hascii]

/-- After a carriage return, a raw string goes on behind the line feed. -/
theorem rawClosedAt_return {content : Content} {signs count n : ℕ} {rest : List Char}
    (h : rawClosedAt content signs count ('\r' :: rest) = some n) :
    ∃ others, rest = '\n' :: others ∧ rawClosedAt content signs (count + 2) others = some n := by
  rw [rawClosedAt.eq_def] at h
  split at h
  · contradiction
  · rename_i others hparts
    exact ⟨others, (List.cons.inj hparts).2, h⟩
  · rename_i first others _ hparts
    obtain ⟨rfl, rfl⟩ := List.cons.inj hparts
    simp at h

/-- A raw string closes where it closes, whatever stands behind it. -/
theorem rawClosedAt_append {content : Content} {signs count n : ℕ} {text : List Char}
    (h : rawClosedAt content signs count text = some n) :
    ∃ found after, text = found ++ after ∧ n = count + found.length ∧ signs < found.length ∧
      ∀ tail, rawClosedAt content signs count (found ++ tail) = some n := by
  induction hlength : text.length using Nat.strong_induction_on generalizing text count with
  | _ length ih =>
    cases text with
    | nil => contradiction
    | cons c rest =>
      by_cases hc : c = '\r'
      · subst hc
        obtain ⟨others, rfl, hothers⟩ := rawClosedAt_return h
        obtain ⟨found, after, rfl, rfl, hsigns, htail⟩ := ih _ (by simp at hlength; omega) hothers rfl
        refine ⟨'\r' :: '\n' :: found, after, rfl, ?_, ?_, fun tail => ?_⟩
        · simp only [List.length_cons]
          omega
        · simp only [List.length_cons]
          omega
        · rw [List.cons_append, List.cons_append, rawClosedAt]
          exact htail tail
      · rw [rawClosedAt_cons hc] at h
        split at h
        · rename_i hclosed
          obtain ⟨rfl, hsigns⟩ := hclosed
          refine ⟨'"' :: List.replicate signs '#', rest.drop signs, ?_, ?_, ?_, fun tail => ?_⟩
          · rw [List.cons_append, ← hsigns, List.take_append_drop]
          · rw [List.length_cons, List.length_replicate, ← Option.some.inj h]
            omega
          · simp
          · rw [List.cons_append, rawClosedAt_cons hc, if_pos ⟨rfl, by simp⟩, h]
        · rename_i hopen
          split at h
          · contradiction
          · rename_i hallowed
            obtain ⟨found, after, rfl, rfl, hsigns, htail⟩ := ih _ (by simp at hlength; omega) h rfl
            refine ⟨c :: found, after, rfl, ?_, ?_, fun tail => ?_⟩
            · simp only [List.length_cons]
              omega
            · simp only [List.length_cons]
              omega
            · have htake : ∀ others, (found ++ others).take signs = found.take signs := fun others =>
                List.take_append_of_le_length hsigns.le
              rw [htake] at hopen
              rw [List.cons_append, rawClosedAt_cons hc, htake, if_neg hopen, if_neg hallowed]
              exact htail tail

/-- The text is found up to some character, and so it is whatever stands behind that one. -/
def FoundBeforeAny (find : List Char → Option ℕ) (text : List Char) (n : ℕ) : Prop :=
  ∃ found after, text = found ++ after ∧ n = found.length ∧ ∀ tail, find (found ++ tail) = some n

/-- A raw string reaches as far, whatever stands behind it. -/
theorem rawLength?_append {content : Content} {text : List Char} {n : ℕ}
    (h : rawLength? content text = some n) : FoundBeforeAny (rawLength? content) text n := by
  obtain ⟨after, htext, hafter⟩ := exists_takeWhile (· == '#') text
  have hall : ∀ c ∈ text.takeWhile (· == '#'), (c == '#') = true := fun c hc =>
    List.mem_takeWhile_imp (p := (· == '#')) hc
  generalize text.takeWhile (· == '#') = signs at htext hall
  have hquote : ∀ rest : List Char, rawLength? content (signs ++ '"' :: rest) =
      if signs.length > 255 then none
      else rawClosedAt content signs.length (signs.length + 1) rest := by
    intro rest
    have htake : (signs ++ '"' :: rest).takeWhile (· == '#') = signs :=
      takeWhile_append_of_head hall (by simp)
    simp only [rawLength?, htake, List.drop_left]
  rw [htext, rawLength?] at h
  simp only [takeWhile_append_of_head hall hafter, List.drop_left] at h
  split at h
  · rename_i rest
    split at h
    · contradiction
    · rename_i hfew
      obtain ⟨found, others, rfl, rfl, -, htail⟩ := rawClosedAt_append h
      refine ⟨signs ++ '"' :: found, others, ?_, ?_, fun tail => ?_⟩
      · rw [List.append_assoc, List.cons_append]
        exact htext
      · simp only [List.length_append, List.length_cons]
        omega
      · rw [List.append_assoc, List.cons_append, hquote, if_neg hfew, htail tail]
  · contradiction

/-- Characters in front count, too. -/
theorem FoundBeforeAny.map_add {find whole : List Char → Option ℕ} (start : List Char)
    {text : List Char} {n : ℕ}
    (hwhole : ∀ text, whole (start ++ text) = (find text).map (· + start.length))
    (h : FoundBeforeAny find text n) : FoundBeforeAny whole (start ++ text) (n + start.length) := by
  obtain ⟨found, after, rfl, rfl, htail⟩ := h
  refine ⟨start ++ found, after, (List.append_assoc ..).symm, ?_, fun tail => ?_⟩
  · rw [List.length_append, Nat.add_comm]
  · rw [List.append_assoc, hwhole, htail tail, Option.map_some]

theorem FoundBeforeAny.of_closedAt {content : Content} {whole : List Char → Option ℕ}
    (start : List Char) {text : List Char} {n : ℕ}
    (hwhole : ∀ text, whole (start ++ text) = closedAt content .plain start.length text)
    (h : closedAt content .plain start.length text = some n) :
    FoundBeforeAny whole (start ++ text) n := by
  obtain ⟨found, after, rfl, rfl, htail⟩ := closedAt_append h
  refine ⟨start ++ found, after, (List.append_assoc ..).symm, ?_, fun tail => ?_⟩
  · rw [List.length_append]
  · rw [List.append_assoc, hwhole, htail tail]

/-- A string reaches as far, whatever stands behind it. -/
theorem stringLength?_append {text : List Char} {n : ℕ} (h : stringLength? text = some n) :
    FoundBeforeAny stringLength? text n := by
  unfold stringLength? at h
  split at h
  · exact .of_closedAt ['"'] (fun _ => rfl) h
  · obtain ⟨m, hm, rfl⟩ := Option.map_eq_some_iff.mp h
    exact (rawLength?_append hm).map_add ['r'] fun _ => rfl
  · exact .of_closedAt ['b', '"'] (fun _ => rfl) h
  · obtain ⟨m, hm, rfl⟩ := Option.map_eq_some_iff.mp h
    exact (rawLength?_append hm).map_add ['b', 'r'] fun _ => rfl
  · exact .of_closedAt ['c', '"'] (fun _ => rfl) h
  · obtain ⟨m, hm, rfl⟩ := Option.map_eq_some_iff.mp h
    exact (rawLength?_append hm).map_add ['c', 'r'] fun _ => rfl
  · contradiction

/-- A code point ends at its brace, whatever stands behind it. -/
theorem codeLength?_append {value digits count n : ℕ} {text : List Char}
    (h : codeLength? value digits count text = some n) :
    ∃ found after, text = found ++ after ∧ n = count + found.length ∧
      ∀ tail, codeLength? value digits count (found ++ tail) = some n := by
  induction text generalizing value digits count with
  | nil => contradiction
  | cons c rest ih =>
    rw [codeLength?] at h
    split at h
    · rename_i value' digits' hstep
      obtain ⟨found, after, rfl, rfl, htail⟩ := ih h
      refine ⟨c :: found, after, rfl, by rw [List.length_cons]; omega, fun tail => ?_⟩
      rw [List.cons_append, codeLength?, hstep]
      exact htail tail
    · rename_i following hstep hother
      refine ⟨[c], rest, rfl, (Option.some.inj h).symm, fun tail => ?_⟩
      rw [List.cons_append, codeLength?]
      split
      · rename_i value' digits' hsame
        exact absurd (Step.next.inj (hother.symm.trans hsame)) (hstep value' digits')
      · exact h
      · simp_all
      · simp_all
    · contradiction
    · contradiction

/-- An escape reaches as far, whatever stands behind it. -/
theorem escapeLength?_append {content : Content} {text : List Char} {n : ℕ}
    (h : escapeLength? content text = some n) : FoundBeforeAny (escapeLength? content) text n := by
  unfold escapeLength? at h
  split at h
  · rename_i first second rest
    have hcount : 3 = n := Option.some.inj (Option.ite_none_right_eq_some.mp h).2
    exact ⟨['x', first, second], rest, rfl, hcount.symm, fun _ => h⟩
  · rename_i rest
    split at h
    · rename_i hcontent
      obtain ⟨found, after, rfl, rfl, htail⟩ := codeLength?_append h
      refine ⟨'u' :: '\x7b' :: found, after, rfl, ?_, fun tail => ?_⟩
      · simp only [List.length_cons]
        omega
      · simp only [List.cons_append, escapeLength?, if_pos hcontent]
        exact htail tail
    · contradiction
  · rename_i c rest _ _
    split at h
    · rename_i hc
      have hone : n = 1 := (Option.some.inj h).symm
      refine ⟨[c], rest, rfl, hone, fun tail => ?_⟩
      simp only [List.contains_eq_mem, List.mem_cons, List.not_mem_nil, or_false,
        decide_eq_true_eq] at hc
      rcases hc with rfl | rfl | rfl | rfl | rfl | rfl | rfl <;> exact h
    · contradiction
  · contradiction

/-- A character that is not escaped closes at once. -/
theorem characterClosedAt_cons {content : Content} {c : Char} {rest : List Char} (hc : c ≠ '\\')
    (hascii : ¬(content = .bytes && c.toNat ≥ 128) = true) :
    characterClosedAt content (c :: '\'' :: rest) = some 2 := by
  simp [characterClosedAt, hascii]

/-- A quoted character closes where it closes, whatever stands behind it. -/
theorem characterClosedAt_append {content : Content} {text : List Char} {n : ℕ}
    (h : characterClosedAt content text = some n) :
    FoundBeforeAny (characterClosedAt content) text n := by
  unfold characterClosedAt at h
  dsimp only at h
  split at h
  · rename_i count hcount
    split at h
    · rename_i after hafter
      obtain rfl := Option.some.inj h
      split at hcount
      · rename_i rest
        obtain ⟨m, hm, rfl⟩ := Option.map_eq_some_iff.mp hcount
        obtain ⟨found, others, rfl, rfl, htail⟩ := escapeLength?_append hm
        rw [List.drop_succ_cons, List.drop_left] at hafter
        refine ⟨'\\' :: found ++ ['\''], after, ?_, by simp, fun tail => ?_⟩
        · rw [hafter]
          simp
        · have hescape := htail ('\'' :: tail)
          simp [characterClosedAt, hescape]
      · rename_i c rest hplain
        split at hcount
        · contradiction
        · rename_i hascii
          obtain rfl := Option.some.inj hcount
          rw [List.drop_succ_cons, List.drop_zero] at hafter
          refine ⟨[c, '\''], after, by rw [hafter]; rfl, rfl, fun tail => ?_⟩
          exact characterClosedAt_cons hplain hascii
      · contradiction
    · contradiction
  · contradiction

/-- A character literal reaches as far, whatever stands behind it. -/
theorem characterLength?_append {text : List Char} {n : ℕ} (h : characterLength? text = some n) :
    FoundBeforeAny characterLength? text n := by
  unfold characterLength? at h
  split at h
  · obtain ⟨m, hm, rfl⟩ := Option.map_eq_some_iff.mp h
    exact (characterClosedAt_append hm).map_add ['b', '\''] fun _ => rfl
  · obtain ⟨m, hm, rfl⟩ := Option.map_eq_some_iff.mp h
    exact (characterClosedAt_append hm).map_add ['\''] fun _ => rfl
  · contradiction

end Quotation

end Typestate
