import Typestate.Proofs.Rereading.Type
import Typestate.Proofs.Token.Numeral

/-!
# Fields and the signs of ranges, read again

The index of a field is written as the number that it stands for. Three dots between the ends of a
range in a pattern give way to two dots and an equals sign.
-/

namespace Typestate.Grammar

open Grammar.Parser Lexer Token

section Field

variable {level : ℕ} {sorts : Sorts} {operators : List String} {tokens rest : List Token}
  {ends : List Token → Prop} {node : Node}

/-! ### Fields -/

/-- A whole number is a number. -/
theorem isNumber_of_isWhole {text : String} (h : isWhole text = true) :
    Literal.isNumber text = true := by
  unfold isWhole Literal.wholeValue? at h
  unfold Literal.isNumber
  split at h <;> rename_i hchars
  · rw [hchars]; rfl
  · rw [hchars]; rfl
  · rw [hchars]; rfl
  · rw [hchars]
    split at h
    · assumption
    · contradiction
  · contradiction

theorem isWhole_toString (index : ℕ) : isWhole (toString index) = true := by
  rw [isWhole, Literal.wholeValue?_toString]
  rfl

/-- An index is written as it is read. -/
theorem indexOf_toString {text : String} {index : ℕ} (h : indexOf text = .ok index) :
    indexOf (toString index) = .ok index := by
  have hindex : Literal.index? text = some index := by
    unfold indexOf at h
    split at h
    · rename_i found hfound
      rwa [Except.ok.inj h] at hfound
    · contradiction
  have hlimit : index ≤ Literal.maxIndex := by
    unfold Literal.index? at hindex
    split at hindex
    · split at hindex
      · rename_i hsmall
        rw [← Option.some.inj hindex]
        exact of_decide_eq_true (Bool.and_eq_true_iff.mp hsmall).2
      · contradiction
    · contradiction
  have hagain : Literal.index? (toString index) = some index := by
    rw [Literal.index?, Literal.wholeValue?_toString]
    simp [hlimit]
  rw [indexOf, hagain]

theorem written_toString (index : ℕ) : Written [.literal (toString index)] :=
  Token.written_of_lex? (Token.lex?_toString index)

/-- A field is a name or an index of it. -/
theorem reads_fieldReference {found : Bool × Node}
    (h : fieldReference.Reads tokens found rest) :
    (∃ text, tokens = .word text :: rest ∧ Word.isIdentifier text = true ∧
      found = (true, .word text)) ∨
    ∃ text index, tokens = .literal text :: rest ∧ isWhole text = true ∧
      indexOf text = .ok index ∧ found = (false, .literal (toString index)) := by
  unfold Reads fieldReference at h
  split at h
  · split at h
    · rename_i hidentifier
      obtain ⟨rfl, rfl, -⟩ := (Found.mk.injEq ..).mp (Except.ok.inj h)
      exact .inl ⟨_, rfl, hidentifier, rfl⟩
    · contradiction
  · split at h
    · rename_i text left hwhole
      cases hindex : indexOf text with
      | error mismatch =>
        rw [hindex] at h
        contradiction
      | ok index =>
        rw [hindex] at h
        obtain ⟨rfl, rfl, -⟩ := (Found.mk.injEq ..).mp (Except.ok.inj h)
        exact .inr ⟨text, index, rfl, hwhole, hindex, rfl⟩
    · contradiction
  · split at h
    · contradiction
    · contradiction
  · contradiction

/-- A field is read again. -/
theorem fieldReference_run {found : Bool × Node} (h : fieldReference.Reads tokens found rest)
    (hends : ∀ after, ends after → Alike true rest after)
    (hnameEnds : ∀ after, ends after → ∀ longer ∈ nameEnds, longer ∈ operators →
      isOp longer after = isOp longer rest) :
    Run level (fun _ => fieldReference) ends (Same operators tokens) tokens found rest
      found.2.leaves := by
  rcases reads_fieldReference h with ⟨text, rfl, hidentifier, rfl⟩ | ⟨text, index, rfl,
    hwhole, hindex, rfl⟩
  · refine ⟨fun _ _ => ?_, fun hafter => .name (hends _ hafter) (hnameEnds _ hafter),
      fun h => ⟨h.word, h.tail⟩, Nat.le_succ _⟩
    simp [Reads, fieldReference, hidentifier]
  · refine ⟨fun _ _ => ?_, fun hafter => .literal ?_, fun h => ⟨written_toString index, h.tail⟩,
      Nat.le_succ _⟩
    · simp only [Reads, fieldReference, Node.leaves_literal, List.cons_append, List.nil_append,
        isWhole_toString, if_true, indexOf_toString hindex]
      rfl
    · rw [isNumber_of_isWhole hwhole, isNumber_of_isWhole (isWhole_toString index)]

/-! ### Signs of ranges -/

/-- The signs of ranges. -/
def rangeSigns : List String := ["..", "..=", "..."]

/-- The sign of a range is read again. -/
theorem openRangeSign_run {found : Bool × Node} (h : openRangeSign.Reads tokens found rest)
    (hmem : ["..=", "..."] ⊆ operators)
    (hclear : ∀ longer ∈ operators, ['.', '.'] <+: longer.toList → longer ∈ rangeSigns) :
    Run level (fun _ => openRangeSign) ends (Same operators tokens) tokens found rest
      found.2.leaves := by
  have hsigns :
    ∀ longer ∈ rangeSigns, longer.toList = ['.', '.'] ∨ longer = "..=" ∨ longer = "..." := by
    decide
  rw [openRangeSign, reads_ahead] at h
  unfold openRangeSign
  refine .ahead (.choose h (fun _ h => ?_) fun hnotClosed h => .choose h (fun _ h => ?_)
    fun hnotOld h => ?_)
    fun again sorts hagain => by
      rw [hagain.isOp "..=" (.inr (hmem (by simp))), hagain.isOp "..." (.inr (hmem (by simp)))]
  · obtain ⟨sign, mid, hsign, hpure⟩ := reads_bind.mp h
    obtain ⟨rfl, rfl⟩ := reads_pure.mp hpure
    have hop := (reads_operator.mp hsign).1
    refine (operator_run hsign fun after _ => same_operator hop (by decide) (by decide)
      (fun hmem => absurd hmem (by decide)) (fun longer hlonger hbegins => ?_) nofun).map _
    have hdots : ['.', '.'] <+: longer.toList := .trans (by decide) hbegins
    rcases hsigns longer (hclear longer hlonger hdots) with hshort | rfl | rfl
    · rw [hshort] at hbegins
      exact absurd hbegins (by decide)
    · exact .inl rfl
    · exact absurd hbegins (by decide)
  · exact absurd h not_reads_expected
  · obtain ⟨sign, mid, hsign, hpure⟩ := reads_bind.mp h
    obtain ⟨rfl, rfl⟩ := reads_pure.mp hpure
    have hop := (reads_operator.mp hsign).1
    refine (operator_run hsign fun after _ => same_operator hop (by decide) (by decide)
      (fun hmem => absurd hmem (by decide)) (fun longer hlonger hbegins => ?_) nofun).map _
    rcases hsigns longer (hclear longer hlonger hbegins) with hshort | rfl | rfl
    · exact .inl hshort
    · exact .inr (Bool.eq_false_iff.mpr hnotClosed)
    · exact .inr (Bool.eq_false_iff.mpr hnotOld)

/-- The marks of a closed range are written. -/
theorem written_closed : Written (ofOperator ['.', '.', '=']) := by
  have hsign : Written [.mark '=' .alone] := .alone (by decide) (by decide) .nil
  have hmore : Written [.mark '.' .joint, .mark '=' .alone] :=
    WrittenTo.joint (by decide) (by decide) rfl (by decide) (by decide) hsign
  exact WrittenTo.joint (by decide) (by decide) rfl (by decide) (by decide) hmore

/-- The old sign of a range in a pattern gives way to the new one, which looks alike. -/
theorem same_closed {after : List Token} (hop : afterOperator? ['.', '.', '.'] tokens = some rest) :
    Same patternEnds tokens (ofOperator ['.', '.', '='] ++ after) := by
  obtain ⟨-, spacing, mid, rfl, ⟨hnil, -⟩ | ⟨-, rfl, hmid⟩⟩ := afterOperator?_cons_eq_some.mp hop
  · contradiction
  obtain ⟨-, spacing, mid', rfl, ⟨hnil, -⟩ | ⟨-, rfl, hmid'⟩⟩ := afterOperator?_cons_eq_some.mp hmid
  · contradiction
  have hprefixes : ∀ text, isOp text (ofOperator ['.', '.', '='] ++ after) = true → text ≠ "..=" →
      isOp text (.mark '.' .joint :: .mark '.' .joint :: mid') = true := by
    intro text hagain hne
    obtain ⟨next, hnext⟩ := Option.isSome_iff_exists.mp hagain
    have hprefix := prefix_of_ofOperator hnext (by decide)
    have hshort : text.toList <+: ['.', '.', '.'] := by
      match hchars : text.toList with
      | [] => exact List.nil_prefix
      | [c] => rw [hchars] at hprefix; simp_all
      | [c, d] => rw [hchars] at hprefix; simp_all
      | [c, d, e] =>
        rw [hchars] at hprefix
        have heq : [c, d, e] = ['.', '.', '='] := hprefix.eq_of_length rfl
        exact absurd (String.toList_inj.mp (hchars.trans (heq.trans rfl))) hne
      | c :: d :: e :: f :: more =>
        rw [hchars] at hprefix
        exact absurd hprefix.length_le (by simp)
    refine isSome_of_prefix hop hshort ?_
    intro hnil
    simp [hnil, afterOperator?] at hnext
  have hnone : ∀ text, text.toList.head? ≠ some '.' → ∀ spacing others,
      isOp text (.mark '.' spacing :: others) = false :=
        fun text h spacing others => isOp_mark h _ _
  refine ⟨.mark (by decide) ⟨fun text htext hagain => hprefixes text hagain htext.1, rfl,
    fun hagain => ?_, fun hpound => ?_⟩, ?_, ?_, fun h => absurd h Bool.false_ne_true⟩
  · rw [isTurbofish, isOp_mark (by decide)] at hagain
    contradiction
  · rw [isOp_mark (by decide)] at hpound
    contradiction
  · intro text htext
    have hall : ∀ text ∈ patternEnds, text = ".." ∨ text.toList.head? ≠ some '.' := by decide
    rcases hall text htext with rfl | hhead
    · rfl
    · rw [hnone text hhead, show ofOperator ['.', '.', '='] ++ after = .mark '.' .joint ::
        .mark '.' .joint :: .mark '=' .alone :: after from rfl, hnone text hhead]
  · rw [isInputTurbofish, isInputTurbofish, show ofOperator ['.', '.', '='] ++ after =
      .mark '.' .joint :: .mark '.' .joint :: .mark '=' .alone :: after from rfl,
      isOp_mark (by decide), isOp_mark (by decide)]
    rfl

/-- The sign of a range in a pattern is read again. -/
theorem rangeSign_run {found : Bool × Node} (h : rangeSign.Reads tokens found rest) :
    Run level (fun _ => rangeSign) ends (Same patternEnds tokens) tokens found rest
      found.2.leaves := by
  rcases reads_ite.mp (reads_ahead.mp h) with ⟨-, h⟩ | ⟨hnot, h⟩
  · obtain ⟨dots, mid, hdots, hpure⟩ := reads_bind.mp h
    obtain ⟨rfl, rfl⟩ := reads_pure.mp hpure
    have hop := (reads_operator.mp hdots).1
    exact ⟨fun _ _ => rfl, fun _ => same_closed hop,
      fun hwritten => ⟨written_closed, (written_ofOperator hop hwritten).2⟩,
      (length_lt_of_operator hop).le⟩
  · have hrun : Run level (fun _ => openRangeSign) ends
        (Same ("..=" :: "..." :: patternEnds) tokens) tokens found rest found.2.leaves :=
      openRangeSign_run h (by decide) (by decide)
    refine (Run.ahead ?_ fun again sorts
      (hagain : Same ("..=" :: "..." :: patternEnds) tokens again) => ?_).mono
      (fun _ => id) fun _ h => h.mono (by decide)
    · simp only [if_neg hnot]
      exact hrun
    · rw [hagain.isOp "..." (by decide)]

end Field

end Typestate.Grammar
