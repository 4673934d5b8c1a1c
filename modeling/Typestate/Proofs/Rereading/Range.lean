import Typestate.Proofs.Rereading.Call

/-!
# Right operands and ranges, read again

An operator binds the operand behind it together with the operators that bind more tightly. Which
operator comes next is seen in what is printed as it was before.
-/

namespace Typestate.Grammar

open Grammar.Parser Lexer Token

section Range

variable {level : ℕ} {sorts : Sorts} {operators : List String} {tokens rest again : List Token}
  {node first : Node} {structs : Bool}

/-! ### Operators from before -/

/-- Tests that agree on a list find the same. -/
theorem find?_congr {A : Type} {first second : A → Bool} {values : List A}
    (h : ∀ value ∈ values, first value = second value) :
      values.find? first = values.find? second := by
  induction values with
  | nil => rfl
  | cons value others ih =>
    obtain ⟨hvalue, hothers⟩ := List.forall_mem_cons.mp h
    rw [List.find?_cons, List.find?_cons, hvalue, ih hothers]

/-- The longest operator between two operands is the same. -/
theorem Same.binaryOperator? (h : Same expressionEnds tokens again) :
    Grammar.binaryOperator? again = Grammar.binaryOperator? tokens := by
  have hlook : ∀ entry ∈ binaryOperators,
      (entry.1.toList.length = 1 ∧ IsSeen entry.1) ∨ entry.1 ∈ expressionEnds := by decide
  exact find?_congr fun entry hmem => h.isOp entry.1 (hlook entry hmem)

theorem Same.nextPrecedence (h : Same expressionEnds tokens again) :
    Grammar.nextPrecedence again = Grammar.nextPrecedence tokens := by
  rw [Grammar.nextPrecedence, Grammar.nextPrecedence, h.binaryOperator?, h.isOp "=" (by decide),
    h.isOp "=>" (by decide), h.isOp ".." (by decide), h.alike.isWord]

/-! ### Right operands -/

/-- Operators behind a right operand are read again. -/
theorem rightOperandAtMost_run {precedence : Precedence} (hsorts : sorts.Replays)
    (hlevel : 1 ≤ level) {rounds : ℕ}
    (h : (rightOperandAtMost sorts structs precedence first rounds).Reads tokens node rest)
    (hnode : node.isExplicit = true) :
    first.isExplicit = true ∧ ∃ printed, node.leaves = first.leaves ++ printed ∧
      ∀ rounds', printed.length < rounds' →
        Run level (fun sorts => rightOperandAtMost sorts structs precedence first rounds')
          (Same expressionEnds rest) (Same expressionEnds tokens) tokens node rest printed := by
  induction rounds generalizing tokens first with
  | zero => exact absurd h not_reads_fail
  | succ rounds ih =>
    rcases reads_ite.mp (reads_ahead.mp h) with ⟨hmore, h⟩ | ⟨hstop, hpure⟩
    · obtain ⟨longer, mid, hlonger, h⟩ := reads_bind.mp h
      rcases reads_ite.mp (reads_ahead.mp h) with ⟨hlength, hpure⟩ | ⟨hlength, h⟩
      -- No operator was taken, so that none is printed and none is taken again.
      · obtain ⟨rfl, rfl⟩ := reads_pure.mp hpure
        obtain ⟨printed, hrun⟩ := hsorts.operators hlonger hnode
        obtain rfl : printed = [] := by
          by_contra hne
          exact absurd (beq_iff_eq.mp hlength) (hrun.some hne).1.ne
        obtain ⟨rfl, rfl⟩ := hrun.none rfl
        refine ⟨hnode, [], (List.append_nil _).symm, fun rounds' hrounds => ?_⟩
        obtain ⟨more, rfl⟩ : ∃ more, rounds' = more + 1 := ⟨rounds' - 1, by simp at hrounds; omega⟩
        refine ⟨fun {after depth} hafter hdepth => reads_ahead.mpr ?_, id, hrun.run.written, le_rfl⟩
        rw [List.nil_append, hafter.nextPrecedence]
        exact reads_ite.mpr (.inl ⟨hmore, reads_bind.mpr ⟨_, after,
          hrun.run.again hafter (by omega), reads_ahead.mpr (reads_ite.mpr (.inl
            ⟨beq_self_eq_true _, reads_pure.mpr ⟨rfl, rfl⟩⟩))⟩⟩)
      · obtain ⟨hexplicit, behind, hleaves, hbehind⟩ := ih h
        obtain ⟨printed, hrun⟩ := hsorts.operators hlonger hexplicit
        have hne : printed ≠ [] := fun heq => hlength (by rw [(hrun.none heq).2, beq_self_eq_true])
        have hpos := List.length_pos_of_ne_nil hne
        refine ⟨hrun.isExplicit, printed ++ behind, by rw [hleaves, hrun.leaves, List.append_assoc],
          fun rounds' hrounds => ?_⟩
        rw [List.length_append] at hrounds
        obtain ⟨more, rfl⟩ : ∃ more, rounds' = more + 1 := ⟨rounds' - 1, by omega⟩
        have hmoreRun := hbehind more (by omega)
        have hall :
          Run level (fun sorts => sorts.operators structs (nextPrecedence tokens) first >>=
            fun longer => rightOperandAtMost sorts structs precedence longer more)
            (Same expressionEnds rest) (Same expressionEnds tokens) tokens node rest
            (printed ++ behind) := (hrun.run.raise hlevel).bind _ hmoreRun
        refine ⟨fun {after depth} hafter hdepth => reads_ahead.mpr ?_, hall.begins, hall.written,
          hall.shorter⟩
        rw [(hall.begins hafter).nextPrecedence]
        rw [sizeList_append] at hdepth
        refine reads_ite.mpr (.inl ⟨hmore, reads_bind.mpr ⟨longer, behind ++ after, ?_,
          reads_ahead.mpr (reads_ite.mpr (.inr ⟨?_, hmoreRun.again hafter (by omega)⟩))⟩⟩)
        · rw [List.append_assoc]
          exact hrun.run.again (hmoreRun.begins hafter) (by omega)
        · simp only [List.length_append, beq_iff_eq]
          omega
    · obtain ⟨rfl, rfl⟩ := reads_pure.mp hpure
      refine ⟨hnode, [], (List.append_nil _).symm, fun rounds' hrounds => ?_⟩
      obtain ⟨more, rfl⟩ : ∃ more, rounds' = more + 1 := ⟨rounds' - 1, by simp at hrounds; omega⟩
      refine ⟨fun {after depth} hafter hdepth => reads_ahead.mpr ?_, id, fun h => ⟨.nil, h⟩, le_rfl⟩
      rw [List.nil_append, hafter.nextPrecedence]
      exact reads_ite.mpr (.inr ⟨hstop, reads_pure.mpr ⟨rfl, rfl⟩⟩)

variable (level) in
/-- The right operand of an operator is read again. -/
theorem rightOperand_run {precedence : Precedence} (hsorts : sorts.Replays) (hlevel : 1 ≤ level)
    (h : (rightOperand sorts structs precedence).Reads tokens node rest)
    (hnode : node.isExplicit = true) :
    Run level (fun sorts => rightOperand sorts structs precedence) (Same expressionEnds rest)
      (SameExpression tokens) tokens node rest node.leaves := by
  obtain ⟨operand, mid, hoperand, h⟩ := reads_bind.mp h
  obtain ⟨hexplicit, printed, hleaves, hrun⟩ :=
    rightOperandAtMost_run hsorts hlevel (reads_ahead.mp h) hnode
  exact .cast (.bind _ ((hsorts.operand hoperand hexplicit).run.raise hlevel) (.rounds hrun))
    hleaves.symm

/-! ### Ranges -/

/-- Where the end of a range is there, it is there again. -/
theorem Same.not_endsOperand (h : Same openers tokens again)
    (hends : Grammar.endsRange structs tokens = false) :
      Grammar.endsRange structs again = false := by
  simp only [Grammar.endsRange, Bool.or_eq_false_iff] at hends ⊢
  obtain ⟨⟨⟨⟨hempty, hops⟩, hdot⟩, hbrace⟩, has⟩ := hends
  refine ⟨⟨⟨⟨h.alike.isEmpty.trans hempty, ?_⟩, ?_⟩, ?_⟩, (h.alike.isWord _).trans has⟩
  · have hseen :
      ∀ text ∈ [",", ";", "?", "=>", "=", "+", "/", "%", "^", ">", "<=", "!=", "-=", "*=",
        "&=", "|=", "<<="], IsSeen text ∨ text ∈ openers := by decide
    refine List.any_eq_false.mpr fun text hmem hagain => List.any_eq_false.mp hops text hmem ?_
    rcases hseen text hmem with htext | htext
    · exact h.alike.isOp_of_again htext hagain
    · exact (h.isOp_of_mem text htext).symm.trans hagain
  · rw [h.isOp "." (by decide), h.isOp ".." (by decide)]
    exact hdot
  · rw [h.alike.isGroup]
    exact hbrace

/-- Where the end of a range is left out, it is left out again. -/
theorem Same.endsOperand (h : Same expressionEnds tokens again) :
    Grammar.endsRange structs again = Grammar.endsRange structs tokens := by
  rw [Grammar.endsRange, Grammar.endsRange, h.alike.isEmpty, h.isOneOf _ (by decide),
    h.isOp "." (by decide), h.isOp ".." (by decide), h.alike.isGroup, h.alike.isWord]

variable (level operators) in
/-- A range is read again behind its first end. -/
theorem rangeAfter_run (hsorts : sorts.Replays)
    (h : (rangeAfter sorts structs first).Reads tokens node rest) (hnode : node.isExplicit = true)
    (hmem : ["..=", "..."] ⊆ operators)
    (hclear : ∀ longer ∈ operators, ['.', '.'] <+: longer.toList → longer ∈ rangeSigns) :
    first.isExplicit = true ∧ (node.isOperand = true ∧ node.isBlockLike = false) ∧
      node.isRange = true ∧
      rest.length < tokens.length ∧ ∃ printed, printed ≠ [] ∧
        node.leaves = first.leaves ++ printed ∧
      Run level (fun sorts => rangeAfter sorts structs first) (Same expressionEnds rest)
        (Same operators tokens) tokens node rest printed := by
  obtain ⟨⟨closed, sign⟩, mid, hsign, stop, last, hstop, hpure⟩ := by
    simpa only [rangeAfter, reads_bind] using h
  obtain ⟨rfl, rfl⟩ := reads_pure.mp hpure
  have hparts := Node.isExplicit_parts hnode rfl
  obtain ⟨text, hoperator⟩ : ∃ text, (operator text).Reads tokens sign mid := by
    rcases reads_ite.mp (reads_ahead.mp hsign) with ⟨-, h⟩ | ⟨-, h⟩
    · obtain ⟨_, _, hoperator, hpure⟩ := reads_bind.mp h
      obtain ⟨hfound, rfl⟩ := reads_pure.mp hpure
      obtain ⟨-, rfl⟩ := Prod.mk.inj hfound
      exact ⟨_, hoperator⟩
    rcases reads_ite.mp h with ⟨-, h⟩ | ⟨-, h⟩
    · exact absurd h not_reads_expected
    · obtain ⟨_, _, hoperator, hpure⟩ := reads_bind.mp h
      obtain ⟨hfound, rfl⟩ := reads_pure.mp hpure
      obtain ⟨-, rfl⟩ := Prod.mk.inj hfound
      exact ⟨_, hoperator⟩
  have hne := leaves_ne_nil_of_operator hoperator
  have hstopRun : Run (level + 8) (fun sorts => slotIf
      (fun tokens => closed || !endsRange structs tokens) (rightOperand sorts structs .range))
      (Same expressionEnds last)
      (fun again => (closed || !endsRange structs again) = (closed || !endsRange structs mid))
        mid stop
      last stop.leaves := by
    refine .slotIf sorts hstop (fun hlook h => ?_) (fun _ heq after h => ?_) fun _ h => h
    · refine (rightOperand_run _ hsorts (by omega) h (hparts stop (by simp))).mono (fun _ => id)
        fun again hagain => ?_
      cases closed with
      | true => rfl
      | false =>
        have hends : endsRange structs mid = false := by simpa using hlook
        rw [hends, hagain.toSame.not_endsOperand hends]
    · rw [heq, h.endsOperand]
  have hsignRun : Run level (fun _ => openRangeSign)
      (fun again => (closed || !endsRange structs again) = (closed || !endsRange structs mid))
      (Same operators tokens) tokens (closed, sign) mid sign.leaves :=
    openRangeSign_run hsign hmem hclear
  refine ⟨hparts first (by simp), ⟨rfl, rfl⟩, rfl, ?_, sign.leaves ++ stop.leaves, by simp
    [hne], by simp, .next _ hsignRun hne (hstopRun.map _)⟩
  exact hstopRun.shorter.trans_lt (length_lt_of_operator (reads_operator.mp hoperator).1)

end Range

end Typestate.Grammar
