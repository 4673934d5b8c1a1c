import Typestate.Proofs.Rereading.Leaf

/-!
# Repetitions, read again

What is repeated is read again as often as it was: in front of each construct the glance that asks
for more sees what it saw. A parser is given one round for each token, and no construct is printed
without one.
-/

namespace Typestate.Grammar

open Grammar.Parser Lexer Token

section Repetition

variable {A : Type} {level : ℕ} {sorts : Sorts} {operators : List String} {tokens rest : List Token}

variable {more : List Token → Bool} {item : Sorts → Parser (List A)}
  {same : List Token → List Token → Prop}

/-- A repetition ends where the glance does not ask for more. -/
theorem more_repeatAtMost {parser : Parser (List A)} {rounds : ℕ} {values : List A}
    (h : (repeatAtMost more parser rounds).Reads tokens values rest) : more rest = false := by
  induction rounds generalizing tokens values with
  | zero => exact absurd h not_reads_fail
  | succ rounds ih =>
    simp only [repeatAtMost, reads_ahead] at h
    split at h
    · obtain ⟨first, mid, -, others, left, hothers, hpure⟩ := by simpa only [reads_bind] using h
      obtain ⟨-, rfl⟩ := reads_pure.mp hpure
      exact ih hothers
    · rename_i hnot
      obtain ⟨-, rfl⟩ := reads_pure.mp h
      exact Bool.eq_false_iff.mpr hnot

theorem more_repeatWhile {parser : Parser (List A)} {values : List A}
    (h : (repeatWhile more parser).Reads tokens values rest) : more rest = false :=
  more_repeatAtMost (reads_ahead.mp h)

/-- Constructs that are repeated while a glance asks for more are read again one after another.
Each of them looks from before as the place behind it has to. -/
theorem repeatAtMost_run (print : A → List Token) (isFit : A → Prop)
    (hmore : ∀ {tokens again}, same tokens again → more again = more tokens)
    (hitem : ∀ {tokens found rest}, more tokens = true → (item sorts).Reads tokens found rest →
      (∀ value ∈ found, isFit value) → found.flatMap print ≠ [] ∧
        Run level item (same rest) (same tokens) tokens found rest
          (found.flatMap print))
    {rounds : ℕ} {values : List A}
    (h : (repeatAtMost more (item sorts) rounds).Reads tokens values rest)
    (hfit : ∀ value ∈ values, isFit value) :
    ∀ rounds', (values.flatMap print).length < rounds' →
      Run level (fun sorts => repeatAtMost more (item sorts) rounds') (same rest)
        (same tokens) tokens values rest (values.flatMap print) := by
  induction rounds generalizing tokens values with
  | zero => exact absurd h not_reads_fail
  | succ rounds ih =>
    intro rounds' hrounds
    obtain ⟨rounds', rfl⟩ : ∃ fewer, rounds' = fewer + 1 :=
      Nat.exists_eq_add_one.mpr (Nat.lt_of_le_of_lt (Nat.zero_le _) hrounds)
    simp only [repeatAtMost, reads_ahead] at h ⊢
    refine .ahead ?_ fun again sorts hagain => by rw [hmore hagain]
    split at h
    · rename_i hthere
      obtain ⟨found, mid, hfound, others, left, hothers, hpure⟩ := by
        simpa only [reads_bind] using h
      obtain ⟨rfl, rfl⟩ := reads_pure.mp hpure
      simp only [hthere, if_true]
      obtain ⟨hfirstFit, hothersFit⟩ := List.forall_mem_append.mp hfit
      obtain ⟨hne, hfirst⟩ := hitem hthere hfound hfirstFit
      have hlength : 0 < (found.flatMap print).length := List.length_pos_of_ne_nil hne
      rw [List.flatMap_append, List.length_append] at hrounds
      rw [List.flatMap_append]
      exact hfirst.bind _ (((ih hothers hothersFit rounds' (by omega)).map (found ++ ·)))
    · rename_i hnot
      obtain ⟨rfl, rfl⟩ := reads_pure.mp h
      simp only [hnot]
      exact .pure

theorem repeatWhile_run (print : A → List Token) (isFit : A → Prop)
    (hmore : ∀ {tokens again}, same tokens again → more again = more tokens)
    (hitem : ∀ {tokens found rest}, more tokens = true → (item sorts).Reads tokens found rest →
      (∀ value ∈ found, isFit value) → found.flatMap print ≠ [] ∧
        Run level item (same rest) (same tokens) tokens found rest
          (found.flatMap print))
    {values : List A} (h : (repeatWhile more (item sorts)).Reads tokens values rest)
    (hfit : ∀ value ∈ values, isFit value) :
    Run level (fun sorts => repeatWhile more (item sorts)) (same rest)
      (same tokens) tokens values rest (values.flatMap print) :=
  .rounds (repeatAtMost_run print isFit @hmore @hitem (reads_ahead.mp h) hfit)

/-! ### Separators -/

variable {start : List Token → List Token → Prop} {nodes : List Node} {separator : String}
  {item : Sorts → Parser (List Node)}

theorem separatedAtMost_run {atEnd : List Token → Bool}
    (hatEnd : ∀ {tokens again}, Same operators tokens again → atEnd again = atEnd tokens)
    (hempty : ∀ {tokens again}, atEnd tokens = true → Same operators tokens again →
      start tokens again)
    (hstart : ∀ {tokens again}, start tokens again → atEnd again = atEnd tokens)
    (hclear : IsClear operators separator)
    (hitem : ∀ {tokens found rest}, (item sorts).Reads tokens found rest →
      (∀ node ∈ found, node.isExplicit = true) → Run level item (Same operators rest) (start tokens)
        tokens found rest (found.flatMap Node.leaves))
    {rounds : ℕ} (h : (separatedAtMost separator atEnd (item sorts) rounds).Reads tokens nodes rest)
    (hnodes : ∀ node ∈ nodes, node.isExplicit = true) :
    ∀ rounds', (nodes.flatMap Node.leaves).length < rounds' →
      Run level (fun sorts => separatedAtMost separator atEnd (item sorts) rounds')
        (Same operators rest) (start tokens) tokens nodes rest (nodes.flatMap Node.leaves) := by
  induction rounds generalizing tokens nodes with
  | zero => exact absurd h not_reads_fail
  | succ rounds ih =>
    intro rounds' hrounds
    obtain ⟨rounds', rfl⟩ : ∃ fewer, rounds' = fewer + 1 :=
      Nat.exists_eq_add_one.mpr (Nat.lt_of_le_of_lt (Nat.zero_le _) hrounds)
    simp only [separatedAtMost, reads_ahead] at h ⊢
    refine .ahead ?_ fun again sorts hagain => by rw [hstart hagain]
    split at h
    · rename_i hend
      obtain ⟨rfl, rfl⟩ := reads_pure.mp h
      simp only [hend, if_true]
      exact .mono .pure (fun _ => id) fun _ hagain => hempty hend hagain
    · rename_i hnotEnd
      obtain ⟨first, mid, hfirst, hrest⟩ := reads_bind.mp h
      rw [reads_ahead] at hrest
      simp only [if_neg hnotEnd]
      split at hrest
      · rename_i hend
        obtain ⟨rfl, rfl⟩ := reads_pure.mp hrest
        refine .cast (.bind _ (hitem hfirst hnodes) ?_) (List.append_nil _)
        refine .ahead ?_ fun again sorts hagain => by rw [hatEnd hagain]
        simp only [hend, if_true]
        exact .pure
      · rename_i hmore
        obtain ⟨between, left, hbetween, others, left', hothers, hpure⟩ := by
          simpa only [reads_bind] using hrest
        obtain ⟨rfl, rfl⟩ := reads_pure.mp hpure
        obtain ⟨hfirstExplicit, hothersExplicit⟩ := List.forall_mem_append.mp hnodes
        rw [List.flatMap_append, List.flatMap_cons] at hrounds ⊢
        have hpos : 0 < between.leaves.length :=
          List.length_pos_of_ne_nil (leaves_ne_nil_of_operator hbetween)
        simp only [List.length_append] at hrounds
        refine .bind _ (hitem hfirst hfirstExplicit) ?_
        refine .ahead ?_ fun again sorts hagain => by rw [hatEnd hagain]
        simp only [if_neg hmore]
        exact .bind (start left) (clear_run hbetween hclear)
          ((ih hothers (List.forall_mem_cons.mp hothersExplicit).2 rounds' (by omega)).map _)

theorem separated_run {atEnd : List Token → Bool}
    (hatEnd : ∀ {tokens again}, Same operators tokens again → atEnd again = atEnd tokens)
    (hempty : ∀ {tokens again}, atEnd tokens = true → Same operators tokens again →
      start tokens again)
    (hstart : ∀ {tokens again}, start tokens again → atEnd again = atEnd tokens)
    (hclear : IsClear operators separator)
    (hitem : ∀ {tokens found rest}, (item sorts).Reads tokens found rest →
      (∀ node ∈ found, node.isExplicit = true) → Run level item (Same operators rest) (start tokens)
        tokens found rest (found.flatMap Node.leaves))
    (h : (separated separator atEnd (item sorts)).Reads tokens nodes rest)
    (hnodes : ∀ node ∈ nodes, node.isExplicit = true) :
    Run level (fun sorts => separated separator atEnd (item sorts)) (Same operators rest)
      (start tokens) tokens nodes rest (nodes.flatMap Node.leaves) :=
  .rounds (separatedAtMost_run hatEnd hempty hstart hclear hitem (reads_ahead.mp h) hnodes)

variable (operators) in
/-- Constructs between commas fill a group. -/
theorem commaSeparated_run
    (hstart : ∀ {tokens again}, start tokens again → isAtEnd again = isAtEnd tokens)
    (hclear : IsClear operators ",")
    (hitem : ∀ {tokens found rest}, (item sorts).Reads tokens found rest →
      (∀ node ∈ found, node.isExplicit = true) → Run level item (Same operators rest) (start tokens)
        tokens found rest (found.flatMap Node.leaves))
    (h : (commaSeparated (item sorts)).Reads tokens nodes [])
    (hnodes : ∀ node ∈ nodes, node.isExplicit = true) :
    Run level (fun sorts => commaSeparated (item sorts)) (· = [])
      (fun again => isAtEnd again = isAtEnd tokens) tokens nodes []
        (nodes.flatMap Node.leaves) := by
  have hrun : Run level (fun sorts => separated "," isAtEnd (item sorts)) (Same operators [])
      (fun again => isAtEnd again = isAtEnd tokens) tokens nodes [] (nodes.flatMap Node.leaves) :=
    separated_run (fun h => h.alike.isAtEnd) (fun _ h => h.alike.isAtEnd) id hclear
      (fun hfound hexplicit => (hitem hfound hexplicit).mono (fun _ => id) fun _ => hstart) h hnodes
  exact hrun.mono (fun _ heq => by rw [heq]; exact .nil _) fun _ => id

theorem linkedAtMost_run {more : List Token → Bool}
    (hmore : ∀ {tokens again}, Same operators tokens again → more tokens = false →
      more again = false)
    (hstart : ∀ {tokens again}, start tokens again → more again = more tokens)
    (hclear : IsClear operators separator) (hlook : separator.toList.length = 1 ∧ IsSeen separator)
    (hitem : ∀ {tokens found rest}, (item sorts).Reads tokens found rest →
      (∀ node ∈ found, node.isExplicit = true) → Run level item (Same operators rest) (start tokens)
        tokens found rest (found.flatMap Node.leaves))
    {rounds : ℕ} (h : (linkedAtMost separator more (item sorts) rounds).Reads tokens nodes rest)
    (hnodes : ∀ node ∈ nodes, node.isExplicit = true) :
    ∀ rounds', (nodes.flatMap Node.leaves).length < rounds' →
      Run level (fun sorts => linkedAtMost separator more (item sorts) rounds')
        (Same operators rest) (start tokens) tokens nodes rest (nodes.flatMap Node.leaves) := by
  induction rounds generalizing tokens nodes with
  | zero => exact absurd h not_reads_fail
  | succ rounds ih =>
    intro rounds' hrounds
    obtain ⟨rounds', rfl⟩ : ∃ fewer, rounds' = fewer + 1 :=
      Nat.exists_eq_add_one.mpr (Nat.lt_of_le_of_lt (Nat.zero_le _) hrounds)
    simp only [linkedAtMost] at h ⊢
    obtain ⟨first, mid, hfirst, hrest⟩ := reads_bind.mp h
    rw [reads_ahead] at hrest
    have hsign : ∀ {again : List Token}, Same operators mid again →
        isOp separator again = isOp separator mid :=
          fun hagain => hagain.isOp separator (.inl hlook)
    split at hrest
    · rename_i hthere
      obtain ⟨between, left, hbetween, hrest⟩ := reads_bind.mp hrest
      rw [reads_ahead] at hrest
      have hpos : 0 < between.leaves.length :=
        List.length_pos_of_ne_nil (leaves_ne_nil_of_operator hbetween)
      split at hrest
      · rename_i hgoesOn
        obtain ⟨others, left', hothers, hpure⟩ := reads_bind.mp hrest
        obtain ⟨rfl, rfl⟩ := reads_pure.mp hpure
        obtain ⟨hfirstExplicit, hothersExplicit⟩ := List.forall_mem_append.mp hnodes
        rw [List.flatMap_append, List.flatMap_cons] at hrounds ⊢
        simp only [List.length_append] at hrounds
        refine .bind _ (hitem hfirst hfirstExplicit) ?_
        refine .ahead ?_ fun again sorts hagain => by rw [hsign hagain]
        simp only [if_pos hthere]
        refine .bind (start left) (clear_run hbetween hclear) ?_
        refine .ahead ?_ fun again sorts hagain => by rw [hstart hagain]
        simp only [if_pos hgoesOn]
        exact (ih hothers (List.forall_mem_cons.mp hothersExplicit).2 rounds' (by omega)).map _
      · rename_i hends
        obtain ⟨rfl, rfl⟩ := reads_pure.mp hrest
        obtain ⟨hfirstExplicit, -⟩ := List.forall_mem_append.mp hnodes
        rw [List.flatMap_append]
        refine .bind _ (hitem hfirst hfirstExplicit) ?_
        refine .ahead ?_ fun again sorts hagain => by rw [hsign hagain]
        simp only [if_pos hthere]
        refine .bind (Same operators left) (clear_run hbetween hclear) ?_
        have hclosed := Bool.eq_false_iff.mpr hends
        refine .ahead ?_ fun again sorts hagain => by rw [hmore hagain hclosed, hclosed]
        simp only [if_neg hends]
        exact .pure
    · rename_i hnot
      obtain ⟨rfl, rfl⟩ := reads_pure.mp hrest
      refine .cast (.bind _ (hitem hfirst hnodes) ?_) (List.append_nil _)
      refine .ahead ?_ fun again sorts hagain => by rw [hsign hagain]
      simp only [if_neg hnot]
      exact .pure

theorem linked_run {more : List Token → Bool}
    (hmore : ∀ {tokens again}, Same operators tokens again → more tokens = false →
      more again = false)
    (hstart : ∀ {tokens again}, start tokens again → more again = more tokens)
    (hclear : IsClear operators separator) (hlook : separator.toList.length = 1 ∧ IsSeen separator)
    (hitem : ∀ {tokens found rest}, (item sorts).Reads tokens found rest →
      (∀ node ∈ found, node.isExplicit = true) → Run level item (Same operators rest) (start tokens)
        tokens found rest (found.flatMap Node.leaves))
    (h : (linked separator more (item sorts)).Reads tokens nodes rest)
    (hnodes : ∀ node ∈ nodes, node.isExplicit = true) :
    Run level (fun sorts => linked separator more (item sorts)) (Same operators rest) (start tokens)
      tokens nodes rest (nodes.flatMap Node.leaves) :=
  .rounds (linkedAtMost_run hmore hstart hclear hlook hitem (reads_ahead.mp h) hnodes)

/-- Where a glance does not see the end, a first construct stands. -/
theorem first_of_linkedUpTo {atEnd : List Token → Bool} {parser : Parser (List Node)}
    (h : (linkedUpTo separator atEnd parser).Reads tokens nodes rest)
      (hopen : atEnd tokens = false) :
    ∃ found mid, parser.Reads tokens found mid := by
  rcases reads_onlyIf.mp h with ⟨-, hlinked⟩ | ⟨hnot, -, -⟩
  · obtain ⟨found, mid, hfound, -⟩ := reads_bind.mp (reads_ahead.mp hlinked)
    exact ⟨found, mid, hfound⟩
  · rw [hopen] at hnot
    contradiction

/-- Of no constructs nothing is taken, and a glance saw the end. -/
theorem atEnd_of_linkedUpTo {atEnd : List Token → Bool} {parser : Parser Node}
    (h : (linkedUpTo separator atEnd (one parser)).Reads tokens [] rest) :
    atEnd tokens = true ∧ tokens = rest := by
  rcases reads_onlyIf.mp h with ⟨-, hlinked⟩ | ⟨hend, -, heq⟩
  · obtain ⟨found, mid, hfound, hmore⟩ := reads_bind.mp (reads_ahead.mp hlinked)
    obtain ⟨node, -, rfl⟩ := reads_one.mp hfound
    rw [reads_ahead] at hmore
    split at hmore
    · obtain ⟨between, left, -, hmore⟩ := reads_bind.mp hmore
      rw [reads_ahead] at hmore
      split at hmore
      · obtain ⟨others, last, -, hpure⟩ := reads_bind.mp hmore
        exact absurd (reads_pure.mp hpure).1 (by simp)
      · exact absurd (reads_pure.mp hmore).1 (by simp)
    · exact absurd (reads_pure.mp hmore).1 (by simp)
  · exact ⟨by simpa using hend, heq⟩

variable (sorts) in
/-- Constructs up to where a glance sees the end, or none. -/
theorem linkedUpTo_run {atEnd : List Token → Bool}
    (hatEnd : ∀ {tokens again}, Same operators tokens again → atEnd again = atEnd tokens)
    (hstart : ∀ {tokens again}, start tokens again → atEnd again = atEnd tokens)
    (hclear : IsClear operators separator) (hlook : separator.toList.length = 1 ∧ IsSeen separator)
    (hitem : ∀ {tokens found rest}, (item sorts).Reads tokens found rest →
      (∀ node ∈ found, node.isExplicit = true) → Run level item (Same operators rest) (start tokens)
        tokens found rest (found.flatMap Node.leaves))
    (h : (linkedUpTo separator atEnd (item sorts)).Reads tokens nodes rest)
    (hnodes : ∀ node ∈ nodes, node.isExplicit = true) :
    Run level (fun sorts => linkedUpTo separator atEnd (item sorts)) (Same operators rest)
      (fun again => atEnd again = atEnd tokens) tokens nodes rest (nodes.flatMap Node.leaves) := by
  refine .onlyIf sorts h (fun _ hlinked => ?_) (fun _ heq _ hafter => ?_)
    fun again hagain => by rw [hagain]
  · refine (linked_run ?_ ?_ hclear hlook @hitem hlinked hnodes).mono (fun _ => id) fun _ => hstart
    · exact fun hagain hclosed => by rw [hatEnd hagain]; exact hclosed
    · exact fun hagain => by rw [hstart hagain]
  · rw [heq]
    exact hatEnd hafter

end Repetition

end Typestate.Grammar
