import Typestate.Proofs.Rereading.Operator

/-!
# Expressions that may stand as statements, read again

A construct that stands as a statement by itself ends where it ends, whatever operator stands behind
it, unless something is applied to it with a dot. It is told from an operand by its first tokens, so
that no operand is taken for one.
-/

namespace Typestate.Grammar

open Grammar.Parser Lexer Token

section Body

variable {level : ℕ} {sorts : Sorts} {operators : List String} {tokens rest again : List Token}
  {node : Node}

/-! ### Constructs that stand by themselves -/

/-- A construct that stands as a statement by itself, or an operand, by the tokens that it begins
with. -/
def bodyFrom (tokens : List Token) (sorts : Sorts) : Parser Node :=
  if isWord "if" tokens then ifExpression sorts
  else if isWord "while" tokens then whileLoop sorts
  else if isWord "for" tokens && !beginsBinder tokens then forLoop sorts
  else if isWord "loop" tokens then endlessLoop sorts
  else if isWord "match" tokens then matchExpression sorts
  else if beginsTryBlock tokens then tryBlock sorts
  else if isWord "unsafe" tokens then blockAfter sorts "unsafe" .guarded
  else if isWord "const" tokens && isGroup .brace (afterOne tokens) then
    blockAfter sorts "const" .constBlock
  else if isGroup .brace tokens then blockExpression sorts
  else if isLifetime tokens then labelled sorts
  else sorts.operand true

theorem bodyStart_eq (sorts : Sorts) :
    bodyStart sorts = ahead >>= fun tokens => bodyFrom tokens sorts := rfl

theorem SameExpression.bodyFrom (h : SameExpression tokens again) :
    Grammar.bodyFrom again sorts = Grammar.bodyFrom tokens sorts := by
  rw [Grammar.bodyFrom, Grammar.bodyFrom, h.beginsBinder, h.alike.beginsTryBlock,
    h.alike.isWord_and_eq (by decide) fun hbehind => hbehind.isGroup _]
  simp only [h.alike.isWord, h.alike.isGroup, h.alike.isLifetime]

/-- A construct that stands by itself is read again, whatever operators stand behind it, and so is
the beginning of an expression if that is read again as an operand. -/
theorem bodyStart_run (hsorts : sorts.Replays) (h : (bodyStart sorts).Reads tokens node rest)
    (hnode : node.isExplicit = true) (hoperand : beginsBlock tokens = false →
      (sorts.operand true).Reads tokens node rest →
        AtomRun operators level (fun sorts => sorts.operand true) tokens node rest) :
    AtomRun operators level bodyStart tokens node rest := by
  suffices hrun : AtomRun operators level (bodyFrom tokens) tokens node rest by
    refine ⟨?_, hrun.isOperand, hrun.leaves_ne, hrun.beginsBlock⟩
    rw [show bodyStart = _ from funext bodyStart_eq]
    exact hrun.run.ahead fun again sorts hagain => hagain.bodyFrom
  have h := reads_ahead.mp (bodyStart_eq sorts ▸ h)
  unfold bodyFrom at h ⊢
  refine .ite h (fun hlook h => (ifExpression_run hsorts h hnode).atom_of_word hlook rfl (by decide)
      (by decide)) fun hnotIf h =>
    .ite h (fun hlook h => (whileLoop_run hsorts h hnode).atom_of_word hlook rfl (by decide)
      (by decide)) fun hnotWhile h =>
    .ite h (fun hlook h => forLoop_atom hsorts h hnode
      (by simpa using (Bool.and_eq_true_iff.mp hlook).2)) fun hnotFor h =>
    .ite h (fun hlook h => (endlessLoop_run hsorts h hnode).atom_of_word hlook rfl (by decide)
      (by decide)) fun hnotLoop h =>
    .ite h (fun hlook h => (matchExpression_run hsorts h hnode).atom_of_word hlook rfl (by decide)
      (by decide)) fun hnotMatch h =>
    .ite h (fun _ h => tryBlock_run hsorts h hnode) fun hnotTry h =>
    .ite h (fun hlook h => (blockAfter_run hsorts rfl (fun _ _ => ⟨rfl, rfl⟩) (fun _ _ => rfl) h
      hnode).atom_of_word hlook rfl (by decide) (by decide)) fun hnotUnsafe h =>
    .ite h (fun hlook h => (blockAfter_run hsorts rfl (fun _ _ => ⟨rfl, rfl⟩) (fun _ _ => rfl) h
      hnode).atom_of_word (Bool.and_eq_true_iff.mp hlook).1 rfl (by decide) (by decide))
        fun hnotConst h =>
    .ite h (fun hlook h => (blockExpression_run hsorts h hnode).atom_of_group hlook)
      fun hnotGroup h =>
    .ite h (fun hlook h => (labelled_run hsorts h hnode).atom_of_lifetime hlook)
      fun hnotLifetime h => hoperand ?_ h
  rw [Bool.not_eq_true] at hnotIf hnotWhile hnotFor hnotLoop hnotMatch
  rw [Bool.not_eq_true] at hnotTry hnotUnsafe hnotConst hnotGroup hnotLifetime
  simp only [beginsBlock, isAnyOf, List.any_cons, List.any_nil, hnotIf, hnotWhile, hnotFor,
    hnotLoop, hnotMatch, hnotTry, hnotUnsafe, hnotConst, hnotGroup, hnotLifetime, Bool.or_self]

/-! ### Expressions that may stand as statements -/

theorem Node.isBlockLike_withAttributes (attributes : List Node) (node : Node) :
    (node.withAttributes attributes).isBlockLike = node.isBlockLike := by
  cases node with
  | construct kind others children => rfl
  | _ => rfl

theorem Node.isOperand_withAttributes (attributes : List Node) (node : Node) :
    (node.withAttributes attributes).isOperand = node.isOperand := by
  cases node with
  | construct kind others children => rfl
  | _ => rfl

/-- What stands by itself is no range. -/
theorem Node.isRange_of_isBlockLike (h : node.isBlockLike = true) : node.isRange = false := by
  cases node with
  | construct kind attributes children =>
    have hall : ∀ kind ∈ blockKinds, kind ≠ .range := by decide
    simpa [isRange, isKind, kind?] using hall kind (by simpa [isBlockLike, kind?] using h)
  | _ => contradiction

/-- What stands behind the first part of an expression that may stand as a statement. -/
def bodyEnd (attributes : List Node) (first : Node) (sorts : Sorts) : Parser Node :=
  if !first.isBlockLike then sorts.operators true .jump (first.withAttributes attributes)
  else
    ahead >>= fun tokens =>
      if isDot tokens || isOp "?" tokens then
        applied sorts first >>= fun node => sorts.operators true .jump
          (node.withAttributes attributes)
      else pure (first.withAttributes attributes)

theorem bodyExpressionWhere_eq (sorts : Sorts) : bodyExpressionWhere sorts =
    outerAttributes sorts >>= fun attributes => bodyStart sorts >>= fun first =>
      bodyEnd attributes first sorts := rfl

theorem Same.appliesDot (h : Same operators tokens again) (hdots : ".." ∈ operators) :
    (Grammar.isDot again || Grammar.isOp "?" again) =
      (Grammar.isDot tokens || Grammar.isOp "?" tokens) := by
  rw [h.isDot hdots, h.isOp "?" (.inl (by decide))]

/-- What stands behind the first part is read again. If the whole stands by itself, nothing is
printed of it, and any operator may follow. -/
theorem bodyEnd_run {attributes : List Node} {first : Node} (hsorts : sorts.Replays)
    (hlevel : 1 ≤ level) (hoperand : first.isExplicit = true → first.isOperand = true)
    (h : (bodyEnd attributes first sorts).Reads tokens node rest) (hnode : node.isExplicit = true) :
    (first.withAttributes attributes).isExplicit = true ∧ node.isLed = true ∧ ∃ printed,
      node.leaves = (first.withAttributes attributes).leaves ++ printed ∧
        Run level (bodyEnd attributes first) (Same expressionEnds rest) (Same expressionEnds tokens)
          tokens node rest printed ∧
        (node.isBlockLike = true → first.isBlockLike = true ∧ printed = [] ∧
          ∀ {operators}, ".." ∈ operators →
            Run level (bodyEnd attributes first) (Same operators rest)
            (Same operators tokens) tokens node rest []) := by
  have hled : ∀ {first : Node}, first.isOperand = true →
      (first.withAttributes attributes).isLed = true :=
    fun h => Node.isLed_of_isOperand ((Node.isOperand_withAttributes _ _).trans h)
  unfold bodyEnd at h ⊢
  rcases reads_ite.mp h with ⟨hopen, h⟩ | ⟨hblock, h⟩
  · simp only [if_pos hopen]
    have hopen : (first.withAttributes attributes).isBlockLike = false := by
      rw [Node.isBlockLike_withAttributes]
      simpa using hopen
    obtain ⟨printed, hrun⟩ := hsorts.operators h hnode
    refine ⟨hrun.isExplicit, hrun.isLed (hled (hoperand (Node.isExplicit_of_withAttributes
      hrun.isExplicit))), printed, hrun.leaves, hrun.run.raise hlevel, fun hthis => ?_⟩
    by_cases hprinted : printed = []
    · rw [(hrun.none hprinted).1, hopen] at hthis
      contradiction
    · rw [(hrun.some hprinted).2] at hthis
      contradiction
  · simp only [if_neg hblock]
    have hblock : first.isBlockLike = true := by simpa using hblock
    rcases reads_ite.mp (reads_ahead.mp h) with ⟨hdot, h⟩ | ⟨hnot, hpure⟩
    · obtain ⟨base, mid, hbase, h⟩ := reads_bind.mp h
      obtain ⟨printed, hrun⟩ := hsorts.operators h hnode
      have hbaseExplicit := Node.isExplicit_of_withAttributes hrun.isExplicit
      obtain ⟨hfirst, hkind, behind, hleaves, hbaseRun⟩ :=
        applied_run level hsorts hbase hbaseExplicit
      obtain ⟨hbaseOperand, -, hbaseOpen⟩ :=
        Node.of_isApplied (hkind.resolve_left fun ⟨_, hnone⟩ => by
        rw [hdot, Node.isRange_of_isBlockLike hblock] at hnone
        contradiction)
      have hconstruct := Node.isConstruct_of_isLed (Node.isLed_of_isOperand hbaseOperand)
      have hfirstConstruct := Node.isConstruct_of_isLed (Node.isLed_of_isOperand (hoperand hfirst))
      refine ⟨(Node.isExplicit_withAttributes hfirstConstruct).mpr
        ⟨((Node.isExplicit_withAttributes hconstruct).mp hrun.isExplicit).1, hfirst⟩,
        hrun.isLed (hled hbaseOperand), behind ++ printed, ?_, ?_, fun hthis => ?_⟩
      · rw [hrun.leaves, Node.leaves_withAttributes _ hconstruct, hleaves,
          Node.leaves_withAttributes _ hfirstConstruct, List.append_assoc, List.append_assoc,
          List.append_assoc]
      · refine .ahead ?_ fun again sorts hagain => by rw [hagain.appliesDot (by decide)]
        simp only [if_pos hdot]
        exact .bind _ hbaseRun (hrun.run.raise hlevel)
      · by_cases hprinted : printed = []
        · rw [(hrun.none hprinted).1, Node.isBlockLike_withAttributes, hbaseOpen] at hthis
          contradiction
        · rw [(hrun.some hprinted).2] at hthis
          contradiction
    · obtain ⟨rfl, rfl⟩ := reads_pure.mp hpure
      have hagain : ∀ {operators}, ".." ∈ operators →
          Run level (fun sorts => ahead >>= fun tokens =>
            if isDot tokens || isOp "?" tokens then
              applied sorts first >>= fun node => sorts.operators true .jump
                (node.withAttributes attributes)
            else pure (first.withAttributes attributes)) (Same operators tokens)
              (Same operators tokens)
            tokens (first.withAttributes attributes) tokens [] := by
        intro operators hdots
        refine .ahead ?_ fun again sorts hagain => by rw [hagain.appliesDot hdots]
        simp only [if_neg hnot]
        exact .pure
      exact ⟨hnode, hled (hoperand (Node.isExplicit_of_withAttributes hnode)), [],
        (List.append_nil _).symm, hagain (by decide), fun _ => ⟨hblock, rfl, hagain⟩⟩

/-- Behind attributes there is no further one. -/
theorem not_pound_of_outerAttributes {attributes : List Node}
    (h : (outerAttributes sorts).Reads tokens attributes rest) : isOp "#" rest = false := by
  obtain ⟨metas, left, hmetas, hpure⟩ := reads_bind.mp h
  obtain ⟨-, rfl⟩ := reads_pure.mp hpure
  exact more_repeatWhile hmetas

/-- An expression that may stand as a statement is read again, and if it does stand by itself, any
operator may follow. -/
theorem bodyExpressionWhere_run (hsorts : sorts.Replays) (hlevel : 1 ≤ level)
    (h : (bodyExpressionWhere sorts).Reads tokens node rest) (hnode : node.isExplicit = true) :
    ExpressionRun level bodyExpressionWhere tokens node rest ∧
      (node.isBlockLike = true → ∀ {operators}, ".." ∈ operators → Run level bodyExpressionWhere
        (Same operators rest) (SameExpression tokens) tokens node rest node.leaves) := by
  rw [bodyExpressionWhere_eq] at h
  obtain ⟨attributes, mid, hattributes, h⟩ := reads_bind.mp h
  obtain ⟨first, left, hfirst, h⟩ := reads_bind.mp h
  have hstart : first.isExplicit = true → AtomRun expressionEnds level bodyStart mid first left :=
    fun hexplicit => bodyStart_run hsorts hfirst hexplicit fun _ h =>
      (hsorts.operand h hexplicit).raise hlevel
  obtain ⟨hexplicit, hled, printed, hleaves, hrun, hends⟩ :=
    bodyEnd_run hsorts hlevel (fun hexplicit => (hstart hexplicit).isOperand) h hnode
  have hfirstExplicit := Node.isExplicit_of_withAttributes hexplicit
  have hatom := hstart hfirstExplicit
  have hconstruct := Node.isConstruct_of_isLed (Node.isLed_of_isOperand hatom.isOperand)
  rw [Node.leaves_withAttributes _ hconstruct, List.append_assoc] at hleaves
  have hattributesRun :
    Run level outerAttributes (SameExpression mid) (SameExpression tokens) tokens
      attributes mid (attributes.flatMap Node.leaves) :=
    outerAttributes_run hsorts hattributes
      ((Node.isExplicit_withAttributes hconstruct).mp hexplicit).1
      (fun h => h.isOp "#" (by decide)) fun hthere h => h.expression_of_mark hthere (by decide)
  rw [show bodyExpressionWhere = _ from funext bodyExpressionWhere_eq]
  refine ⟨⟨.cast (.bind _ hattributesRun (.bind _ hatom.run hrun)) hleaves.symm, hled, ?_⟩,
    fun hblock {operators} hdots => ?_⟩
  · rw [hleaves]
    simp [hatom.leaves_ne]
  · obtain ⟨hfirstBlock, rfl, hend⟩ := hends hblock
    have hfirstRun : AtomRun operators level bodyStart mid first left :=
      bodyStart_run hsorts hfirst hfirstExplicit fun hnot h => absurd
        ((hsorts.operand h hfirstExplicit).beginsBlock (not_pound_of_outerAttributes hattributes)
          hfirstBlock) (by rw [hnot]; exact Bool.false_ne_true)
    exact .cast (.bind _ hattributesRun (.bind _ hfirstRun.run (hend hdots))) hleaves.symm

end Body

end Typestate.Grammar
