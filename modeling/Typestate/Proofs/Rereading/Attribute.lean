import Typestate.Proofs.Rereading.Sorts

/-!
# Attributes, read again

Paths without arguments and attributes are read again. The arguments of an attribute stand in it as
they were read; its value is an expression, or a literal and nothing else.
-/

namespace Typestate.Grammar

open Grammar.Parser Lexer Token

section Attribute

variable {level : ℕ} {sorts : Sorts} {operators : List String} {tokens rest : List Token}

/-! ### Paths without arguments -/

/-- Names with two colons between any two of them, as trees. -/
def nameNodes (names : List String) : List Node :=
  (names.map Node.word).intersperse (.operator "::")

theorem nameNodes_cons (name : String) {others : List String} (h : others ≠ []) :
    nameNodes (name :: others) = .word name :: .operator "::" :: nameNodes others := by
  obtain ⟨next, more, rfl⟩ := List.exists_cons_of_ne_nil h
  rfl

theorem namesAtMost_run (level : ℕ) {allowed : List Token → Bool}
    (hallowed : ∀ {tokens again}, Same openers tokens again → allowed again = allowed tokens)
    {rounds : ℕ} {names : List String}
    (h : (namesAtMost allowed rounds).Reads tokens names rest) :
    names ≠ [] ∧ ∀ rounds', ((nameNodes names).flatMap Node.leaves).length < rounds' →
      Run level (fun _ => namesAtMost allowed rounds') (Same openers rest) (Same openers tokens)
        tokens names rest ((nameNodes names).flatMap Node.leaves) := by
  induction rounds generalizing tokens names with
  | zero => exact absurd h not_reads_fail
  | succ rounds ih =>
    simp only [namesAtMost, ↓reads_ahead, reads_bind] at h
    obtain ⟨name, mid, hname, h⟩ := h
    split at h
    · rename_i hcolons
      obtain ⟨between, left, hbetween, h⟩ := reads_bind.mp h
      rw [reads_ahead] at h
      split at h
      · rename_i hgoesOn
        obtain ⟨others, left', hothers, hpure⟩ := reads_bind.mp h
        obtain ⟨rfl, rfl⟩ := reads_pure.mp hpure
        obtain ⟨hne, hrun⟩ := ih hothers
        refine ⟨List.cons_ne_nil _ _, fun rounds' hrounds => ?_⟩
        obtain ⟨rounds', rfl⟩ : ∃ fewer, rounds' = fewer + 1 :=
          Nat.exists_eq_add_one.mpr (Nat.lt_of_le_of_lt (Nat.zero_le _) hrounds)
        rw [nameNodes_cons name hne] at hrounds ⊢
        simp only [List.flatMap_cons, List.length_append, Node.leaves_word, List.length_singleton]
          at hrounds
        simp only [namesAtMost]
        refine .bind (Same openers mid) (anyWord_run hname (fun _ h => h.alike) fun _ h longer _ =>
          h.isOp_of_mem longer) ?_
        refine .ahead ?_ fun again sorts hagain => by rw [hagain.isOp "::" (by decide)]
        simp only [if_pos hcolons]
        obtain ⟨hop, rfl⟩ := reads_operator.mp hbetween
        refine .bind (Same openers left)
          (colons_run hbetween (by decide) fun _ h => h.alike.weaken) ?_
        refine .ahead ?_ fun again sorts hagain => by rw [hallowed hagain]
        simp only [if_pos hgoesOn]
        exact (hrun rounds' (by omega)).map _
      · exact absurd h not_reads_expected
    · rename_i hnot
      obtain ⟨rfl, rfl⟩ := reads_pure.mp h
      refine ⟨List.cons_ne_nil _ _, fun rounds' hrounds => ?_⟩
      obtain ⟨rounds', rfl⟩ : ∃ fewer, rounds' = fewer + 1 :=
        Nat.exists_eq_add_one.mpr (Nat.lt_of_le_of_lt (Nat.zero_le _) hrounds)
      simp only [namesAtMost]
      refine .cast
        (.bind (Same openers mid) (anyWord_run hname (fun _ h => h.alike) fun _ h longer _ =>
          h.isOp_of_mem longer) ?_) (List.append_nil _)
      refine .ahead ?_ fun again sorts hagain => by rw [hagain.isOp "::" (by decide)]
      simp only [if_neg hnot]
      exact .pure

/-- Two colons in front are all that may be read of them. -/
theorem eq_of_colons? {nodes : List Node} (h : (operator? "::").Reads tokens nodes rest) :
    (if !nodes.isEmpty then [.operator "::"] else []) = nodes := by
  rcases reads_onlyIf.mp h with ⟨-, hreads⟩ | ⟨-, rfl, -⟩
  · obtain ⟨node, hnode, rfl⟩ := reads_one.mp hreads
    obtain ⟨-, rfl⟩ := reads_operator.mp hnode
    rfl
  · rfl

theorem plainPath_run {path : PlainPath} (h : plainPath.Reads tokens path rest) :
    Run level (fun _ => plainPath) (Same openers rest) (Same openers tokens) tokens path rest
      path.node.leaves := by
  simp only [plainPath, reads_bind, ↓reads_ahead, pure_bind] at h
  obtain ⟨leading, mid, hleading, h⟩ := h
  have hword : ∀ {tokens again : List Token}, Same openers tokens again →
      isPathWord again = isPathWord tokens := fun hagain => hagain.alike.isPathWord
  simp only [plainPath, pure_bind]
  split at h
  · rename_i hthere
    obtain ⟨names, left, hnames, hpure⟩ := reads_bind.mp (reads_ahead.mp h)
    obtain ⟨rfl, rfl⟩ := reads_pure.mp hpure
    obtain ⟨-, hrun⟩ := namesAtMost_run level hword hnames
    rw [PlainPath.node, eq_of_colons? hleading, Node.leaves_branch, List.flatMap_append]
    refine .bind _ (colons?_run hleading) (.ahead ?_ fun again sorts hagain => by rw [hword hagain])
    simp only [if_pos hthere]
    have hall := fun rounds hrounds => (hrun rounds hrounds).map (PlainPath.mk !leading.isEmpty)
    exact .rounds hall
  · rename_i hnot
    obtain ⟨name, left, hname, hpure⟩ := reads_bind.mp h
    obtain ⟨rfl, rfl⟩ := reads_pure.mp hpure
    rw [PlainPath.node, eq_of_colons? hleading, Node.leaves_branch, List.flatMap_append]
    refine .bind _ (colons?_run hleading) (.ahead ?_ fun again sorts hagain => by rw [hword hagain])
    simp only [if_neg hnot]
    exact (identifier_run hname (fun _ h => h.alike) fun _ h longer _ => h.isOp_of_mem longer).map _

/-! ### Literals by themselves -/

theorem outerAttributes_none (h : isOp "#" tokens = false) :
    (outerAttributes sorts).Reads tokens [] tokens := by
  have hnone : (repeatWhile (isOp "#") (do return [← outerMeta sorts])).Reads tokens [] tokens :=
    repeatWhile_of_not h
  exact reads_bind.mpr ⟨[], tokens, hnone, reads_pure.mpr ⟨rfl, rfl⟩⟩

theorem operators_none (node : Node) (h : node.isRange = false) :
    (operatorsWhere sorts true .jump node).Reads [] node [] := by
  simp only [operatorsWhere, ↓reads_ahead, operatorsAtMost, h, List.length_nil]
  rfl

theorem operand_literal (text : String) :
    (operandWhere sorts true).Reads [.literal text] (.branch .literal [.literal text]) [] := by
  unfold operandWhere
  simp only [↓reads_ahead, reads_bind]
  exact ⟨[], _, outerAttributes_none rfl, rfl⟩

theorem operand_truth {text : String} (h : (text == "true" || text == "false") = true) :
    (operandWhere sorts true).Reads [.word text] (.branch .literal [.word text]) [] := by
  unfold operandWhere
  simp only [↓reads_ahead, reads_bind]
  refine ⟨[], _, outerAttributes_none (isOp_word ..), ?_⟩
  rcases Bool.or_eq_true_iff.mp h with heq | heq
  · obtain rfl := beq_iff_eq.mp heq
    rfl
  · obtain rfl := beq_iff_eq.mp heq
    rfl

/-- A minus and a number are read as the sign of an operand. -/
theorem operand_minus (spacing : Spacing) (text : String) :
    (operandWhere sorts.deeper true).Reads [.mark '-' spacing, .literal text]
      (.branch .unary [.branch .start [.operator "-"], .branch .literal [.literal text]]) [] := by
  unfold operandWhere
  simp only [↓reads_ahead, reads_bind]
  refine ⟨[], _, outerAttributes_none rfl, ?_⟩
  change (operator "-" >>= _).Reads _ _ _
  exact reads_bind.mpr ⟨.operator "-", [.literal text], rfl,
    reads_bind.mpr ⟨_, [], operand_literal text, rfl⟩⟩

/-- What is read as a literal by itself is read so as an expression, unless it is a negative
number. -/
theorem expression_of_literal (sorts : Sorts) {node : Node}
    (h : Parser.literal.Reads tokens node []) :
    ∃ again, sorts.deeper.deeper.expression.Reads tokens again [] ∧
      (again = node ∨ again.isKind .unary = true) := by
  unfold Reads Parser.literal at h
  split at h
  · obtain ⟨rfl, rfl, -⟩ := (Found.mk.injEq ..).mp (Except.ok.inj h)
    exact ⟨_, reads_bind.mpr ⟨_, [], operand_literal _, operators_none _ rfl⟩, .inl rfl⟩
  · split at h
    · rename_i htext
      obtain ⟨rfl, rfl, -⟩ := (Found.mk.injEq ..).mp (Except.ok.inj h)
      exact ⟨_, reads_bind.mpr ⟨_, [], operand_truth htext, operators_none _ rfl⟩, .inl rfl⟩
    · contradiction
  · split at h
    · obtain ⟨rfl, rfl, -⟩ := (Found.mk.injEq ..).mp (Except.ok.inj h)
      exact ⟨_, reads_bind.mpr ⟨_, [], operand_minus _ _, operators_none _ rfl⟩, .inr rfl⟩
    · contradiction
  · contradiction

/-! ### Attributes -/

theorem isLastLiteral_iff :
    isLastLiteral tokens = true ↔ ∃ node, Parser.literal.Reads tokens node [] := by
  constructor
  · intro h
    unfold isLastLiteral at h
    split at h
    · rename_i found hfound
      obtain ⟨node, rest, excess⟩ := found
      obtain rfl := List.isEmpty_iff.mp h
      have hexcess : excess = none := by
        unfold Parser.literal at hfound
        split at hfound
        · exact ((Found.mk.injEq ..).mp (Except.ok.inj hfound)).2.2.symm
        · split at hfound
          · exact ((Found.mk.injEq ..).mp (Except.ok.inj hfound)).2.2.symm
          · contradiction
        · split at hfound
          · exact ((Found.mk.injEq ..).mp (Except.ok.inj hfound)).2.2.symm
          · contradiction
        · contradiction
      subst hexcess
      exact ⟨node, hfound⟩
    · contradiction
  · rintro ⟨node, hnode⟩
    rw [isLastLiteral, hnode]
    rfl

/-- The value of an attribute is read again as a literal or as an expression, whichever it was. -/
theorem metaValue_run {node : Node} (hsorts : sorts.Replays)
    (h : (metaValue sorts).Reads tokens node []) (hnode : node.isExplicit = true)
    (hunary : node.isKind .unary = false) :
    Run 8 metaValue (· = []) (fun _ => True) tokens node [] node.leaves := by
  rw [metaValue, reads_ahead] at h
  split at h
  · have hrun : Run 8 (fun _ => Parser.literal) (· = []) (Same openers tokens) tokens node []
        node.leaves := literal_run h fun _ heq => by rw [heq]; exact .nil
    refine ⟨fun {after depth} hafter hdepth => ?_, fun _ => trivial, hrun.written, hrun.shorter⟩
    subst hafter
    have hagain := hrun.again rfl hdepth
    rw [List.append_nil] at hagain ⊢
    rw [metaValue, reads_ahead, if_pos (isLastLiteral_iff.mpr ⟨node, hagain⟩)]
    exact hagain
  · split at h
    · exact absurd h not_reads_refuse
    · rename_i hnot
      have hrun := (hsorts.expressionWhere h hnode).run
      refine ⟨fun {after depth} hafter hdepth => ?_, fun _ => trivial, hrun.written, hrun.shorter⟩
      subst hafter
      have hbegins := (hrun.begins (.nil _)).toSame
      have hagain : ((Sorts.deepened depth .none).expressionWhere true).Reads (node.leaves ++ [])
          node [] := hrun.again (.nil _) (by omega)
      rw [List.append_nil] at hbegins hagain ⊢
      obtain ⟨depth, rfl⟩ : ∃ fewer, depth = fewer + 2 := ⟨depth - 2, by omega⟩
      rw [metaValue, reads_ahead]
      split
      · rename_i hlast
        obtain ⟨found, hfound⟩ := isLastLiteral_iff.mp hlast
        obtain ⟨again, hexpression, heq⟩ :=
          expression_of_literal (Sorts.deepened depth .none) hfound
        rw [← Sorts.deepened_succ, ← Sorts.deepened_succ] at hexpression
        obtain ⟨rfl, -⟩ := hexpression.eq hagain
        rcases heq with rfl | hkind
        · exact hfound
        · rw [hkind] at hunary
          contradiction
      · obtain ⟨first, mid, hfirst, -⟩ := reads_bind.mp h
        have hpound : isOp "#" tokens = false := by
          rw [Bool.eq_false_iff]
          intro hpound
          rw [hpound, hsorts.operand_pound hfirst hpound] at hnot
          exact hnot rfl
        rw [hbegins.isOp "#" (by decide), hpound]
        exact hagain

/-- What is printed of the body of an attribute. -/
def MetaBody.nodes : MetaBody → List Node
  | .word => []
  | .list delimiter tokens => [.group delimiter [.verbatim tokens]]
  | .value node => [.operator "=", node]

/-- The content of an attribute is its path and its body. -/
theorem Meta.node_eq (content : Meta) :
    content.node = .branch .attributeContent (content.path.node :: content.body.nodes) := by
  obtain ⟨path, body⟩ := content
  cases body <;> rfl

/-- Only the value of an attribute matters for whether it is explicit. -/
theorem Meta.isExplicit_value {path : PlainPath} {node : Node}
    (h : (Meta.node ⟨path, .value node⟩).isExplicit = true) :
    node.isExplicit = true ∧ node.isKind .unary = false := by
  obtain ⟨-, hdoubtful, -, hparts⟩ := (Node.isExplicit_construct rfl).mp h
  refine ⟨hparts node (by simp), ?_⟩
  rw [Bool.eq_false_iff]
  intro hunary
  cases node with
  | construct kind attributes children =>
    obtain rfl : kind = .unary := by simpa [Node.isKind, Node.kind?] using hunary
    contradiction
  | _ => simp [Node.isKind, Node.kind?] at hunary

theorem metaBody_run {content : Meta} (hsorts : sorts.Replays)
    (h : (metaBody sorts).Reads tokens content.body [])
    (hcontent : content.node.isExplicit = true) :
    Run 8 metaBody (· = []) (Same openers tokens) tokens content.body []
      (content.body.nodes.flatMap Node.leaves) := by
  obtain ⟨path, body⟩ := content
  unfold Reads metaBody at h
  split at h
  · rename_i delimiter inner left
    obtain ⟨rfl, rfl, -⟩ := (Found.mk.injEq ..).mp (Except.ok.inj h)
    simp only [MetaBody.nodes, List.flatMap_cons, List.flatMap_nil, Node.leaves_group,
      Node.leaves_verbatim, List.append_nil]
    exact ⟨fun hafter _ => by rw [hafter]; rfl, fun _ => .group, fun h => ⟨h, .nil⟩, by simp⟩
  · rename_i hnoGroup
    split at h
    · rename_i hequals
      obtain ⟨equals, mid, hop, node, left, hvalue, hpure⟩ := by
        simpa only [reads_bind] using (show Reads _ tokens body [] from h)
      obtain ⟨rfl, rfl⟩ := reads_pure.mp hpure
      obtain ⟨hnode, hunary⟩ := Meta.isExplicit_value hcontent
      have hrun := metaValue_run hsorts hvalue hnode hunary
      have hsign : Run 8 (fun _ => operator "=") (fun _ => True) (Same openers tokens) tokens equals
          mid equals.leaves := clear_run hop (by decide)
      obtain ⟨-, rfl⟩ := reads_operator.mp hop
      have hboth : Run 8 (fun sorts => do
            let _ ← operator "="
            return MetaBody.value (← metaValue sorts))
          (· = []) (Same openers tokens) tokens (.value node) []
          (([.operator "=", node] : List Node).flatMap Node.leaves) :=
        (hsign.bind _ (hrun.map _)).cast (by simp)
      refine ⟨fun {after depth} hafter hdepth => ?_, hboth.begins, hboth.written, hboth.shorter⟩
      exact hboth.again hafter hdepth
    · obtain ⟨rfl, rfl, -⟩ := (Found.mk.injEq ..).mp (Except.ok.inj h)
      exact ⟨fun hafter _ => by rw [hafter]; rfl, fun hafter => by rw [hafter]; exact .nil _,
        fun h => ⟨.nil, .nil⟩, le_rfl⟩

theorem metaContent_run {content : Meta} (hsorts : sorts.Replays)
    (h : (metaContent sorts).Reads tokens content [])
    (hcontent : content.node.isExplicit = true) :
    Run 8 metaContent (· = []) (Same openers tokens) tokens content [] content.node.leaves := by
  unfold metaContent at h
  simp only [↓reads_ahead, pure_bind] at h
  rw [Meta.node_eq, Node.leaves_branch, List.flatMap_cons]
  unfold metaContent
  simp only [pure_bind]
  refine .ahead ?_ fun again sorts hagain => by rw [hagain.alike.isWord]
  split at h
  · rename_i hunsafe
    simp only [reads_bind] at h
    obtain ⟨word, mid, hword, body, left, hbody, hpure⟩ := h
    obtain ⟨rfl, rfl⟩ := reads_pure.mp hpure
    simp only [if_pos hunsafe]
    exact .bind _ (anyWord_run hword (fun _ h => h.alike) fun _ h longer _ => h.isOp_of_mem longer)
      ((metaBody_run hsorts hbody hcontent).map _)
  · rename_i hnot
    simp only [reads_bind] at h
    obtain ⟨path, mid, hpath, body, left, hbody, hpure⟩ := h
    obtain ⟨rfl, rfl⟩ := reads_pure.mp hpure
    simp only [if_neg hnot]
    exact .bind _ (plainPath_run hpath) ((metaBody_run hsorts hbody hcontent).map _)

theorem outerMeta_run {content : Meta} (hsorts : sorts.Replays)
    (h : (outerMeta sorts).Reads tokens content rest) (hcontent : content.node.isExplicit = true)
    (hclear : ∀ longer ∈ operators, ['#'] <+: longer.toList → longer.toList = ['#'])
    {ends : List Token → Prop} :
    Run level outerMeta ends (Same operators tokens) tokens content rest
      content.outerNode.leaves := by
  obtain ⟨pound, mid, hpound, hinside⟩ := reads_bind.mp h
  obtain ⟨body, rfl, hbody⟩ := reads_inside.mp hinside
  have hrun := metaContent_run hsorts hbody hcontent
  obtain ⟨-, rfl⟩ := reads_operator.mp hpound
  exact .cast (.bind _ (pound_run hpound hclear fun _ h => h.alike.weaken) (hrun.inside operators))
    (by simp [Meta.outerNode])

theorem isExplicit_outerNode {content : Meta} (h : content.outerNode.isExplicit = true) :
    content.node.isExplicit = true := by
  exact Node.isExplicit_group.mp (Node.isExplicit_parts h rfl (.group .bracket [content.node])
    (by simp)) _ (by simp)

/-- Attributes before what they describe are read again. What they describe is looked at as if they
were not there, if there are none. -/
theorem outerAttributes_run {nodes : List Node} {same : List Token → List Token → Prop}
    (hsorts : sorts.Replays) (h : (outerAttributes sorts).Reads tokens nodes rest)
    (hnodes : ∀ node ∈ nodes, node.isExplicit = true)
    (hpound : ∀ {tokens again}, same tokens again → isOp "#" again = isOp "#" tokens)
    (hstart : ∀ {tokens again}, isOp "#" tokens = true → Same openers tokens again →
      same tokens again) :
    Run level outerAttributes (same rest) (same tokens) tokens nodes rest
      (nodes.flatMap Node.leaves) := by
  obtain ⟨contents, left, hcontents, hpure⟩ := reads_bind.mp h
  obtain ⟨rfl, rfl⟩ := reads_pure.mp hpure
  rw [List.flatMap_map]
  refine .map _ (repeatWhile_run _ (fun content : Meta => content.outerNode.isExplicit = true)
    @hpound ?_ hcontents (List.forall_mem_map.mp hnodes))
  intro tokens found rest hthere hfound hfit
  obtain ⟨content, left, hcontent, hpure⟩ := reads_bind.mp hfound
  obtain ⟨rfl, rfl⟩ := reads_pure.mp hpure
  have hexplicit := isExplicit_outerNode (hfit content (by simp))
  have hrun : Run level outerMeta (same left) (Same openers tokens) tokens content left
      content.outerNode.leaves := outerMeta_run hsorts hcontent hexplicit (by decide)
  refine ⟨by simp [Meta.outerNode], ((hrun.map _).cast (by simp)).mono (fun _ => id) ?_⟩
  exact fun _ hagain => hstart hthere hagain

/-- Attributes inside what they describe are read again. -/
theorem innerAttributes_run {nodes : List Node} (hsorts : sorts.Replays)
    (h : (innerAttributes sorts).Reads tokens nodes rest)
    (hnodes : ∀ node ∈ nodes, node.isExplicit = true)
    (hclear : ∀ longer ∈ operators, ['#'] <+: longer.toList → longer.toList = ['#'])
    (hbangClear : IsClear operators "!") :
    Run level innerAttributes (Same operators rest) (Same operators tokens) tokens nodes rest
      (nodes.flatMap Node.leaves) := by
  refine repeatWhile_run _ (fun node => node.isExplicit = true) (fun hagain => ?_) ?_ h hnodes
  · rename_i tokens again
    rw [hagain.isOp "#" (.inl (by decide))]
    cases hpound : isOp "#" tokens with
    | false => rfl
    | true => rw [hagain.alike.isBang hpound]
  · intro tokens found rest hthere hfound hfit
    simp only [innerAttribute, reads_bind] at hfound
    obtain ⟨pound, mid, hpound, bang, left, hbang, content, left', hcontent, hpure⟩ := hfound
    obtain ⟨rfl, rfl⟩ := reads_pure.mp hpure
    obtain ⟨body, nodes, rfl, hnodes, rfl⟩ := reads_group.mp hcontent
    obtain ⟨content, last, hmeta, hpure⟩ := reads_bind.mp hnodes
    obtain ⟨rfl, rfl⟩ := reads_pure.mp hpure
    have hparts := Node.isExplicit_parts (hfit _ (List.mem_singleton_self _)) rfl
    have hexplicit := Node.isExplicit_group.mp (hparts (.group .bracket [content.node]) (by simp)) _
      (List.mem_singleton_self content.node)
    have hinner : Run 8 (fun sorts => do return [(← metaContent sorts).node]) (· = [])
        (Same openers body) body [content.node] [] ([content.node].flatMap Node.leaves) :=
      ((metaContent_run hsorts hmeta hexplicit).map fun content => [content.node]).cast (by simp)
    obtain ⟨-, rfl⟩ := reads_operator.mp hpound
    obtain ⟨-, rfl⟩ := reads_operator.mp hbang
    refine ⟨by simp, ?_⟩
    unfold innerAttribute
    exact .cast (.bind (Same operators _) (pound_run hpound hclear fun _ h => h.alike.weaken)
      (.bind (Same operators _) (clear_run hbang hbangClear) ((hinner.group operators).map _)))
      (by simp)

end Attribute

end Typestate.Grammar
