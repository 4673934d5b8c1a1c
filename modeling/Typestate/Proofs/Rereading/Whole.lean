import Typestate.Proofs.Rereading.Item
import Typestate.Proofs.Rereading.TypeCall
import Typestate.Proofs.Token.Equality

/-!
# Whole texts, read again

The sorts are deepened step by step, and each step reads again what is printed of what it has read,
given that the one before does. What is read of a whole text is therefore read again in the text
that is printed of it, as the sorts for that text are deep enough.
-/

namespace Typestate.Grammar

open Grammar.Parser Lexer Token

/-! ### The knot -/

theorem not_reads_fail {A : Type} {tokens rest : List Token} {value : A} :
    ¬ (Parser.fail : Parser A).Reads tokens value rest := nofun

/-- Nothing is read of no sorts. -/
theorem Sorts.replays_none : Sorts.none.Replays where
  type h _ := absurd h not_reads_fail
  type_begins h := absurd h not_reads_fail
  type_lifetime h _ := absurd h not_reads_fail
  type_wild h _ := absurd h not_reads_fail
  type_enclosed h _ := absurd h not_reads_fail
  bound h _ := absurd h not_reads_fail
  bound_begins h := absurd h not_reads_fail
  bound_lifetime h _ := absurd h not_reads_fail
  operand h _ := absurd h not_reads_fail
  operand_begins h := absurd h not_reads_fail
  operand_angle h := absurd h not_reads_fail
  operand_pound h _ := absurd h not_reads_fail
  operators h _ := absurd h not_reads_fail
  bodyExpression h _ := absurd h not_reads_fail
  bodyExpression_ends h _ _ := absurd h not_reads_fail
  pattern h _ := absurd h not_reads_fail
  pattern_begins h := absurd h not_reads_fail
  statements h _ := absurd h not_reads_fail
  item h := absurd h not_reads_fail

section Deeper

variable {A : Type} {level : ℕ} {parser : Sorts → Parser A} {project : Sorts → Parser A}
  {ends begins : List Token → Prop} {tokens rest printed : List Token} {value : A} {node : Node}

/-- What is described over the sorts is read again by the sorts one step deeper. -/
theorem Run.deeper (h : Run level parser ends begins tokens value rest printed)
    (hproject : ∀ sorts : Sorts, project sorts.deeper = parser sorts) :
    Run (level + 1) project ends begins tokens value rest printed where
  again {after depth} hafter hdepth := by
    obtain ⟨depth, rfl⟩ := Nat.exists_eq_succ_of_ne_zero (n := depth) (by omega)
    rw [Sorts.deepened_succ, hproject]
    exact h.again hafter (by omega)
  begins := h.begins
  written := h.written
  shorter := h.shorter

theorem AtomRun.deeper {operators : List String} {parser project : Sorts → Parser Node}
    (h : AtomRun operators level parser tokens node rest)
    (hproject : ∀ sorts : Sorts, project sorts.deeper = parser sorts) :
    AtomRun operators (level + 1) project tokens node rest :=
  ⟨h.run.deeper hproject, h.isOperand, h.leaves_ne, h.beginsBlock⟩

/-- Sorts one step deeper read again what is printed of what they have read. -/
theorem Sorts.Replays.deeper {sorts : Sorts} (hsorts : sorts.Replays) : sorts.deeper.Replays where
  type h hnode := (typeWhere_run hsorts h hnode).deeper fun _ => rfl
  type_begins h := followsColon_type h
  type_lifetime h hlifetime := typeWhere_lifetime hsorts h hlifetime
  type_wild h hwild := typeWhere_wild h hwild
  type_enclosed h hchildren := typeWhere_enclosed hsorts h hchildren
  bound h hnode := (boundWhere_run hsorts h hnode).deeper fun _ => rfl
  bound_begins h := followsColon_bound h
  bound_lifetime h hlifetime := eq_of_lifetimeBound h hlifetime
  operand h hnode := (operandWhere_run hsorts h hnode).deeper fun _ => rfl
  operand_begins h := followsColon_operand h
  operand_angle h := not_angle_of_operand h
  operand_pound h hpound := bracket_of_operand h hpound
  operators h hnode := by
    obtain ⟨printed, hrun⟩ := operatorsWhere_run 0 hsorts h hnode
    exact ⟨printed, hrun.run.deeper fun _ => rfl, hrun.isExplicit, hrun.isLed, hrun.leaves,
      hrun.none, hrun.some⟩
  bodyExpression h hnode := by
    obtain ⟨hrun, -⟩ := bodyExpressionWhere_run hsorts le_rfl h hnode
    exact ⟨hrun.run.deeper fun _ => rfl, hrun.isLed, hrun.leaves_ne⟩
  bodyExpression_ends h hnode hblock _ hdots :=
    ((bodyExpressionWhere_run hsorts le_rfl h hnode).2 hblock hdots).deeper fun _ => rfl
  pattern h hnode := by
    have hrun := patternWhere_run 0 hsorts h hnode
    exact ⟨hrun.run.deeper fun _ => rfl, hrun.isLed⟩
  pattern_begins h := followsColon_pattern h
  statements h hnodes := (statementsWhere_run hsorts le_rfl h hnodes).deeper fun _ => rfl
  item h := (itemWhere_isLoose _ _ _).loose h

/-- The sorts read again what is printed of what they have read, however deep they are. -/
theorem Sorts.replays (steps : ℕ) : (Sorts.deepened steps .none).Replays := by
  induction steps with
  | zero => exact Sorts.replays_none
  | succ steps ih =>
    rw [Sorts.deepened_succ]
    exact ih.deeper

end Deeper

/-! ### Whole texts -/

section Text

variable {A : Type} {parser : Sorts → Parser A} {tokens printed : List Token} {value : A}
  {text : String} {node : Node}

/-- What is read of all tokens is found there, and nothing is left. -/
theorem all_eq_ok_iff {parser : Parser A} :
    all parser tokens = .ok value ↔ parser.Reads tokens value [] := by
  constructor
  · intro h
    unfold all at h
    cases hfound : parser tokens with
    | error mismatch =>
      rw [hfound] at h
      contradiction
    | ok found =>
      obtain ⟨first, rest, excess⟩ := found
      rw [hfound] at h
      cases excess with
      | some delimiter => contradiction
      | none =>
        cases rest with
        | cons token others => contradiction
        | nil =>
          obtain rfl : first = value := Except.ok.inj h
          exact hfound
  · intro h
    rw [all, show parser tokens = _ from h]
    rfl

theorem readTokens?_eq_some :
    readTokens? parser tokens = some value ↔ (parser (Sorts.for tokens)).Reads tokens value [] := by
  rw [readTokens?, toOption_eq_some, readTokens, all_eq_ok_iff]

/-- What is read of a text is read of the text that is printed of it. -/
theorem Run.read? {level : ℕ} {operators : List String} {begins : List Token → Prop}
    (h : Run level parser (Same operators []) begins tokens value [] printed)
    (hlex : lex? text = some tokens) (hlevel : level ≤ 16) :
    lex? (Token.render printed) = some printed ∧
      Grammar.read? parser (Token.render printed) = some value := by
  have hlexed := lex?_render (h.written (written_of_lex? hlex)).1
  have hagain := h.again (.nil operators) (Nat.add_le_add_left hlevel _)
  rw [List.append_nil] at hagain
  exact ⟨hlexed, Option.bind_eq_some_iff.mpr ⟨printed, hlexed, readTokens?_eq_some.mpr hagain⟩⟩

/-- A tree that is read again: it is told apart down to its tokens, and it is written as it stands,
with no parentheses but those that it was read with. -/
def Node.isFaithful (node : Node) : Bool := node.isExplicit && node.tokens == node.leaves

theorem Node.isFaithful_iff :
    node.isFaithful = true ↔ node.isExplicit = true ∧ node.tokens = node.leaves := by
  rw [Node.isFaithful, Bool.and_eq_true, beq_iff_eq]

/-- What is written with the tokens that it was read of is read again, whatever it is. -/
theorem read?_render_of_lex? {parser : Sorts → Parser Node} (h : read? parser text = some node)
    (hlex : lex? text = some node.tokens) :
    lex? node.render = some node.tokens ∧ read? parser node.render = some node := by
  have hlexed : lex? node.render = some node.tokens := lex?_render (written_of_lex? hlex)
  refine ⟨hlexed, ?_⟩
  rwa [read?, hlexed, ← hlex]

/-- A type that is read again: it is told apart down to its tokens, or it is the call of a macro,
and it is written as it stands. -/
def Node.isFaithfulType (node : Node) : Bool :=
  (node.isExplicit || node.isTypeCall) && node.tokens == node.leaves

/-- A type is read again of its text in the layout of tokens. -/
theorem readType?_render (h : readType? text = some node) (hnode : node.isFaithfulType = true) :
    lex? node.render = some node.tokens ∧ readType? node.render = some node := by
  obtain ⟨tokens, hlex, hread⟩ := Option.bind_eq_some_iff.mp h
  obtain ⟨hkind, htokens⟩ := Bool.and_eq_true_iff.mp hnode
  have hreads := readTokens?_eq_some.mp hread
  rw [Node.render, beq_iff_eq.mp htokens]
  rcases Bool.or_eq_true_iff.mp hkind with hexplicit | hcall
  · exact ((Sorts.replays _).type hreads hexplicit).read? hlex (by decide)
  · rw [Sorts.for, Sorts.deepened_succ] at hreads
    have hrun : Run 2 (fun sorts => sorts.type true) (Same typeEnds []) (fun _ => True) tokens node
        [] node.leaves :=
      (typeWhere_call_run (Sorts.replays _) hreads hcall).deeper fun _ => rfl
    exact hrun.read? hlex (by decide)

/-- An expression is read again of its text in the layout of tokens. -/
theorem readExpression?_render (h : readExpression? text = some node)
    (hnode : node.isFaithful = true) :
    lex? node.render = some node.tokens ∧ readExpression? node.render = some node := by
  obtain ⟨tokens, hlex, hread⟩ := Option.bind_eq_some_iff.mp h
  obtain ⟨hexplicit, htokens⟩ := Node.isFaithful_iff.mp hnode
  have hrun := (Sorts.replays _).expressionWhere (readTokens?_eq_some.mp hread) hexplicit
  rw [Node.render, htokens]
  exact hrun.run.read? hlex (by decide)

/-- What is read of the text as a type, if anything is, is read again: its tree is faithful, or it
is written with the tokens of the text. -/
def isFaithfulType (text : String) : Bool :=
  (readType? text).all fun node => node.isFaithfulType || lex? text == some node.tokens

/-- What is read of the text as an expression, if anything is, is read again: its tree is faithful,
or it is written with the tokens of the text. -/
def isFaithfulExpression (text : String) : Bool :=
  (readExpression? text).all fun node => node.isFaithful || lex? text == some node.tokens

theorem readType?_of_isFaithfulType (h : readType? text = some node)
    (hfaithful : isFaithfulType text = true) :
    lex? node.render = some node.tokens ∧ readType? node.render = some node := by
  rw [isFaithfulType, h, Option.all_some, Bool.or_eq_true, beq_iff_eq] at hfaithful
  rcases hfaithful with hnode | hlex
  · exact readType?_render h hnode
  · exact read?_render_of_lex? h hlex

theorem readExpression?_of_isFaithfulExpression (h : readExpression? text = some node)
    (hfaithful : isFaithfulExpression text = true) :
    lex? node.render = some node.tokens ∧ readExpression? node.render = some node := by
  rw [isFaithfulExpression, h, Option.all_some, Bool.or_eq_true, beq_iff_eq] at hfaithful
  rcases hfaithful with hnode | hlex
  · exact readExpression?_render h hnode
  · exact read?_render_of_lex? h hlex

/-! ### Arguments of a path -/

/-- The arguments of a segment are read where its name ends. -/
theorem arguments_of_segment {sorts : Sorts} {inExpression : Bool} {rest : List Token}
    {segment : Segment} (h : (Grammar.segment sorts inExpression).Reads tokens segment rest)
    {arguments : Node} (harguments : segment.arguments = some arguments) :
    ∃ mid, (genericArguments sorts).Reads mid arguments rest := by
  have h := reads_ahead.mp h
  rcases reads_ite.mp h with ⟨-, h⟩ | ⟨-, h⟩
  · obtain ⟨name, mid, -, hpure⟩ := reads_bind.mp h
    obtain ⟨rfl, -⟩ := reads_pure.mp hpure
    contradiction
  · rw [ite_bind] at h
    obtain ⟨name, mid, -, h⟩ := reads_bind.mp h
    rcases reads_ite.mp (reads_ahead.mp h) with ⟨-, h⟩ | ⟨-, hpure⟩
    · obtain ⟨found, last, hfound, hpure⟩ := reads_bind.mp h
      obtain ⟨rfl, rfl⟩ := reads_pure.mp hpure
      obtain rfl := Option.some.inj harguments
      exact ⟨mid, hfound⟩
    · obtain ⟨rfl, -⟩ := reads_pure.mp hpure
      contradiction

/-- What a repetition finds, one of its rounds does. -/
theorem exists_of_repeatAtMost {more : List Token → Bool} {parser : Parser (List A)} {rounds : ℕ}
    {values : List A} {rest : List Token}
      (h : (repeatAtMost more parser rounds).Reads tokens values rest) :
    ∀ value ∈ values, ∃ start found left, parser.Reads start found left ∧ value ∈ found := by
  induction rounds generalizing tokens values with
  | zero => exact absurd h nofun
  | succ rounds ih =>
    rcases reads_ite.mp (reads_ahead.mp h) with ⟨-, h⟩ | ⟨-, hpure⟩
    · obtain ⟨first, mid, hfirst, others, last, hothers, hpure⟩ := by simpa only
        [reads_bind] using h
      obtain ⟨rfl, rfl⟩ := reads_pure.mp hpure
      exact List.forall_mem_append.mpr ⟨fun value hvalue => ⟨_, _, _, hfirst, hvalue⟩, ih hothers⟩
    · obtain ⟨rfl, -⟩ := reads_pure.mp hpure
      exact nofun

/-- The arguments in a path have been read as such. -/
theorem arguments_of_path {sorts : Sorts} {inExpression : Bool} {rest : List Token} {path : Path}
    (h : (pathWhere sorts inExpression).Reads tokens path rest) :
    ∀ segment ∈ path.segments, ∀ arguments, segment.arguments = some arguments →
      ∃ mid left, (genericArguments sorts).Reads mid arguments left := by
  obtain ⟨leading, mid, -, first, left, hfirst, others, last, hothers, hpure⟩ := by
    simpa only [pathWhere, reads_bind] using h
  obtain ⟨rfl, rfl⟩ := reads_pure.mp hpure
  refine List.forall_mem_cons.mpr ⟨fun arguments harguments => ?_, fun segment hsegment arguments
    harguments => ?_⟩
  · obtain ⟨start, hstart⟩ := arguments_of_segment hfirst harguments
    exact ⟨start, _, hstart⟩
  · obtain ⟨start, found, left, hfound, hmem⟩ :=
      exists_of_repeatAtMost (reads_ahead.mp hothers) segment hsegment
    obtain ⟨colons, mid, -, only, last, honly, hpure⟩ := by simpa only
      [nextSegment, reads_bind] using hfound
    obtain ⟨rfl, rfl⟩ := reads_pure.mp hpure
    obtain rfl := List.mem_singleton.mp hmem
    obtain ⟨start, hstart⟩ := arguments_of_segment honly harguments
    exact ⟨start, _, hstart⟩

/-- Faithful arguments of a path are read again wherever they stand behind a name. -/
theorem readIn_of_readPath? {path : Path} (h : readPath? text = some path) {segment : Segment}
    (hsegment : segment ∈ path.segments) {arguments : Node}
    (harguments : segment.arguments = some arguments) (hfaithful : arguments.isFaithful = true)
    {depth : ℕ} (hdepth : 8 * sizeList arguments.tokens ≤ depth) :
    arguments.ReadIn (Sorts.deepened depth .none) := by
  obtain ⟨tokens, -, hread⟩ := Option.bind_eq_some_iff.mp h
  obtain ⟨mid, left, hreads⟩ :=
    arguments_of_path (readTokens?_eq_some.mp hread) segment hsegment arguments harguments
  obtain ⟨hexplicit, htokens⟩ := Node.isFaithful_iff.mp hfaithful
  have hrun : Run 0 genericArguments (fun _ => True) (SameArguments mid) mid arguments left
      arguments.leaves := genericArguments_run (Sorts.replays _) hreads hexplicit
  intro rest
  rw [htokens] at hdepth ⊢
  exact ⟨arguments, hrun.again trivial hdepth, htokens⟩

end Text

end Typestate.Grammar
