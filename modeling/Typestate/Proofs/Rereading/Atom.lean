import Typestate.Proofs.Rereading.Range

/-!
# Atoms, read again

An expression without operators around it is told from others by its first tokens. What may be left
out behind its first word is left out again.
-/

namespace Typestate.Grammar

open Grammar.Parser Lexer Token

section Atom

variable {level : ℕ} {sorts : Sorts} {operators : List String} {tokens rest again : List Token}
  {ends : List Token → Prop} {node : Node} {structs : Bool}

/-! ### Groups -/

/-- Expressions between commas are read again. -/
theorem expressions_run {nodes : List Node} (hsorts : sorts.Replays)
    (h : (commaSeparated (one sorts.expression)).Reads tokens nodes [])
    (hnodes : ∀ node ∈ nodes, node.isExplicit = true) :
    Run 8 (fun sorts => commaSeparated (one sorts.expression)) (· = [])
      (fun again => isAtEnd again = isAtEnd tokens) tokens nodes []
        (nodes.flatMap Node.leaves) := by
  refine commaSeparated_run expressionEnds (fun (h : SameExpression _ _) => h.alike.isAtEnd)
    (by decide) (fun hitem hfit => ?_) h hnodes
  obtain ⟨value, hvalue, rfl⟩ := reads_one.mp hitem
  exact (((hsorts.expressionWhere hvalue (hfit value (by simp))).run.raise (by decide)).one).cast
    (List.append_nil _).symm

/-- The arguments of a call are read again. -/
theorem callArguments_run (hsorts : sorts.Replays)
    (h : (callArguments sorts).Reads tokens node rest)
    (hnode : node.isExplicit = true) :
    Run level callArguments ends (Same operators tokens) tokens node rest node.leaves := by
  obtain ⟨body, nodes, rfl, hnodes, rfl⟩ := reads_group.mp h
  exact (expressions_run hsorts hnodes (Node.isExplicit_group.mp hnode)).group operators

/-- A group in front looks from before as an expression does. -/
theorem BranchRun.atom_of_group {parser : Sorts → Parser Node} {delimiter : Delimiter}
    (h : BranchRun operators level parser tokens node rest)
      (hgroup : isGroup delimiter tokens = true) :
    AtomRun operators level parser tokens node rest := by
  cases tokens with
  | nil => contradiction
  | cons token others =>
    cases token with
    | group found body => exact h.atom rfl (isOp_group ..) rfl rfl
    | _ => contradiction

/-- The kind of a group in parentheses. -/
def enclosedExpressionKind : Node → Kind
  | .group _ [_] => .parenthesized
  | _ => .tuple

theorem enclosedExpression_eq (sorts : Sorts) : enclosedExpression sorts =
    callArguments sorts >>= fun parts => pure (.branch (enclosedExpressionKind parts) [parts]) := by
  unfold enclosedExpression callArguments
  refine congrArg (_ >>= ·) (funext fun parts => ?_)
  cases parts with
  | group delimiter children =>
    match children with
    | [] | [_] | _ :: _ :: _ => rfl
  | _ => rfl

/-- What stands in parentheses is read again. -/
theorem enclosedExpression_run (hsorts : sorts.Replays)
    (h : (enclosedExpression sorts).Reads tokens node rest) (hnode : node.isExplicit = true) :
    BranchRun expressionEnds level enclosedExpression tokens node rest := by
  rw [enclosedExpression_eq] at h
  obtain ⟨parts, last, hparts, hpure⟩ := reads_bind.mp h
  obtain ⟨rfl, rfl⟩ := reads_pure.mp hpure
  have hkind :
    enclosedExpressionKind parts = .parenthesized ∨ enclosedExpressionKind parts = .tuple := by
    unfold enclosedExpressionKind
    split
    · exact .inl rfl
    · exact .inr rfl
  have hexplicit : parts.isExplicit = true := by
    rcases hkind with heq | heq
    · rw [heq] at hnode
      exact Node.isExplicit_parts hnode rfl parts (by simp)
    · rw [heq] at hnode
      exact Node.isExplicit_parts hnode rfl parts (by simp)
  rw [show enclosedExpression = _ from funext enclosedExpression_eq]
  have hrun : Run level callArguments (Same expressionEnds last) (Same openers tokens) tokens parts
      last parts.leaves := callArguments_run hsorts hparts hexplicit
  obtain ⟨body, nodes, -, -, rfl⟩ := reads_group.mp hparts
  refine ⟨(hrun.map fun parts => Node.branch (enclosedExpressionKind parts) [parts]).cast (by simp),
    ?_, by simp, fun h => absurd h ?_⟩
  · rcases hkind with heq | heq
    · rw [heq]
      rfl
    · rw [heq]
      rfl
  · rcases hkind with heq | heq
    · rw [heq]
      exact Bool.false_ne_true
    · rw [heq]
      exact Bool.false_ne_true

/-- The elements of an array behind the first one are read again. -/
theorem moreElements_run {nodes : List Node} (hsorts : sorts.Replays)
    (h : (moreElements sorts).Reads tokens nodes []) (hnodes : ∀ node ∈ nodes,
      node.isExplicit = true) :
    Run 8 moreElements (· = []) (Same expressionEnds tokens) tokens nodes []
      (nodes.flatMap Node.leaves) := by
  refine .onlyIf sorts h (fun _ h => ?_) (fun _ heq after hafter => ?_) fun _ hagain => by
    rw [hagain.alike.isEmpty]
  · obtain ⟨comma, mid, hcomma, others, last, hothers, hpure⟩ := by simpa only [reads_bind] using h
    obtain ⟨rfl, rfl⟩ := reads_pure.mp hpure
    exact .cast (.bind _ (clear_run hcomma (by decide)) ((expressions_run hsorts hothers
      (List.forall_mem_cons.mp hnodes).2).map _)) (by simp)
  · rw [hafter, heq]
    exact .nil _

/-- The inside of brackets. -/
def bracketBody (sorts : Sorts) : Parser Node := do
  if (← ahead).isEmpty then return .branch .array [.group .bracket []]
  else
    let first ← sorts.expression
    let tokens ← ahead
    if tokens.isEmpty || isOp "," tokens then
      return .branch .array [.group .bracket (first :: (← moreElements sorts))]
    else if isOp ";" tokens then
      let semicolon ← operator ";"
      return .branch .repeatArray [.group .bracket [first, semicolon, ← sorts.expression]]
    else expected ["`,`", "`;`"]

/-- The inside of brackets is read again. -/
theorem bracketBody_run (hsorts : sorts.Replays) (h : (bracketBody sorts).Reads tokens node [])
    (hnode : node.isExplicit = true) : (node.isOperand = true ∧ node.isBlockLike = false) ∧
      ∃ printed, node.leaves = [.group .bracket printed] ∧
        Run 8 bracketBody (· = []) (fun again => again.isEmpty = tokens.isEmpty) tokens node []
          printed := by
  have hstart := reads_ahead.mp h
  unfold bracketBody
  rcases reads_ite.mp hstart with ⟨hempty, hpure⟩ | ⟨hnot, h⟩
  · obtain ⟨rfl, rfl⟩ := reads_pure.mp hpure
    refine ⟨⟨rfl, rfl⟩, [], by simp, .ahead ?_ fun again sorts hagain => by rw [hagain]⟩
    simp only [List.isEmpty_nil, if_true]
    exact .mono .pure (fun _ => id) fun _ heq => by rw [heq]; rfl
  obtain ⟨first, mid, hfirst, h⟩ := reads_bind.mp h
  have hfirstRun : first.isExplicit = true → Run 8 (fun sorts => sorts.expression)
      (Same expressionEnds mid) (fun again => again.isEmpty = tokens.isEmpty) tokens first mid
      first.leaves := fun hexplicit =>
    ((hsorts.expressionWhere hfirst hexplicit).run.raise (by decide)).mono (fun _ => id)
      fun _ h => h.alike.isEmpty
  rcases reads_ite.mp (reads_ahead.mp h) with ⟨hcomma, h⟩ | ⟨hnotComma, h⟩
  · obtain ⟨others, last, hothers, hpure⟩ := reads_bind.mp h
    obtain ⟨rfl, rfl⟩ := reads_pure.mp hpure
    have hparts := Node.isExplicit_group.mp (Node.isExplicit_parts hnode rfl
      (.group .bracket (first :: others)) (by simp))
    refine ⟨⟨rfl, rfl⟩, first.leaves ++ others.flatMap Node.leaves, by simp [Node.leaves_group],
      .ahead ?_ fun again sorts hagain => by rw [hagain]⟩
    simp only [if_neg hnot]
    refine .bind _ (hfirstRun (hparts first (by simp))) (.ahead ?_ fun again sorts hagain => by
      rw [hagain.alike.isEmpty, hagain.isOp "," (by decide), hagain.isOp ";" (by decide)])
    simp only [if_pos hcomma]
    exact (moreElements_run hsorts hothers fun node hmem => hparts node (by simp [hmem])).map _
  rcases reads_ite.mp h with ⟨hsemicolon, h⟩ | ⟨-, h⟩
  · obtain ⟨semicolon, left, hsign, count, last, hcount, hpure⟩ := by simpa only
      [reads_bind] using h
    obtain ⟨rfl, rfl⟩ := reads_pure.mp hpure
    have hparts := Node.isExplicit_group.mp (Node.isExplicit_parts hnode rfl
      (.group .bracket [first, semicolon, count]) (by simp))
    refine ⟨⟨rfl, rfl⟩, first.leaves ++ (semicolon.leaves ++ count.leaves), by simp
      [Node.leaves_group], .ahead ?_ fun again sorts hagain => by rw [hagain]⟩
    simp only [if_neg hnot]
    refine .bind _ (hfirstRun (hparts first (by simp))) (.ahead ?_ fun again sorts hagain => by
      rw [hagain.alike.isEmpty, hagain.isOp "," (by decide), hagain.isOp ";" (by decide)])
    simp only [if_neg hnotComma, if_pos hsemicolon]
    refine .bind (SameExpression left) (clear_run hsign (by decide)) (.map _ ?_)
    exact ((hsorts.expressionWhere hcount (hparts count (by simp))).run.raise (by decide)).mono
      (fun _ heq => by rw [heq]; exact .nil _) fun _ => id
  · exact absurd h not_reads_expected

/-- What stands in brackets is read again. -/
theorem bracketedExpression_run (hsorts : sorts.Replays)
    (h : (bracketedExpression sorts).Reads tokens node rest) (hnode : node.isExplicit = true) :
    BranchRun expressionEnds level bracketedExpression tokens node rest := by
  obtain ⟨body, rfl, hbody⟩ := reads_inside.mp h
  obtain ⟨⟨hoperand, hblock⟩, printed, hleaves, hrun⟩ := bracketBody_run hsorts hbody hnode
  exact ⟨(hrun.inside openers).cast hleaves.symm, hoperand, by rw [hleaves]; simp,
    fun h => absurd (hblock.symm.trans h) Bool.false_ne_true⟩

/-! ### Closures -/

theorem Node.isConstruct_of_isLed {node : Node} (h : node.isLed = true) :
    node.isConstruct = true := by
  cases node with
  | construct kind attributes children => rfl
  | _ => contradiction

theorem Node.isExplicit_of_withAttributes {attributes : List Node}
    (h : (node.withAttributes attributes).isExplicit = true) : node.isExplicit = true := by
  cases node with
  | construct kind others children => exact ((Node.isExplicit_withAttributes rfl).mp h).2
  | _ => exact h

/-- The input of a closure is read again. -/
theorem closureInput_run {nodes : List Node} (hsorts : sorts.Replays) (hlevel : 2 ≤ level)
    (h : (closureInput sorts).Reads tokens nodes rest)
    (hnodes : ∀ node ∈ nodes, node.isExplicit = true) :
    Run level closureInput (Same patternEnds rest) (Same openers tokens) tokens nodes rest
      (nodes.flatMap Node.leaves) := by
  obtain ⟨attributes, mid, hattributes, h⟩ := reads_bind.mp h
  obtain ⟨shape, left, hshape, h⟩ := reads_bind.mp h
  have hattributesRun : (∀ node ∈ attributes, node.isExplicit = true) →
      Run level outerAttributes (Same openers mid) (Same openers tokens) tokens attributes mid
        (attributes.flatMap Node.leaves) := fun hexplicit =>
    outerAttributes_run hsorts hattributes hexplicit (fun h => h.isOp "#" (by decide)) fun _ h => h
  have hshapeRun : shape.isExplicit = true → Run level (fun sorts => sorts.pattern)
      (Same patternEnds left) (Same openers mid) mid shape left shape.leaves := fun hexplicit =>
    ((hsorts.pattern hshape hexplicit).run.raise (by omega)).mono (fun _ => id) fun _ h => h.toSame
  unfold closureInput
  rcases reads_ite.mp (reads_ahead.mp h) with ⟨hcolonThere, h⟩ | ⟨hnotColon, hpure⟩
  · obtain ⟨colon, next, hcolon, type, last, htype, hpure⟩ := by simpa only [reads_bind] using h
    obtain ⟨rfl, rfl⟩ := reads_pure.mp hpure
    obtain ⟨-, -, hleading, hparts⟩ := (Node.isExplicit_construct rfl).mp
      (hnodes (.construct .typedPattern attributes [shape, colon, type]) (by simp))
    refine .cast (.bind _ (hattributesRun hleading) (.bind _ (hshapeRun (hparts shape (by simp)))
      (.ahead ?_ fun again sorts hagain => by rw [hagain.isOp ":" (by decide)])))
      (show _ ++ (_ ++ (colon.leaves ++ type.leaves)) = _ by simp)
    simp only [if_pos hcolonThere]
    refine .bind (Same openers next) (fieldColon_run hcolon (hsorts.type_begins htype)) (.map _ ?_)
    exact ((hsorts.type htype (hparts type (by simp))).raise hlevel).mono
      (fun _ h => h.mono (by decide)) fun _ => id
  · obtain ⟨rfl, rfl⟩ := reads_pure.mp hpure
    have hwith := hnodes _ (List.mem_singleton_self _)
    have hexplicit := Node.isExplicit_of_withAttributes hwith
    have hconstruct := Node.isConstruct_of_isLed (hsorts.pattern hshape hexplicit).isLed
    refine .cast (.bind _ (hattributesRun ((Node.isExplicit_withAttributes hconstruct).mp hwith).1)
      (.bind _ (hshapeRun hexplicit) (.ahead ?_ fun again sorts hagain => by
        rw [hagain.isOp ":" (by decide)])))
      (show _ ++ (_ ++ []) = _ by simp [Node.leaves_withAttributes _ hconstruct])
    simp only [if_neg hnotColon]
    exact .pure

/-- What stands behind the inputs of a closure. -/
def closureBody (structs : Bool) (start : Node) (sorts : Sorts) : Parser Node := do
  if isOp "->" (← ahead) then
    let output ← output? sorts true
    let body ← block sorts
    return .branch .closure [start, .branch .output output, .branch .block [body]]
  else return .branch .closure [start, .nothing, ← sorts.expressionWhere structs]

theorem closure_eq (structs : Bool) (sorts : Sorts) : closure sorts structs =
    binder? sorts >>= fun parameters => keyword? "const" >>= fun constness =>
      keyword? "static" >>= fun movability => keyword? "async" >>= fun asyncness =>
        keyword? "move" >>= fun capture => operator "|" >>= fun opening =>
          separated "," (isOp "|") (closureInput sorts) >>= fun inputs =>
            operator "|" >>= fun closing => closureBody structs (.branch .start
              (parameters ++ constness ++ movability ++ asyncness ++ capture ++ opening :: inputs ++
                [closing])) sorts := rfl

variable (level) in
/-- What stands behind the inputs of a closure is read again. -/
theorem closureBody_run {start : Node} (hsorts : sorts.Replays)
    (h : (closureBody structs start sorts).Reads tokens node rest)
      (hnode : node.isExplicit = true) :
    start.isExplicit = true ∧ (node.isOperand = true ∧ node.isBlockLike = false) ∧ ∃ printed,
      node.leaves = start.leaves ++ printed ∧
        Run (level + 8) (closureBody structs start) (Same expressionEnds rest)
          (fun again => isOp "->" again = isOp "->" tokens) tokens node rest printed := by
  rcases reads_ite.mp (reads_ahead.mp h) with ⟨harrow, h⟩ | ⟨hnot, h⟩
  · obtain ⟨output, mid, houtput, body, last, hbody, hpure⟩ := by simpa only [reads_bind] using h
    obtain ⟨rfl, rfl⟩ := reads_pure.mp hpure
    have hparts := Node.isExplicit_parts hnode rfl
    have houtputs := Node.isExplicit_parts (hparts (.branch .output output) (by simp)) rfl
    have hblock := Node.isExplicit_parts (hparts (.branch .block [body]) (by simp)) rfl
    refine ⟨hparts start (by simp), ⟨rfl, rfl⟩, output.flatMap Node.leaves ++ body.leaves, by simp,
      .ahead ?_ fun again sorts hagain => by rw [hagain]⟩
    simp only [if_pos harrow]
    exact .bind _ ((output?_run hsorts houtput houtputs).mono (fun _ => id)
      fun _ h => h.isOp "->" (by decide)) ((block_run hsorts hbody (hblock body (by simp))).map _)
  · obtain ⟨value, last, hvalue, hpure⟩ := reads_bind.mp h
    obtain ⟨rfl, rfl⟩ := reads_pure.mp hpure
    have hparts := Node.isExplicit_parts hnode rfl
    refine ⟨hparts start (by simp), ⟨rfl, rfl⟩, value.leaves, by simp,
      .ahead ?_ fun again sorts hagain => by rw [hagain]⟩
    simp only [if_neg hnot]
    refine .map _ (((hsorts.expressionWhere hvalue (hparts value (by simp))).run.raise
      (by omega)).mono (fun _ => id) fun again hagain => ?_)
    rw [Bool.eq_false_iff.mpr hnot]
    exact Bool.eq_false_iff.mpr fun hthere => hnot (hagain.alike.isOp_of_again (by decide) hthere)

/-- A word that may stand in front of another one does not stand for it. -/
theorem not_word_of_keyword? {text other : String} {nodes : List Node}
    (h : (keyword? text).Reads tokens nodes rest) (hne : text ≠ other)
    (hrest : isWord other rest = false) : isWord other tokens = false := by
  rcases reads_onlyIf.mp h with ⟨hthere, -⟩ | ⟨-, -, rfl⟩
  · obtain ⟨others, rfl⟩ := eq_of_isWord hthere
    simpa [isWord] using hne
  · exact hrest

/-- The inputs of a closure are read again. -/
theorem closureInputs_run {nodes : List Node} (hsorts : sorts.Replays) (hlevel : 2 ≤ level)
    (h : (separated "," (isOp "|") (closureInput sorts)).Reads tokens nodes rest)
    (hnodes : ∀ node ∈ nodes, node.isExplicit = true) :
    Run level (fun sorts => separated "," (isOp "|") (closureInput sorts)) (Same patternEnds rest)
      (fun again => isOp "|" again = isOp "|" tokens) tokens nodes rest
      (nodes.flatMap Node.leaves) := by
  refine separated_run (fun h => h.isOp "|" (by decide)) (fun _ h => h.isOp "|" (by decide)) id
    (by decide) (fun hitem hfit => ?_) h hnodes
  exact (closureInput_run hsorts hlevel hitem hfit).mono (fun _ => id) fun _ h =>
    h.isOp "|" (by decide)

/-- A closure does not begin with a name. -/
theorem not_name_of_beginsClosure (h : beginsClosure tokens = true) :
    isPathWord tokens = false ∧ isOp "::" tokens = false ∧ isWord "try" tokens = false ∧
      (isWord "for" tokens = true → beginsBinder tokens = true) := by
  have hword : ∀ {text : String}, isWord text tokens = true → isPathWord [.word text] = false →
      text ≠ "try" → (text = "for" → beginsBinder tokens = true) →
        isPathWord tokens = false ∧ isOp "::" tokens = false ∧ isWord "try" tokens = false ∧
          (isWord "for" tokens = true → beginsBinder tokens = true) := by
    intro text hthere hpath htry hfor
    obtain ⟨others, rfl⟩ := eq_of_isWord hthere
    exact ⟨hpath, isOp_word .., by simpa [isWord] using htry,
      fun h => hfor (by simpa [isWord] using h)⟩
  simp only [beginsClosure, Bool.or_eq_true] at h
  rcases h with ((((hbar | hmove) | hbinder) | hconst) | hstatic) | hasync
  · obtain ⟨next, hnext⟩ := Option.isSome_iff_exists.mp hbar
    obtain ⟨-, spacing, mid, rfl, -⟩ :=
      afterOperator?_cons_eq_some.mp (show afterOperator? ['|'] tokens = some next from hnext)
    exact ⟨rfl, isOp_mark (by decide) _ _, rfl, fun h => absurd h Bool.false_ne_true⟩
  · exact hword hmove rfl (by decide) (by simp)
  · exact hword (Bool.and_eq_true_iff.mp hbinder).1 rfl (by decide) fun _ => hbinder
  · exact hword (Bool.and_eq_true_iff.mp hconst).1 rfl (by decide) (by simp)
  · exact hword hstatic rfl (by decide) (by simp)
  · exact hword (Bool.and_eq_true_iff.mp hasync).1 rfl (by decide) (by simp)

/-- A closure is read again. -/
theorem closure_run (hsorts : sorts.Replays) (h : (closure sorts structs).Reads tokens node rest)
    (hnode : node.isExplicit = true) (hlook : beginsClosure tokens = true) :
    AtomRun expressionEnds level (fun sorts => closure sorts structs) tokens node rest := by
  rw [closure_eq] at h
  obtain ⟨parameters, mid, hparameters, h⟩ := reads_bind.mp h
  obtain ⟨constness, mid₁, hconstness, h⟩ := reads_bind.mp h
  obtain ⟨movability, mid₂, hmovability, h⟩ := reads_bind.mp h
  obtain ⟨asyncness, mid₃, hasyncness, h⟩ := reads_bind.mp h
  obtain ⟨capture, mid₄, hcapture, h⟩ := reads_bind.mp h
  obtain ⟨opening, left, hopening, h⟩ := reads_bind.mp h
  obtain ⟨inputs, next, hinputs, h⟩ := reads_bind.mp h
  obtain ⟨closing, last, hclosing, hbody⟩ := reads_bind.mp h
  obtain ⟨hstart, ⟨hoperand, hblock⟩, printed, hleaves, hbodyRun⟩ :=
    closureBody_run level hsorts hbody hnode
  have hparts := Node.isExplicit_parts hstart rfl
  have hfor : isWord "for" mid = false := by
    refine not_word_of_keyword? hconstness (by decide) (not_word_of_keyword? hmovability (by decide)
      (not_word_of_keyword? hasyncness (by decide) (not_word_of_keyword? hcapture (by decide) ?_)))
    obtain ⟨-, spacing, _, rfl, -⟩ := afterOperator?_cons_eq_some.mp (reads_operator.mp hopening).1
    rfl
  have hbinder : Run level binder? (SameBinder openers mid) (SameBinder openers tokens) tokens
      parameters mid (parameters.flatMap Node.leaves) :=
    binder?_run hsorts hparameters (fun node hmem => hparts node (by simp [hmem]))
      (fun _ h => h.alike.isWord _) fun _ => id
  have hconst : Run level (fun _ => keyword? "const") (Same openers mid₁)
      (SameBinder openers mid) mid constness mid₁ (constness.flatMap Node.leaves) :=
    (keyword?_run hconstness rfl).mono (fun _ => id) fun _ h => ⟨h, fun hbinder => by
      rw [beginsBinder, hfor] at hbinder
      contradiction⟩
  have hopeningRun : Run level (fun _ => operator "|") (fun again => isOp "|" again = isOp "|" left)
      (Same openers mid₄) mid₄ opening left opening.leaves := clear_run hopening (by decide)
  have hclosingRun : Run (level + 8) (fun _ => operator "|")
      (fun again => isOp "->" again = isOp "->" last) (Same patternEnds next) next closing last
      closing.leaves := clear_run hclosing (by decide)
  rw [show (fun sorts => closure sorts structs) = _ from funext fun sorts =>
    closure_eq structs sorts]
  have hne := leaves_ne_nil_of_operator hopening
  obtain ⟨hword, hcolons, htry, hforBinder⟩ := not_name_of_beginsClosure hlook
  refine ⟨.mono (.cast (.bind _ hbinder (.bind _ hconst (.bind _ (keyword?_run hmovability rfl)
    (.bind _ (keyword?_run hasyncness rfl) (.bind _ (keyword?_run hcapture rfl)
      (.next _ hopeningRun hne
        (.bind _ (closureInputs_run hsorts (by omega) hinputs fun node hmem =>
        hparts node (by simp [hmem])) (.bind _ hclosingRun hbodyRun)))))))) ?_) (fun _ => id)
          fun again hagain => ⟨hagain.toSame, ?_, ?_, fun h => ?_⟩, hoperand,
    by rw [hleaves]; simp [hne], fun _ h => absurd (hblock.symm.trans h) Bool.false_ne_true⟩
  · rw [hleaves]
    simp
  · rw [callStatement_of_not hword hcolons,
      callStatement_of_not (hagain.alike.isPathWord.trans hword)
      ((hagain.isOp "::" (by decide)).trans hcolons)]
  · cases hfor : isWord "for" tokens with
    | true => rw [hforBinder hfor, hagain.beginsBinder (hforBinder hfor)]
    | false =>
      rw [beginsBinder, beginsBinder, hagain.alike.isWord, hfor]
      rfl
  · rw [htry] at h
    contradiction

/-! ### Conditions and ways out -/

/-- A pattern that a value is to match is read again. -/
theorem condition_run (hsorts : sorts.Replays)
    (h : (condition sorts structs).Reads tokens node rest)
    (hnode : node.isExplicit = true) :
    BranchRun expressionEnds level (fun sorts => condition sorts structs) tokens node rest := by
  obtain ⟨word, mid, hword, shape, left, hshape, equals, next, hequals, operand, last,
    hoperand, value, final, hvalue, hpure⟩ := by simpa only [condition, reads_bind] using h
  obtain ⟨rfl, rfl⟩ := reads_pure.mp hpure
  have hparts := Node.isExplicit_parts hnode rfl
  have hstart := Node.isExplicit_parts (hparts (.branch .start [word, shape, equals]) (by simp)) rfl
  obtain ⟨printed, hoperators⟩ := hsorts.operators hvalue (hparts value (by simp))
  have hkeyword : Run level (fun _ => keyword "let") (SamePattern mid) (Same openers tokens) tokens
      word mid word.leaves := keyword_run hword rfl fun _ h _ => h.alike
  have hequalsRun : Run (level + 8) (fun _ => operator "=") (SameExpression next)
      (Same alternativesEnds left) left equals next equals.leaves := clear_run hequals (by decide)
  obtain ⟨rfl, rfl⟩ := reads_keyword.mp hword
  exact ⟨.cast (.next _ hkeyword (by simp) (.bind _
    (alternatives_run hsorts (by omega) hshape (hstart shape (by simp))).1 (.bind _ hequalsRun
      (.bind _ ((hsorts.operand hoperand hoperators.isExplicit).run.raise (by omega))
        ((hoperators.run.raise (by omega)).map _))))) (by simp [hoperators.leaves]), rfl, by simp,
    fun h => absurd h Bool.false_ne_true⟩

/-- An operator that goes on no further does so again. -/
theorem Same.and_not (h : Same openers tokens again) {there thereAgain : Bool} {longer : String}
    (hthere : there = true → thereAgain = true) (hseen : IsSeen longer)
    (hnot : (there && !Grammar.isOp longer tokens) = true) :
    (thereAgain && !Grammar.isOp longer again) = true := by
  obtain ⟨hfound, hlonger⟩ := Bool.and_eq_true_iff.mp hnot
  refine Bool.and_eq_true_iff.mpr ⟨hthere hfound, ?_⟩
  rw [Bool.not_eq_true'] at hlonger ⊢
  exact Bool.eq_false_iff.mpr fun hagain =>
    Bool.false_ne_true (hlonger.symm.trans (h.alike.isOp_of_again hseen hagain))

/-- Where a value begins, it begins again. -/
theorem Same.beginsValue (h : Same openers tokens again)
    (hvalue : Grammar.beginsValue tokens = true) :
    Grammar.beginsValue again = true := by
  have hop : ∀ text : String, (text.toList.length = 1 ∧ IsSeen text) ∨ text ∈ openers →
      Grammar.isOp text tokens = true → Grammar.isOp text again = true := fun text htext hthere =>
    (h.isOp text htext).trans hthere
  simp only [Grammar.beginsValue, Bool.or_eq_true] at hvalue ⊢
  refine .imp (.imp (.imp (.imp (.imp (.imp (.imp (.imp (.imp (.imp (.imp (.imp (.imp (.imp
    ?_ (h.alike.isGroup _).trans) (h.alike.isGroup _).trans) (h.alike.isGroup _).trans)
    h.alike.isLiteral.trans) h.alike.isLifetime.trans)
    (h.and_not (hop "!" (by decide)) (by decide)))
    (h.and_not (h.and_not (hop "-" (by decide)) (by decide)) (by decide)))
    (h.and_not (hop "*" (by decide)) (by decide)))
    (h.and_not (hop "|" (by decide)) (by decide)))
    (h.and_not (hop "&" (by decide)) (by decide)))
    (hop ".." (by decide)))
    (h.and_not (h.and_not (hop "<" (by decide)) (by decide)) (by decide)))
    (hop "::" (by decide))) (hop "#" (by decide)) hvalue
  rw [h.alike.isAnyWord, h.alike.isWord]
  exact id

/-- Where no value begins, none begins again. -/
theorem Same.not_beginsValue (h : Same expressionEnds tokens again)
    (hvalue : Grammar.beginsValue tokens = false) : Grammar.beginsValue again = false := by
  have hcolons : Grammar.isOp "::" tokens = false → Grammar.isOp "::" again = false := fun hfalse =>
    Bool.eq_false_iff.mpr fun hagain => Bool.false_ne_true
      (hfalse.symm.trans (h.alike.isOp_of_again (by decide) hagain))
  simp only [Grammar.beginsValue, Bool.or_eq_false_iff] at hvalue ⊢
  rw [h.alike.isAnyWord, h.alike.isWord, h.alike.isGroup, h.alike.isGroup, h.alike.isGroup,
    h.alike.isLiteral, h.alike.isLifetime, h.isOp "!" (by decide), h.isOp "-" (by decide),
    h.isOp "*" (by decide), h.isOp "|" (by decide), h.isOp "&" (by decide), h.isOp ".." (by decide),
    h.isOp "<" (by decide), h.isOp "#" (by decide), h.isOp "!=" (by decide),
      h.isOp "-=" (by decide),
    h.isOp "->" (by decide), h.isOp "*=" (by decide), h.isOp "|=" (by decide),
      h.isOp "&=" (by decide),
    h.isOp "<=" (by decide), h.isOp "<<=" (by decide)]
  exact ⟨⟨hvalue.1.1, hcolons hvalue.1.2⟩, hvalue.2⟩

variable (level) in
/-- A value that may be left out is read again. -/
theorem outValue_run {allowed : List Token → Bool} (hsorts : sorts.Replays) (hlevel : 1 ≤ level)
    (hallowed : ∀ {tokens again}, Alike true tokens again → allowed again = allowed tokens)
    (h : (slotIf (fun tokens => beginsValue tokens && allowed tokens) sorts.expression).Reads tokens
      node rest) (hnode : node.isExplicit = true) :
    Run level (fun sorts => slotIf (fun tokens => beginsValue tokens && allowed tokens)
      sorts.expression) (Same expressionEnds rest) (fun again => Alike true tokens again ∧
        (beginsValue again && allowed again) = (beginsValue tokens && allowed tokens))
          tokens node rest
      node.leaves := by
  refine .slotIf sorts h (fun hlook h => ?_) (fun hlook heq after h => ?_) fun _ h => h.2
  · refine ((hsorts.expressionWhere h hnode).run.raise hlevel).mono (fun _ => id) fun again
      hagain => ?_
    have hvalue := (Bool.and_eq_true_iff.mp hlook).1
    exact ⟨hagain.alike, by rw [hagain.toSame.beginsValue hvalue, hvalue, hallowed hagain.alike]⟩
  · subst heq
    refine ⟨h.alike, ?_⟩
    rw [hallowed h.alike]
    cases hvalue : beginsValue tokens with
    | true =>
      have hnot : allowed tokens = false := by simpa [hvalue] using hlook
      rw [hnot, Bool.and_false, Bool.and_false]
    | false => rw [h.not_beginsValue hvalue]

/-- A way out with a value or without is read again. -/
theorem wayOut_run {text : String} {kind : Kind} (hsorts : sorts.Replays)
    (htext : isPathWord [.word text] = false) (hkind : ∀ word value,
      holdsArguments kind [word, value] = false ∧
        (Node.branch kind [word, value]).isOperand = true ∧
          (Node.branch kind [word, value]).isBlockLike = false)
    (h : (wayOut sorts text kind).Reads tokens node rest) (hnode : node.isExplicit = true) :
    BranchRun expressionEnds level (fun sorts => wayOut sorts text kind) tokens node rest := by
  obtain ⟨word, mid, hword, value, last, hvalue, hpure⟩ := by simpa only
    [wayOut, reads_bind] using h
  obtain ⟨rfl, rfl⟩ := reads_pure.mp hpure
  have hparts := Node.isExplicit_parts hnode (hkind word value).1
  have hvalueRun : Run (level + 8) (fun sorts => slotIf beginsValue sorts.expression)
      (Same expressionEnds last) (fun again => Alike true mid again ∧
        beginsValue again = beginsValue mid) mid value last value.leaves := by
    have hlook : beginsValue = fun tokens => beginsValue tokens && true := by
      funext tokens
      rw [Bool.and_true]
    rw [hlook] at hvalue
    have hrun : Run (level + 8) _ _ _ mid value last value.leaves :=
      outValue_run _ hsorts (by omega) (fun _ => rfl) hvalue (hparts value (by simp))
    simpa only [Bool.and_true] using hrun
  have hkeyword : Run level (fun _ => keyword text) (fun again => Alike true mid again ∧
      beginsValue again = beginsValue mid) (Same openers tokens) tokens word mid word.leaves :=
    keyword_run hword htext fun _ h _ => h.1
  obtain ⟨rfl, rfl⟩ := reads_keyword.mp hword
  exact ⟨.cast (.next _ hkeyword (by simp) (hvalueRun.map _)) (by simp), (hkind _ _).2.1, by simp,
    fun h => absurd ((hkind _ _).2.2.symm.trans h) Bool.false_ne_true⟩

/-- A way out of a loop or a block is read again. -/
theorem breakOut_run (hsorts : sorts.Replays) (h : (breakOut sorts structs).Reads tokens node rest)
    (hnode : node.isExplicit = true) :
    BranchRun expressionEnds level (fun sorts => breakOut sorts structs) tokens node rest := by
  obtain ⟨word, mid, hword, h⟩ := reads_bind.mp h
  unfold breakOut
  rcases reads_ite.mp (reads_ahead.mp h) with ⟨-, h⟩ | ⟨hnot, h⟩
  · obtain ⟨_, _, -, h⟩ := reads_bind.mp h
    exact absurd h not_reads_refuse
  obtain ⟨label, left, hlabel, value, last, hvalue, hpure⟩ := by simpa only [reads_bind] using h
  obtain ⟨rfl, rfl⟩ := reads_pure.mp hpure
  have hparts := Node.isExplicit_parts hnode rfl
  have hvalueRun := outValue_run (level + 8) hsorts (by omega)
    (fun h => by rw [h.isGroup]) hvalue (hparts value (by simp))
  have hlabelRun : Run (level + 8) (fun _ => slotIf isLifetime lifetime) (fun again =>
      Alike true left again ∧ (beginsValue again && (structs || !isGroup .brace again)) =
        (beginsValue left && (structs || !isGroup .brace left))) (Alike true mid) mid label left
      label.leaves :=
    .slotIf .none hlabel (fun _ h => Run.mono (show Run _ _ _ (Same [] _) _ _ _ _ from
      lifetime_run h fun _ h => h.1) (fun _ => id) fun _ h => h.alike)
        (fun _ heq after h => heq ▸ h.1) fun _ h => h.isLifetime
  have hkeyword : Run level (fun _ => keyword "break") (Alike true mid) (Same openers tokens) tokens
      word mid word.leaves := keyword_run hword rfl fun _ h _ => h
  obtain ⟨rfl, rfl⟩ := reads_keyword.mp hword
  refine ⟨.cast (.next _ hkeyword (by simp) (.ahead ?_ fun again sorts hagain => ?_))
    (show [_] ++ (label.leaves ++ value.leaves) = _ by simp), rfl, by simp,
    fun h => absurd h Bool.false_ne_true⟩
  · simp only [if_neg hnot]
    exact .bind _ hlabelRun (hvalueRun.map _)
  · cases hlifetime : isLifetime mid with
    | true => rw [hagain.isLifetime, hagain.isOp_afterLifetime hlifetime rfl (by decide), hlifetime]
    | false => rw [hagain.isLifetime, hlifetime, Bool.false_and, Bool.false_and]

/-- A way on to the next round is read again. -/
theorem continueOn_run (h : continueOn.Reads tokens node rest) :
    BranchRun expressionEnds level (fun _ => continueOn) tokens node rest := by
  obtain ⟨word, mid, hword, label, last, hlabel, hpure⟩ := by
    simpa only [continueOn, reads_bind] using h
  obtain ⟨rfl, rfl⟩ := reads_pure.mp hpure
  have hkeyword : Run level (fun _ => keyword "continue") (Same expressionEnds mid)
      (Same openers tokens) tokens word mid word.leaves :=
        keyword_run hword rfl fun _ h _ => h.alike
  obtain ⟨rfl, rfl⟩ := reads_keyword.mp hword
  exact ⟨.cast (.bind _ hkeyword ((lifetime?_run hlabel).map _)) (by simp), rfl, by simp,
    fun h => absurd h Bool.false_ne_true⟩

/-- A literal is read again as an expression. -/
theorem literalExpression_run (h : Parser.literal.Reads tokens node rest) :
    AtomRun expressionEnds level (fun _ => Parser.literal) tokens node rest := by
  have hrun : Run level (fun _ => Parser.literal) (Same expressionEnds rest)
      (Same openers tokens) tokens node rest node.leaves := literal_run h fun _ h => h.alike
  have hshape : isPathWord tokens = false ∧ isOp "::" tokens = false ∧ isWord "for" tokens = false ∧
      isWord "try" tokens = false ∧ node.isOperand = true ∧ node.leaves ≠ [] ∧
        node.isBlockLike = false := by
    unfold Reads Parser.literal at h
    split at h
    · obtain ⟨rfl, -, -⟩ := (Found.mk.injEq ..).mp (Except.ok.inj h)
      exact ⟨rfl, isOp_literal .., rfl, rfl, rfl, by simp, rfl⟩
    · split at h
      · rename_i htext
        obtain ⟨rfl, -, -⟩ := (Found.mk.injEq ..).mp (Except.ok.inj h)
        rcases Bool.or_eq_true_iff.mp htext with heq | heq
        · obtain rfl := beq_iff_eq.mp heq
          exact ⟨rfl, isOp_word .., rfl, rfl, rfl, by simp, rfl⟩
        · obtain rfl := beq_iff_eq.mp heq
          exact ⟨rfl, isOp_word .., rfl, rfl, rfl, by simp, rfl⟩
      · contradiction
    · split at h
      · obtain ⟨rfl, -, -⟩ := (Found.mk.injEq ..).mp (Except.ok.inj h)
        exact ⟨rfl, isOp_mark (by decide) _ _, rfl, rfl, rfl, by simp, rfl⟩
      · contradiction
    · contradiction
  obtain ⟨hword, hcolons, hfor, htry, hoperand, hne, hblock⟩ := hshape
  exact ⟨hrun.mono (fun _ => id) fun _ h => h.expression hword hcolons hfor htry, hoperand, hne,
    fun _ h => absurd (hblock.symm.trans h) Bool.false_ne_true⟩

/-! ### Atoms by their beginning -/

/-- A label in front looks from before as an expression does. -/
theorem BranchRun.atom_of_lifetime {parser : Sorts → Parser Node}
    (h : BranchRun operators level parser tokens node rest) (hlook : isLifetime tokens = true) :
    AtomRun operators level parser tokens node rest := by
  cases tokens with
  | nil => contradiction
  | cons token others =>
    cases token with
    | mark char spacing =>
      obtain rfl : char = '\'' := by
        by_contra hne
        rw [isLifetime_mark _ hne] at hlook
        contradiction
      exact h.atom rfl (isOp_quote ..) rfl rfl
    | _ => contradiction

/-- A range without a first end is read again. -/
theorem openRange_run (hsorts : sorts.Replays)
    (h : (rangeAfter sorts structs .nothing).Reads tokens node rest)
      (hnode : node.isExplicit = true)
    (hlook : isOp ".." tokens = true) :
    AtomRun expressionEnds level (fun sorts => rangeAfter sorts structs .nothing) tokens
      node rest := by
  obtain ⟨-, ⟨hoperand, hblock⟩, -, -, printed, hne, hleaves, hrun⟩ :=
    rangeAfter_run level (openers ++ ["..=", "..."]) hsorts h hnode (by simp) (by decide)
  rw [Node.leaves_nothing, List.nil_append] at hleaves
  obtain ⟨next, hnext⟩ := Option.isSome_iff_exists.mp hlook
  obtain ⟨-, spacing, mid, rfl, -⟩ :=
    afterOperator?_cons_eq_some.mp (show afterOperator? ['.', '.'] tokens = some next from hnext)
  rw [← hleaves] at hrun hne
  refine ⟨hrun.mono (fun _ => id) fun again hagain => ?_, hoperand, hne,
    fun _ h => absurd (hblock.symm.trans h) Bool.false_ne_true⟩
  exact (hagain.mono (List.subset_append_left ..)).expression rfl (isOp_mark (by decide) _ _)
    rfl rfl

/-- An atom, given the tokens that it begins with. -/
def atomFrom (sorts : Sorts) (structs : Bool) (start tokens : List Token) : Parser Node :=
  if isLiteral tokens then literal
  else if beginsAsync tokens then asyncBlock sorts
  else if beginsTryBlock tokens then tryBlock sorts
  else if beginsClosure tokens then closure sorts structs
  else if isBuiltin tokens then builtin start
  else if beginsPath tokens ||
      (isWord "try" tokens && isOneOf ["!", "::"] (afterOne tokens)) then
    namedExpression sorts structs
  else if isGroup .parenthesis tokens then enclosedExpression sorts
  else if isWord "break" tokens then breakOut sorts structs
  else if isWord "continue" tokens then continueOn
  else if isWord "return" tokens then wayOut sorts "return" .returnFrom
  else if isWord "become" tokens then becomeCall sorts
  else if isGroup .bracket tokens then bracketedExpression sorts
  else if isWord "let" tokens then condition sorts structs
  else if isWord "if" tokens then ifExpression sorts
  else if isWord "while" tokens then whileLoop sorts
  else if isWord "for" tokens then forLoop sorts
  else if isWord "loop" tokens then endlessLoop sorts
  else if isWord "match" tokens then matchExpression sorts
  else if isWord "yield" tokens then wayOut sorts "yield" .yieldValue
  else if isWord "unsafe" tokens then blockAfter sorts "unsafe" .guarded
  else if isWord "const" tokens then blockAfter sorts "const" .constBlock
  else if isGroup .brace tokens then blockExpression sorts
  else if isOp ".." tokens then rangeAfter sorts structs .nothing
  else if isWord "_" tokens then return .branch .inferred [← keyword "_"]
  else if isLifetime tokens then labelled sorts
  else expected ["an expression"]

theorem atom_eq (sorts : Sorts) (structs : Bool) :
    atom sorts structs = ahead >>= fun tokens => atomFrom sorts structs tokens tokens := rfl

/-- Where the start of an atom is kept, the atom is not explicit. -/
theorem reads_atomFrom {start start' left : List Token}
    (h : (atomFrom sorts structs start tokens).Reads left node rest)
      (hnode : node.isExplicit = true) :
    (atomFrom sorts structs start' tokens).Reads left node rest :=
  reads_ite.mpr <| (reads_ite.mp h).imp id <| .imp id fun h =>
  reads_ite.mpr <| (reads_ite.mp h).imp id <| .imp id fun h =>
  reads_ite.mpr <| (reads_ite.mp h).imp id <| .imp id fun h =>
  reads_ite.mpr <| (reads_ite.mp h).imp id <| .imp id fun h =>
  reads_ite.mpr <| (reads_ite.mp h).imp
    (.imp id fun h => absurd hnode (Node.not_isExplicit_of_isVerbatim (isVerbatim_of_builtin h))) id

/-- What a glance sees behind a word is there again if the word is. -/
theorem Alike.isWord_and_eq (h : Alike true tokens again) {text : String}
    (htext : text ∉ boundWords)
    {behind behindAgain : Bool}
    (hbehind : Alike true (afterOne tokens) (afterOne again) → behindAgain = behind) :
    (Grammar.isWord text again && behindAgain) = (Grammar.isWord text tokens && behind) := by
  rw [h.isWord]
  cases hword : Grammar.isWord text tokens with
  | true => rw [hbehind (h.behind ⟨text, hword, htext⟩)]
  | false => rfl

theorem Alike.beginsAsync (h : Alike true tokens again) :
    Grammar.beginsAsync again = Grammar.beginsAsync tokens :=
  h.isWord_and_eq (by decide) fun hbehind => by
    rw [hbehind.isGroup, hbehind.isWord_and_eq (by decide) fun hmore => hmore.isGroup _]

theorem Alike.beginsTryBlock (h : Alike true tokens again) :
    Grammar.beginsTryBlock again = Grammar.beginsTryBlock tokens :=
  h.isWord_and_eq (by decide) fun hbehind => hbehind.isGroup _

theorem SameExpression.beginsClosure (h : SameExpression tokens again) :
    Grammar.beginsClosure again = Grammar.beginsClosure tokens := by
  rw [Grammar.beginsClosure, Grammar.beginsClosure, h.isOp "|" (by decide), h.alike.isWord "move",
    h.beginsBinder, h.alike.isWord "static", h.alike.isWord_and_eq (by decide) fun hbehind => by
      rw [hbehind.isGroup], h.alike.isWord_and_eq (by decide) fun hbehind => by
      rw [hbehind.isOp_char "|" rfl (by decide), hbehind.isWord]]

theorem SameExpression.tryPath (h : SameExpression tokens again) :
    (isWord "try" again && isOneOf ["!", "::"] (afterOne again)) =
      (isWord "try" tokens && isOneOf ["!", "::"] (afterOne tokens)) := by
  rw [h.alike.isWord]
  cases htry : isWord "try" tokens with
  | true => rw [h.tryMark htry]
  | false => rfl

/-- An atom is chosen as it was. -/
theorem SameExpression.atomFrom {start : List Token} (h : SameExpression tokens again) :
    Grammar.atomFrom sorts structs start again = Grammar.atomFrom sorts structs start tokens := by
  rw [Grammar.atomFrom, Grammar.atomFrom, h.tryPath]
  simp only [h.alike.isLiteral, h.alike.beginsAsync, h.alike.beginsTryBlock,
    h.beginsClosure, h.alike.isBuiltin, h.toSame.beginsPath, h.alike.isGroup, h.alike.isWord,
    h.isOp ".." (by decide), h.alike.isLifetime]

/-- Where no closure begins, no parameters are bound. -/
theorem not_beginsBinder (h : ¬ beginsClosure tokens = true) : beginsBinder tokens = false := by
  rw [Bool.eq_false_iff]
  intro hbinder
  simp [beginsClosure, hbinder] at h

variable (level) in
/-- An atom is read again. -/
theorem atom_run (hsorts : sorts.Replays) (h : (atom sorts structs).Reads tokens node rest)
    (hnode : node.isExplicit = true) :
      AtomRun expressionEnds level (fun sorts => atom sorts structs) tokens node rest := by
  rw [atom_eq] at h
  have h := reads_ahead.mp h
  suffices hrun : AtomRun expressionEnds level (fun sorts => atomFrom sorts structs tokens tokens)
    tokens node rest by
    refine ⟨?_, hrun.isOperand, hrun.leaves_ne, hrun.beginsBlock⟩
    rw [show (fun sorts => atom sorts structs) = _ from funext fun sorts => atom_eq sorts structs]
    refine .aheadFrom hrun.run fun again sorts after hagain hreads => ?_
    rw [hagain.atomFrom]
    exact reads_atomFrom hreads hnode
  unfold atomFrom
  refine .ite h (fun _ h => literalExpression_run h) fun _ h =>
    .ite h (fun hlook h => (asyncBlock_run hsorts h hnode).atom_of_word
      (Bool.and_eq_true_iff.mp hlook).1 rfl (by decide) (by decide)) fun _ h =>
    .ite h (fun _ h => tryBlock_run hsorts h hnode) fun _ h =>
    .ite h (fun hlook h => closure_run hsorts h hnode hlook) fun hnotClosure h =>
    .ite h (fun _ h => absurd hnode (Node.not_isExplicit_of_isVerbatim (isVerbatim_of_builtin h)))
      fun _ h =>
    .ite h (fun _ h => namedExpression_run hsorts h hnode) fun _ h =>
    .ite h (fun hlook h => (enclosedExpression_run hsorts h hnode).atom_of_group hlook) fun _ h =>
    .ite h (fun hlook h => (breakOut_run hsorts h hnode).atom_of_word hlook rfl (by decide)
      (by decide)) fun _ h =>
    .ite h (fun hlook h => (continueOn_run h).atom_of_word hlook rfl (by decide) (by decide))
      fun _ h =>
    .ite h (fun hlook h =>
      (wayOut_run hsorts rfl (fun _ _ => ⟨rfl, rfl, rfl⟩) h hnode).atom_of_word hlook rfl
      (by decide) (by decide)) fun _ h =>
    .ite h (fun _ h => absurd hnode (Node.not_isExplicit_of_isVerbatim (isVerbatim_of_asRead h)))
      fun _ h =>
    .ite h (fun hlook h => (bracketedExpression_run hsorts h hnode).atom_of_group hlook) fun _ h =>
    .ite h (fun hlook h => (condition_run hsorts h hnode).atom_of_word hlook rfl (by decide)
      (by decide)) fun _ h =>
    .ite h (fun hlook h => (ifExpression_run hsorts h hnode).atom_of_word hlook rfl (by decide)
      (by decide)) fun _ h =>
    .ite h (fun hlook h => (whileLoop_run hsorts h hnode).atom_of_word hlook rfl (by decide)
      (by decide)) fun _ h =>
    .ite h (fun _ h => forLoop_atom hsorts h hnode (not_beginsBinder hnotClosure)) fun _ h =>
    .ite h (fun hlook h => (endlessLoop_run hsorts h hnode).atom_of_word hlook rfl (by decide)
      (by decide)) fun _ h =>
    .ite h (fun hlook h => (matchExpression_run hsorts h hnode).atom_of_word hlook rfl (by decide)
      (by decide)) fun _ h =>
    .ite h (fun hlook h =>
      (wayOut_run hsorts rfl (fun _ _ => ⟨rfl, rfl, rfl⟩) h hnode).atom_of_word hlook rfl
      (by decide) (by decide)) fun _ h =>
    .ite h (fun hlook h => (blockAfter_run hsorts rfl (fun _ _ => ⟨rfl, rfl⟩)
      (fun _ _ => rfl) h hnode).atom_of_word hlook
      rfl (by decide) (by decide)) fun _ h =>
    .ite h (fun hlook h => (blockAfter_run hsorts rfl (fun _ _ => ⟨rfl, rfl⟩)
      (fun _ _ => rfl) h hnode).atom_of_word hlook
      rfl (by decide) (by decide)) fun _ h =>
    .ite h (fun hlook h => (blockExpression_run hsorts h hnode).atom_of_group hlook) fun _ h =>
    .ite h (fun hlook h => openRange_run hsorts h hnode hlook) fun _ h =>
    .ite h (fun hlook h => ?_) fun _ h =>
    .ite h (fun hlook h => (labelled_run hsorts h hnode).atom_of_lifetime hlook) fun _ h =>
    absurd h not_reads_expected
  obtain ⟨word, left, hword, hpure⟩ := reads_bind.mp h
  obtain ⟨rfl, rfl⟩ := reads_pure.mp hpure
  have hrun : Run level (fun _ => keyword "_") (Same expressionEnds left)
    (Same openers tokens) tokens word left word.leaves := keyword_run hword rfl fun _ h _ => h.alike
  obtain ⟨rfl, rfl⟩ := reads_keyword.mp hword
  have hbranch :
    BranchRun expressionEnds level (fun _ => do return .branch .inferred [← keyword "_"])
      (.word "_" :: left) (.branch .inferred [.word "_"]) left :=
    ⟨(hrun.map fun word => Node.branch .inferred [word]).cast (by simp), rfl, by simp,
      fun h => absurd h Bool.false_ne_true⟩
  exact hbranch.atom_of_word hlook rfl (by decide) (by decide)

end Atom

end Typestate.Grammar
