import Typestate.Proofs.Rereading.Body

/-!
# Statements, read again

A statement is told from others by its first words, some of which are looked at past a name. What
needs no semicolon ends where it ends, and what needs one and has none is the last statement.
-/

namespace Typestate.Grammar

open Grammar.Parser Lexer Token

section Statement

variable {level : ℕ} {sorts : Sorts} {operators : List String} {tokens rest again : List Token}
  {node : Node} {attributes : List Node}

/-- A statement looks from before as it did, also to a glance for the call of a macro. -/
structure SameStatement (tokens again : List Token) : Prop extends Same openers tokens again where
  callStatement : callStatement again = callStatement tokens

theorem SameExpression.statement (h : SameExpression tokens again) : SameStatement tokens again :=
  ⟨h.toSame, h.callStatement⟩

/-- What begins with no name looks from before as a statement does. -/
theorem Same.statement (h : Same openers tokens again) (hword : isPathWord tokens = false)
    (hcolons : Grammar.isOp "::" tokens = false) : SameStatement tokens again :=
  ⟨h, by rw [callStatement_of_not hword hcolons, callStatement_of_not
    (h.alike.isPathWord.trans hword) ((h.isOp "::" (by decide)).trans hcolons)]⟩

/-- An item begins where it did. -/
theorem Same.beginsItem (h : Same openers tokens again) :
    Grammar.beginsItem again = Grammar.beginsItem tokens := by
  have hcrate : (isWord "crate" again && !Grammar.isOp "::" (afterOne again)) =
      (isWord "crate" tokens && !Grammar.isOp "::" (afterOne tokens)) := by
    rw [h.alike.isWord]
    cases hword : isWord "crate" tokens with
    | false => rfl
    | true =>
      have hpath : isPathWord tokens = true := by
        obtain ⟨others, rfl⟩ := eq_of_isWord hword
        rfl
      rw [h.afterName hpath "::" (by decide) (by decide)]
  rw [Grammar.beginsItem, Grammar.beginsItem, h.alike.isAnyOf, hcrate,
    h.alike.isWord_and_eq (by decide : "static" ∉ boundWords) fun hbehind => by
      rw [hbehind.isWord, hbehind.isIdentifier],
    h.alike.isWord_and_eq (by decide : "const" ∉ boundWords) fun hbehind => by
      rw [hbehind.isGroup, hbehind.isWord, hbehind.isWord_and_eq (by decide : "async" ∉ boundWords)
        fun hmore => by rw [hmore.isAnyOf], hbehind.isWord, hbehind.isOp_char "|" rfl (by decide)],
    h.alike.isWord_and_eq (by decide : "unsafe" ∉ boundWords)
      fun hbehind => by rw [hbehind.isGroup],
    h.alike.isWord_and_eq (by decide : "async" ∉ boundWords) fun hbehind => hbehind.isAnyOf _,
    h.alike.isWord_and_eq (by decide : "union" ∉ boundWords) fun hbehind => hbehind.isIdentifier,
    h.alike.isWord_and_eq (by decide : "auto" ∉ boundWords) fun hbehind => hbehind.isWord _,
    h.alike.isWord_and_eq (by decide : "default" ∉ boundWords) fun hbehind => hbehind.isAnyOf _]

/-! ### Calls of macros -/

/-- What stands behind the path of a call decides what the call turns out to be. -/
theorem callStatement_of_plainPath {path : PlainPath} (h : plainPath.Reads tokens path rest) :
    callStatement tokens = callFrom rest := by
  rw [callStatement, show plainPath tokens = _ from h]
  rfl

/-- What stands behind the path of a call in braces is a group, and nothing reaches into it. -/
theorem callFrom_eq_statement {delimiter : Delimiter} {inner : List Token} {spacing : Spacing} :
    callFrom (.mark '!' spacing :: .group delimiter inner :: rest) = .statement ↔
      delimiter = .brace ∧ isDot rest = false ∧ isOp "?" rest = false := by
  cases delimiter <;> simp [callFrom, afterOne, isIdentifier, isWord, isGroup, Token.isGroup, isOp,
    afterOperator?]

variable (level) in
/-- A call of a macro in braces is read again as a statement. -/
theorem callOfMacro_run (h : (callOfMacro attributes).Reads tokens node rest)
    (hcall : callStatement tokens = .statement) (hnode : node.isExplicit = true) :
    (∀ node ∈ attributes, node.isExplicit = true) ∧ ∃ printed, printed ≠ [] ∧
      node.leaves = attributes.flatMap Node.leaves ++ printed ∧
      Run level (fun _ => callOfMacro attributes) (Same openers rest) (SameStatement tokens) tokens
        node rest printed := by
  obtain ⟨path, mid, hpath, body, left, hbody, semicolon, last, hsemicolon, hpure⟩ := by
    simpa only [callOfMacro, reads_bind] using h
  obtain ⟨rfl, rfl⟩ := reads_pure.mp hpure
  rw [callStatement_of_plainPath hpath] at hcall
  obtain ⟨bang, next, hbang, ⟨delimiter, group⟩, final, hgroup, hpure⟩ := by
    simpa only [callBody, reads_bind] using hbody
  obtain ⟨rfl, rfl⟩ := reads_pure.mp hpure
  obtain ⟨delimiter, inner, rfl, heq⟩ := reads_anyGroup.mp hgroup
  obtain ⟨rfl, rfl⟩ := Prod.mk.inj heq
  obtain ⟨-, spacing, others, rfl, hothers⟩ := afterOperator?_cons_eq_some.mp
    (show afterOperator? ['!'] mid = some _ from (reads_operator.mp hbang).1)
  obtain rfl : others = _ := by simpa using hothers
  obtain ⟨hbrace, hdot, hmark⟩ := callFrom_eq_statement.mp hcall
  have hbangRun :
    Run level (fun _ => operator "!") (fun again => ∃ after, Same openers final after ∧
      again = .group delimiter inner :: after) (fun again =>
        Same openers (.mark '!' spacing :: .group delimiter inner :: final) again ∧
          callFrom again = .statement) (.mark '!' spacing :: .group delimiter inner :: final) bang
      (.group delimiter inner :: final) bang.leaves := by
    refine operator_run hbang fun again hagain => ?_
    obtain ⟨after, hafter, rfl⟩ := hagain
    refine ⟨same_bang (reads_operator.mp hbang).1 ?_ (by decide), ?_⟩
    · cases spacing <;> simp [isCallMark, isOp, afterOperator?]
    · exact callFrom_eq_statement.mpr ⟨hbrace, (hafter.isDot (by decide)).trans hdot,
        (hafter.isOp "?" (by decide)).trans hmark⟩
  have hgroupRun : Run level (fun _ => anyGroup) (Same openers final) (fun again => ∃ after,
      Same openers final after ∧ again = .group delimiter inner :: after)
      (.group delimiter inner :: final) (delimiter, .group delimiter [.verbatim inner]) final
      (Node.group delimiter [.verbatim inner]).leaves := by
    have hrun : Run level (fun _ => anyGroup) (Same openers final) (Same [] _)
        (.group delimiter inner :: final) _ final _ := anyGroup_run hgroup
    refine ⟨hrun.again, fun {after} hafter => ⟨after, hafter, ?_⟩, hrun.written, hrun.shorter⟩
    simp [Node.leaves_group]
  have hpathRun : Run level (fun _ => plainPath) (fun again =>
        Same openers (.mark '!' spacing :: .group delimiter inner :: final) again ∧
          callFrom again = .statement) (SameStatement tokens) tokens path
      (.mark '!' spacing :: .group delimiter inner :: final) path.node.leaves := by
    have hrun : Run level (fun _ => plainPath)
        (Same openers (.mark '!' spacing :: .group delimiter inner :: final))
          (Same openers tokens) tokens
        path (.mark '!' spacing :: .group delimiter inner :: final) path.node.leaves :=
        plainPath_run hpath
    refine ⟨fun hafter => hrun.again hafter.1, fun {after} hafter => ⟨hrun.begins hafter.1, ?_⟩,
      hrun.written, hrun.shorter⟩
    rw [callStatement_of_plainPath (hrun.again hafter.1 le_rfl), hafter.2,
      callStatement_of_plainPath hpath, hcall]
  have hsemicolonRun :
    Run level (fun _ => semicolon?) (Same openers last) (Same openers final) final
      semicolon last (semicolon.flatMap Node.leaves) :=
        operator?_run hsemicolon (by decide) (by decide)
  have hne := leaves_ne_nil_of_operator hbang
  have hbodyRun : Run level (fun _ => callBody) (Same openers final) _ _
      ⟨delimiter, [bang, .group delimiter [.verbatim inner]]⟩ final _ :=
    hbangRun.bind _ (hgroupRun.map fun found => (⟨found.1, [bang, found.2]⟩ : CallBody))
  have hleading : ∀ node ∈ attributes, node.isExplicit = true := by
    simp only [Node.isExplicit, Bool.and_eq_true, listIsExplicit_iff] at hnode
    exact hnode.1.2
  exact ⟨hleading,
    path.node.leaves ++ ((bang.leaves ++ (Node.group delimiter [.verbatim inner]).leaves) ++
    semicolon.flatMap Node.leaves), by simp [hne], by simp, .bind _ hpathRun (.bind _ hbodyRun
      (hsemicolonRun.map _))⟩

/-! ### Expressions -/

/-- The node that an attribute is put in front of is explicit if it is with the attribute. -/
theorem Node.isExplicit_of_withLeadingAttributes
    (h : (node.withLeadingAttributes attributes).isExplicit = true) : node.isExplicit = true := by
  fun_induction Node.withLeadingAttributes attributes node with
  | case1 others first sign second ih =>
    obtain ⟨-, -, hothers, hparts⟩ := (Node.isExplicit_construct rfl).mp h
    refine (Node.isExplicit_construct rfl).mpr ⟨by decide, rfl, hothers, ?_⟩
    simpa using ⟨ih (hparts _ (by simp)), hparts sign (by simp), hparts second (by simp)⟩
  | case2 others first sign second ih =>
    obtain ⟨-, -, hothers, hparts⟩ := (Node.isExplicit_construct rfl).mp h
    refine (Node.isExplicit_construct rfl).mpr ⟨by decide, rfl, hothers, ?_⟩
    simpa using ⟨ih (hparts _ (by simp)), hparts sign (by simp), hparts second (by simp)⟩
  | case3 others first sign second ih =>
    obtain ⟨-, -, hothers, hparts⟩ := (Node.isExplicit_construct rfl).mp h
    refine (Node.isExplicit_construct rfl).mpr ⟨by decide, rfl, hothers, ?_⟩
    simpa using ⟨ih (hparts _ (by simp)), hparts sign (by simp), hparts second (by simp)⟩
  | case4 node => exact Node.isExplicit_of_withAttributes h

/-- Attributes in front of an expression are printed in front of all of it. -/
theorem Node.leaves_withLeadingAttributes (hled : node.isLed = true) :
    (node.withLeadingAttributes attributes).leaves =
      attributes.flatMap Node.leaves ++ node.leaves := by
  fun_induction Node.withLeadingAttributes attributes node with
  | case1 others first sign second ih =>
    obtain ⟨hothers, hfirst⟩ := Bool.and_eq_true_iff.mp hled
    simp [List.isEmpty_iff.mp hothers, ih hfirst]
  | case2 others first sign second ih =>
    obtain ⟨hothers, hfirst⟩ := Bool.and_eq_true_iff.mp hled
    simp [List.isEmpty_iff.mp hothers, ih hfirst]
  | case3 others first sign second ih =>
    obtain ⟨hothers, hfirst⟩ := Bool.and_eq_true_iff.mp hled
    simp [List.isEmpty_iff.mp hothers, ih hfirst]
  | case4 node => exact Node.leaves_withAttributes _ (Node.isConstruct_of_isLed hled)

/-- Attributes in front of an expression are explicit if they are together with it. -/
theorem Node.isExplicit_leadingAttributes (hled : node.isLed = true)
    (h : (node.withLeadingAttributes attributes).isExplicit = true) :
    ∀ other ∈ attributes, other.isExplicit = true := by
  fun_induction Node.withLeadingAttributes attributes node with
  | case1 others first sign second ih =>
    exact ih (Bool.and_eq_true_iff.mp hled).2 (Node.isExplicit_parts h rfl _ (by simp))
  | case2 others first sign second ih =>
    exact ih (Bool.and_eq_true_iff.mp hled).2 (Node.isExplicit_parts h rfl _ (by simp))
  | case3 others first sign second ih =>
    exact ih (Bool.and_eq_true_iff.mp hled).2 (Node.isExplicit_parts h rfl _ (by simp))
  | case4 node =>
    exact ((Node.isExplicit_withAttributes (Node.isConstruct_of_isLed hled)).mp h).1

theorem Node.isBlockLike_withLeadingAttributes (attributes : List Node) (node : Node) :
    (node.withLeadingAttributes attributes).isBlockLike = node.isBlockLike := by
  fun_cases Node.withLeadingAttributes attributes node with
  | case1 | case2 | case3 => rfl
  | case4 node => exact Node.isBlockLike_withAttributes attributes _

/-- An expression as a statement is read again, whatever text it is said to begin with. -/
theorem expressionStatement_run {isOpen : Bool} {start : List Token} (hsorts : sorts.Replays)
    (hlevel : 2 ≤ level)
    (h : (expressionStatement sorts attributes start).Reads tokens (isOpen, node) rest)
    (hnode : node.isExplicit = true) (hopen : isOpen = true → rest = []) :
    (∀ node ∈ attributes, node.isExplicit = true) ∧ ∃ printed, printed ≠ [] ∧
      node.leaves = attributes.flatMap Node.leaves ++ printed ∧ ∀ start,
      Run level (fun sorts => expressionStatement sorts attributes start) (Same openers rest)
        (SameExpression tokens) tokens (isOpen, node) rest printed := by
  obtain ⟨value, mid, hvalue, h⟩ := reads_bind.mp h
  rcases reads_ite.mp h with ⟨-, h⟩ | ⟨hplain, h⟩
  · obtain ⟨kept, left, hkept, semicolon, last, -, hpure⟩ := by simpa only [reads_bind] using h
    obtain ⟨-, rfl⟩ := Prod.mk.inj (reads_pure.mp hpure).1
    exact absurd (Node.isExplicit_parts hnode rfl kept (by simp))
      (Node.not_isExplicit_of_isVerbatim (isVerbatim_of_keepFrom hkept))
  obtain ⟨semicolon, last, hsemicolon, hpure⟩ := by simpa only [pure_bind, reads_bind] using h
  obtain ⟨heq, rfl⟩ := reads_pure.mp hpure
  obtain ⟨rfl, rfl⟩ := Prod.mk.inj heq
  have hled := Node.isExplicit_parts hnode rfl (value.withLeadingAttributes attributes) (by simp)
  have hexplicit := Node.isExplicit_of_withLeadingAttributes hled
  have hvalueRun := hsorts.bodyExpression hvalue hexplicit
  -- Behind the expression stands a semicolon, or it ends with a block, or nothing follows.
  obtain ⟨middle, hfirst, hsecond⟩ : ∃ middle, Run level (fun sorts => sorts.bodyExpression) middle
      (SameExpression tokens) tokens value mid value.leaves ∧
      Run level (fun _ => semicolon?) (Same openers last) middle mid semicolon last
        (semicolon.flatMap Node.leaves) := by
    rcases reads_onlyIf.mp hsemicolon with ⟨hthere, hreads⟩ | ⟨hnot, rfl, rfl⟩
    · refine ⟨Same expressionEnds mid, hvalueRun.run.raise hlevel, .onlyIf .none hsemicolon
        (fun _ hreads => ?_) (fun hnot => absurd hthere (by rw [hnot]; exact Bool.false_ne_true))
        fun again hagain => hagain.isOp ";" (by decide)⟩
      obtain ⟨sign, hsign, rfl⟩ := reads_one.mp hreads
      exact (clear_run hsign (by decide)).one.cast (List.append_nil _).symm
    · cases hblock : value.isBlockLike with
      | true =>
        exact ⟨Same openers mid, (hsorts.bodyExpression_ends hvalue hexplicit hblock
          (by decide)).raise hlevel, operator?_run hsemicolon (by decide) (by decide)⟩
      | false =>
        obtain rfl : mid = [] := by
          refine hopen ?_
          have hdoubt : ((value.withLeadingAttributes attributes).isKind .callMacro &&
              (value.withLeadingAttributes attributes).endsInBraces) = false :=
            ((Node.isExplicit_construct rfl).mp hnode).2.1
          rw [Node.isStatement, hdoubt, Bool.or_false, Node.isBlockLike_withLeadingAttributes,
            hblock]
          rfl
        refine ⟨Same expressionEnds [], hvalueRun.run.raise hlevel, ?_⟩
        refine (operator?_run hsemicolon (by decide) (by decide)).mono (fun _ => id)
          fun again hagain => ?_
        obtain rfl : again = [] := by simpa using hagain.alike.isEmpty
        exact .nil _
  refine ⟨Node.isExplicit_leadingAttributes hvalueRun.isLed hled,
    value.leaves ++ semicolon.flatMap Node.leaves,
    List.append_ne_nil_of_left_ne_nil hvalueRun.leaves_ne _, ?_,
      fun start => .bind middle hfirst ?_⟩
  · simp [Node.leaves_withLeadingAttributes hvalueRun.isLed]
  · simp only [if_neg hplain, pure_bind]
    exact hsecond.map _

/-! ### Declarations of values -/

variable (level) in
/-- The declaration of a value is read again. -/
theorem localStatement_run (hsorts : sorts.Replays) (hlevel : 1 ≤ level)
    (h : (localStatement sorts attributes).Reads tokens node rest)
      (hnode : node.isExplicit = true) :
    (∀ node ∈ attributes, node.isExplicit = true) ∧ ∃ printed, printed ≠ [] ∧
      node.leaves = attributes.flatMap Node.leaves ++ printed ∧
      Run level (fun sorts => localStatement sorts attributes) (Same openers rest)
        (Same openers tokens) tokens node rest printed := by
  obtain ⟨word, mid, hword, shape, left, hshape, type, next, htype, value, last, hvalue, semicolon,
    final, hsemicolon, hpure⟩ := by simpa only [localStatement, reads_bind] using h
  obtain ⟨rfl, rfl⟩ := reads_pure.mp hpure
  obtain ⟨-, -, hleading, hparts⟩ := (Node.isExplicit_construct rfl).mp hnode
  have hkeyword : Run level (fun _ => keyword "let") (SamePattern mid) (Same openers tokens) tokens
      word mid word.leaves := keyword_run hword rfl fun _ h _ => h.alike
  have hshapeRun := (hsorts.pattern hshape (hparts shape (by simp))).run
  have htypeRun : Run (level + 8) (fun sorts => onlyIf (isOp ":") do
      return [← operator ":", ← sorts.type true]) (Same patternEnds next)
        (Same patternEnds left) left
      type next (type.flatMap Node.leaves) := by
    refine .onlyIf sorts htype (fun _ h => ?_) (fun _ heq after => heq ▸ id)
      fun again hagain => hagain.isOp ":" (by decide)
    obtain ⟨colon, behind, hcolon, found, last, hfound, hpure⟩ := by simpa only [reads_bind] using h
    obtain ⟨rfl, rfl⟩ := reads_pure.mp hpure
    have hfoundRun := hsorts.type hfound (hparts found (by simp))
    have hcolonRun : Run (level + 8) (fun _ => operator ":") (Same openers behind)
        (Same patternEnds left) left colon behind colon.leaves :=
      colon_run hcolon (by decide) ((hsorts.type_begins hfound).isInputTurbofish hcolon)
    exact .cast (.bind _ hcolonRun (((hfoundRun.raise (by omega)).mono
      (fun _ h => h.mono (by decide)) fun _ => id).map _)) (by simp)
  have hvalueRun : Run (level + 8) (fun sorts => onlyIf (isOp "=") do
      let equals ← operator "="
      let value ← sorts.expression
      let otherwise ← onlyIf (fun tokens => !value.endsInBraces && isWord "else" tokens) do
        return [← keyword "else", ← block sorts]
      return equals :: value :: otherwise) (Same expressionEnds last) (Same patternEnds next) next
      value last (value.flatMap Node.leaves) := by
    refine .onlyIf sorts hvalue (fun _ h => ?_) (fun _ heq after h => heq ▸ h.mono (by decide))
      fun again hagain => hagain.isOp "=" (by decide)
    obtain ⟨equals, behind, hequals, found, left, hfound, otherwise, last, hotherwise, hpure⟩ := by
      simpa only [reads_bind] using h
    obtain ⟨rfl, rfl⟩ := reads_pure.mp hpure
    have hequalsRun : Run (level + 8) (fun _ => operator "=") (SameExpression behind)
        (Same patternEnds next) next equals behind equals.leaves := clear_run hequals (by decide)
    have hotherwiseRun : Run (level + 8) (fun sorts => onlyIf
        (fun tokens => !found.endsInBraces && isWord "else" tokens) do
          return [← keyword "else", ← block sorts]) (Same expressionEnds last)
        (Same expressionEnds left) left otherwise last (otherwise.flatMap Node.leaves) := by
      refine .onlyIf sorts hotherwise (fun _ h => ?_) (fun _ heq after => heq ▸ id)
        fun again hagain => by rw [hagain.alike.isWord]
      obtain ⟨word, behind, hword, body, final, hbody, hpure⟩ := by simpa only [reads_bind] using h
      obtain ⟨rfl, rfl⟩ := reads_pure.mp hpure
      have hwordRun : Run (level + 8) (fun _ => keyword "else") (Same expressionEnds behind)
          (Same expressionEnds left) left word behind word.leaves :=
        keyword_run hword rfl fun _ h _ => h.alike
      exact .cast (.bind _ hwordRun ((block_run hsorts hbody (hparts body (by simp))).map _))
        (by simp)
    have hfoundRun := (hsorts.expressionWhere hfound (hparts found (by simp))).run
    exact .cast (.bind _ hequalsRun (.bind _ (hfoundRun.raise (by omega)) (hotherwiseRun.map _)))
      (by simp)
  have hsemicolonRun : Run (level + 8) (fun _ => operator ";") (Same openers final)
      (Same expressionEnds last) last semicolon final semicolon.leaves :=
    clear_run hsemicolon (by decide)
  obtain ⟨rfl, rfl⟩ := reads_keyword.mp hword
  refine ⟨hleading, _, ?_, ?_, .next _ hkeyword (by simp) (.bind _ (hshapeRun.raise (by omega))
    (.bind _ htypeRun (.bind _ hvalueRun (hsemicolonRun.map _))))⟩
  · simp
  · simp

/-! ### Statements -/

/-- A statement by the tokens behind its attributes. -/
def statementFrom (attributes : List Node) (start tokens : List Token) (sorts : Sorts) :
    Parser (Bool × Node) :=
  if callStatement tokens = .statement then
    callOfMacro attributes >>= fun node => pure (false, node)
  else if isWord "let" tokens then
    localStatement sorts attributes >>= fun node => pure (false, node)
  else if beginsItem tokens || callStatement tokens = .item then
    sorts.item attributes start >>= fun node => pure (false, node)
  else expressionStatement sorts attributes start

theorem statement_eq (sorts : Sorts) : statement sorts =
    ahead >>= fun start => outerAttributes sorts >>= fun attributes => ahead >>= fun tokens =>
      statementFrom attributes start tokens sorts := by
  refine congrArg (ahead >>= ·) (funext fun start => congrArg (outerAttributes sorts >>= ·)
    (funext fun attributes => congrArg (ahead >>= ·) (funext fun tokens => ?_)))
  unfold statementFrom
  cases callStatement tokens with
  | item | statement | expression => rfl

theorem SameStatement.statementFrom (h : SameStatement tokens again) (start : List Token) :
    Grammar.statementFrom attributes start again sorts =
      Grammar.statementFrom attributes start tokens sorts := by
  rw [Grammar.statementFrom, Grammar.statementFrom, h.callStatement, h.beginsItem, h.alike.isWord]

/-- What stands behind the attributes of a statement is read again. -/
theorem statementFrom_run {isOpen : Bool} {start : List Token} (hsorts : sorts.Replays)
    (hlevel : 2 ≤ level)
    (h : (statementFrom attributes start tokens sorts).Reads tokens (isOpen, node) rest)
    (hnode : node.isExplicit = true) (hopen : isOpen = true → rest = []) :
    (∀ node ∈ attributes, node.isExplicit = true) ∧ ∃ printed, printed ≠ [] ∧
      node.leaves = attributes.flatMap Node.leaves ++ printed ∧ ∀ start,
      Run level (statementFrom attributes start tokens) (Same openers rest) (SameStatement tokens)
        tokens (isOpen, node) rest printed := by
  unfold statementFrom at h ⊢
  rcases reads_ite.mp h with ⟨hcall, h⟩ | ⟨hnotCall, h⟩
  · simp only [if_pos hcall]
    obtain ⟨found, last, hfound, hpure⟩ := reads_bind.mp h
    obtain ⟨heq, rfl⟩ := reads_pure.mp hpure
    obtain ⟨rfl, rfl⟩ := Prod.mk.inj heq
    obtain ⟨hleading, printed, hne, hleaves, hrun⟩ := callOfMacro_run level hfound hcall hnode
    exact ⟨hleading, printed, hne, hleaves, fun _ => hrun.map _⟩
  simp only [if_neg hnotCall]
  rcases reads_ite.mp h with ⟨hlet, h⟩ | ⟨hnotLet, h⟩
  · simp only [if_pos hlet]
    obtain ⟨found, last, hfound, hpure⟩ := reads_bind.mp h
    obtain ⟨heq, rfl⟩ := reads_pure.mp hpure
    obtain ⟨rfl, rfl⟩ := Prod.mk.inj heq
    obtain ⟨hleading, printed, hne, hleaves, hrun⟩ :=
      localStatement_run level hsorts (by omega) hfound hnode
    obtain ⟨others, rfl⟩ := eq_of_isWord hlet
    exact ⟨hleading, printed, hne, hleaves, fun _ =>
      (hrun.mono (fun _ => id) fun _ h => h.statement rfl rfl).map _⟩
  simp only [if_neg hnotLet]
  rcases reads_ite.mp h with ⟨-, h⟩ | ⟨hnotItem, h⟩
  · obtain ⟨found, last, hfound, hpure⟩ := reads_bind.mp h
    obtain ⟨heq, rfl⟩ := reads_pure.mp hpure
    obtain ⟨rfl, rfl⟩ := Prod.mk.inj heq
    rw [hsorts.item hfound] at hnode
    contradiction
  · simp only [if_neg hnotItem]
    obtain ⟨hleading, printed, hne, hleaves, hrun⟩ :=
      expressionStatement_run hsorts hlevel h hnode hopen
    exact ⟨hleading, printed, hne, hleaves, fun start =>
      (hrun start).mono (fun _ => id) fun _ h => h.statement⟩

/-- A statement is read again. If a semicolon is missing after it, nothing follows. -/
theorem statement_run {isOpen : Bool} (hsorts : sorts.Replays) (hlevel : 2 ≤ level)
    (h : (statement sorts).Reads tokens (isOpen, node) rest) (hnode : node.isExplicit = true)
    (hopen : isOpen = true → rest = []) : node.leaves ≠ [] ∧
      Run level statement (Same openers rest) (Same openers tokens) tokens (isOpen, node) rest
        node.leaves := by
  rw [statement_eq] at h
  obtain ⟨attributes, mid, hattributes, h⟩ := reads_bind.mp (reads_ahead.mp h)
  obtain ⟨hleading, printed, hne, hleaves, hrun⟩ :=
    statementFrom_run hsorts hlevel (reads_ahead.mp h) hnode hopen
  have hattributesRun : Run level outerAttributes (SameStatement mid) (SameStatement tokens) tokens
      attributes mid (attributes.flatMap Node.leaves) :=
    outerAttributes_run hsorts hattributes hleading (fun h => h.isOp "#" (by decide))
      fun hthere h => (h.expression_of_mark hthere (by decide)).statement
  refine ⟨by simp [hleaves, hne], ?_⟩
  rw [show statement = _ from funext statement_eq]
  exact .from_any fun start => .cast
    (.bind _ (hattributesRun.mono (fun _ => id) fun _ h => h.toSame)
    (.ahead (hrun start) fun again sorts hagain => hagain.statementFrom start)) hleaves.symm

/-! ### Statements of a block -/

theorem statementsAtMost_succ (sorts : Sorts) (rounds : ℕ) : statementsAtMost sorts (rounds + 1) =
    ahead >>= fun tokens => if tokens.isEmpty then pure []
      else ahead >>= fun tokens => if isOp ";" tokens then
        operator ";" >>= fun semicolon => statementsAtMost sorts rounds >>= fun others =>
          pure (.branch .emptyStatement [semicolon] :: others)
      else statement sorts >>= fun found => ahead >>= fun tokens =>
        if found.1 && !tokens.isEmpty then refuse "unexpected token, expected `;`"
        else statementsAtMost sorts rounds >>= fun others => pure (found.2 :: others) := rfl

/-- The statements of a block are read again. -/
theorem statementsAtMost_run (hsorts : sorts.Replays) (hlevel : 2 ≤ level) {rounds : ℕ}
    {nodes : List Node} (h : (statementsAtMost sorts rounds).Reads tokens nodes [])
    (hnodes : ∀ node ∈ nodes, node.isExplicit = true) :
    ∀ rounds', (nodes.flatMap Node.leaves).length < rounds' →
      Run level (fun sorts => statementsAtMost sorts rounds') (· = []) (Same openers tokens) tokens
        nodes [] (nodes.flatMap Node.leaves) := by
  induction rounds generalizing tokens nodes with
  | zero => exact absurd h nofun
  | succ rounds ih =>
    intro rounds' hrounds
    obtain ⟨rounds', rfl⟩ := Nat.exists_eq_succ_of_ne_zero (Nat.ne_zero_of_lt hrounds)
    rw [statementsAtMost_succ] at h
    simp only [statementsAtMost_succ]
    refine .ahead ?_ fun again sorts hagain => by rw [hagain.alike.isEmpty]
    rcases reads_ite.mp (reads_ahead.mp h) with ⟨hempty, hpure⟩ | ⟨hmore, h⟩
    · simp only [if_pos hempty]
      obtain ⟨rfl, rfl⟩ := reads_pure.mp hpure
      exact Run.pure.mono (fun _ => id) fun again hagain => by
        obtain rfl : again = [] := hagain
        exact .nil _
    simp only [if_neg hmore]
    refine .ahead ?_ fun again sorts hagain => by rw [hagain.isOp ";" (by decide)]
    rcases reads_ite.mp (reads_ahead.mp h) with ⟨hsemicolon, h⟩ | ⟨hnot, h⟩
    · simp only [if_pos hsemicolon]
      obtain ⟨semicolon, mid, hsign, others, last, hothers, hpure⟩ := by
        simpa only [reads_bind] using h
      obtain ⟨rfl, rfl⟩ := reads_pure.mp hpure
      have hsignRun :
        Run level (fun _ => operator ";") (Same openers mid) (Same openers tokens) tokens
          semicolon mid semicolon.leaves := clear_run hsign (by decide)
      have hne := List.length_pos_of_ne_nil (leaves_ne_nil_of_operator hsign)
      refine .cast (.bind _ hsignRun ((ih hothers (fun node hmem => hnodes node
        (List.mem_cons_of_mem _ hmem)) rounds' ?_).map _)) (by simp)
      have hleaves : (Node.branch .emptyStatement [semicolon]).leaves = semicolon.leaves := by simp
      rw [List.flatMap_cons, hleaves, List.length_append] at hrounds
      omega
    · simp only [if_neg hnot]
      obtain ⟨⟨isOpen, first⟩, mid, hfirst, h⟩ := reads_bind.mp h
      rcases reads_ite.mp (reads_ahead.mp h) with ⟨-, h⟩ | ⟨hclosed, h⟩
      · exact absurd h nofun
      obtain ⟨others, last, hothers, hpure⟩ := reads_bind.mp h
      obtain ⟨rfl, rfl⟩ := reads_pure.mp hpure
      obtain ⟨hne, hrun⟩ := statement_run hsorts hlevel hfirst (hnodes first List.mem_cons_self)
        (fun hthis => by simpa [hthis] using hclosed)
      have hlength := List.length_pos_of_ne_nil hne
      refine .bind _ hrun (.ahead ?_ fun again sorts hagain => by rw [hagain.alike.isEmpty])
      simp only [if_neg hclosed]
      refine (ih hothers (fun node hmem => hnodes node (List.mem_cons_of_mem _ hmem))
        rounds' ?_).map _
      simp only [List.flatMap_cons, List.length_append] at hrounds
      omega

/-- The statements of a block are read again. -/
theorem statementsWhere_run (hsorts : sorts.Replays) (hlevel : 2 ≤ level) {nodes : List Node}
    (h : (statementsWhere sorts).Reads tokens nodes [])
    (hnodes : ∀ node ∈ nodes, node.isExplicit = true) :
    Run level statementsWhere (· = []) (Same openers tokens) tokens nodes []
      (nodes.flatMap Node.leaves) :=
  .rounds (statementsAtMost_run hsorts hlevel (reads_ahead.mp h) hnodes)

end Statement

end Typestate.Grammar
