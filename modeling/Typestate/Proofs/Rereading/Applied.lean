import Typestate.Proofs.Member.Accepted
import Typestate.Proofs.Rereading.Atom

/-!
# What is applied to an atom, read again

Calls, fields and indexes stand behind what they are applied to, and are read again one by one. A
number with a point behind a dot stands for two fields, and is printed as these.
-/

namespace Typestate.Grammar

open Grammar.Parser Lexer Token

section Applied

variable {level : ℕ} {sorts : Sorts} {operators : List String}
  {tokens mid rest again printed behind : List Token} {base node final : Node}

/-! ### What an application looks like -/

/-- Kinds of what is applied to an expression. -/
def appliedKinds : List Kind := [.call, .index, .tryOperator, .await, .methodCall, .field]

/-- Something is applied to an expression. -/
def Node.isApplied (node : Node) : Bool :=
  match node.kind? with
  | some kind => appliedKinds.contains kind
  | none => false

/-- What an application is not. -/
theorem Node.of_isApplied {node : Node} (h : node.isApplied = true) :
    node.isOperand = true ∧ node.isRange = false ∧ node.isBlockLike = false := by
  cases node with
  | construct kind attributes children =>
    have hkind : kind ∈ appliedKinds := by simpa [isApplied, kind?] using h
    have hall : ∀ kind ∈ appliedKinds, operatorKinds.contains kind = false ∧ kind ≠ .range ∧
        blockKinds.contains kind = false := by decide
    obtain ⟨hoperator, hrange, hblock⟩ := hall kind hkind
    refine ⟨?_, ?_, hblock⟩
    · rw [isOperand, hoperator]
      rfl
    · simpa [isRange, isKind, kind?] using hrange
  | _ => contradiction

theorem indexFields_cons (base : Node) (index : ℕ) (indexes : List ℕ) :
    indexFields base (index :: indexes) = indexFields (.branch .field
      [base, .operator ".", .literal (toString index)]) indexes := rfl

theorem isApplied_indexFields {indexes : List ℕ} (h : indexes ≠ []) (base : Node) :
    (indexFields base indexes).isApplied = true := by
  induction indexes generalizing base with
  | nil => exact absurd rfl h
  | cons index others ih =>
    rw [indexFields_cons]
    cases others with
    | nil => rfl
    | cons next more => exact ih (by simp) _

/-- Indexes as they are printed. -/
def indexTokens (indexes : List ℕ) : List Token :=
  indexes.flatMap fun index => ofOperator ['.'] ++ [.literal (toString index)]

theorem leaves_indexFields (indexes : List ℕ) (base : Node) :
    (indexFields base indexes).leaves = base.leaves ++ indexTokens indexes := by
  induction indexes generalizing base with
  | nil => exact (List.append_nil _).symm
  | cons index others ih =>
    rw [indexFields_cons, ih]
    simp [indexTokens]

theorem length_indexTokens (indexes : List ℕ) :
    (indexTokens indexes).length = 2 * indexes.length := by
  induction indexes with
  | nil => rfl
  | cons index others ih =>
    change (ofOperator ['.'] ++ [Token.literal (toString index)] ++ indexTokens others).length = _
    rw [List.length_append, ih, List.length_cons]
    change 2 + _ = _
    omega

theorem isExplicit_indexFields {indexes : List ℕ}
    (h : (indexFields base indexes).isExplicit = true) : base.isExplicit = true := by
  induction indexes generalizing base with
  | nil => exact h
  | cons index others ih =>
    rw [indexFields_cons] at h
    exact Node.isExplicit_parts (ih h) rfl base (by simp)

theorem written_indexTokens (indexes : List ℕ) : Written (indexTokens indexes) := by
  induction indexes with
  | nil => exact .nil
  | cons index others ih =>
    rw [indexTokens, List.flatMap_cons]
    exact Written.append (Written.append (.alone (by decide) (by decide) .nil)
      (written_toString index)) ih

/-! ### Indexes -/

theorem kind_ne_float {text : String} (h : isWhole text = true) : Literal.kind text ≠ .float := by
  unfold Literal.kind
  split
  · nofun
  · nofun
  · nofun
  · nofun
  · nofun
  · nofun
  · split
    · nofun
    · rw [if_pos (show (Literal.wholeValue? text).isSome = true from h)]
      nofun
  · nofun

theorem splitOnAux_ne_nil (text separator : String) (first last inner : String.Pos.Raw)
    (found : List String) : String.splitOnAux text separator first last inner found ≠ [] := by
  fun_induction String.splitOnAux text separator first last inner found with
  | case1 => simp
  | case2 _ _ _ _ _ _ _ _ _ ih => exact ih
  | case3 _ _ _ _ _ _ _ _ _ ih => exact ih
  | case4 => assumption

/-- A text has a part in front of its first point. -/
theorem splitOn_point_ne_nil (text : String) : text.splitOn "." ≠ [] := by
  unfold String.splitOn
  split
  · simp
  · exact splitOnAux_ne_nil text "." 0 0 0 []

/-- Every index that a number with a point stands for is read again by itself. -/
theorem indexOf_of_chainedIndexes {text : String} {indexes : List ℕ} {goesOn : Bool}
    (h : chainedIndexes text = .ok (indexes, goesOn)) :
    indexes ≠ [] ∧ ∀ index ∈ indexes, indexOf (toString index) = .ok index := by
  unfold chainedIndexes at h
  split at h
  · obtain ⟨index, hindex, hpure⟩ := Typestate.bind_eq_ok.mp h
    obtain ⟨rfl, -⟩ := Prod.mk.inj (Except.ok.inj hpure)
    exact ⟨by simp,
      fun other hmem => by rw [List.mem_singleton.mp hmem]; exact indexOf_toString hindex⟩
  · obtain ⟨found, hfound, hpure⟩ := Typestate.bind_eq_ok.mp h
    obtain ⟨rfl, -⟩ := Prod.mk.inj (Except.ok.inj hpure)
    have hall := forall₂_of_mapM_eq_ok hfound
    refine ⟨fun hnil => splitOn_point_ne_nil text ?_, fun index hmem => ?_⟩
    · rw [hnil] at hall
      exact List.forall₂_nil_right_iff.mp hall
    · obtain ⟨i, hi, rfl⟩ := List.getElem_of_mem hmem
      obtain ⟨hlength, hget⟩ := List.forall₂_iff_get.mp hall
      exact indexOf_toString (hget i (hlength ▸ hi) hi)

/-! ### What stands behind a dot -/

/-- No number with a point stands in front of what is behind a dot. -/
structure AfterDot (tokens again : List Token) : Prop where
  float? : Grammar.float? again = none
  isWord : Grammar.isWord "await" again = Grammar.isWord "await" tokens

theorem fieldReference_float? {found : Bool × Node} {after : List Token}
    (h : fieldReference.Reads tokens found rest) : float? (found.2.leaves ++ after) = none := by
  rcases reads_fieldReference h with ⟨text, -, -, rfl⟩ | ⟨text, index, -, -, -, rfl⟩
  · rfl
  · have hkind := kind_ne_float (isWhole_toString index)
    simp only [Node.leaves_literal, List.cons_append, List.nil_append, Grammar.float?, if_neg hkind]

/-- The arguments in angles behind the name of a method. -/
def turbofish (named : Bool) (sorts : Sorts) : Parser (List Node) :=
  onlyIf (fun tokens => named && isOp "::" tokens) do
    let colons ← operator "::"
    let arguments ← angled (operator ",") (genericArgument sorts)
    return [.branch .genericArguments (colons :: arguments)]

/-- What stands behind the name of a method looks as it did. -/
structure SameMember (named : Bool) (tokens again : List Token) : Prop where
  alike : Alike true tokens again
  isColons : (named && isOp "::" again) = (named && isOp "::" tokens)

/-- The arguments in angles behind the name of a method are read again. -/
theorem turbofish_run {named : Bool} {nodes : List Node} (hsorts : sorts.Replays)
    (h : (turbofish named sorts).Reads tokens nodes rest)
    (hnodes : ∀ node ∈ nodes, node.isExplicit = true) :
    Run level (turbofish named) (Same expressionEnds rest) (SameMember named tokens) tokens
      nodes rest (nodes.flatMap Node.leaves) := by
  refine .onlyIf sorts h (fun hlook h => ?_) (fun hlook heq after hafter => ?_) fun _ h =>
    h.isColons
  · obtain ⟨colons, left, hcolons, arguments, last, harguments, hpure⟩ := by
      simpa only [reads_bind] using h
    obtain ⟨rfl, rfl⟩ := reads_pure.mp hpure
    have hparts := Node.isExplicit_parts (hnodes _ (List.mem_singleton_self _)) rfl
    obtain ⟨opening, next, hopening, -⟩ := reads_bind.mp harguments
    have hangled : Run level (fun sorts => angled (operator ",") (genericArgument sorts))
        (Same expressionEnds last) (Alike false left) left arguments last
        (arguments.flatMap Node.leaves) :=
      genericAngled_run hsorts harguments (fun node hmem => hparts node (by simp [hmem]))
        fun after =>
        (same_opening (reads_operator.mp hopening).1).alike.weaken
    have hcolonsRun :
      Run level (fun _ => operator "::") (Alike false left) (Same ["::"] tokens) tokens
        colons left colons.leaves := colons_run hcolons (by decide) fun _ h => h
    refine ((hcolonsRun.bind _ (hangled.map _)).cast (by simp)).mono (fun _ => id) fun again
      hagain =>
      ⟨hagain.alike, by rw [hagain.isOp "::" (by decide)]⟩
  · subst heq
    refine ⟨hafter.alike, ?_⟩
    rw [hlook]
    cases named with
    | false => rfl
    | true =>
      exact Bool.eq_false_iff.mpr fun hagain =>
        Bool.false_ne_true (hlook.symm.trans (hafter.alike.isOp_of_again (by decide) hagain))

theorem afterDot_eq (base : Node) (sorts : Sorts) : afterDot sorts base = ahead >>= fun tokens =>
    if isWord "await" tokens then
      keyword "await" >>= fun word => pure (.branch .await [base, .operator ".", word])
    else fieldReference >>= fun found => turbofish found.1 sorts >>= fun generics =>
      ahead >>= fun tokens =>
        if !generics.isEmpty || (found.1 && isGroup .parenthesis tokens) then
          callArguments sorts >>= fun arguments => pure (.branch .methodCall
            (base :: .operator "." :: found.2 :: generics ++ [arguments]))
        else pure (.branch .field [base, .operator ".", found.2]) := rfl

variable (level) in
/-- What stands behind a dot is read again. -/
theorem afterDot_run (hsorts : sorts.Replays) (h : (afterDot sorts base).Reads tokens node rest)
    (hnode : node.isExplicit = true) : base.isExplicit = true ∧ node.isApplied = true ∧ ∃ printed,
      node.leaves = base.leaves ++ (ofOperator ['.'] ++ printed) ∧
        Run level (fun sorts => afterDot sorts base) (Same expressionEnds rest)
          (AfterDot tokens) tokens node rest printed := by
  rw [afterDot_eq] at h
  rw [show (fun sorts => afterDot sorts base) = _ from funext fun sorts => afterDot_eq base sorts]
  rcases reads_ite.mp (reads_ahead.mp h) with ⟨hawait, h⟩ | ⟨hnot, h⟩
  · obtain ⟨word, left, hword, hpure⟩ := reads_bind.mp h
    obtain ⟨rfl, rfl⟩ := reads_pure.mp hpure
    refine ⟨Node.isExplicit_parts hnode rfl base (by simp), rfl, word.leaves, by simp,
      .ahead ?_ fun again sorts hagain => by rw [hagain.isWord]⟩
    simp only [if_pos hawait]
    refine (keyword_bare hword fun after _ => ?_).map _
    exact ⟨rfl, hawait.symm⟩
  obtain ⟨⟨named, member⟩, mid, hmember, h⟩ := reads_bind.mp h
  obtain ⟨generics, left, hgenerics, h⟩ := reads_bind.mp h
  have hmemberRun : Run level (fun _ => fieldReference) (SameMember named mid)
      (AfterDot tokens) tokens (named, member) mid member.leaves := by
    have hrun : Run level (fun _ => fieldReference) (SameMember named mid) (Same [] tokens) tokens
        (named, member) mid member.leaves :=
      fieldReference_run hmember (fun _ h => h.alike) fun _ _ _ _ hmem => absurd hmem (by simp)
    exact ⟨hrun.again, fun hafter =>
      ⟨fieldReference_float? hmember, (hrun.begins hafter).alike.isWord _⟩,
      hrun.written, hrun.shorter⟩
  have hgenericsRun : (∀ node ∈ generics, node.isExplicit = true) → Run level (turbofish named)
      (Same expressionEnds left) (SameMember named mid) mid generics left
      (generics.flatMap Node.leaves) := turbofish_run hsorts hgenerics
  rcases reads_ite.mp (reads_ahead.mp h) with ⟨hcall, h⟩ | ⟨hnotCall, hpure⟩
  · obtain ⟨arguments, last, harguments, hpure⟩ := reads_bind.mp h
    obtain ⟨rfl, rfl⟩ := reads_pure.mp hpure
    have hparts := Node.isExplicit_parts hnode rfl
    refine ⟨hparts base (by simp), rfl, member.leaves ++ (generics.flatMap Node.leaves ++
      arguments.leaves), by simp, .ahead ?_ fun again sorts hagain => by rw [hagain.isWord]⟩
    simp only [if_neg hnot]
    refine .bind _ hmemberRun (.bind _ (hgenericsRun fun node hmem => hparts node (by simp [hmem]))
      (.ahead ?_ fun again sorts hagain => by rw [hagain.alike.isGroup]))
    simp only [if_pos hcall]
    exact (callArguments_run hsorts harguments (hparts arguments (by simp))).map _
  · obtain ⟨rfl, rfl⟩ := reads_pure.mp hpure
    obtain rfl : generics = [] := by
      have hnone := Bool.or_eq_false_iff.mp (Bool.eq_false_iff.mpr hnotCall)
      simpa using hnone.1
    refine ⟨Node.isExplicit_parts hnode rfl base (by simp), rfl,
      member.leaves ++ ([] ++ []), by simp,
      .ahead ?_ fun again sorts hagain => by rw [hagain.isWord]⟩
    simp only [if_neg hnot]
    refine .bind _ hmemberRun (.bind _ (hgenericsRun nofun)
      (.ahead ?_ fun again sorts hagain => by rw [hagain.alike.isGroup]))
    simp only [if_neg hnotCall]
    exact .pure

/-! ### One application after another -/

/-- What is applied to an expression is read again, by more rounds than there are tokens. -/
structure AppliedRun (level : ℕ) (base : Node) (tokens : List Token) (final : Node)
    (rest printed : List Token) : Prop where
  again : ∀ {after : List Token} {depth rounds : ℕ}, Same expressionEnds rest after →
    8 * sizeList printed + level ≤ depth → printed.length < rounds →
      (appliedAtMost (Sorts.deepened depth .none) base rounds).Reads (printed ++ after) final after
  begins : ∀ {after : List Token}, Same expressionEnds rest after →
    Same expressionEnds tokens (printed ++ after)
  written : Written tokens → Written printed ∧ Written rest
  shorter : rest.length ≤ tokens.length

/-- What is applied next, by what the tokens begin with. -/
def appliedFrom (sorts : Sorts) (base : Node) (rounds : ℕ) (tokens : List Token) : Parser Node :=
  if isGroup .parenthesis tokens then
    callArguments sorts >>= fun arguments =>
      appliedAtMost sorts (.branch .call [base, arguments]) rounds
  else if isDot tokens && !base.isRange then
    Grammar.dotted sorts base >>= fun node => appliedAtMost sorts node rounds
  else if isGroup .bracket tokens then
    group .bracket (one sorts.expression) >>= fun inside =>
      appliedAtMost sorts (.branch .index [base, inside]) rounds
  else if isOp "?" tokens && !base.isRange then
    operator "?" >>= fun mark => appliedAtMost sorts (.branch .tryOperator [base, mark]) rounds
  else pure base

theorem appliedAtMost_succ (sorts : Sorts) (base : Node) (rounds : ℕ) :
    appliedAtMost sorts base (rounds + 1) = ahead >>= appliedFrom sorts base rounds := rfl

theorem Same.isApplication (h : Same expressionEnds tokens again) :
    isGroup .parenthesis again = isGroup .parenthesis tokens ∧
      Grammar.isDot again = Grammar.isDot tokens ∧
      isGroup .bracket again = isGroup .bracket tokens ∧
        Grammar.isOp "?" again = Grammar.isOp "?" tokens :=
  ⟨h.alike.isGroup _, h.isDot (by decide), h.alike.isGroup _, h.isOp "?" (by decide)⟩

theorem Same.appliedFrom {rounds : ℕ} (h : Same expressionEnds tokens again) :
    Grammar.appliedFrom sorts base rounds again = Grammar.appliedFrom sorts base rounds tokens := by
  obtain ⟨hcall, hdot, hindex, hmark⟩ := h.isApplication
  rw [Grammar.appliedFrom, Grammar.appliedFrom, hcall, hdot, hindex, hmark]

/-- One application in front of others is read again. -/
theorem AppliedRun.step {A : Type} {step : Sorts → Parser A} {value : A} (next : A → Node)
    (hstep : Run level step (Same expressionEnds mid) (Same expressionEnds tokens) tokens value mid
      printed) (hne : printed ≠ [])
    (hchoose : ∀ sorts rounds, appliedFrom sorts base rounds tokens =
      step sorts >>= fun value => appliedAtMost sorts (next value) rounds)
    (hmore : AppliedRun level (next value) mid final rest behind) :
    AppliedRun level base tokens final rest (printed ++ behind) where
  again {after depth rounds} hafter hdepth hrounds := by
    have hpos := List.length_pos_of_ne_nil hne
    rw [sizeList_append] at hdepth
    rw [List.length_append] at hrounds
    obtain ⟨more, rfl⟩ : ∃ more, rounds = more + 1 := ⟨rounds - 1, by omega⟩
    have hsame := hstep.begins (hmore.begins hafter)
    rw [List.append_assoc, appliedAtMost_succ, reads_ahead, hsame.appliedFrom, hchoose]
    exact reads_bind.mpr ⟨value, behind ++ after, hstep.again (hmore.begins hafter) (by omega),
      hmore.again hafter (by omega) (by omega)⟩
  begins hafter := by
    rw [List.append_assoc]
    exact hstep.begins (hmore.begins hafter)
  written h := by
    obtain ⟨hprinted, hmid⟩ := hstep.written h
    obtain ⟨hbehind, hrest⟩ := hmore.written hmid
    exact ⟨Written.append hprinted hbehind, hrest⟩
  shorter := hmore.shorter.trans hstep.shorter

/-- A part behind a dot of its own is read. -/
theorem reads_dotted {left : List Token} (hbase : base.isRange = false)
    (hfloat : float? left = none)
    (hnode : (afterDot sorts base).Reads left node mid) {rounds : ℕ}
    (h : (appliedAtMost sorts node rounds).Reads mid final rest) :
    (appliedAtMost sorts base (rounds + 1)).Reads (ofOperator ['.'] ++ left) final rest := by
  have hindexes : indexes?.Reads left ([], true) left := by
    simp [Reads, indexes?, hfloat]
  have hdotted : (dotted sorts base).Reads (ofOperator ['.'] ++ left) node mid :=
    reads_bind.mpr ⟨.operator ".", left, reads_operator.mpr ⟨rfl, rfl⟩, reads_bind.mpr
      ⟨([], true), left, hindexes, hnode⟩⟩
  have hdot : (isDot (ofOperator ['.'] ++ left) && !base.isRange) = true := by
    rw [hbase]
    rfl
  exact reads_ahead.mpr (reads_ite.mpr (.inr ⟨Bool.false_ne_true, reads_ite.mpr (.inl ⟨hdot,
    reads_bind.mpr ⟨node, mid, hdotted, h⟩⟩)⟩))

/-- A field by index is read. -/
theorem reads_indexField {index : ℕ} (hindex : indexOf (toString index) = .ok index)
    {left : List Token} : (afterDot sorts base).Reads (.literal (toString index) :: left)
      (.branch .field [base, .operator ".", .literal (toString index)]) left := by
  have hreference : fieldReference.Reads (.literal (toString index) :: left)
      (false, .literal (toString index)) left := by
    simp only [Reads, fieldReference, isWhole_toString, if_true, hindex]
    rfl
  rw [afterDot_eq]
  exact reads_ahead.mpr (reads_ite.mpr (.inr ⟨Bool.false_ne_true, reads_bind.mpr ⟨_, _, hreference,
    reads_bind.mpr ⟨[], left, reads_onlyIf.mpr (.inr ⟨rfl, rfl, rfl⟩), reads_ahead.mpr
      (reads_ite.mpr (.inr ⟨Bool.false_ne_true, reads_pure.mpr ⟨rfl, rfl⟩⟩))⟩⟩⟩))

/-- Fields by index are read one by one. -/
theorem reads_indexFields {indexes : List ℕ}
    (hindexes : ∀ index ∈ indexes, indexOf (toString index) = .ok index)
    (hbase : base.isRange = false) {rounds : ℕ} {left : List Token}
    (h : (appliedAtMost sorts (indexFields base indexes) rounds).Reads left final rest) :
    (appliedAtMost sorts base (rounds + indexes.length)).Reads (indexTokens indexes ++ left) final
      rest := by
  induction indexes generalizing base with
  | nil => exact h
  | cons index others ih =>
    obtain ⟨hindex, hothers⟩ := List.forall_mem_cons.mp hindexes
    have hmore :
      (appliedAtMost sorts (.branch .field [base, .operator ".", .literal (toString index)])
        (rounds + others.length)).Reads (indexTokens others ++ left) final rest := ih hothers rfl h
    have hfloat : float? (.literal (toString index) :: (indexTokens others ++ left)) = none := by
      simp only [Grammar.float?, if_neg (kind_ne_float (isWhole_toString index))]
    have hfirst := reads_dotted hbase hfloat (reads_indexField hindex) hmore
    simpa [indexTokens, Nat.add_assoc] using hfirst

/-- What is read of a number with a point behind a dot. -/
theorem of_reads_indexes? {indexes : List ℕ} {goesOn : Bool}
    (h : indexes?.Reads tokens (indexes, goesOn) rest) :
    (∀ index ∈ indexes, indexOf (toString index) = .ok index) ∧ (goesOn = false → indexes ≠ []) ∧
      (Written tokens → Written rest) ∧ rest.length ≤ tokens.length := by
  unfold Reads indexes? at h
  split at h
  · rename_i text hfloat
    obtain ⟨found, hfound, hpure⟩ := Typestate.bind_eq_ok.mp h
    obtain ⟨rfl, rfl, -⟩ := (Found.mk.injEq ..).mp (Except.ok.inj hpure)
    obtain ⟨hne, hall⟩ := indexOf_of_chainedIndexes hfound
    refine ⟨hall, fun _ => hne, fun hwritten => ?_, by simp⟩
    cases tokens with
    | nil => contradiction
    | cons token others => exact hwritten.tail
  · contradiction
  · obtain ⟨hfound, rfl, -⟩ := (Found.mk.injEq ..).mp (Except.ok.inj h)
    obtain ⟨rfl, rfl⟩ := Prod.mk.inj hfound
    exact ⟨nofun, nofun, id, le_rfl⟩

/-- The dot that reaches into a value looks as it did. -/
theorem same_dot {after : List Token} (h : afterOperator? ['.'] tokens = some rest)
    (hdot : isDot tokens = true) : Same expressionEnds tokens (ofOperator ['.'] ++ after) := by
  refine same_operator h (by decide) (by decide) (fun hmem => absurd hmem (by decide))
    (fun longer hmem hbegins => .inr ?_) nofun
  have hall : ∀ longer ∈ expressionEnds, ['.'] <+: longer.toList →
      ['.', '.'] <+: longer.toList := by
    decide
  obtain ⟨-, hnot⟩ := Bool.and_eq_true_iff.mp hdot
  rw [Bool.not_eq_true'] at hnot
  refine Bool.eq_false_iff.mpr fun hlonger => Bool.false_ne_true (hnot.symm.trans ?_)
  obtain ⟨next, hnext⟩ := Option.isSome_iff_exists.mp hlonger
  exact isSome_of_prefix hnext (hall longer hmem hbegins) (by decide)

/-- A dot and what stands behind it are read again in front of what else is applied. -/
theorem AppliedRun.dotted (hsorts : sorts.Replays) (h : (dotted sorts base).Reads tokens node mid)
    (hdot : isDot tokens = true) (hbase : base.isRange = false) (hnode : node.isExplicit = true)
    (hmore : AppliedRun level node mid final rest behind) :
    base.isExplicit = true ∧ node.isApplied = true ∧ ∃ printed,
      node.leaves = base.leaves ++ printed ∧
        AppliedRun level base tokens final rest (printed ++ behind) := by
  obtain ⟨dot, left, hoperator, h⟩ := reads_bind.mp h
  obtain ⟨⟨indexes, goesOn⟩, left', hindexes, h⟩ := reads_bind.mp h
  have hop := (reads_operator.mp hoperator).1
  obtain ⟨hall, hne, hwritten, hshorter⟩ := of_reads_indexes? hindexes
  have hbegins : ∀ {indexes : List ℕ} (others : List Token), indexes ≠ [] →
      Same expressionEnds tokens (indexTokens indexes ++ others) := by
    intro indexes others hne
    obtain ⟨index, more, rfl⟩ := List.exists_cons_of_ne_nil hne
    exact same_dot hop hdot
  rcases reads_ite.mp h with ⟨-, h⟩ | ⟨hstop, hpure⟩
  · obtain ⟨hexplicit, happlied, printed, hleaves, hrun⟩ := afterDot_run level hsorts h hnode
    have hinner : (indexFields base indexes).isRange = false := by
      cases indexes with
      | nil => exact hbase
      | cons index others => exact (Node.of_isApplied (isApplied_indexFields (by simp) base)).2.1
    refine ⟨isExplicit_indexFields hexplicit, happlied, indexTokens indexes ++ (ofOperator ['.'] ++
      printed), by rw [hleaves, leaves_indexFields, List.append_assoc], ?_, ?_, ?_, ?_⟩
    · intro after depth rounds hafter hdepth hrounds
      have hlength := length_indexTokens indexes
      have hone : (ofOperator ['.']).length = 1 := rfl
      simp only [sizeList_append, List.length_append] at hdepth hrounds
      obtain ⟨more, rfl⟩ : ∃ more, rounds = more + 1 + indexes.length :=
        ⟨rounds - 1 - indexes.length, by omega⟩
      simp only [List.append_assoc]
      refine reads_indexFields hall hbase (reads_dotted hinner ?_
        (hrun.again (hmore.begins hafter) (by omega)) (hmore.again hafter (by omega) (by omega)))
      exact (hrun.begins (hmore.begins hafter)).float?
    · intro after hafter
      cases indexes with
      | nil => exact same_dot hop hdot
      | cons index others =>
        simp only [List.append_assoc]
        exact hbegins _ (by simp)
    · intro h
      obtain ⟨hdotWritten, hleft⟩ := written_ofOperator hop h
      obtain ⟨hprinted, hmid⟩ := hrun.written (hwritten hleft)
      obtain ⟨hbehind, hrest⟩ := hmore.written hmid
      exact ⟨Written.append (Written.append (written_indexTokens indexes)
        (Written.append hdotWritten hprinted)) hbehind, hrest⟩
    · exact hmore.shorter.trans (hrun.shorter.trans
        (hshorter.trans (length_lt_of_operator hop).le))
  · obtain ⟨rfl, rfl⟩ := reads_pure.mp hpure
    have hne := hne (Bool.eq_false_iff.mpr hstop)
    refine ⟨isExplicit_indexFields hnode, isApplied_indexFields hne base, indexTokens indexes,
      leaves_indexFields indexes base, ?_, ?_, ?_, ?_⟩
    · intro after depth rounds hafter hdepth hrounds
      have hlength := length_indexTokens indexes
      rw [sizeList_append] at hdepth
      rw [List.length_append] at hrounds
      obtain ⟨more, rfl⟩ : ∃ more, rounds = more + indexes.length :=
        ⟨rounds - indexes.length, by omega⟩
      rw [List.append_assoc]
      exact reads_indexFields hall hbase (hmore.again hafter (by omega) (by omega))
    · intro after _
      rw [List.append_assoc]
      exact hbegins _ hne
    · intro h
      obtain ⟨hbehind, hrest⟩ := hmore.written (hwritten (written_ofOperator hop h).2)
      exact ⟨Written.append (written_indexTokens indexes) hbehind, hrest⟩
    · exact hmore.shorter.trans (hshorter.trans (length_lt_of_operator hop).le)

/-- An index in brackets is read again. -/
theorem index_run {inside : Node} (hsorts : sorts.Replays)
    (h : (group .bracket (one sorts.expression)).Reads tokens inside rest)
    (hinside : inside.isExplicit = true) :
    inside.leaves ≠ [] ∧ Run level (fun sorts => group .bracket (one sorts.expression))
      (Same expressionEnds rest) (Same expressionEnds tokens) tokens inside rest inside.leaves := by
  obtain ⟨body, nodes, rfl, hbody, rfl⟩ := reads_group.mp h
  obtain ⟨value, hvalue, rfl⟩ := reads_one.mp hbody
  have hvalueRun := hsorts.expressionWhere hvalue (Node.isExplicit_group.mp hinside value (by simp))
  have hinner : Run 8 (fun sorts => one sorts.expression) (· = []) (SameExpression body) body
      [value] [] ([value].flatMap Node.leaves) :=
    (((hvalueRun.run.raise (by decide)).mono (fun _ heq => by rw [heq]; exact .nil _)
      fun _ => id).one).cast (List.append_nil _).symm
  exact ⟨by simp [Node.leaves_group], hinner.group expressionEnds⟩

variable (level) in
/-- What is applied to an expression is read again. -/
theorem appliedAtMost_run (hsorts : sorts.Replays) {rounds : ℕ}
    (h : (appliedAtMost sorts base rounds).Reads tokens node rest)
    (hnode : node.isExplicit = true) :
    base.isExplicit = true ∧
      ((node = base ∧ ((isDot tokens || isOp "?" tokens) && !base.isRange) = false)
        ∨ node.isApplied = true) ∧
      ∃ printed, node.leaves = base.leaves ++ printed ∧
        AppliedRun level base tokens node rest printed := by
  induction rounds generalizing tokens base with
  | zero => exact absurd h not_reads_fail
  | succ rounds ih =>
    have happlied : ∀ {first : Node} {condition : Prop},
        (node = first ∧ condition) ∨ node.isApplied = true → first.isApplied = true →
          node.isApplied = true := fun hor hfirst =>
      hor.elim (fun heq => heq.1 ▸ hfirst) id
    rcases reads_ite.mp (reads_ahead.mp h) with ⟨hcall, h⟩ | ⟨hnotCall, h⟩
    · obtain ⟨arguments, mid, harguments, h⟩ := reads_bind.mp h
      obtain ⟨hexplicit, hkind, printed, hleaves, hmore⟩ := ih h
      have hparts := Node.isExplicit_parts hexplicit rfl
      have hrun : Run level callArguments (Same expressionEnds mid) (Same expressionEnds tokens)
          tokens arguments mid arguments.leaves :=
        callArguments_run hsorts harguments (hparts arguments (by simp))
      have hne : arguments.leaves ≠ [] := by
        obtain ⟨_, _, _, _, rfl⟩ := reads_group.mp harguments
        simp [Node.leaves_group]
      refine ⟨hparts base (by simp), .inr (happlied hkind rfl), arguments.leaves ++ printed,
        by simp [hleaves], ?_⟩
      exact .step (fun arguments => .branch .call [base, arguments]) hrun hne
        (fun _ _ => if_pos hcall) hmore
    rcases reads_ite.mp h with ⟨hdot, h⟩ | ⟨hnotDot, h⟩
    · obtain ⟨field, mid, hfield, h⟩ := reads_bind.mp h
      obtain ⟨hexplicit, hkind, behind, hleaves, hmore⟩ := ih h
      obtain ⟨hdotThere, hrange⟩ := Bool.and_eq_true_iff.mp hdot
      obtain ⟨hbase, hfieldApplied, printed, hfieldLeaves, hrun⟩ :=
        hmore.dotted hsorts hfield hdotThere (by simpa using hrange) hexplicit
      exact ⟨hbase, .inr (happlied hkind hfieldApplied), printed ++ behind,
        by rw [hleaves, hfieldLeaves, List.append_assoc], hrun⟩
    rcases reads_ite.mp h with ⟨hindex, h⟩ | ⟨hnotIndex, h⟩
    · obtain ⟨inside, mid, hinside, h⟩ := reads_bind.mp h
      obtain ⟨hexplicit, hkind, printed, hleaves, hmore⟩ := ih h
      have hparts := Node.isExplicit_parts hexplicit rfl
      obtain ⟨hne, hrun⟩ := index_run hsorts hinside (hparts inside (by simp))
      refine ⟨hparts base (by simp), .inr (happlied hkind rfl), inside.leaves ++ printed,
        by simp [hleaves], ?_⟩
      exact .step (fun inside => .branch .index [base, inside]) hrun hne
        (fun _ _ => by rw [appliedFrom, if_neg hnotCall, if_neg hnotDot, if_pos hindex]) hmore
    rcases reads_ite.mp h with ⟨htry, h⟩ | ⟨hnotTry, hpure⟩
    · obtain ⟨mark, mid, hmark, h⟩ := reads_bind.mp h
      obtain ⟨hexplicit, hkind, printed, hleaves, hmore⟩ := ih h
      have hparts := Node.isExplicit_parts hexplicit rfl
      have hrun : Run level (fun _ => operator "?") (Same expressionEnds mid)
          (Same expressionEnds tokens) tokens mark mid mark.leaves := clear_run hmark (by decide)
      refine ⟨hparts base (by simp), .inr (happlied hkind rfl), mark.leaves ++ printed,
        by simp [hleaves], ?_⟩
      exact .step (fun mark => .branch .tryOperator [base, mark]) hrun
        (leaves_ne_nil_of_operator hmark) (fun _ _ => by
          rw [appliedFrom, if_neg hnotCall, if_neg hnotDot, if_neg hnotIndex, if_pos htry]) hmore
    · obtain ⟨rfl, rfl⟩ := reads_pure.mp hpure
      refine ⟨hnode, .inl ⟨rfl, ?_⟩, [], (List.append_nil _).symm, ?_, id, fun h => ⟨.nil, h⟩,
        le_rfl⟩
      · have hdot := Bool.eq_false_iff.mpr hnotDot
        have htry := Bool.eq_false_iff.mpr hnotTry
        rw [Bool.and_or_distrib_right, hdot, htry]
        rfl
      · intro after depth rounds hafter _ hrounds
        obtain ⟨more, rfl⟩ : ∃ more, rounds = more + 1 := ⟨rounds - 1, by simp at hrounds; omega⟩
        rw [List.nil_append, appliedAtMost_succ, reads_ahead, hafter.appliedFrom, appliedFrom,
          if_neg hnotCall, if_neg hnotDot, if_neg hnotIndex, if_neg hnotTry]
        exact reads_pure.mpr ⟨rfl, rfl⟩

variable (level) in
/-- What is applied to an expression is read again, with as many rounds as there are tokens. -/
theorem applied_run (hsorts : sorts.Replays) (h : (applied sorts base).Reads tokens node rest)
    (hnode : node.isExplicit = true) :
    base.isExplicit = true ∧
      ((node = base ∧ ((isDot tokens || isOp "?" tokens) && !base.isRange) = false)
      ∨ node.isApplied = true) ∧ ∃ printed, node.leaves = base.leaves ++ printed ∧
        Run level (fun sorts => applied sorts base) (Same expressionEnds rest)
          (Same expressionEnds tokens) tokens node rest printed := by
  obtain ⟨hbase, hkind, printed, hleaves, hrun⟩ :=
    appliedAtMost_run level hsorts (reads_ahead.mp h) hnode
  refine ⟨hbase, hkind, printed, hleaves, .rounds fun rounds hrounds =>
    ⟨fun hafter hdepth => hrun.again hafter hdepth hrounds, hrun.begins, hrun.written,
      hrun.shorter⟩⟩

/-! ### Operands -/

/-- An atom and what is applied to it are read again. -/
theorem appliedAtom_run {structs : Bool} {attributes : List Node} {start : List Token}
    (hsorts : sorts.Replays)
      (h : (appliedAtom sorts structs attributes start).Reads tokens node rest)
    (hnode : node.isExplicit = true) : (∀ node ∈ attributes, node.isExplicit = true) ∧
      (node.isOperand = true ∧
        (isOp "#" tokens = false → node.isBlockLike = true → beginsBlock tokens = true)) ∧
      ∃ printed, printed ≠ [] ∧
        node.leaves = attributes.flatMap Node.leaves ++ printed ∧ ∀ start',
          Run level (fun sorts => appliedAtom sorts structs attributes start')
            (Same expressionEnds rest) (SameExpression tokens) tokens node rest printed := by
  obtain ⟨base, mid, hbase, h⟩ := reads_bind.mp h
  obtain ⟨inner, left, hinner, h⟩ := reads_bind.mp h
  rcases reads_ite.mp h with ⟨-, h⟩ | ⟨hnotVerbatim, h⟩
  · exact absurd hnode (Node.not_isExplicit_of_isVerbatim (isVerbatim_of_keepFrom h))
  rcases reads_ite.mp h with ⟨-, h⟩ | ⟨hnotRange, hpure⟩
  · exact absurd h not_reads_refuse
  obtain ⟨rfl, rfl⟩ := reads_pure.mp hpure
  have hinnerExplicit := Node.isExplicit_of_withAttributes hnode
  obtain ⟨hbaseExplicit, hkind, printed, hleaves, hrun⟩ :=
    applied_run level hsorts hinner hinnerExplicit
  have hatom := atom_run level hsorts hbase hbaseExplicit
  have hoperand : inner.isOperand = true ∧
      (isOp "#" tokens = false → inner.isBlockLike = true → beginsBlock tokens = true) := by
    rcases hkind with ⟨rfl, -⟩ | happlied
    · exact ⟨hatom.isOperand, hatom.beginsBlock⟩
    · obtain ⟨hoperand, -, hblock⟩ := Node.of_isApplied happlied
      exact ⟨hoperand, fun _ h => absurd (hblock.symm.trans h) Bool.false_ne_true⟩
  have hconstruct := Node.isConstruct_of_isLed (Node.isLed_of_isOperand hoperand.1)
  refine ⟨((Node.isExplicit_withAttributes hconstruct).mp hnode).1, ?_, base.leaves ++ printed,
    by simp [hatom.leaves_ne], by rw [Node.leaves_withAttributes _ hconstruct, hleaves],
      fun start' => ?_⟩
  · cases inner with
    | construct kind others children => exact hoperand
    | _ => contradiction
  · refine .cast (.bind _ hatom.run (.bind _ hrun ?_)) (show _ ++ (printed ++ []) = _ by simp)
    simp only [if_neg hnotVerbatim, if_neg hnotRange]
    exact .pure

/-- A minus in front of an operand is read again. -/
theorem minus_run {ends : List Token → Prop} (h : (operator "-").Reads tokens node rest)
    (hends : ∀ after, ends after → Alike false rest after) :
    Run level (fun _ => operator "-") ends (Same openers tokens) tokens node rest node.leaves :=
  operator_run h fun _ hafter => same_operator (reads_operator.mp h).1 (by decide) (by decide)
    (fun _ => hends _ hafter) (fun longer hmem hbegins => absurd hbegins (by
      have hall : ∀ longer ∈ openers, ¬ ['-'] <+: longer.toList := by decide
      exact hall longer hmem)) nofun

variable (level) in
/-- A reference to an operand, or its address, is read again. -/
theorem referenceTo_run {structs : Bool} {attributes : List Node} (hsorts : sorts.Replays)
    (h : (referenceTo sorts structs attributes).Reads tokens node rest)
    (hnode : node.isExplicit = true) : (∀ node ∈ attributes, node.isExplicit = true) ∧
      (node.isOperand = true ∧ node.isBlockLike = false) ∧ ∃ printed, printed ≠ [] ∧
        node.leaves = attributes.flatMap Node.leaves ++ printed ∧
          Run level (fun sorts => referenceTo sorts structs attributes) (Same expressionEnds rest)
            (Same openers tokens) tokens node rest printed := by
  obtain ⟨mark, mid, hmark, h⟩ := reads_bind.mp h
  have hne := leaves_ne_nil_of_operator hmark
  have hglance : ∀ again, Alike true mid again →
      (isWord "raw" again && isAnyOf ["mut", "const"] (afterOne again)) =
        (isWord "raw" mid && isAnyOf ["mut", "const"] (afterOne mid)) := fun again hagain =>
    hagain.isWord_and_eq (by decide) fun hbehind => hbehind.isAnyOf _
  have hmarkRun :
    Run level (fun _ => operator "&") (Alike true mid) (Same openers tokens) tokens mark
      mid mark.leaves := clear_run hmark (by decide)
  unfold referenceTo
  rcases reads_ite.mp (reads_ahead.mp h) with ⟨hraw, h⟩ | ⟨hnot, h⟩
  · obtain ⟨raw, left, hrawWord, word, next, hword, operand, last, hoperand, hpure⟩ := by
      simpa only [reads_bind] using h
    obtain ⟨rfl, rfl⟩ := reads_pure.mp hpure
    obtain ⟨-, -, hleading, hparts⟩ := (Node.isExplicit_construct rfl).mp hnode
    obtain ⟨text, behind, htext, hwordPure⟩ := reads_bind.mp hword
    obtain ⟨rfl, rfl⟩ := reads_pure.mp hwordPure
    have hrawRun : Run (level + 8) (fun _ => keyword "raw") (Alike true left)
        (Alike true mid) mid raw left raw.leaves := by
      refine keyword_bare hrawWord fun after hafter => ?_
      rw [(reads_keyword.mp hrawWord).1]
      exact .word fun _ _ => hafter
    have hwordRun : Run (level + 8) (fun _ => wordNode anyWord) (SameExpression behind)
        (Alike true left) left (.word text) behind [.word text] := by
      refine .map _ (anyWord_bare htext fun after hafter => ?_)
      rw [reads_anyWord.mp htext]
      exact .word fun _ _ => hafter.alike
    refine ⟨hleading, ⟨rfl, rfl⟩, mark.leaves ++ (raw.leaves ++ ([.word text] ++ operand.leaves)),
      by simp [hne], by simp, .next _ hmarkRun hne (.ahead ?_ fun again sorts hagain => by
        rw [hglance again hagain])⟩
    simp only [if_pos hraw]
    exact .bind _ hrawRun (.bind _ hwordRun
      (((hsorts.operand hoperand (hparts operand (by simp))).run.raise (by omega)).map _))
  · obtain ⟨word, left, hword, operand, last, hoperand, hpure⟩ := by simpa only [reads_bind] using h
    obtain ⟨rfl, rfl⟩ := reads_pure.mp hpure
    obtain ⟨-, -, hleading, hparts⟩ := (Node.isExplicit_construct rfl).mp hnode
    refine ⟨hleading, ⟨rfl, rfl⟩, mark.leaves ++ (word.flatMap Node.leaves ++ operand.leaves),
      by simp [hne], by simp, .next _ hmarkRun hne (.ahead ?_ fun again sorts hagain => by
        rw [hglance again hagain])⟩
    simp only [if_neg hnot]
    have hwordRun : Run (level + 8) (fun _ => keyword? "mut") (Same openers left)
        (Same openers mid) mid word left (word.flatMap Node.leaves) := keyword?_run hword rfl
    have hoperandRun :
      Run (level + 8) (fun sorts => sorts.operand structs) (Same expressionEnds last)
        (Same openers left) left operand last operand.leaves :=
      ((hsorts.operand hoperand (hparts operand (by simp))).run.raise (by omega)).mono (fun _ => id)
        fun _ h => h.toSame
    exact .bind _ (hwordRun.mono (fun _ => id) fun _ h => h.alike) (hoperandRun.map _)

/-- The sign in front of an operand. -/
def signOf (tokens : List Token) : Parser Node :=
  if isOp "*" tokens then operator "*"
  else if isOp "!" tokens then operator "!"
  else operator "-"

variable (level) in
/-- The sign in front of an operand is read again. -/
theorem signOf_run (ends : List Token → Prop) (h : (signOf tokens).Reads tokens node rest)
    (hends : ∀ after, ends after → Alike false rest after) :
    Run level (fun _ => signOf tokens) ends (Same openers tokens) tokens node rest node.leaves ∧
      node.leaves ≠ [] := by
  unfold signOf at h ⊢
  rcases reads_ite.mp h with ⟨hstar, h⟩ | ⟨hnotStar, h⟩
  · simp only [if_pos hstar]
    exact ⟨clear_run h (by decide), leaves_ne_nil_of_operator h⟩
  simp only [if_neg hnotStar]
  rcases reads_ite.mp h with ⟨hbang, h⟩ | ⟨hnotBang, h⟩
  · simp only [if_pos hbang]
    exact ⟨clear_run h (by decide), leaves_ne_nil_of_operator h⟩
  · simp only [if_neg hnotBang]
    exact ⟨minus_run h hends, leaves_ne_nil_of_operator h⟩

/-- An operand behind its attributes. -/
def operandFrom (structs : Bool) (attributes : List Node) (start tokens : List Token)
    (sorts : Sorts) :
    Parser Node :=
  if isOp "&" tokens then referenceTo sorts structs attributes
  else if isOneOf ["*", "!", "-"] tokens then
    signOf tokens >>= fun sign => sorts.operand structs >>= fun operand =>
      pure (.construct .unary attributes [.branch .start [sign], operand])
  else appliedAtom sorts structs attributes start

theorem operandWhere_from (structs : Bool) (sorts : Sorts) : operandWhere sorts structs =
    ahead >>= fun start => outerAttributes sorts >>= fun attributes => ahead >>= fun tokens =>
      operandFrom structs attributes start tokens sorts := by
  unfold operandWhere operandFrom signOf
  simp only [ite_bind]

/-- An expression that begins with a mark looks from before as it did. -/
theorem Same.expression_of_mark {text : String} (h : Same openers tokens again)
    (hthere : Grammar.isOp text tokens = true) (htext : text.toList.head? ≠ some ':') :
    SameExpression tokens again := by
  obtain ⟨next, hnext⟩ := Option.isSome_iff_exists.mp hthere
  cases htoList : text.toList with
  | nil =>
    rw [htoList] at hnext
    simp [afterOperator?] at hnext
  | cons c others =>
    rw [htoList] at hnext htext
    obtain ⟨-, spacing, mid, rfl, -⟩ := afterOperator?_cons_eq_some.mp hnext
    refine h.expression rfl (isOp_mark ?_ _ _) rfl rfl
    simpa [eq_comm] using htext

variable (level) in
/-- An operand is read again behind its attributes. -/
theorem operandFrom_run {structs : Bool} {attributes : List Node} {start : List Token}
    (hsorts : sorts.Replays)
      (h : (operandFrom structs attributes start tokens sorts).Reads tokens node rest)
    (hnode : node.isExplicit = true) : (∀ node ∈ attributes, node.isExplicit = true) ∧
      (node.isOperand = true ∧
        (isOp "#" tokens = false → node.isBlockLike = true → beginsBlock tokens = true)) ∧
      ∃ printed, printed ≠ [] ∧
        node.leaves = attributes.flatMap Node.leaves ++ printed ∧ ∀ start',
          Run level (operandFrom structs attributes start' tokens) (Same expressionEnds rest)
            (SameExpression tokens) tokens node rest printed := by
  unfold operandFrom at h ⊢
  rcases reads_ite.mp h with ⟨hand, h⟩ | ⟨hnotAnd, h⟩
  · obtain ⟨hleading, ⟨hoperand, hblock⟩, printed, hne, hleaves, hrun⟩ :=
      referenceTo_run level hsorts h hnode
    refine ⟨hleading, ⟨hoperand, fun _ h => absurd (hblock.symm.trans h) Bool.false_ne_true⟩,
      printed, hne, hleaves, fun _ => ?_⟩
    simp only [if_pos hand]
    exact hrun.mono (fun _ => id) fun _ h => h.expression_of_mark hand (by decide)
  simp only [if_neg hnotAnd]
  rcases reads_ite.mp h with ⟨hsigns, h⟩ | ⟨hnotSigns, h⟩
  · obtain ⟨sign, mid, hsign, operand, last, hoperand, hpure⟩ := by simpa only [reads_bind] using h
    obtain ⟨rfl, rfl⟩ := reads_pure.mp hpure
    obtain ⟨-, -, hleading, hparts⟩ := (Node.isExplicit_construct rfl).mp hnode
    obtain ⟨hrun, hne⟩ := signOf_run level (SameExpression mid) hsign fun _ h => h.alike.weaken
    refine ⟨hleading, ⟨rfl, fun _ h => absurd h Bool.false_ne_true⟩, sign.leaves ++ operand.leaves,
      by simp [hne], by simp, fun _ => ?_⟩
    simp only [if_pos hsigns]
    refine .mono (.next _ hrun hne
      (((hsorts.operand hoperand (hparts operand (by simp))).run.raise (by omega)).map _))
        (fun _ => id) fun _ h => ?_
    obtain ⟨text, hmem, hthere⟩ := List.any_eq_true.mp hsigns
    refine h.expression_of_mark hthere ?_
    have hall : ∀ text ∈ ["*", "!", "-"], text.toList.head? ≠ some ':' := by decide
    exact hall text hmem
  · simp only [if_neg hnotSigns]
    exact appliedAtom_run hsorts h hnode

/-- An operand is read again. -/
theorem operandWhere_run {structs : Bool} (hsorts : sorts.Replays)
    (h : (operandWhere sorts structs).Reads tokens node rest) (hnode : node.isExplicit = true) :
    AtomRun expressionEnds level (fun sorts => operandWhere sorts structs) tokens node rest := by
  rw [operandWhere_from] at h
  obtain ⟨attributes, mid, hattributes, h⟩ := reads_bind.mp (reads_ahead.mp h)
  obtain ⟨hleading, ⟨hoperand, hblock⟩, printed, hne, hleaves, hrun⟩ :=
    operandFrom_run level hsorts (reads_ahead.mp h) hnode
  have hattributesRun :
    Run level outerAttributes (SameExpression mid) (SameExpression tokens) tokens
      attributes mid (attributes.flatMap Node.leaves) :=
    outerAttributes_run hsorts hattributes hleading (fun h => h.isOp "#" (by decide))
      fun hthere h => h.expression_of_mark hthere (by decide)
  have hall : ∀ start, Run level (fun sorts => outerAttributes sorts >>= fun attributes =>
      ahead >>= fun tokens => operandFrom structs attributes start tokens sorts)
      (Same expressionEnds rest) (SameExpression tokens) tokens node rest node.leaves := by
    intro start
    refine .cast (.bind _ hattributesRun (.ahead (hrun start) fun again sorts hagain => ?_))
      hleaves.symm
    rw [operandFrom, operandFrom, signOf, signOf, hagain.isOp "&" (by decide),
      hagain.isOneOf _ (by decide), hagain.isOp "*" (by decide), hagain.isOp "!" (by decide)]
  rw [show (fun sorts => operandWhere sorts structs) = _ from
    funext fun sorts => operandWhere_from structs sorts]
  refine ⟨⟨fun hafter hdepth => reads_ahead.mpr ((hall _).again hafter hdepth), (hall []).begins,
    (hall []).written, (hall []).shorter⟩, hoperand, by rw [hleaves]; simp [hne], fun hpound => ?_⟩
  obtain ⟨rfl, rfl⟩ := (outerAttributes_none hpound).eq hattributes
  exact hblock hpound

/-! ### What no operand begins with -/

/-- Brackets follow a number sign in front of an operand. -/
theorem bracket_of_operand {structs : Bool}
    (h : (operandWhere sorts structs).Reads tokens node rest)
    (hpound : isOp "#" tokens = true) : isGroup .bracket (afterOne tokens) = true := by
  rw [operandWhere_from] at h
  obtain ⟨attributes, mid, hattributes, -⟩ := reads_bind.mp (reads_ahead.mp h)
  obtain ⟨metas, _, hmetas, -⟩ := reads_bind.mp hattributes
  rcases reads_ite.mp (reads_ahead.mp (reads_ahead.mp hmetas)) with ⟨-, h⟩ | ⟨hnot, -⟩
  · obtain ⟨found, _, hfound, -⟩ := reads_bind.mp h
    obtain ⟨content, _, hcontent, -⟩ := reads_bind.mp hfound
    obtain ⟨pound, left, hsign, hinside⟩ := reads_bind.mp hcontent
    obtain ⟨body, rfl, -⟩ := reads_inside.mp hinside
    obtain ⟨-, spacing, mid, rfl, ⟨-, rfl⟩ | ⟨hne, -⟩⟩ :=
      afterOperator?_cons_eq_some.mp (reads_operator.mp hsign).1
    · rfl
    · exact absurd rfl hne
  · exact absurd hpound hnot

/-- Without a number sign there are no attributes. -/
theorem reads_operandFrom {structs : Bool} (h : (operandWhere sorts structs).Reads tokens node rest)
    (hpound : isOp "#" tokens = false) :
    (operandFrom structs [] tokens tokens sorts).Reads tokens node rest := by
  rw [operandWhere_from] at h
  obtain ⟨attributes, mid, hattributes, h⟩ := reads_bind.mp (reads_ahead.mp h)
  obtain ⟨rfl, rfl⟩ := (outerAttributes_none hpound).eq hattributes
  exact reads_ahead.mp h

/-- No atom begins with a mark that begins no expression. -/
theorem not_reads_atom {structs : Bool} {char : Char} {spacing : Spacing} {others : List Token}
    (hchar : char = ':' ∨ char = '>') (hcolons : isOp "::" (.mark char spacing :: others) = false) :
    ¬ (atom sorts structs).Reads (.mark char spacing :: others) node rest := by
  intro h
  have h := reads_ahead.mp (atom_eq sorts structs ▸ h)
  have hmark : ∀ text ∈ ["|", "<", ".."], isOp text (.mark char spacing :: others) = false := by
    intro text hmem
    refine isOp_mark ?_ _ _
    rcases hchar with rfl | rfl
    · have hall : ∀ text ∈ ["|", "<", ".."], text.toList.head? ≠ some ':' := by decide
      exact hall text hmem
    · have hall : ∀ text ∈ ["|", "<", ".."], text.toList.head? ≠ some '>' := by decide
      exact hall text hmem
  have hliteral : isLiteral (.mark char spacing :: others) = false := by
    rcases hchar with rfl | rfl <;> rfl
  have hlifetime : isLifetime (.mark char spacing :: others) = false := by
    rcases hchar with rfl | rfl <;> rfl
  simp [atomFrom, hliteral, hlifetime, beginsAsync, beginsTryBlock, beginsClosure, beginsBinder,
    isBuiltin, beginsPath, isWord, isPathWord, isGroup, Token.isGroup, hcolons, hmark] at h

/-- What an operand begins with may follow a colon. -/
theorem followsColon_operand {structs : Bool}
    (h : (operandWhere sorts structs).Reads tokens node rest) : FollowsColon tokens := by
  intro hcolon
  by_contra hnot
  have hcolons := Bool.eq_false_iff.mpr hnot
  obtain ⟨next, hnext⟩ := Option.isSome_iff_exists.mp hcolon
  obtain ⟨-, spacing, mid, rfl, -⟩ :=
    afterOperator?_cons_eq_some.mp (show afterOperator? [':'] tokens = some next from hnext)
  have h := reads_operandFrom h (isOp_mark (by decide) _ _)
  have hmark : ∀ text ∈ ["&", "*", "!", "-"], isOp text (.mark ':' spacing :: mid) = false :=
    fun text hmem => isOp_mark (by
      have hall : ∀ text ∈ ["&", "*", "!", "-"], text.toList.head? ≠ some ':' := by decide
      exact hall text hmem) _ _
  simp only [operandFrom, isOneOf, List.any_cons, List.any_nil, hmark "&" (by simp),
    hmark "*" (by simp), hmark "!" (by simp), hmark "-" (by simp), Bool.or_false,
    Bool.false_eq_true, if_false] at h
  obtain ⟨_, _, hatom, -⟩ := reads_bind.mp h
  exact not_reads_atom (.inl rfl) hcolons hatom

/-- No operand begins with an angle that closes. -/
theorem not_angle_of_operand {structs : Bool}
    (h : (operandWhere sorts structs).Reads tokens node rest) : isOp ">" tokens = false := by
  rw [Bool.eq_false_iff]
  intro hangle
  obtain ⟨next, hnext⟩ := Option.isSome_iff_exists.mp hangle
  obtain ⟨-, spacing, mid, rfl, -⟩ :=
    afterOperator?_cons_eq_some.mp (show afterOperator? ['>'] tokens = some next from hnext)
  have h := reads_operandFrom h (isOp_mark (by decide) _ _)
  have hmark : ∀ text ∈ ["&", "*", "!", "-"], isOp text (.mark '>' spacing :: mid) = false :=
    fun text hmem => isOp_mark (by
      have hall : ∀ text ∈ ["&", "*", "!", "-"], text.toList.head? ≠ some '>' := by decide
      exact hall text hmem) _ _
  simp only [operandFrom, isOneOf, List.any_cons, List.any_nil, hmark "&" (by simp),
    hmark "*" (by simp), hmark "!" (by simp), hmark "-" (by simp), Bool.or_false,
    Bool.false_eq_true, if_false] at h
  obtain ⟨_, _, hatom, -⟩ := reads_bind.mp h
  exact not_reads_atom (.inr rfl) (isOp_mark (by decide) _ _) hatom

end Applied

end Typestate.Grammar
