import Typestate.Proofs.Rereading.Applied

/-!
# Operators, read again

Behind a first operand, operators are read one by one, each with the operand to its right. Of two
operators with a common beginning the longer one is looked for first, so that no longer one is seen
in what is printed of an operator.
-/

namespace Typestate.Grammar

open Grammar.Parser Lexer Token

section Operator

variable {level : ℕ} {sorts : Sorts} {tokens mid rest again printed behind : List Token}
  {first node : Node} {structs : Bool} {least : Precedence}

/-! ### Casts -/

theorem Same.appliedToCast? (h : Same expressionEnds tokens again)
    (hnone : Grammar.appliedToCast? tokens = none) : Grammar.appliedToCast? again = none := by
  obtain ⟨hcall, hdot, hindex, hmark⟩ := h.isApplication
  unfold Grammar.appliedToCast? at hnone ⊢
  rw [hcall, hdot, hindex, hmark]
  by_cases hthere : Grammar.isDot tokens = true
  · rw [if_pos hthere] at hnone
    contradiction
  · rw [if_neg hthere] at hnone ⊢
    exact hnone

/-- What is done behind the type of a cast: nothing is applied to a cast. -/
def endOfCast (cast : Node) : Parser Node :=
  ahead >>= fun tokens => match appliedToCast? tokens with
    | some applied => refuse ("casts cannot be followed by " ++ applied)
    | none => pure cast

theorem castOf_eq (sorts : Sorts) (first : Node) : castOf sorts first =
    keyword "as" >>= fun word => sorts.type false >>= fun type =>
      endOfCast (.branch .cast [first, word, type]) := rfl

variable (level) in
/-- Nothing is applied to a cast that is read again. -/
theorem endOfCast_run {cast : Node} (h : (endOfCast cast).Reads tokens node rest) :
    node = cast ∧ rest = tokens ∧
      Run level (fun _ => endOfCast cast) (Same expressionEnds tokens) (Same expressionEnds tokens)
        tokens cast tokens [] := by
  unfold endOfCast at h ⊢
  have h := reads_ahead.mp h
  cases happlied : appliedToCast? tokens with
  | some applied => exact absurd (happlied ▸ h) not_reads_refuse
  | none =>
    obtain ⟨rfl, rfl⟩ := reads_pure.mp (show (pure _ : Parser Node).Reads _ _ _ from happlied ▸ h)
    refine ⟨rfl, rfl, .ahead ?_ fun again _ hagain => ?_⟩
    · rw [happlied]
      exact .pure
    · rw [hagain.appliedToCast? happlied, happlied]

/-- A cast is read again behind its operand. -/
theorem castOf_run (hsorts : sorts.Replays) (h : (castOf sorts first).Reads tokens node rest)
    (hnode : node.isExplicit = true) : ∃ printed, printed ≠ [] ∧
      OperatorsRun level (fun sorts => castOf sorts first) first tokens node rest printed := by
  rw [castOf_eq] at h
  obtain ⟨word, mid, hword, type, last, htype, h⟩ := by simpa only [reads_bind] using h
  obtain ⟨rfl, rfl, hend⟩ := endOfCast_run (level + 8) h
  have hparts := Node.isExplicit_parts hnode rfl
  have htypeRun := hsorts.type htype (hparts type (by simp))
  have hne : word.leaves ≠ [] := by
    obtain ⟨-, rfl⟩ := reads_keyword.mp hword
    simp
  have hwordRun : Run level (fun _ => keyword "as") (Same openers mid)
      (Same expressionEnds tokens) tokens word mid word.leaves :=
    keyword_run hword rfl fun _ hafter _ => hafter.alike
  have htypeEnd : Run (level + 8) (fun sorts => sorts.type false) (Same expressionEnds rest)
      (Same openers mid) mid type rest type.leaves :=
    (htypeRun.raise (by omega)).mono (fun _ hafter => hafter.mono (by decide)) fun _ => id
  simp only [castOf_eq]
  refine ⟨word.leaves ++ type.leaves, by simp [hne],
    .cast (.next _ hwordRun hne (.bind _ htypeEnd hend)) (by simp), hparts first (by simp),
    id, by simp, by simp [hne], fun _ => ⟨?_, rfl⟩⟩
  obtain ⟨rfl, -⟩ := reads_keyword.mp hword
  exact Nat.lt_succ_of_le htypeRun.shorter

/-! ### Operators between two operands -/

/-- An operator and the operand to its right. -/
def operated (structs : Bool) (text : String) (precedence : Precedence) (kind : Kind) (first : Node)
    (sorts : Sorts) : Parser Node :=
  operator text >>= fun sign => rightOperand sorts structs precedence >>= fun second =>
    pure (.branch kind [first, sign, second])

/-- An operator and the operand to its right are read again. -/
theorem operated_run {text : String} {precedence : Precedence} {kind : Kind}
    (hsorts : sorts.Replays)
    (hkind : ∀ sign second, holdsArguments kind [first, sign, second] = false ∧
      (Node.branch kind [first, sign, second]).isLed = first.isLed ∧
        (Node.branch kind [first, sign, second]).isBlockLike = false)
    (h : (operated structs text precedence kind first sorts).Reads tokens node rest)
    (hnode : node.isExplicit = true)
    (hcolons : ¬ [':', ':'] <+: text.toList) (hpound : ¬ ['#'] <+: text.toList)
    (hcolon : text.toList ≠ [':'])
    (hfits : ∀ longer ∈ expressionEnds, text.toList <+: longer.toList →
      longer.toList = text.toList ∨ longer = "->" ∨ isOp longer tokens = false) :
    ∃ printed, printed ≠ [] ∧
      OperatorsRun level (operated structs text precedence kind first) first tokens node rest
        printed := by
  obtain ⟨sign, mid, hsign, h⟩ := reads_bind.mp h
  obtain ⟨second, last, hsecond, hpure⟩ := reads_bind.mp h
  obtain ⟨rfl, rfl⟩ := reads_pure.mp hpure
  obtain ⟨hholds, hled, hblock⟩ := hkind sign second
  have hparts := Node.isExplicit_parts hnode hholds
  have hsecondRun := rightOperand_run (level + 8) hsorts (by omega) hsecond
    (hparts second (by simp))
  have hne := leaves_ne_nil_of_operator hsign
  have hop := (reads_operator.mp hsign).1
  have hangle : text.toList <+: "->".toList → text.toList ≠ "->".toList →
      isOp "->" tokens = false := by
    intro hbegins hne
    rw [Bool.eq_false_iff]
    intro hlong
    obtain ⟨angle, hangle⟩ := Option.isSome_iff_exists.mp hlong
    obtain ⟨-, spacing, others, rfl, ⟨hnil, -⟩ | ⟨-, -, hbehind⟩⟩ :=
      afterOperator?_cons_eq_some.mp
        (show afterOperator? ['-', '>'] tokens = some angle from hangle)
    · contradiction
    obtain ⟨operand, _, hoperand, -⟩ := reads_bind.mp hsecond
    have hminus : text.toList = ['-'] := by
      rcases List.prefix_cons_iff.mp hbegins with hnil | ⟨more, hmore, hangle⟩
      · rw [hnil] at hop
        simp [afterOperator?] at hop
      · rcases List.prefix_cons_iff.mp hangle with rfl | ⟨more, rfl, hnil⟩
        · exact hmore
        · obtain rfl := List.prefix_nil.mp hnil
          exact absurd hmore hne
    rw [hminus] at hop
    obtain rfl : others = mid := Option.some.inj hop
    exact absurd (hsorts.operand_angle hoperand) (by
      rw [isOp, show ">".toList = ['>'] from rfl, hbehind, Option.isSome_some]
      exact Bool.noConfusion)
  have hsignRun : Run level (fun _ => operator text) (SameExpression mid)
      (Same expressionEnds tokens) tokens sign mid sign.leaves := by
    refine operator_run hsign fun after hafter => same_operator hop (fun h => absurd h hcolons)
      (fun h => absurd h hpound) (fun _ => hafter.alike.weaken) (fun longer hmem hbegins => ?_)
      fun heq => absurd heq hcolon
    rcases hfits longer hmem hbegins with heq | rfl | hnot
    · exact .inl heq
    · by_cases heq : text.toList = "->".toList
      · exact .inl heq.symm
      · exact .inr (hangle hbegins heq)
    · exact .inr hnot
  refine ⟨sign.leaves ++ second.leaves, by simp [hne], ?_⟩
  refine ⟨.next _ hsignRun hne (hsecondRun.map _), hparts first (by simp), fun h => hled.trans h,
    by simp, by simp [hne], fun _ => ⟨?_, hblock⟩⟩
  exact hsecondRun.shorter.trans_lt (length_lt_of_operator hop)

/-- What stands earlier in a list is not at the front if what is found in the list is. -/
theorem not_isOp_of_find? {entries : List (String × Precedence)} {entry : String × Precedence}
    (h : entries.find? (fun entry => isOp entry.1 tokens) = some entry) :
    ∀ other ∈ (entries.map Prod.fst).takeWhile (· ≠ entry.1), isOp other tokens = false := by
  induction entries with
  | nil => contradiction
  | cons first others ih =>
    intro other hother
    rw [List.find?_cons] at h
    cases hfirst : isOp first.1 tokens with
    | true =>
      rw [hfirst] at h
      obtain rfl := Option.some.inj h
      simp at hother
    | false =>
      rw [hfirst] at h
      rw [List.map_cons, List.takeWhile_cons] at hother
      split at hother
      · rcases List.mem_cons.mp hother with rfl | hother
        · exact hfirst
        · exact ih h other hother
      · contradiction

/-- Of what is looked for behind an expression, what goes on from an operator is an arrow or stands
in front of that operator in the list. -/
theorem longer_of_binaryOperators : ∀ entry ∈ binaryOperators, ∀ longer ∈ expressionEnds,
    entry.1.toList <+: longer.toList → longer.toList = entry.1.toList ∨ longer = "->" ∨
      longer ∈ (binaryOperators.map Prod.fst).takeWhile (· ≠ entry.1) := by
  decide +kernel

theorem operator_of_binaryOperators : ∀ entry ∈ binaryOperators,
    ¬ [':', ':'] <+: entry.1.toList ∧ ¬ ['#'] <+: entry.1.toList ∧ entry.1.toList ≠ [':'] := by
  decide

/-- An operator between two operands is read again with the second one. -/
theorem binary_run {text : String} {precedence : Precedence} (hsorts : sorts.Replays)
    (hlook : binaryOperator? tokens = some (text, precedence))
    (h : (operated structs text precedence .binary first sorts).Reads tokens node rest)
    (hnode : node.isExplicit = true) : ∃ printed, printed ≠ [] ∧
      OperatorsRun level (operated structs text precedence .binary first) first tokens node rest
        printed := by
  have hmem := List.mem_of_find?_eq_some hlook
  obtain ⟨hcolons, hpound, hcolon⟩ := operator_of_binaryOperators _ hmem
  refine operated_run hsorts (fun _ _ => ⟨rfl, rfl, rfl⟩) h hnode hcolons hpound hcolon
    fun longer hlonger hbegins => ?_
  rcases longer_of_binaryOperators _ hmem longer hlonger hbegins with heq | heq | hearlier
  · exact .inl heq
  · exact .inr (.inl heq)
  · exact .inr (.inr (not_isOp_of_find? hlook longer hearlier))

/-- An assignment is read again. -/
theorem assign_run (hsorts : sorts.Replays) (hnone : binaryOperator? tokens = none)
    (harrow : isOp "=>" tokens = false)
    (h : (operated structs "=" .assign .assign first sorts).Reads tokens node rest)
    (hnode : node.isExplicit = true) : ∃ printed, printed ≠ [] ∧
      OperatorsRun level (operated structs "=" .assign .assign first) first tokens node rest
        printed := by
  refine operated_run hsorts (fun _ _ => ⟨rfl, rfl, rfl⟩) h hnode (by decide) (by decide)
    (by decide) fun longer hlonger hbegins => ?_
  have hlist : ∀ longer ∈ expressionEnds, ['='] <+: longer.toList →
      longer = "==" ∨ longer = "=>" := by decide
  rcases hlist longer hlonger hbegins with rfl | rfl
  · have hequal := List.find?_eq_none.mp hnone ("==", .compare) (by decide)
    exact .inr (.inr (by simpa using hequal))
  · exact .inr (.inr harrow)

/-! ### One operator after another -/

/-- What is read after two things is read after the second of them. -/
theorem bind_assoc {A B C : Type} (parser : Parser A) (next : A → Parser B) (last : B → Parser C) :
    (parser >>= next) >>= last = parser >>= fun value => next value >>= last := by
  funext tokens
  simp only [bind, Except.bind, Except.pure, Pure.pure]
  cases parser tokens with
  | error mismatch => rfl
  | ok found =>
    dsimp only
    cases next found.value found.rest with
    | error mismatch => rfl
    | ok more =>
      dsimp only
      cases last more.value more.rest with
      | error mismatch => rfl
      | ok final => simp only [Option.or_assoc]

/-- What is done behind a first operand, by what is at hand. -/
def operatorsFrom (structs : Bool) (least : Precedence) (first : Node) (rounds : ℕ)
    (tokens : List Token) (sorts : Sorts) : Parser Node :=
  let next := fun node => operatorsAtMost sorts structs least node rounds
  if first.isRange then pure first
  else
    match binaryOperator? tokens with
    | some (text, precedence) =>
      if precedence < least then pure first
      else if precedence == .compare && first.isComparison then
        refuse "comparison operators cannot be chained"
      else operated structs text precedence .binary first sorts >>= next
    | none =>
      if least ≤ .assign && isOp "=" tokens && !isOp "=>" tokens then
        operated structs "=" .assign .assign first sorts >>= next
      else if least ≤ .range && isOp ".." tokens then rangeAfter sorts structs first >>= next
      else if least ≤ .cast && isWord "as" tokens then castOf sorts first >>= next
      else pure first

theorem operatorsAtMost_succ (sorts : Sorts) (rounds : ℕ) :
    operatorsAtMost sorts structs least first (rounds + 1) =
      ahead >>= fun tokens => operatorsFrom structs least first rounds tokens sorts := by
  rw [operatorsAtMost]
  refine congrArg (ahead >>= ·) (funext fun tokens => ?_)
  cases hfound : binaryOperator? tokens with
  | none => simp only [operatorsFrom, operated, hfound, bind_assoc, Parser.pure_bind]
  | some entry => simp only [operatorsFrom, operated, hfound, bind_assoc, Parser.pure_bind]

theorem Same.operatorsFrom {rounds : ℕ} (h : Same expressionEnds tokens again) :
    Grammar.operatorsFrom structs least first rounds again =
      Grammar.operatorsFrom structs least first rounds tokens := by
  funext sorts
  unfold Grammar.operatorsFrom
  rw [h.binaryOperator?, h.isOp "=" (by decide), h.isOp "=>" (by decide), h.isOp ".." (by decide),
    h.alike.isWord]

/-- Further operators are read again behind one that is. -/
theorem OperatorsRun.bind {step : Sorts → Parser Node} {more : Sorts → Node →
    Parser Node} {next : Node}
    (hstep : OperatorsRun level step first tokens next mid printed) (hne : printed ≠ [])
    (hmore : OperatorsRun level (fun sorts => more sorts next) next mid node rest behind) :
    OperatorsRun level (fun sorts => step sorts >>= more sorts) first tokens node rest
      (printed ++ behind) where
  run := hstep.run.bind _ hmore.run
  isExplicit := hstep.isExplicit
  isLed h := hmore.isLed (hstep.isLed h)
  leaves := by rw [hmore.leaves, hstep.leaves, List.append_assoc]
  none h := absurd (List.append_eq_nil_iff.mp h).1 hne
  some _ := by
    obtain ⟨hshort, hblock⟩ := hstep.some hne
    refine ⟨hmore.run.shorter.trans_lt hshort, ?_⟩
    by_cases hbehind : behind = []
    · rw [(hmore.none hbehind).1, hblock]
    · exact (hmore.some hbehind).2

/-- Without an operator the first operand stands alone. -/
theorem OperatorsRun.pure (hfirst : first.isExplicit = true) :
    OperatorsRun level (fun _ => Pure.pure first) first tokens first tokens [] where
  run := .pure
  isExplicit := hfirst
  isLed := id
  leaves := (List.append_nil _).symm
  none _ := ⟨rfl, rfl⟩
  some h := absurd rfl h

/-- What is done behind an operand is done again. -/
abbrev OperatorsAgain (level : ℕ) (structs : Bool) (least : Precedence) (first : Node)
    (tokens : List Token) (node : Node) (rest : List Token) : Prop :=
  ∃ printed, ∀ rounds, printed.length < rounds →
    OperatorsRun level (fun sorts => operatorsAtMost sorts structs least first rounds) first tokens
      node rest printed

/-- What is done behind an operand takes some tokens, and then there are further operators. -/
theorem OperatorsRun.taken {step : Sorts → Parser Node} {rounds : ℕ}
    (h : (step sorts >>= fun next => operatorsAtMost sorts structs least next rounds).Reads tokens
      node rest)
    (hstep : ∀ {next mid}, (step sorts).Reads tokens next mid → next.isExplicit = true →
      ∃ printed, printed ≠ [] ∧ OperatorsRun level step first tokens next mid printed)
    (hmore : ∀ {next mid}, (operatorsAtMost sorts structs least next rounds).Reads mid node rest →
      OperatorsAgain level structs least next mid node rest) :
    ∃ printed, ∀ rounds, printed.length < rounds + 1 → OperatorsRun level (fun sorts =>
      step sorts >>= fun next => operatorsAtMost sorts structs least next rounds) first tokens node
        rest printed := by
  obtain ⟨next, mid, hnext, hrest⟩ := reads_bind.mp h
  obtain ⟨behind, hbehind⟩ := hmore hrest
  obtain ⟨printed, hne, hrun⟩ := hstep hnext (hbehind _ (Nat.lt_succ_self _)).isExplicit
  refine ⟨printed ++ behind, fun rounds hrounds => hrun.bind hne (hbehind rounds ?_)⟩
  have hpos := List.length_pos_of_ne_nil hne
  rw [List.length_append] at hrounds
  omega

/-- Where no operator is taken, the first operand stands alone. -/
theorem OperatorsRun.stopped (h : (Pure.pure first : Parser Node).Reads tokens node rest)
    (hnode : node.isExplicit = true) : ∃ printed, ∀ rounds, printed.length < rounds + 1 →
      OperatorsRun level (fun _ => Pure.pure first) first tokens node rest printed := by
  obtain ⟨rfl, rfl⟩ := reads_pure.mp h
  exact ⟨[], fun _ _ => .pure hnode⟩

/-- Whatever is at hand, what is done behind the operand is done again. -/
theorem operatorsFrom_run {rounds : ℕ} (hsorts : sorts.Replays)
    (h : (operatorsFrom structs least first rounds tokens sorts).Reads tokens node rest)
    (hnode : node.isExplicit = true)
    (hmore : ∀ {next mid}, (operatorsAtMost sorts structs least next rounds).Reads mid node rest →
      OperatorsAgain level structs least next mid node rest) :
    ∃ printed, ∀ rounds, printed.length < rounds + 1 → OperatorsRun level
      (operatorsFrom structs least first rounds tokens) first tokens node rest printed := by
  unfold operatorsFrom at h ⊢
  rcases reads_ite.mp h with ⟨hrange, h⟩ | ⟨hrange, h⟩
  · simp only [if_pos hrange]
    exact OperatorsRun.stopped h hnode
  simp only [if_neg hrange]
  cases hlook : binaryOperator? tokens with
  | some found =>
    obtain ⟨text, precedence⟩ := found
    simp only [hlook] at h ⊢
    rcases reads_ite.mp h with ⟨hless, h⟩ | ⟨hless, h⟩
    · simp only [if_pos hless]
      exact OperatorsRun.stopped h hnode
    simp only [if_neg hless]
    rcases reads_ite.mp h with ⟨-, h⟩ | ⟨hchained, h⟩
    · exact absurd h not_reads_refuse
    simp only [if_neg hchained]
    exact OperatorsRun.taken h (binary_run hsorts hlook) hmore
  | none =>
    simp only [hlook] at h ⊢
    rcases reads_ite.mp h with ⟨hequals, h⟩ | ⟨hequals, h⟩
    · simp only [if_pos hequals]
      obtain ⟨-, harrow⟩ := Bool.and_eq_true_iff.mp hequals
      exact OperatorsRun.taken h (assign_run hsorts hlook (by simpa using harrow)) hmore
    simp only [if_neg hequals]
    rcases reads_ite.mp h with ⟨hdots, h⟩ | ⟨hdots, h⟩
    · simp only [if_pos hdots]
      refine OperatorsRun.taken h (fun hnext hexplicit => ?_) hmore
      obtain ⟨hfirst, ⟨hoperand, hblock⟩, -, hshort, printed, hne, hleaves, hrun⟩ :=
        rangeAfter_run level _ hsorts hnext hexplicit (show _ ⊆ expressionEnds by decide)
          (by decide)
      exact ⟨printed, hne, hrun, hfirst, fun _ => Node.isLed_of_isOperand hoperand, hleaves,
        fun heq => absurd heq hne, fun _ => ⟨hshort, hblock⟩⟩
    simp only [if_neg hdots]
    rcases reads_ite.mp h with ⟨has, h⟩ | ⟨has, h⟩
    · simp only [if_pos has]
      exact OperatorsRun.taken h (castOf_run hsorts) hmore
    · simp only [if_neg has]
      exact OperatorsRun.stopped h hnode

/-- Operators and their operands are read again. -/
theorem operatorsAtMost_run (hsorts : sorts.Replays) {rounds : ℕ}
    (h : (operatorsAtMost sorts structs least first rounds).Reads tokens node rest)
    (hnode : node.isExplicit = true) :
      OperatorsAgain level structs least first tokens node rest := by
  induction rounds generalizing tokens first with
  | zero => exact absurd h not_reads_fail
  | succ rounds ih =>
    have h := reads_ahead.mp (operatorsAtMost_succ sorts rounds ▸ h)
    obtain ⟨printed, hrun⟩ := operatorsFrom_run hsorts h hnode ih
    refine ⟨printed, fun rounds' hrounds => ?_⟩
    obtain ⟨more, rfl⟩ : ∃ more, rounds' = more + 1 := ⟨rounds' - 1, by omega⟩
    have hfrom := hrun more hrounds
    refine ⟨?_, hfrom.isExplicit, hfrom.isLed, hfrom.leaves, hfrom.none, hfrom.some⟩
    rw [funext fun sorts => operatorsAtMost_succ sorts more]
    exact hfrom.run.ahead fun again sorts hagain => by rw [hagain.operatorsFrom]

variable (level) in
theorem operatorsWhere_run (hsorts : sorts.Replays)
    (h : (operatorsWhere sorts structs least first).Reads tokens node rest)
    (hnode : node.isExplicit = true) : ∃ printed,
      OperatorsRun level (fun sorts => operatorsWhere sorts structs least first) first
        tokens node rest printed := by
  obtain ⟨printed, hrun⟩ := operatorsAtMost_run hsorts (reads_ahead.mp h) hnode
  have hone := hrun _ (Nat.lt_succ_self _)
  exact ⟨printed, .rounds fun rounds hrounds => (hrun rounds hrounds).run, hone.isExplicit,
    hone.isLed, hone.leaves, hone.none, hone.some⟩

end Operator

end Typestate.Grammar
