import Typestate.Proofs.Rereading.Argument

/-!
# Paths, read again

A path is read again with the arguments of its segments. What follows it decides where it ends: two
colons go on with it, and in a type so does an angle that is no part of a longer operator.
-/

namespace Typestate.Grammar

open Grammar.Parser Lexer Token

section Path

variable {level : ℕ} {sorts : Sorts} {operators : List String} {tokens rest : List Token}
  {ends : List Token → Prop}

/-! ### Blocks and constants -/

/-- The statements of a group in braces are read again, with the attributes of the group. -/
theorem blockWithAttributes_run {node : Node} (hsorts : sorts.Replays)
    (h : (blockWithAttributes sorts).Reads tokens node rest) (hnode : node.isExplicit = true) :
    Run level blockWithAttributes ends (Same operators tokens) tokens node rest node.leaves := by
  obtain ⟨body, nodes, rfl, hnodes, rfl⟩ := reads_group.mp h
  obtain ⟨attributes, mid, hattributes, statements, left, hstatements, hpure⟩ := by
    simpa only [reads_bind] using hnodes
  obtain ⟨rfl, rfl⟩ := reads_pure.mp hpure
  obtain ⟨hfirst, hothers⟩ := List.forall_mem_append.mp (Node.isExplicit_group.mp hnode)
  have hfirstRun : Run 8 innerAttributes (Same openers mid) (Same openers body) body attributes mid
      (attributes.flatMap Node.leaves) :=
    innerAttributes_run hsorts hattributes hfirst (by decide) (by decide)
  have hrun := ((hsorts.statements hstatements hothers).raise (show 3 ≤ 8 by decide)).map
    (attributes ++ ·)
  exact .group (.cast (.bind _ hfirstRun hrun) List.flatMap_append.symm) operators

theorem block_run {node : Node} (hsorts : sorts.Replays) (h : (block sorts).Reads tokens node rest)
    (hnode : node.isExplicit = true) :
    Run level block ends (Same operators tokens) tokens node rest node.leaves := by
  obtain ⟨body, nodes, rfl, hnodes, rfl⟩ := reads_group.mp h
  exact .group ((hsorts.statements hnodes (Node.isExplicit_group.mp hnode)).raise (by omega))
    operators

theorem isIdentifier_of_isLiteral (h : isLiteral tokens = true) : isIdentifier tokens = false := by
  unfold isLiteral at h
  split at h
  · rfl
  · rcases Bool.or_eq_true_iff.mp h with heq | heq
    · rw [beq_iff_eq.mp heq]
      rfl
    · rw [beq_iff_eq.mp heq]
      rfl
  · rfl
  · contradiction

theorem isIdentifier_of_isGroup {delimiter : Delimiter} (h : isGroup delimiter tokens = true) :
    isIdentifier tokens = false := by
  unfold isIdentifier
  split
  · contradiction
  · rfl

/-- A constant as an argument is read again. If it is a name, what goes on with it has to stand
behind it as it did. -/
theorem constantArgument_run {node : Node} (hsorts : sorts.Replays)
    (h : (constantArgument sorts).Reads tokens node rest) (hnode : node.isExplicit = true)
    (hends : ∀ after, ends after → Alike true rest after)
    (hname : isIdentifier tokens = true → ∀ after, ends after → ∀ longer ∈ nameEnds,
      longer ∈ operators → isOp longer after = isOp longer rest) :
    Run level constantArgument ends (Same operators tokens) tokens node rest node.leaves := by
  simp only [constantArgument, ↓reads_ahead] at h
  unfold constantArgument
  refine .ahead ?_ fun again sorts hagain => by
    rw [hagain.alike.isLiteral, hagain.alike.isIdentifier, hagain.alike.isGroup]
  split at h
  · rename_i hthere
    simp only [if_pos hthere]
    exact literal_run h hends
  · rename_i hnot
    simp only [if_neg hnot]
    split at h
    · rename_i hthere
      obtain ⟨name, mid, hidentifier, hpure⟩ := reads_bind.mp h
      obtain ⟨rfl, rfl⟩ := reads_pure.mp hpure
      simp only [if_pos hthere]
      exact ((identifier_run hidentifier hends (hname hthere)).map _).cast (by simp)
    · rename_i hnot
      simp only [if_neg hnot]
      split at h
      · rename_i hthere
        obtain ⟨body, mid, hbody, hpure⟩ := reads_bind.mp h
        obtain ⟨rfl, rfl⟩ := reads_pure.mp hpure
        simp only [if_pos hthere]
        have hparts := Node.isExplicit_parts hnode rfl body (List.mem_singleton_self _)
        exact ((blockWithAttributes_run hsorts hbody hparts).map _).cast (by simp)
      · exact absurd h not_reads_expected

/-! ### Generic arguments -/

theorem eq_of_associatedName? {node : Node} {name : List Node}
    (h : associatedName? node = some name) :
    node = .branch .pathType [.branch .path [.branch .segment name]] := by
  unfold associatedName? at h
  split at h
  · obtain rfl := Option.some.inj h
    rfl
  · contradiction

/-- A type that is a single name is explicit if the name is. -/
theorem isExplicit_named {name : List Node} (h : ∀ node ∈ name, node.isExplicit = true) :
    (Node.branch .pathType [.branch .path [.branch .segment name]]).isExplicit = true := by
  simp [Node.isExplicit, listIsExplicit, isDoubtful, looseKinds, listIsExplicit_iff.mpr h]

/-- What an associated item is said to be is read again, a constant or a type. -/
theorem associatedValue_run {value : Node} (hsorts : sorts.Replays) (hlevel : 2 ≤ level)
    (h : (if isLiteral tokens || isGroup .brace tokens then constantArgument sorts
      else sorts.type true).Reads tokens value rest) (hvalue : value.isExplicit = true) :
    TypeRun level (fun sorts => if isLiteral tokens || isGroup .brace tokens then
      constantArgument sorts else sorts.type true) tokens value rest := by
  split at h
  · rename_i hlook
    simp only [if_pos hlook]
    refine constantArgument_run hsorts h hvalue (fun _ h => h.alike) fun hname => ?_
    rcases Bool.or_eq_true_iff.mp hlook with hliteral | hgroup
    · rw [isIdentifier_of_isLiteral hliteral] at hname
      contradiction
    · rw [isIdentifier_of_isGroup hgroup] at hname
      contradiction
  · rename_i hlook
    simp only [if_neg hlook]
    exact (hsorts.type h hvalue).raise hlevel

/-- Bounds of an associated item are read again, up to the end of the argument. -/
theorem associatedBounds_run {nodes : List Node} (hsorts : sorts.Replays) (hlevel : 1 ≤ level)
    (h : (linkedUpTo "+" (isOneOf [",", ">"]) (one (sorts.bound ⟨false, true⟩))).Reads tokens nodes
      rest) (hnodes : ∀ node ∈ nodes, node.isExplicit = true) :
    Run level (fun sorts => linkedUpTo "+" (isOneOf [",", ">"]) (one (sorts.bound ⟨false, true⟩)))
      (Same typeEnds rest) (fun again => isOneOf [",", ">"] again = isOneOf [",", ">"] tokens)
      tokens nodes rest (nodes.flatMap Node.leaves) := by
  refine linkedUpTo_run sorts (fun h => h.alike.isStop) (fun (h : SameBound _ _) => h.alike.isStop)
    (by decide) (by decide) ?_ h hnodes
  intro tokens found rest hfound hexplicit
  obtain ⟨node, hnode, rfl⟩ := reads_one.mp hfound
  have hrun := (hsorts.bound hnode (hexplicit _ (List.mem_singleton_self _))).raise hlevel
  exact hrun.one.cast (List.append_nil _).symm

/-- A type as an argument is read again, or an associated item with what it is or what bounds it. -/
theorem typeArgument_run {node : Node} (hsorts : sorts.Replays) (hlevel : 2 ≤ level)
    (h : (typeArgument sorts).Reads tokens node rest) (hnode : node.isExplicit = true) :
    TypeRun level typeArgument tokens node rest := by
  obtain ⟨argument, mid, htype, h⟩ := reads_bind.mp h
  have htypeRun := fun hargument => (hsorts.type htype hargument).raise hlevel
  unfold typeArgument
  cases hassociated : associatedName? argument with
  | none =>
    simp only [hassociated] at h
    obtain ⟨rfl, rfl⟩ := reads_pure.mp h
    refine .cast (.bind (Same typeEnds mid) (htypeRun hnode) ?_) (List.append_nil _)
    simp only [hassociated]
    exact .pure
  | some name =>
    obtain rfl := eq_of_associatedName? hassociated
    simp only [hassociated, ↓reads_ahead, ite_bind] at h
    have hequal : ∀ {again}, Same typeEnds mid again → isOp "=" again = isOp "=" mid :=
      fun hagain => hagain.isOp "=" (by decide)
    have hcolon : ∀ {again}, Same typeEnds mid again → isOp ":" again = isOp ":" mid :=
      fun hagain => hagain.isOp ":" (by decide)
    split at h
    · rename_i hthere
      obtain ⟨equals, left, hop, value, last, hvalue, hpure⟩ := by
        simpa only [reads_bind, ↓reads_ahead] using h
      obtain ⟨rfl, rfl⟩ := reads_pure.mp hpure
      obtain ⟨hname, hmore⟩ := List.forall_mem_append.mp (Node.isExplicit_parts hnode rfl)
      refine .cast (.bind (Same typeEnds mid) (htypeRun (isExplicit_named hname)) ?_)
        (show _ ++ (equals.leaves ++ value.leaves) = _ by simp)
      simp only [hassociated]
      refine .ahead ?_ fun again sorts hagain => by rw [hequal hagain]
      simp only [if_pos hthere, ite_bind]
      refine .bind (Same openers left) (clear_run hop (by decide)) ?_
      refine .ahead ?_ fun again sorts hagain => by rw [hagain.alike.isLiteral,
        hagain.alike.isGroup]
      exact (associatedValue_run hsorts hlevel hvalue (hmore value (by simp))).map _
    · rename_i hnotEqual
      rw [reads_ahead] at h
      split at h
      · rename_i hthere
        obtain ⟨colon, left, hop, bounds, last, hbounds, hpure⟩ := by
          simpa only [reads_bind] using h
        obtain ⟨rfl, rfl⟩ := reads_pure.mp hpure
        obtain ⟨hname, hmore⟩ := List.forall_mem_append.mp (Node.isExplicit_parts hnode rfl)
        refine .cast (.bind (Same typeEnds mid) (htypeRun (isExplicit_named hname)) ?_)
          (show _ ++ (colon.leaves ++ bounds.flatMap Node.leaves) = _ by simp)
        simp only [hassociated]
        refine .ahead ?_ fun again sorts hagain => by rw [hequal hagain]
        simp only [if_neg hnotEqual]
        refine .ahead ?_ fun again sorts hagain => by rw [hcolon hagain]
        simp only [if_pos hthere]
        refine .bind _ (colon_run hop (by decide) ?_)
          ((associatedBounds_run hsorts (by omega) hbounds (List.forall_mem_cons.mp hmore).2).map _)
        refine FollowsColon.isInputTurbofish (fun hfirst => ?_) hop
        have hopen : isOneOf [",", ">"] left = false := by
          obtain ⟨next, hnext⟩ := Option.isSome_iff_exists.mp hfirst
          obtain ⟨-, spacing, mid, rfl, -⟩ := afterOperator?_cons_eq_some.mp hnext
          rfl
        obtain ⟨found, mid', hfound⟩ := first_of_linkedUpTo hbounds hopen
        obtain ⟨bound, hbound, -⟩ := reads_one.mp hfound
        exact hsorts.bound_begins hbound hfirst
      · rename_i hnotColon
        obtain ⟨rfl, rfl⟩ := reads_pure.mp h
        refine .cast (.bind (Same typeEnds mid) (htypeRun hnode) ?_) (List.append_nil _)
        simp only [hassociated]
        refine .ahead ?_ fun again sorts hagain => by rw [hequal hagain]
        simp only [if_neg hnotEqual]
        refine .ahead ?_ fun again sorts hagain => by rw [hcolon hagain]
        simp only [if_neg hnotColon]
        exact .pure

/-- An operator of one character follows a lifetime if it did. -/
theorem Alike.isOp_afterLifetime {deep : Bool} {again : List Token} (h : Alike deep tokens again)
    (hlifetime : Grammar.isLifetime tokens = true) {text : String} (htext : text.toList.length = 1)
    (hseen : IsSeen text) : isOp text (afterOne again) = isOp text (afterOne tokens) := by
  cases h with
  | lifetime h => exact h.isOp_char text htext hseen
  | mark hquote h => rw [isLifetime_mark _ hquote] at hlifetime; contradiction
  | stop h h' =>
    rw [isLifetime_mark _ (ne_of_mem_of_not_mem h quote_not_mem_stops)] at hlifetime
    contradiction
  | _ => contradiction

/-- A generic argument is read again. -/
theorem genericArgument_run {isLifetime : Bool} {node : Node} (hsorts : sorts.Replays)
    (hlevel : 2 ≤ level) (h : (genericArgument sorts).Reads tokens (isLifetime, node) rest)
    (hnode : node.isExplicit = true) :
    Run level genericArgument (Same typeEnds rest) (Same openers tokens) tokens (isLifetime, node)
      rest node.leaves := by
  simp only [genericArgument, ↓reads_ahead] at h
  unfold genericArgument
  have hlifetime : ∀ again, Same openers tokens again →
      (Grammar.isLifetime again && !isOp "+" (afterOne again)) =
        (Grammar.isLifetime tokens && !isOp "+" (afterOne tokens)) := by
    intro again hagain
    rw [hagain.alike.isLifetime]
    cases hthere : Grammar.isLifetime tokens with
    | false => rfl
    | true => rw [hagain.alike.isOp_afterLifetime hthere rfl (by decide)]
  refine .ahead ?_ fun again sorts hagain => by
    rw [hlifetime again hagain, hagain.alike.isLiteral, hagain.alike.isGroup]
  split at h
  · rename_i hthere
    obtain ⟨name, mid, hname, hpure⟩ := reads_bind.mp h
    obtain ⟨heq, rfl⟩ := reads_pure.mp hpure
    obtain ⟨rfl, rfl⟩ := Prod.mk.inj heq
    simp only [if_pos hthere]
    exact ((lifetime_run hname fun _ h => h.alike).map _).cast (by simp)
  · rename_i hnotLifetime
    simp only [if_neg hnotLifetime]
    split at h
    · rename_i hthere
      obtain ⟨value, mid, hvalue, hpure⟩ := reads_bind.mp h
      obtain ⟨heq, rfl⟩ := reads_pure.mp hpure
      obtain ⟨rfl, rfl⟩ := Prod.mk.inj heq
      simp only [if_pos hthere]
      refine (constantArgument_run hsorts hvalue hnode (fun _ h => h.alike) fun hname => ?_).map _
      rcases Bool.or_eq_true_iff.mp hthere with hliteral | hgroup
      · rw [isIdentifier_of_isLiteral hliteral] at hname
        contradiction
      · rw [isIdentifier_of_isGroup hgroup] at hname
        contradiction
    · rename_i hnot
      obtain ⟨value, mid, hvalue, hpure⟩ := reads_bind.mp h
      obtain ⟨heq, rfl⟩ := reads_pure.mp hpure
      obtain ⟨rfl, rfl⟩ := Prod.mk.inj heq
      simp only [if_neg hnot]
      exact (typeArgument_run hsorts hlevel hvalue hnode).map _

/-- Generic arguments are read again in angles. -/
theorem genericAngled_run {begins : List Token → Prop} {nodes : List Node} (hsorts : sorts.Replays)
    (h : (angled (operator ",") (genericArgument sorts)).Reads tokens nodes rest)
    (hnodes : ∀ node ∈ nodes, node.isExplicit = true)
    (hbegins : ∀ after, begins (ofOperator ['<'] ++ after)) :
    Run level (fun sorts => angled (operator ",") (genericArgument sorts)) ends begins tokens nodes
      rest (nodes.flatMap Node.leaves) := by
  refine angled_run sorts Iff.rfl (fun hitem hexplicit => ?_) h hnodes hbegins
  exact (genericArgument_run hsorts (by omega) hitem hexplicit).mono (fun _ => id)
    fun _ hagain => hagain.isOp ">" (by decide)

/-- What begins generic arguments looks as it did. -/
structure SameArguments (tokens again : List Token) : Prop extends Same nameEnds tokens again where
  isTurbofish : Grammar.isTurbofish again = Grammar.isTurbofish tokens

theorem same_opening {after : List Token}
    (h : afterOperator? ['<'] tokens = some rest) :
    SameArguments tokens (ofOperator ['<'] ++ after) where
  toSame := same_operator h (by decide) (by decide) (fun hmem => absurd hmem (by decide))
    (fun longer hmem hprefix => .inl (by revert longer; decide)) nofun
  isTurbofish := by
    obtain ⟨-, spacing, mid, rfl, -⟩ := afterOperator?_cons_eq_some.mp h
    have hnot : ∀ (spacing : Spacing) (others : List Token),
        isOp "::" (.mark '<' spacing :: others) = false := by
      intro spacing others
      cases spacing <;> rfl
    change Grammar.isTurbofish (.mark '<' .alone :: after) = _
    rw [Grammar.isTurbofish, Grammar.isTurbofish, hnot, hnot, Bool.false_and, Bool.false_and]

theorem genericArguments_run {node : Node} (hsorts : sorts.Replays)
    (h : (genericArguments sorts).Reads tokens node rest) (hnode : node.isExplicit = true) :
    Run level genericArguments ends (SameArguments tokens) tokens node rest node.leaves := by
  obtain ⟨colons, mid, hcolons, arguments, last, harguments, hpure⟩ := by
    simpa only [genericArguments, reads_bind] using h
  obtain ⟨rfl, rfl⟩ := reads_pure.mp hpure
  obtain ⟨-, hexplicit⟩ := List.forall_mem_append.mp (Node.isExplicit_parts hnode rfl)
  obtain ⟨opening, left, hopening, -⟩ := reads_bind.mp harguments
  obtain ⟨hop, -⟩ := reads_operator.mp hopening
  rw [Node.leaves_branch, List.flatMap_append]
  unfold genericArguments
  refine .bind (SameArguments mid) ?_
    ((genericAngled_run hsorts harguments hexplicit fun _ => same_opening hop).map _)
  refine .onlyIf sorts hcolons (fun _ hreads => ?_) (fun _ heq after => heq ▸ id)
    fun again hagain => hagain.isOp "::" (by decide)
  obtain ⟨node, hcolon, rfl⟩ := reads_one.mp hreads
  obtain ⟨hop', -⟩ := reads_operator.mp hcolon
  refine (operator_run hcolon fun after hafter => ⟨?_, ?_⟩).one.cast (List.append_nil _).symm
  · exact same_operator hop' (fun _ => rfl) (by decide) (fun _ => hafter.alike.weaken)
      (fun longer hmem hprefix => .inl (by revert longer; decide)) fun h => absurd h (by decide)
  · obtain ⟨spacing, rfl⟩ := eq_of_colons hop'
    change isOp "<" after = isOp "<" mid
    exact hafter.isOp "<" (by decide)

/-! ### Segments -/

/-- Two colons stand in front if they did, and go on with a path. -/
structure SameColons (operators : List String) (tokens again : List Token) : Prop
    extends Same operators tokens again where
  isOp_colons : Grammar.isOp "::" again = Grammar.isOp "::" tokens

/-- Where no colons go on with a path, none are written. -/
theorem Same.colons {again : List Token} (h : Same operators tokens again)
    (hends : (Grammar.isOp "::" tokens && !Grammar.isInputTurbofish tokens) = false) :
    SameColons operators tokens again where
  toSame := h
  isOp_colons := by
    cases hcolons : Grammar.isOp "::" tokens with
    | false =>
      rw [Bool.eq_false_iff]
      intro hagain
      rw [h.alike.isOp_of_again (by decide) hagain] at hcolons
      contradiction
    | true =>
      rw [hcolons, Bool.true_and, Bool.not_eq_false'] at hends
      have hagain := h.isInputTurbofish.trans hends
      exact (Bool.and_eq_true_iff.mp hagain).1

/-- Generic arguments follow a name here. -/
def opensArguments (inExpression : Bool) (tokens : List Token) : Bool :=
  (!inExpression && isOp "<" tokens && !isOp "<=" tokens && !isOp "<<=" tokens) ||
    isTurbofish tokens

/-- Where generic arguments were read, they are read again. -/
theorem SameArguments.opensArguments {inExpression : Bool} {again : List Token}
    (h : SameArguments tokens again) (hopens : opensArguments inExpression tokens = true) :
    Grammar.opensArguments inExpression again = true := by
  have hnot : ∀ text, IsSeen text → isOp text tokens = false → isOp text again = false := by
    intro text hseen hno
    rw [Bool.eq_false_iff]
    intro hagain
    rw [h.alike.isOp_of_again hseen hagain] at hno
    contradiction
  simp only [Grammar.opensArguments, Bool.or_eq_true, Bool.and_eq_true, Bool.not_eq_true']
    at hopens ⊢
  rcases hopens with ⟨⟨⟨hplace, hangle⟩, hless⟩, hshift⟩ | hcolons
  · exact .inl ⟨⟨⟨hplace, (h.isOp "<" (by decide)).trans hangle⟩, hnot _ (by decide) hless⟩,
      hnot _ (by decide) hshift⟩
  · exact .inr (h.isTurbofish.trans hcolons)

/-- Where no generic arguments were read, none are read again. -/
theorem Same.opensArguments {inExpression : Bool} {again : List Token}
    (h : Same operators tokens again) (hends : typeEnds ⊆ operators)
    (hopens : opensArguments inExpression tokens = false) :
    Grammar.opensArguments inExpression again = false := by
  simp only [Grammar.opensArguments, Bool.or_eq_false_iff] at hopens ⊢
  rw [h.isOp "<" (.inl (by decide)), h.isOp "<=" (.inr (hends (by decide))),
    h.isOp "<<=" (.inr (hends (by decide)))]
  refine ⟨hopens.1, Bool.eq_false_iff.mpr fun hagain => ?_⟩
  rw [h.alike.isTurbofish_of_again hagain] at hopens
  exact absurd hopens.2 (by decide)

/-- The name of a segment is read again. -/
theorem segmentName_run {name : String} {starts : List String}
    (h : (if isWord "Self" tokens then anyWord else identifier).Reads tokens name rest)
    (hends : ∀ after, ends after → Alike true rest after)
    (hnameEnds : ∀ after, ends after → ∀ longer ∈ nameEnds, longer ∈ starts →
      isOp longer after = isOp longer rest) :
    Run level (fun _ => if isWord "Self" tokens then anyWord else identifier) ends
      (Same starts tokens) tokens name rest [.word name] := by
  split at h
  · rename_i hself
    simp only [if_pos hself]
    exact anyWord_run h hends hnameEnds
  · rename_i hnot
    simp only [if_neg hnot]
    exact identifier_run h hends hnameEnds

/-- A segment is read again with its arguments. -/
theorem segment_run {inExpression : Bool} {found : Segment} (hsorts : sorts.Replays)
    (hends : typeEnds ⊆ operators) (h : (segment sorts inExpression).Reads tokens found rest)
    (hfound : found.node.isExplicit = true) :
    Run level (fun sorts => segment sorts inExpression) (SameColons operators rest)
      (Same openers tokens) tokens found rest found.node.leaves := by
  simp only [segment, ↓reads_ahead] at h
  unfold segment
  have hnameEnds : ∀ {rest after}, SameColons operators rest after → ∀ longer ∈ nameEnds,
      isOp longer after = isOp longer rest := by
    intro rest after hafter longer hlonger
    rcases List.mem_cons.mp hlonger with rfl | hdots
    · exact hafter.isOp_colons
    · obtain rfl := List.mem_singleton.mp hdots
      exact hafter.isOp ".." (.inr (hends (by decide)))
  refine .ahead ?_ fun again sorts hagain => by
    rw [hagain.alike.isAnyOf, hagain.alike.isWord]
  split at h
  · rename_i hword
    obtain ⟨name, mid, hname, hpure⟩ := reads_bind.mp h
    obtain ⟨rfl, rfl⟩ := reads_pure.mp hpure
    simp only [if_pos hword]
    exact ((anyWord_run hname (fun _ h => h.alike) fun _ h longer hmem _ =>
      hnameEnds h longer hmem).map _).cast (by simp [Segment.node])
  · rename_i hnot
    rw [ite_bind] at h
    obtain ⟨name, mid, hname, h⟩ := reads_bind.mp h
    rw [reads_ahead] at h
    simp only [if_neg hnot, ite_bind]
    change ((if opensArguments inExpression mid then _ else _ : Parser Segment)).Reads mid
      found rest at h
    split at h
    · rename_i hopens
      obtain ⟨arguments, last, harguments, hpure⟩ := reads_bind.mp h
      obtain ⟨rfl, rfl⟩ := reads_pure.mp hpure
      have hexplicit := Node.isExplicit_parts hfound rfl arguments (by simp)
      refine .cast (.bind (SameArguments mid) (segmentName_run hname (fun _ h => h.alike)
        fun _ h longer hmem _ => h.isOp_of_mem longer hmem) ?_)
        (show _ ++ arguments.leaves = _ by simp [Segment.node])
      refine .ahead ?_ fun again sorts hagain => by
        change (if opensArguments inExpression again then _ else _ : Parser Segment) =
          if opensArguments inExpression mid then _ else _
        rw [hagain.opensArguments hopens, hopens]
      change Run level (fun sorts => if opensArguments inExpression mid then _ else _) _ _ _ _ _ _
      simp only [if_pos hopens]
      exact (genericArguments_run hsorts harguments hexplicit).map _
    · rename_i hends'
      obtain ⟨rfl, rfl⟩ := reads_pure.mp h
      have hclosed := Bool.eq_false_iff.mpr hends'
      refine .cast (.bind (SameColons operators mid) (segmentName_run hname (fun _ h => h.alike)
        fun _ h longer hmem _ => hnameEnds h longer hmem) ?_)
        (show _ ++ [] = _ by simp [Segment.node])
      refine .ahead ?_ fun again sorts hagain => by
        change (if opensArguments inExpression again then _ else _ : Parser Segment) =
          if opensArguments inExpression mid then _ else _
        rw [hagain.toSame.opensArguments hends hclosed, hclosed]
      change Run level (fun sorts => if opensArguments inExpression mid then _ else _) _ _ _ _ _ _
      simp only [if_neg hends']
      exact .pure

/-! ### Paths -/

/-- Two colons between segments are read again. -/
theorem pathColons_run {node : Node} (h : (operator "::").Reads tokens node rest)
    (hclear : ∀ longer ∈ operators, [':', ':'] <+: longer.toList → longer.toList = [':', ':'])
    (hends : ∀ after, ends after → Alike false rest after) :
    Run level (fun _ => operator "::") ends (SameColons operators tokens) tokens node rest
      node.leaves := by
  obtain ⟨hop, rfl⟩ := reads_operator.mp h
  refine operator_run h fun after hafter => ⟨?_, ?_⟩
  · exact same_operator hop (fun _ => rfl) (by decide) (fun _ => hends after hafter)
      (fun longer hmem hprefix => .inl (hclear longer hmem hprefix)) nofun
  · have hagain := afterOperator?_ofOperator hop after
    rw [isOp, isOp, hop, hagain]
    rfl

/-- What is printed of a segment behind two colons. -/
def Segment.printed (segment : Segment) : List Token := ofOperator [':', ':'] ++ segment.node.leaves

/-- The leaves of a first segment and of further ones. -/
theorem leaves_segments (first : Segment) (others : List Segment) :
    (((first :: others).map Segment.node).intersperse (.operator "::")).flatMap Node.leaves =
      first.node.leaves ++ others.flatMap Segment.printed := by
  induction others generalizing first with
  | nil => simp
  | cons next more ih =>
    have hcolons : (Node.operator "::").leaves = ofOperator [':', ':'] := Node.leaves_operator "::"
    rw [List.map_cons, List.map_cons, List.intersperse_cons_cons, List.flatMap_cons,
      List.flatMap_cons,
      ← List.map_cons, ih next, List.flatMap_cons, Segment.printed, hcolons, List.append_assoc]

theorem mem_intersperse {node separator : Node} {nodes : List Node} (h : node ∈ nodes) :
    node ∈ nodes.intersperse separator := by
  induction nodes with
  | nil => exact h
  | cons first others ih =>
    cases others with
    | nil => exact h
    | cons next more =>
      rw [List.intersperse_cons_cons]
      rcases List.mem_cons.mp h with rfl | hothers
      · exact List.mem_cons_self
      · exact List.mem_cons_of_mem _ (List.mem_cons_of_mem _ (ih hothers))

/-- Two colons go on with a path. -/
def goesOn (tokens : List Token) : Bool := isOp "::" tokens && !isInputTurbofish tokens

/-- A segment behind two colons. -/
def nextSegment (inExpression : Bool) (sorts : Sorts) : Parser (List Segment) := do
  let _ ← operator "::"
  return [← segment sorts inExpression]

theorem moreSegments_eq (inExpression : Bool) (sorts : Sorts) :
    moreSegments sorts inExpression = repeatWhile goesOn (nextSegment inExpression sorts) := rfl

theorem SameColons.goesOn {again : List Token} (h : SameColons operators tokens again) :
    Grammar.goesOn again = Grammar.goesOn tokens := by
  rw [Grammar.goesOn, Grammar.goesOn, h.isOp_colons, h.isInputTurbofish]

theorem reads_nextSegment {inExpression : Bool} {found : List Segment} :
    (nextSegment inExpression sorts).Reads tokens found rest ↔
      ∃ colons mid segment, (operator "::").Reads tokens colons mid ∧
        (Grammar.segment sorts inExpression).Reads mid segment rest ∧ [segment] = found := by
  simp only [nextSegment, reads_bind, reads_pure]
  constructor
  · rintro ⟨colons, mid, hcolons, segment, left, hsegment, rfl, rfl⟩
    exact ⟨colons, mid, segment, hcolons, hsegment, rfl⟩
  · rintro ⟨colons, mid, segment, hcolons, hsegment, rfl⟩
    exact ⟨colons, mid, hcolons, segment, rest, hsegment, rfl, rfl⟩

/-- A segment behind two colons is read again. -/
theorem nextSegment_run {inExpression : Bool} {found : List Segment} (hsorts : sorts.Replays)
    (hends : typeEnds ⊆ operators)
    (hclear : ∀ longer ∈ operators, [':', ':'] <+: longer.toList → longer.toList = [':', ':'])
    (h : (nextSegment inExpression sorts).Reads tokens found rest)
    (hfound : ∀ segment ∈ found, segment.node.isExplicit = true) :
    found.flatMap Segment.printed ≠ [] ∧
      Run level (nextSegment inExpression) (SameColons operators rest)
        (SameColons operators tokens) tokens found rest (found.flatMap Segment.printed) := by
  obtain ⟨colons, mid, segment, hcolons, hsegment, rfl⟩ := reads_nextSegment.mp h
  have hrun : Run level (fun sorts => Grammar.segment sorts inExpression)
      (SameColons operators rest) (Same openers mid) mid segment rest segment.node.leaves :=
    segment_run hsorts hends hsegment (hfound _ (List.mem_singleton_self _))
  obtain ⟨-, rfl⟩ := reads_operator.mp hcolons
  refine ⟨by simp [Segment.printed, ofOperator], ?_⟩
  exact .cast (.bind (Same openers mid) (pathColons_run hcolons hclear fun _ h => h.alike.weaken)
    (hrun.map _)) (by simp [Segment.printed])

/-- A path is read again. What follows it must not go on with it. -/
theorem pathWhere_run {inExpression : Bool} {found : Path} (hsorts : sorts.Replays)
    (hends : typeEnds ⊆ operators)
    (hclear : ∀ longer ∈ operators, [':', ':'] <+: longer.toList → longer.toList = [':', ':'])
    (h : (pathWhere sorts inExpression).Reads tokens found rest)
    (hfound : found.node.isExplicit = true) :
    Run level (fun sorts => pathWhere sorts inExpression) (Same operators rest)
      (Same openers tokens) tokens found rest found.node.leaves := by
  obtain ⟨leading, mid, hleading, first, left, hfirst, others, last, hothers, hpure⟩ := by
    simpa only [pathWhere, reads_bind] using h
  obtain ⟨rfl, rfl⟩ := reads_pure.mp hpure
  have hexplicit : ∀ segment ∈ first :: others, segment.node.isExplicit = true :=
    fun segment hsegment => Node.isExplicit_parts hfound rfl _
      (List.mem_append_right _ (mem_intersperse (List.mem_map_of_mem hsegment)))
  obtain ⟨hfirstExplicit, hothersExplicit⟩ := List.forall_mem_cons.mp hexplicit
  rw [Path.node, eq_of_colons? hleading, Node.leaves_branch, List.flatMap_append, leaves_segments]
  unfold pathWhere
  have hmore : Run level (fun sorts => moreSegments sorts inExpression) (SameColons operators last)
      (SameColons operators left) left others last (others.flatMap Segment.printed) := by
    refine repeatWhile_run Segment.printed (fun segment => segment.node.isExplicit = true)
      (fun hagain => hagain.goesOn)
      (fun _ hreads hfit => nextSegment_run hsorts hends hclear hreads hfit) hothers hothersExplicit
  refine .bind (Same openers mid) (colons?_run hleading) ?_
  refine .bind (SameColons operators left) (segment_run hsorts hends hfirst hfirstExplicit) ?_
  exact (hmore.map _).mono (fun _ hafter => hafter.colons (more_repeatWhile hothers)) fun _ => id

/-- The path of a trait is read again. -/
theorem path_run {found : Path} (hsorts : sorts.Replays)
    (h : (path sorts).Reads tokens found rest) (hfound : found.node.isExplicit = true) :
    Run level path (Same typeEnds rest) (Same openers tokens) tokens found rest found.node.leaves :=
  pathWhere_run hsorts (fun _ => id) (by decide) h hfound

end Path

end Typestate.Grammar
