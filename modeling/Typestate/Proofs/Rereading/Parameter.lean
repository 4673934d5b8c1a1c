import Typestate.Proofs.Rereading.QualifiedPath

/-!
# Parameters, read again

Parameters that are bound in front of a trait, a type or a closure are read again. A colon without
bounds is not written, so what follows the name of a parameter may change; a glance takes it for a
parameter all the same.
-/

namespace Typestate.Grammar

open Grammar.Parser Lexer Token

section Parameter

variable {level : ℕ} {sorts : Sorts} {operators : List String} {tokens rest : List Token}
  {ends : List Token → Prop} {node : Node}

/-- Operators that a glance looks for behind a parameter. -/
def parameterEnds : List String := typeEnds ++ [",", ">"]

/-- A parameter looks from before as it did. -/
structure SameParameter (tokens again : List Token) : Prop where
  isOp_pound : isOp "#" again = isOp "#" tokens
  isOp_closing : isOp ">" again = isOp ">" tokens
  isLifetime : Grammar.isLifetime again = Grammar.isLifetime tokens
  isIdentifier : Grammar.isIdentifier again = Grammar.isIdentifier tokens
  isConst : isWord "const" again = isWord "const" tokens
  opensParameters : Grammar.opensParameters tokens = true → Grammar.opensParameters again = true

namespace SameParameter

variable {after : List Token}

theorem word {text : String} (h : Word.isIdentifier text = true → followsParameter rest = true →
    followsParameter after = true) :
    SameParameter (.word text :: rest) (.word text :: after) where
  isOp_pound := by rw [isOp_word, isOp_word]
  isOp_closing := by rw [isOp_word, isOp_word]
  isLifetime := rfl
  isIdentifier := rfl
  isConst := rfl
  opensParameters := by
    simp only [Grammar.opensParameters, isOneOf_word, isWord_word, afterOne_word, Bool.false_or,
      Bool.or_eq_true, Bool.and_eq_true]
    refine Or.imp_right fun hopens => ⟨hopens.1, ?_⟩
    exact h (hopens.1.resolve_left Bool.false_ne_true) hopens.2

theorem lifetime {name : String}
    (h : followsParameter rest = true → followsParameter after = true) :
    SameParameter (ofLifetime name ++ rest) (ofLifetime name ++ after) where
  isOp_pound := rfl
  isOp_closing := rfl
  isLifetime := rfl
  isIdentifier := rfl
  isConst := rfl
  opensParameters hopens := h hopens

end SameParameter

/-- The end of parameters, or an attribute, looks as it did. -/
theorem Same.parameter {again : List Token} (h : Same operators tokens again)
    (hmem : ">" ∈ operators) (hopens : Grammar.isOneOf [">", "#"] tokens = true) :
    SameParameter tokens again where
  isOp_pound := h.isOp "#" (.inl (by decide))
  isOp_closing := h.isOp ">" (.inr hmem)
  isLifetime := h.alike.isLifetime
  isIdentifier := h.alike.isIdentifier
  isConst := h.alike.isWord "const"
  opensParameters _ := by
    have hagain := (h.isOneOf [">", "#"] (by simp [hmem, IsSeen, stops])).trans hopens
    rw [Grammar.opensParameters, hagain, Bool.true_or, Bool.true_or]

/-! ### Bounds of a parameter -/

/-- What ends a parameter is no colon. -/
theorem isOp_colon_of_end (h : isOneOf [">", ",", "="] tokens = true) :
    isOp ":" tokens = false := by
  obtain ⟨text, htext, hop⟩ := List.any_eq_true.mp h
  obtain ⟨next, hnext⟩ := Option.isSome_iff_exists.mp hop
  simp only [List.mem_cons, List.not_mem_nil, or_false] at htext
  rcases htext with rfl | rfl | rfl
  all_goals
    obtain ⟨-, spacing, mid, rfl, -⟩ := afterOperator?_cons_eq_some.mp hnext
    rfl

theorem followsParameter_of_end (h : isOneOf [">", ",", "="] tokens = true) :
    followsParameter tokens = true := by
  rw [followsParameter, h, Bool.true_or]

/-- A colon and bounds are read again; a colon without bounds is left out. -/
theorem boundedBy_run {bounds : Sorts → Parser (List Node)} {nodes : List Node} (sorts : Sorts)
    (h : (boundedBy (bounds sorts)).Reads tokens nodes rest)
    (hends : [">", ","] ⊆ operators)
    (hbounds : ∀ {left found}, (bounds sorts).Reads left found rest → found ≠ [] →
      (∀ node ∈ found, node.isExplicit = true) →
        Run level bounds (Same operators rest) (fun _ => True) left found rest
          (found.flatMap Node.leaves))
    (hempty : ∀ {left}, (bounds sorts).Reads left [] rest → isOneOf [">", ",", "="] rest = true ∧
      left = rest)
    (hnodes : ∀ node ∈ nodes, node.isExplicit = true) :
    Run level (fun sorts => boundedBy (bounds sorts)) (Same operators rest)
      (fun again => followsParameter tokens = true → followsParameter again = true) tokens
        nodes rest
      (nodes.flatMap Node.leaves) := by
  rcases reads_onlyIf.mp h with ⟨hcolon, hreads⟩ | ⟨hnot, rfl, rfl⟩
  · obtain ⟨colon, left, hop, found, last, hfound, hpure⟩ := by simpa only [reads_bind] using hreads
    obtain ⟨rfl, rfl⟩ := reads_pure.mp hpure
    cases found with
    | nil =>
      obtain ⟨hend, rfl⟩ := hempty hfound
      have hagain : ∀ after, Same operators left after → isOneOf [">", ",", "="] after = true := by
        intro after hafter
        rw [hafter.isOneOf _ ?_, hend]
        intro text htext
        simp only [List.mem_cons, List.not_mem_nil, or_false] at htext
        rcases htext with rfl | rfl | rfl
        · exact .inr (hends (by simp))
        · exact .inr (hends (by simp))
        · exact .inl (by decide)
      refine ⟨fun hafter _ =>
        reads_onlyIf.mpr (.inr ⟨isOp_colon_of_end (hagain _ hafter), rfl, rfl⟩),
        fun hafter _ => followsParameter_of_end (hagain _ hafter), fun hwritten => ⟨.nil, ?_⟩,
        (length_lt_of_operator (reads_operator.mp hop).1).le⟩
      exact (written_ofOperator (reads_operator.mp hop).1 hwritten).2
    | cons first others =>
      have hfirst : Run level (fun _ => operator ":") (fun _ => True)
          (fun again => followsParameter again = true ∧ isOp ":" again = true) tokens colon left
          colon.leaves := operator_run hop fun after _ => ⟨rfl, rfl⟩
      have hmore := hbounds hfound (by simp) (List.forall_mem_cons.mp hnodes).2
      have hrun : Run level (fun sorts => do
            let colon ← operator ":"
            let found ← bounds sorts
            return if found.isEmpty then [] else colon :: found) (Same operators last)
          (fun again => followsParameter again = true ∧ isOp ":" again = true) tokens
          (colon :: first :: others) last (colon.leaves ++ (first :: others).flatMap Node.leaves) :=
        .bind _ hfirst (hmore.map fun found => if found.isEmpty then [] else colon :: found)
      exact ⟨fun hafter hdepth => reads_onlyIf.mpr
          (.inl ⟨(hrun.begins hafter).2, hrun.again hafter hdepth⟩),
        fun hafter _ => (hrun.begins hafter).1, hrun.written,
        hrun.shorter⟩
  · refine ⟨fun hafter _ => reads_onlyIf.mpr (.inr ⟨?_, rfl, rfl⟩), fun hafter hfollows => ?_,
      fun h => ⟨.nil, h⟩, le_rfl⟩
    · exact (hafter.isOp ":" (.inl (by decide))).trans hnot
    · refine (hafter.alike.followsParameter fun hcolon => ?_).trans hfollows
      rw [hcolon] at hnot
      contradiction

/-! ### Kinds of parameters -/

/-- The bounds of a lifetime are read again. -/
theorem lifetimeBounds_run {nodes : List Node}
    (h : (linkedUpTo "+" (isOneOf [",", ">"]) (one lifetime)).Reads tokens nodes rest)
    (hnodes : ∀ node ∈ nodes, node.isExplicit = true) :
    Run level (fun _ => linkedUpTo "+" (isOneOf [",", ">"]) (one lifetime))
      (Same parameterEnds rest) (fun _ => True) tokens nodes rest (nodes.flatMap Node.leaves) := by
  have hrun : Run level (fun _ => linkedUpTo "+" (isOneOf [",", ">"]) (one lifetime))
      (Same parameterEnds rest) (fun again => isOneOf [",", ">"] again = isOneOf [",", ">"] tokens)
      tokens nodes rest (nodes.flatMap Node.leaves) := by
    refine linkedUpTo_run .none (fun h => h.alike.isStop)
      (fun (h : Same [] _ _) => h.alike.isStop) (by decide) (by decide) (fun hitem _ => ?_) h hnodes
    obtain ⟨node, hnode, rfl⟩ := reads_one.mp hitem
    exact ((lifetime_run hnode fun _ h => h.alike).one).cast (List.append_nil _).symm
  exact hrun.mono (fun _ => id) fun _ _ => trivial

theorem lifetimeParameter_run (h : lifetimeParameter.Reads tokens node rest)
    (hnode : node.isExplicit = true) :
    Run level (fun _ => lifetimeParameter) (Same parameterEnds rest) (SameParameter tokens) tokens
      node rest node.leaves := by
  obtain ⟨name, mid, hname, bounds, last, hbounds, hpure⟩ := by
    simpa only [lifetimeParameter, reads_bind] using h
  obtain ⟨rfl, rfl⟩ := reads_pure.mp hpure
  have hparts := (List.forall_mem_cons.mp (Node.isExplicit_parts hnode rfl)).2
  refine .cast (.bind (fun again => followsParameter mid = true → followsParameter again = true)
    (lifetime_bare hname fun after hafter => ?_)
    ((boundedBy_run .none hbounds (by decide) (fun hfound _ hexplicit => ?_) (fun hfound => ?_)
      hparts).map _)) (by simp)
  · obtain ⟨text, rfl, rfl⟩ := reads_lifetime.mp hname
    exact .lifetime hafter
  · exact lifetimeBounds_run hfound hexplicit
  · obtain ⟨hend, heq⟩ := atEnd_of_linkedUpTo hfound
    rw [heq] at hend
    simp only [isOneOf, List.any_cons, List.any_nil, Bool.or_false, Bool.or_eq_true] at hend ⊢
    exact ⟨hend.elim (fun h => .inr (.inl h)) .inl, heq⟩

/-- What a parameter is by default is read again. -/
theorem default_run {value : Sorts → Parser Node} {nodes : List Node}
    (h : (onlyIf (isOp "=") do
      let equals ← operator "="
      return [equals, ← value sorts]).Reads tokens nodes rest)
    (hvalue : ∀ {left found}, (value sorts).Reads left found rest → found.isExplicit = true →
      Run level value (Same parameterEnds rest) (Same [] left) left found rest found.leaves)
    (hnodes : ∀ node ∈ nodes, node.isExplicit = true) :
    Run level (fun sorts => onlyIf (isOp "=") do
      let equals ← operator "="
      return [equals, ← value sorts]) (Same parameterEnds rest) (Same parameterEnds tokens) tokens
      nodes rest (nodes.flatMap Node.leaves) := by
  refine .onlyIf sorts h (fun _ hreads => ?_) (fun _ heq after => heq ▸ id)
    fun again hagain => hagain.isOp "=" (by decide)
  obtain ⟨equals, mid, hequals, found, last, hfound, hpure⟩ := by simpa only
    [reads_bind] using hreads
  obtain ⟨rfl, rfl⟩ := reads_pure.mp hpure
  exact .cast (.bind (Same [] mid) (clear_run hequals (by decide))
    ((hvalue hfound (hnodes found (by simp))).map _)) (by simp)

theorem Alike.isParameterEnd {deep : Bool} {again : List Token} (h : Alike deep tokens again) :
    Grammar.isOneOf [",", ">", "="] again = Grammar.isOneOf [",", ">", "="] tokens := by
  have hsplit : ∀ tokens, Grammar.isOneOf [",", ">", "="] tokens =
      (Grammar.isOneOf [",", ">"] tokens || Grammar.isOp "=" tokens) := by
    intro tokens
    simp only [Grammar.isOneOf, List.any_cons, List.any_nil, Bool.or_false, Bool.or_assoc]
  rw [hsplit, hsplit, h.isStop, h.isOp_char "=" rfl (by decide)]

/-- The bounds of a parameter are read again. -/
theorem boundsUpTo_run {nodes : List Node} (hsorts : sorts.Replays)
    (h : (boundsUpTo sorts (isOneOf [",", ">", "="])).Reads tokens nodes rest)
    (hnodes : ∀ node ∈ nodes, node.isExplicit = true) :
    Run 1 (fun sorts => boundsUpTo sorts (isOneOf [",", ">", "="])) (Same parameterEnds rest)
      (fun _ => True) tokens nodes rest (nodes.flatMap Node.leaves) := by
  have hrun : Run 1 (fun sorts => boundsUpTo sorts (isOneOf [",", ">", "="]))
      (Same parameterEnds rest) (fun again => isOneOf [",", ">", "="] again =
        isOneOf [",", ">", "="] tokens) tokens nodes rest (nodes.flatMap Node.leaves) := by
    refine linkedUpTo_run sorts (fun h => h.alike.isParameterEnd)
      (fun (h : SameBound _ _) => h.alike.isParameterEnd) (by decide) (by decide)
      (fun hitem hfit => ?_) h hnodes
    obtain ⟨node, hnode, rfl⟩ := reads_one.mp hitem
    have hbound := hsorts.bound hnode (hfit _ (List.mem_singleton_self _))
    exact (hbound.one.cast (List.append_nil _).symm).mono (fun _ h => h.mono (by decide)) fun _ =>
      id
  exact hrun.mono (fun _ => id) fun _ _ => trivial

theorem typeParameter_run (hsorts : sorts.Replays)
    (h : (typeParameter sorts).Reads tokens node rest)
    (hnode : node.isExplicit = true) :
    Run level typeParameter (Same parameterEnds rest) (SameParameter tokens) tokens node rest
      node.leaves := by
  obtain ⟨name, mid, hname, bounds, left, hbounds, default, last, hdefault, hpure⟩ := by
    simpa only [typeParameter, reads_bind] using h
  obtain ⟨rfl, rfl⟩ := reads_pure.mp hpure
  obtain ⟨hparts, hdefaultExplicit⟩ := List.forall_mem_append.mp
    (List.forall_mem_cons.mp (Node.isExplicit_parts hnode rfl)).2
  unfold typeParameter
  refine .cast (.next (fun again => followsParameter mid = true → followsParameter again = true)
    (identifier_bare hname fun after hafter => ?_) (List.cons_ne_nil _ _)
    (.bind (Same parameterEnds left) (boundedBy_run sorts hbounds (by decide)
        (fun hfound _ hexplicit => ?_) (fun hfound => ?_) hparts)
      ((default_run hdefault (fun hvalue hexplicit => ?_) hdefaultExplicit).map _)))
    (show [.word name] ++ (bounds.flatMap Node.leaves ++ default.flatMap Node.leaves) = _ by simp)
  · obtain ⟨rfl, -⟩ := reads_identifier.mp hname
    exact .word fun _ => hafter
  · exact (boundsUpTo_run hsorts hfound hexplicit).raise (by omega)
  · obtain ⟨hend, heq⟩ := atEnd_of_linkedUpTo hfound
    rw [heq] at hend
    simp only [isOneOf, List.any_cons, List.any_nil, Bool.or_false, Bool.or_eq_true] at hend ⊢
    exact ⟨by tauto, heq⟩
  · exact ((hsorts.type hvalue hexplicit).raise (by omega)).mono (fun _ h => h.mono (by decide))
      fun _ h => h.mono (List.nil_subset _)

theorem constantParameter_run (hsorts : sorts.Replays)
    (h : (constantParameter sorts).Reads tokens node rest) (hnode : node.isExplicit = true) :
    Run level constantParameter (Same parameterEnds rest) (SameParameter tokens) tokens node rest
      node.leaves := by
  obtain ⟨word, mid, hword, name, mid₂, hname, colon, mid₃, hcolon, type, mid₄, htype,
    default, last, hdefault, hpure⟩ := by simpa only [constantParameter, reads_bind] using h
  obtain ⟨rfl, rfl⟩ := reads_pure.mp hpure
  have hparts := Node.isExplicit_parts hnode rfl
  have htypeRun := (hsorts.type htype (hparts type (by simp))).raise (show 2 ≤ level + 8 by omega)
  have hdefaultRun : Run (level + 8) _ (Same parameterEnds last) (Same parameterEnds mid₄) mid₄
      default last (default.flatMap Node.leaves) :=
    default_run hdefault (fun hvalue hexplicit => constantArgument_run hsorts hvalue hexplicit
      (fun _ h => h.alike) ?_) fun node hmem => hparts node (by simp [hmem])
  · unfold constantParameter
    refine .cast (.next (fun _ => True) (keyword_bare hword fun after _ => ?_)
      (by obtain ⟨-, rfl⟩ := reads_keyword.mp hword; exact List.cons_ne_nil _ _)
      (.bind (fun _ => True) (identifier_bare hname fun _ _ => trivial)
        (.bind (Same openers mid₃) (operator_run hcolon fun _ _ => trivial)
          (.bind (Same parameterEnds mid₄) (htypeRun.mono (fun _ h => h.mono (by decide)) fun _ =>
            id) (hdefaultRun.map _))))) (by
        obtain ⟨-, rfl⟩ := reads_keyword.mp hword
        simp)
    obtain ⟨rfl, -⟩ := reads_keyword.mp hword
    exact .word fun hname => absurd hname (by decide)
  · exact fun _ _ _ _ _ hmem => absurd hmem List.not_mem_nil

/-- The parameter of whatever kind stands at the front. -/
def kindOfParameter (choices : List String) (tokens : List Token) (sorts : Sorts) : Parser Node :=
  if isLifetime tokens then lifetimeParameter
  else if isIdentifier tokens then typeParameter sorts
  else if isWord "const" tokens then constantParameter sorts
  else expected choices

theorem isConstruct_kindOfParameter {choices : List String} {start : List Token}
    (h : (kindOfParameter choices start sorts).Reads tokens node rest) :
    node.isConstruct = true := by
  unfold kindOfParameter at h
  split at h
  · simp only [lifetimeParameter, reads_bind, reads_pure] at h
    obtain ⟨_, _, -, _, _, -, rfl, -⟩ := h
    rfl
  · split at h
    · simp only [typeParameter, reads_bind, reads_pure] at h
      obtain ⟨_, _, -, _, _, -, _, _, -, rfl, -⟩ := h
      rfl
    · split at h
      · simp only [constantParameter, reads_bind, reads_pure] at h
        obtain ⟨_, _, -, _, _, -, _, _, -, _, _, -, _, _, -, rfl, -⟩ := h
        rfl
      · exact absurd h not_reads_expected

theorem kindOfParameter_run {choices : List String} (hsorts : sorts.Replays)
    (h : (kindOfParameter choices tokens sorts).Reads tokens node rest)
    (hnode : node.isExplicit = true) :
    Run level (kindOfParameter choices tokens) (Same parameterEnds rest)
      (SameParameter tokens) tokens node rest node.leaves := by
  unfold kindOfParameter at h ⊢
  split at h
  · rename_i hlook
    simp only [if_pos hlook]
    exact lifetimeParameter_run h hnode
  · rename_i hnot
    simp only [if_neg hnot]
    split at h
    · rename_i hlook
      simp only [if_pos hlook]
      exact typeParameter_run hsorts h hnode
    · rename_i hnot
      simp only [if_neg hnot]
      split at h
      · rename_i hlook
        simp only [if_pos hlook]
        exact constantParameter_run hsorts h hnode
      · exact absurd h not_reads_expected

/-- A parameter is read again, of whatever kind it is. -/
theorem parameter_run {choices : List String} {isLifetime : Bool} (hsorts : sorts.Replays)
    (h : (parameterOr sorts (expected choices)).Reads tokens (isLifetime, node) rest)
    (hnode : node.isExplicit = true) :
    Run level (fun sorts => parameterOr sorts (expected choices)) (Same parameterEnds rest)
      (SameParameter tokens) tokens (isLifetime, node) rest node.leaves := by
  obtain ⟨attributes, mid, hattributes, h⟩ := reads_bind.mp h
  simp only [↓reads_ahead, ite_bind] at h
  obtain ⟨parameter, last, hparameter, hpure⟩ := reads_bind.mp h
  obtain ⟨heq, rfl⟩ := reads_pure.mp hpure
  obtain ⟨rfl, rfl⟩ := Prod.mk.inj heq
  have hconstruct := isConstruct_kindOfParameter hparameter
  obtain ⟨hattributesExplicit, hexplicit⟩ := (Node.isExplicit_withAttributes hconstruct).mp hnode
  rw [Node.leaves_withAttributes attributes hconstruct]
  unfold parameterOr
  simp only [ite_bind]
  refine .bind (SameParameter mid) (outerAttributes_run hsorts hattributes hattributesExplicit
    (fun h => h.isOp_pound) fun hpound h => h.parameter (by decide) ?_) ?_
  · rw [isOneOf, List.any_eq_true]
    exact ⟨"#", by decide, hpound⟩
  · refine .ahead ?_ fun again sorts hagain => by
      rw [hagain.isLifetime, hagain.isIdentifier, hagain.isConst]
    exact (kindOfParameter_run hsorts hparameter hexplicit).map _

/-! ### Parameters in angles -/

/-- Parameters that are bound in front look as they did, also to a glance for them. -/
structure SameBinder (operators : List String) (tokens again : List Token) : Prop
    extends Same operators tokens again where
  beginsBinder : Grammar.beginsBinder tokens = true → Grammar.beginsBinder again = true

/-- The parameters of a binder are read again. -/
theorem parameters_run {choices : List String} {nodes : List Node} (hsorts : sorts.Replays)
    (h : (separated "," (isOp ">") do
      let (_, parameter) ← parameterOr sorts (expected choices)
      return [parameter]).Reads tokens nodes rest)
    (hnodes : ∀ node ∈ nodes, node.isExplicit = true) :
    Run level (fun sorts => separated "," (isOp ">") do
      let (_, parameter) ← parameterOr sorts (expected choices)
      return [parameter]) (Same parameterEnds rest) (SameParameter tokens) tokens nodes rest
      (nodes.flatMap Node.leaves) := by
  refine separated_run (fun h => h.isOp ">" (by decide))
    (fun hclosed h => h.parameter (by decide) (by simp [isOneOf, hclosed]))
      (fun h => h.isOp_closing)
    (by decide) (fun hitem hfit => ?_) h hnodes
  obtain ⟨⟨isLifetime, node⟩, mid, hparameter, hpure⟩ := reads_bind.mp hitem
  obtain ⟨rfl, rfl⟩ := reads_pure.mp hpure
  exact ((parameter_run hsorts hparameter (hfit _ (List.mem_singleton_self _))).map
    fun found => [found.2]).cast (List.append_nil _).symm

/-- Parameters that are bound in front are read again. -/
theorem binder_run (hsorts : sorts.Replays) (h : (binder sorts).Reads tokens node rest)
    (hnode : node.isExplicit = true) :
    Run level binder ends (SameBinder operators tokens) tokens node rest node.leaves := by
  obtain ⟨word, mid, hword, opening, left, hopening, parameters, last, hparameters, closing, final,
    hclosing, hpure⟩ := by simpa only [binder, reads_bind] using h
  obtain ⟨rfl, rfl⟩ := reads_pure.mp hpure
  have hparts := Node.isExplicit_parts hnode rfl
  have hparametersExplicit : ∀ node ∈ parameters, node.isExplicit = true := fun node hmem =>
    hparts node (by simp [hmem])
  unfold binder
  refine .cast (.bind (fun after => Alike true mid after ∧
      (beginsParameters mid = true → beginsParameters after = true))
    (keyword_bare hword fun after hafter => ?_)
    (.bind (SameParameter left) (operator_run hopening fun after hafter => ⟨?_, ?_⟩)
      (.bind (Same parameterEnds last) (parameters_run hsorts hparameters hparametersExplicit)
        ((clear_run hclosing (by decide)).map _)))) (by simp)
  · obtain ⟨rfl, -⟩ := reads_keyword.mp hword
    exact ⟨.keyword rfl fun _ => hafter.1, hafter.2⟩
  · obtain ⟨hop, -⟩ := reads_operator.mp hopening
    exact alike_operator hop (by decide) (by decide) fun hmem => absurd hmem (by decide)
  · have hop : afterOperator? ['<'] mid = some left := (reads_operator.mp hopening).1
    obtain ⟨-, spacing, others, rfl, ⟨-, rfl⟩ | ⟨hnil, -⟩⟩ := afterOperator?_cons_eq_some.mp hop
    · change beginsParameters _ = true → beginsParameters (.mark '<' .alone :: after) = true
      rw [beginsParameters_angle, beginsParameters_angle]
      exact hafter.opensParameters
    · contradiction

/-- Parameters that may be bound in front. -/
theorem binder?_run {nodes : List Node} {same : List Token → List Token → Prop}
    (hsorts : sorts.Replays) (h : (binder? sorts).Reads tokens nodes rest)
    (hnodes : ∀ node ∈ nodes, node.isExplicit = true)
    (hword : ∀ again, same tokens again → isWord "for" again = isWord "for" tokens)
    (hstart : ∀ again, SameBinder openers tokens again → same tokens again) :
    Run level binder? (same rest) (same tokens) tokens nodes rest (nodes.flatMap Node.leaves) := by
  refine .onlyIf sorts h (fun _ hreads => ?_) (fun _ heq after => heq ▸ id) hword
  obtain ⟨node, hbinder, rfl⟩ := reads_one.mp hreads
  have hrun : Run level binder (same rest) (SameBinder openers tokens) tokens node rest
      node.leaves :=
    binder_run hsorts hbinder (hnodes _ (List.mem_singleton_self _))
  exact (hrun.one.cast (List.append_nil _).symm).mono (fun _ => id) hstart

end Parameter

end Typestate.Grammar
