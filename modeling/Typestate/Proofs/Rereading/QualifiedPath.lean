import Typestate.Proofs.Rereading.Path

/-!
# Paths that begin with a type, read again

A path may begin with a type in angles. Where a closure may stand, such angles are told from those
of its parameters by what follows the first name in them.
-/

namespace Typestate.Grammar

open Grammar.Parser Lexer Token

section QualifiedPath

variable {level : ℕ} {sorts : Sorts} {operators : List String} {tokens rest : List Token}

/-! ### Angles -/

/-- What stands behind the first name in angles that hold parameters. -/
def followsParameter (tokens : List Token) : Bool :=
  isOneOf [">", ",", "="] tokens || (isOp ":" tokens && !isOp "::" tokens)

/-- What stands behind an angle that opens parameters, as far as a glance sees. -/
def opensParameters (tokens : List Token) : Bool :=
  isOneOf [">", "#"] tokens || isWord "const" tokens ||
    ((isLifetime tokens || isIdentifier tokens) && followsParameter (afterOne tokens))

theorem beginsParameters_angle (spacing : Spacing) (others : List Token) :
    beginsParameters (.mark '<' spacing :: others) = opensParameters others := rfl

theorem Alike.followsParameter {deep : Bool} {again : List Token} (h : Alike deep tokens again)
    (hcolons : Grammar.isOp ":" tokens = true →
      Grammar.isOp "::" again = Grammar.isOp "::" tokens) :
    followsParameter again = followsParameter tokens := by
  have hsplit : ∀ tokens, isOneOf [">", ",", "="] tokens =
      (isOneOf [",", ">"] tokens || Grammar.isOp "=" tokens) := by
    intro tokens
    simp only [isOneOf, List.any_cons, List.any_nil, Bool.or_false]
    rw [Bool.or_left_comm, Bool.or_assoc]
  rw [Grammar.followsParameter, Grammar.followsParameter, hsplit, hsplit, h.isStop,
    h.isOp_char "=" rfl (by decide), h.isOp_char ":" rfl (by decide)]
  cases hcolon : Grammar.isOp ":" tokens with
  | false => rfl
  | true => rw [hcolons hcolon]

/-- Tokens that begin with no angle begin no parameters. -/
theorem Same.pattern {again : List Token} (h : Same openers tokens again)
    (hangle : Grammar.isOp "<" tokens = false) : SamePattern tokens again where
  toSame := h
  beginsParameters := by
    have hagain := (h.isOp "<" (by decide)).trans hangle
    simp only [Grammar.beginsParameters, hangle, hagain, Bool.false_and]

/-- An angle in front of a type looks as it did. -/
theorem same_angle {plus : Bool} {type : Node} {mid after : List Token} (hsorts : sorts.Replays)
    (hop : afterOperator? ['<'] tokens = some rest) (htype : (sorts.type plus).Reads rest type mid)
    (h : Same openers rest after) : SamePattern tokens (ofOperator ['<'] ++ after) where
  toSame := same_operator hop (by decide) (by decide) (fun hmem => absurd hmem (by decide))
    (fun longer hmem hprefix => .inl (by revert longer; decide)) nofun
  beginsParameters := by
    obtain ⟨-, spacing, mid', rfl, ⟨-, rfl⟩ | ⟨hnil, -⟩⟩ := afterOperator?_cons_eq_some.mp hop
    · change beginsParameters (.mark '<' .alone :: after) = _
      rw [beginsParameters_angle, beginsParameters_angle, opensParameters, opensParameters,
        h.isOneOf _ (by decide), h.alike.isWord, h.alike.isLifetime, h.alike.isIdentifier]
      congr 1
      cases hlifetime : isLifetime mid' with
      | true =>
        have hplus := hsorts.type_lifetime htype hlifetime
        congr 1
        have halike := h.alike
        cases halike with
        | lifetime hrest =>
          exact hrest.followsParameter fun hcolon =>
            absurd (hcolon.symm.trans hplus) (by decide)
        | mark hquote _ => rw [isLifetime_mark _ hquote] at hlifetime; contradiction
        | stop hstop _ =>
          rw [isLifetime_mark _ (ne_of_mem_of_not_mem hstop quote_not_mem_stops)] at hlifetime
          contradiction
        | _ => contradiction
      | false =>
        cases hidentifier : isIdentifier mid' with
        | false => rfl
        | true =>
          congr 1
          have halike := h.alike
          cases halike with
          | word hrest =>
            rename_i text others again _
            have hword : Word.isIdentifier text = true := hidentifier
            refine (hrest rfl (not_mem_boundWords hword)).followsParameter fun _ => ?_
            exact h.afterName (by simp [isPathWord, hword]) "::" (by decide) (by decide)
          | _ => contradiction
    · contradiction

/-! ### Paths -/

/-- The trait that a type is seen as is read again. -/
theorem asTrait_run {nodes : List Node} (hsorts : sorts.Replays)
    (h : (onlyIf (isWord "as") do
      let word ← keyword "as"
      return [word, (← path sorts).node]).Reads tokens nodes rest)
    (hnodes : ∀ node ∈ nodes, node.isExplicit = true) :
    Run level (fun sorts => onlyIf (isWord "as") do
      let word ← keyword "as"
      return [word, (← path sorts).node]) (Same typeEnds rest) (Same typeEnds tokens) tokens nodes
      rest (nodes.flatMap Node.leaves) := by
  refine .onlyIf sorts h (fun _ hreads => ?_) (fun _ heq after => heq ▸ id)
    fun again hagain => hagain.alike.isWord "as"
  obtain ⟨word, mid, hword, found, last, hpath, hpure⟩ := by simpa only [reads_bind] using hreads
  obtain ⟨rfl, rfl⟩ := reads_pure.mp hpure
  have hexplicit := hnodes found.node (by simp)
  exact .cast (.bind (Same openers mid) (keyword_run hword rfl fun _ h _ => h.alike)
    ((path_run hsorts hpath hexplicit).map _)) (by simp)

/-- A path that begins with a type in angles is read again. -/
theorem qualifiedPath_run {inExpression : Bool} {node : Node} (hsorts : sorts.Replays)
    (hends : typeEnds ⊆ operators)
    (hclear : ∀ longer ∈ operators, [':', ':'] <+: longer.toList → longer.toList = [':', ':'])
    (h : (qualifiedPath sorts inExpression).Reads tokens node rest)
    (hnode : node.isExplicit = true) :
    Run level (fun sorts => qualifiedPath sorts inExpression) (Same operators rest)
      (SamePattern tokens) tokens node rest node.leaves := by
  obtain ⟨opening, left, hopening, type, mid, htype, asTrait, mid₂, hasTrait, closing,
    mid₃, hclosing, colons, mid₄, hcolons, first, mid₅, hfirst, others, last, hothers, hpure⟩ := by
    simpa only [qualifiedPath, reads_bind] using h
  obtain ⟨rfl, rfl⟩ := reads_pure.mp hpure
  have hparts := Node.isExplicit_parts hnode rfl
  have hexplicit : ∀ segment ∈ first :: others, segment.node.isExplicit = true :=
    fun segment hmem =>
    hparts _ (List.mem_append_right _ (List.mem_cons_of_mem _ (List.mem_cons_of_mem _
      (mem_intersperse (List.mem_map_of_mem hmem)))))
  have htypeExplicit := hparts type (by simp)
  have hasTraitExplicit : ∀ node ∈ asTrait, node.isExplicit = true := fun node hmem =>
    hparts node (by simp [hmem])
  obtain ⟨hop, -⟩ := reads_operator.mp hopening
  have hmore : Run (level + 8) (fun sorts => repeatWhile (isOp "::") do
        let _ ← operator "::"
        return [← segment sorts inExpression]) (SameColons operators last)
      (SameColons operators mid₅) mid₅ others last (others.flatMap Segment.printed) :=
    repeatWhile_run Segment.printed (fun segment => segment.node.isExplicit = true)
      (fun hagain => hagain.isOp_colons)
      (fun _ hreads hfit => nextSegment_run hsorts hends hclear hreads hfit) hothers
      (List.forall_mem_cons.mp hexplicit).2
  refine .cast (.next (Same openers left) (operator_run hopening fun after hafter =>
      same_angle hsorts hop htype hafter) (leaves_ne_nil_of_operator hopening)
    (.bind (Same typeEnds mid) ((hsorts.type htype htypeExplicit).raise (by omega))
      (.bind (Same typeEnds mid₂) (asTrait_run hsorts hasTrait hasTraitExplicit)
        (.bind (Same [] mid₃) (clear_run hclosing (by decide))
          (.bind (Same openers mid₄)
            (colons_run hcolons (fun _ hmem => absurd hmem List.not_mem_nil)
              fun _ h => h.alike.weaken)
            (.bind (SameColons operators mid₅)
              (segment_run hsorts hends hfirst (hexplicit first List.mem_cons_self))
              ((hmore.map _).mono ?_ fun _ => id))))))) ?_
  · exact fun _ hafter => hafter.colons (by rw [more_repeatWhile hothers]; rfl)
  · rw [Node.leaves_branch, List.flatMap_append, List.flatMap_cons, List.flatMap_cons,
      List.flatMap_cons, List.flatMap_cons, leaves_segments]
    simp only [List.append_assoc]

/-- A path is read again, whether it begins with a type or not. -/
theorem anyPath_run {inExpression : Bool} {found : AnyPath} (hsorts : sorts.Replays)
    (hends : typeEnds ⊆ operators)
    (hclear : ∀ longer ∈ operators, [':', ':'] <+: longer.toList → longer.toList = [':', ':'])
    (h : (anyPath sorts inExpression).Reads tokens found rest)
    (hfound : found.node.isExplicit = true) :
    Run level (fun sorts => anyPath sorts inExpression) (Same operators rest) (SamePattern tokens)
      tokens found rest found.node.leaves := by
  simp only [anyPath, ↓reads_ahead] at h
  unfold anyPath
  refine .ahead ?_ fun again sorts hagain => by rw [hagain.isOp "<" (by decide)]
  split at h
  · rename_i hangle
    obtain ⟨node, mid, hnode, hpure⟩ := reads_bind.mp h
    obtain ⟨rfl, rfl⟩ := reads_pure.mp hpure
    simp only [if_pos hangle]
    exact (qualifiedPath_run hsorts hends hclear hnode hfound).map _
  · rename_i hnot
    obtain ⟨found, mid, hpath, hpure⟩ := reads_bind.mp h
    obtain ⟨rfl, rfl⟩ := reads_pure.mp hpure
    simp only [if_neg hnot]
    exact ((pathWhere_run hsorts hends hclear hpath hfound).map _).mono (fun _ => id)
      fun _ hagain => hagain.pattern (Bool.eq_false_iff.mpr hnot)

end QualifiedPath

end Typestate.Grammar
