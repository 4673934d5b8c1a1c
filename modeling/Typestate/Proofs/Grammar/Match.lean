import Typestate.Proofs.Grammar.Call

/-!
# Choices by patterns

An arm is read if its pattern and its body are, and a choice is read if its arms are.
-/

namespace Typestate.Grammar

open Grammar.Parser Token

variable {sorts : Sorts} {rest : List Token}

/-! ### Patterns -/

/-- What begins with two colons is a pattern of that name. -/
theorem patternWhere_colons :
    patternWhere sorts (phrase "::" ++ rest) = namedPattern sorts (phrase "::" ++ rest) := by
  rw [patternWhere, ahead_bind]
  rfl

/-- A path with parts in parentheses behind it is a pattern. -/
theorem patternWhere_tupleStruct {tokens body : List Token} {found : Path} {parts : Node}
    (hpath : pathWhere sorts true (phrase "::" ++ tokens) = .ok ⟨found, parens body :: rest, none⟩)
    (hparts : tupleParts sorts (parens body :: rest) = .ok ⟨parts, rest, none⟩) :
    patternWhere sorts (phrase "::" ++ tokens) =
      .ok ⟨.branch .tupleStructPattern [found.node, parts], rest, none⟩ := by
  have hany : anyPath sorts true (phrase "::" ++ tokens) =
      .ok ⟨.plain found, parens body :: rest, none⟩ := anyPath_plain rfl hpath
  have hnamed : namedPattern sorts (phrase "::" ++ tokens) = (do
      return .branch .tupleStructPattern [found.node, ← tupleParts sorts] : Parser Node)
        (parens body :: rest) := by
    rw [namedPattern, bind_of_ok hany, ahead_bind]
    rfl
  rw [patternWhere_colons, hnamed, bind_of_ok hparts]
  rfl

/-- A path before an arrow is a pattern. -/
theorem patternWhere_path {tokens : List Token} {found : Path}
    (hpath : pathWhere sorts true (phrase "::" ++ tokens) =
      .ok ⟨found, phrase "=>" ++ rest, none⟩) :
    patternWhere sorts (phrase "::" ++ tokens) =
      .ok ⟨.branch .pathPattern [found.node], phrase "=>" ++ rest, none⟩ := by
  have hany : anyPath sorts true (phrase "::" ++ tokens) =
      .ok ⟨.plain found, phrase "=>" ++ rest, none⟩ := anyPath_plain rfl hpath
  rw [patternWhere_colons, namedPattern, bind_of_ok hany, ahead_bind]
  rfl

/-! ### Arms -/

/-- A pattern before an arrow is all of the alternatives. -/
theorem alternatives_of_pattern {tokens : List Token} {shape : Node}
    (hbar : isOp "|" tokens = false)
    (hpattern : sorts.pattern tokens = .ok ⟨shape, phrase "=>" ++ rest, none⟩) :
    alternatives sorts tokens = .ok ⟨shape, phrase "=>" ++ rest, none⟩ := by
  have hbars : operator? "|" tokens = .ok ⟨[], tokens, none⟩ := onlyIf_of_not hbar
  rw [alternatives, bind_of_ok hbars, bind_of_ok hpattern]
  rfl

/-- An arm is read if its pattern and its body are. -/
theorem arm_of_parts {tokens body : List Token} {shape node : Node}
    (hattribute : isOp "#" tokens = false)
    (hshape : alternatives sorts tokens = .ok ⟨shape, phrase "=>" ++ body, none⟩)
    (hbody : sorts.bodyExpression body = .ok ⟨node, phrase "," ++ rest, none⟩)
    (hnode : node.isBlockLike = false) :
    arm sorts tokens =
      .ok ⟨.branch .arm [.branch .start [shape, .operator "=>"], node, .operator ","], rest,
        none⟩ := by
  have hguard : onlyIf (isWord "if") (do return [← keyword "if", ← sorts.expression])
      (phrase "=>" ++ body) = .ok ⟨[], phrase "=>" ++ body, none⟩ := onlyIf_of_not rfl
  have harrow : operator "=>" (phrase "=>" ++ body) = .ok ⟨.operator "=>", body, none⟩ := rfl
  rw [arm, bind_of_ok (outerAttributes_of_not hattribute), bind_of_ok hshape, bind_of_ok hguard,
    bind_of_ok harrow, bind_of_ok hbody]
  simp only [hnode, ahead_bind]
  rfl

/-- What begins with two colons is read as an operand where it is the body of an arm. -/
theorem bodyExpressionWhere_colons {after : List Token} {node : Node}
    (hoperand : sorts.deeper.operand true (phrase "::" ++ rest) =
      .ok ⟨node, phrase "," ++ after, none⟩)
    (hnode : node.isBlockLike = false) (hrange : node.isRange = false) :
    bodyExpressionWhere sorts.deeper (phrase "::" ++ rest) =
      .ok ⟨node, phrase "," ++ after, none⟩ := by
  have hattribute : isOp "#" (phrase "::" ++ rest) = false := rfl
  have hstart : bodyStart sorts.deeper (phrase "::" ++ rest) =
      .ok ⟨node, phrase "," ++ after, none⟩ := by
    rw [bodyStart, ahead_bind]
    exact hoperand
  rw [bodyExpressionWhere, bind_of_ok (outerAttributes_of_not hattribute), bind_of_ok hstart, hnode,
    withAttributes_nil]
  exact operatorsWhere_of_ends hrange (.comma true after)

/-- The arm is read wherever it stands. -/
def ReadsArm (sorts : Sorts) (tokens : List Token) (node : Node) : Prop :=
  tokens ≠ [] ∧ ∀ rest, arm sorts (tokens ++ rest) = .ok ⟨node, rest, none⟩

/-- Arms are read up to the last token. -/
theorem repeatAtMost_arms {arms : List (List Token)} {nodes : List Node}
    (harms : List.Forall₂ (ReadsArm sorts) arms nodes) {rounds : ℕ}
    (hrounds : arms.length < rounds) :
    repeatAtMost (fun tokens => !tokens.isEmpty) (one (arm sorts)) rounds arms.flatten =
      .ok ⟨nodes, [], none⟩ := by
  induction harms generalizing rounds with
  | nil =>
    cases rounds with
    | zero => contradiction
    | succ rounds => rfl
  | @cons tokens node others nodes harm hothers ih =>
    cases rounds with
    | zero => contradiction
    | succ rounds =>
      obtain ⟨hne, harm⟩ := harm
      have hmore : (!(tokens ++ others.flatten).isEmpty) = true := by
        rw [Bool.not_eq_true', List.isEmpty_eq_false_iff]
        exact List.append_ne_nil_of_left_ne_nil hne _
      have hone : one (arm sorts) (tokens ++ others.flatten) =
          .ok ⟨[node], others.flatten, none⟩ := by
        rw [one, bind_of_ok (harm _)]
        rfl
      rw [List.flatten_cons, repeatAtMost, ahead_bind, choose_of_true hmore, bind_of_ok hone,
        bind_of_ok (ih (Nat.succ_lt_succ_iff.mp hrounds))]
      rfl

/-- Every arm has at least one token. -/
theorem length_le_arms {arms : List (List Token)} {nodes : List Node}
    (harms : List.Forall₂ (ReadsArm sorts) arms nodes) : arms.length ≤ arms.flatten.length := by
  induction harms with
  | nil => exact Nat.zero_le _
  | cons harm hothers ih =>
    have hpositive := List.length_pos_of_ne_nil harm.1
    simp only [List.flatten_cons, List.length_append, List.length_cons]
    omega

/-- A choice by patterns is read if its subject and its arms are. -/
theorem matchExpression_of_parts {subject : List Token} {node : Node} {arms : List (List Token)}
    {nodes : List Node}
    (hsubject : sorts.head (subject ++ braces arms.flatten :: rest) =
      .ok ⟨node, braces arms.flatten :: rest, none⟩)
    (hattribute : isOp "#" arms.flatten = false)
    (harms : List.Forall₂ (ReadsArm sorts) arms nodes) :
    matchExpression sorts (.word "match" :: (subject ++ braces arms.flatten :: rest)) =
      .ok ⟨.branch .matchArms [.word "match", node, .group .brace nodes], rest, none⟩ := by
  have hword : keyword "match" (.word "match" :: (subject ++ braces arms.flatten :: rest)) =
      .ok ⟨.word "match", subject ++ braces arms.flatten :: rest, none⟩ := rfl
  have hinner : innerAttributes sorts arms.flatten = .ok ⟨[], arms.flatten, none⟩ :=
    repeatWhile_of_not (by rw [hattribute, Bool.false_and])
  have hrepeat : repeatWhile (fun tokens => !tokens.isEmpty) (one (arm sorts)) arms.flatten =
      .ok ⟨nodes, [], none⟩ := by
    rw [repeatWhile, ahead_bind]
    exact repeatAtMost_arms harms (Nat.lt_succ_of_le (length_le_arms harms))
  have hbody : (do
      let attributes ← innerAttributes sorts
      let arms ← repeatWhile (fun tokens => !tokens.isEmpty) (one (arm sorts))
      return attributes ++ arms : Parser (List Node)) arms.flatten = .ok ⟨nodes, [], none⟩ := by
    rw [bind_of_ok hinner, bind_of_ok hrepeat]
    rfl
  have hgroup : Parser.group .brace (do
      let attributes ← innerAttributes sorts
      let arms ← repeatWhile (fun tokens => !tokens.isEmpty) (one (arm sorts))
      return attributes ++ arms) (braces arms.flatten :: rest) =
        .ok ⟨.group .brace nodes, rest, none⟩ := group_of_ok hbody
  rw [matchExpression, bind_of_ok hword, bind_of_ok hsubject, bind_of_ok hgroup]
  rfl

/-- A choice by patterns is an operand. -/
theorem operandWhere_match {structs : Bool} {subject : List Token} {node : Node}
    {arms : List (List Token)} {nodes : List Node}
    (hsubject : sorts.head (subject ++ braces arms.flatten :: rest) =
      .ok ⟨node, braces arms.flatten :: rest, none⟩)
    (hattribute : isOp "#" arms.flatten = false)
    (harms : List.Forall₂ (ReadsArm sorts) arms nodes) (hrest : EndsExpression structs rest) :
    operandWhere sorts structs (.word "match" :: (subject ++ braces arms.flatten :: rest)) =
      .ok ⟨.branch .matchArms [.word "match", node, .group .brace nodes], rest, none⟩ := by
  have hatom : atom sorts structs (.word "match" :: (subject ++ braces arms.flatten :: rest)) =
      .ok ⟨.branch .matchArms [.word "match", node, .group .brace nodes], rest, none⟩ := by
    rw [← matchExpression_of_parts hsubject hattribute harms, atom, ahead_bind]
    rfl
  refine operandWhere_of_atom (isOp_word ..) (isOp_word ..) (isOneOf_word ..) hatom ?_ (by decide)
  rw [applied, ahead_bind]
  exact appliedAtMost_of_ends hrest _

end Typestate.Grammar
