import Typestate.Proofs.Code.BuilderCode
import Typestate.Proofs.Grammar.Match

/-!
# What is read of a slot, as an expression

The method that builds the value copies what a slot holds, or takes the value out of the option in
it. Both are expressions of the grammar, whatever the name of the slot, and their trees keep all of
their tokens.
-/

namespace Typestate

open Grammar Grammar.Parser Token

/-! ### Slots -/

/-- The builder at hand as a path. -/
def selfPath : Grammar.Path := ⟨false, [⟨"self", none⟩]⟩

/-- The slot of a builder as a tree. -/
def slotNode (slot : String) : Node :=
  .branch .field [.branch .name [selfPath.node], .operator ".", .word slot]

/-- A reference to the slot of the builder as a tree. -/
def ownSlotNode (slot : String) : Node :=
  .branch .reference [.branch .start [.operator "&"], slotNode slot]

section Slots

variable {sorts : Sorts} {structs : Bool} {slot : String} {rest : List Token}

/-- What follows the dot is the name of a slot. -/
theorem dotted_slot {base : Node} (hslot : Word.isIdentifier slot = true)
    (hrest : EndsExpression structs rest) :
    dotted sorts base (phrase "." ++ .word slot :: rest) =
      .ok ⟨.branch .field [base, .operator ".", .word slot], rest, none⟩ := by
  have hdot : operator "." (phrase "." ++ .word slot :: rest) =
      .ok ⟨.operator ".", .word slot :: rest, none⟩ := rfl
  have hindexes : indexes? (.word slot :: rest) = .ok ⟨([], true), .word slot :: rest, none⟩ := rfl
  have hawait : (slot == "await") = false := ne_of_isIdentifier hslot (by decide)
  have hfield : fieldReference (.word slot :: rest) = .ok ⟨(true, .word slot), rest, none⟩ :=
    if_pos hslot
  rw [dotted, bind_of_ok hdot, bind_of_ok hindexes]
  simp only [if_true]
  rw [afterDot, ahead_bind, choose_apply, isWord_word, hawait]
  simp only [Bool.false_eq_true, if_false]
  rw [bind_of_ok hfield]
  cases hrest with
  | nil structs => rfl
  | comma structs rest => rfl
  | block body rest => rfl

/-- The slot of the builder is an operand. -/
theorem operandWhere_slot (hslot : Word.isIdentifier slot = true)
    (hrest : EndsExpression structs rest) :
    operandWhere sorts structs (.word "self" :: (phrase "." ++ .word slot :: rest)) =
      .ok ⟨slotNode slot, rest, none⟩ := by
  have hbegins : BeginsName (.word "self" :: (phrase "." ++ .word slot :: rest)) :=
    .path (.name (.inr (by decide)) rfl)
  obtain ⟨-, hattribute, hmark, hsigns⟩ := hbegins.looks
  have hpath : pathWhere sorts true (.word "self" :: (phrase "." ++ .word slot :: rest)) =
      .ok ⟨selfPath, phrase "." ++ .word slot :: rest, none⟩ := by
    have hends : EndsPath (phrase "." ++ .word slot :: rest) := ⟨rfl, rfl⟩
    have htokens : selfPath.node.tokens = [.word "self"] := Grammar.Path.tokens_node _
    have hplain : pathWhere sorts true
        (selfPath.node.tokens ++ (phrase "." ++ .word slot :: rest)) =
          .ok ⟨selfPath, phrase "." ++ .word slot :: rest, none⟩ :=
      pathWhere_plain true hends selfPath (List.cons_ne_nil _ _)
        (List.forall_mem_singleton.mpr ⟨.inl ⟨by decide, rfl⟩, rfl⟩)
    rwa [htokens] at hplain
  have hatom : atom sorts structs (.word "self" :: (phrase "." ++ .word slot :: rest)) =
      .ok ⟨.branch .name [selfPath.node], phrase "." ++ .word slot :: rest, none⟩ :=
    atom_path hbegins hpath rfl (by cases structs <;> rfl)
  have happlied : applied sorts (.branch .name [selfPath.node])
      (phrase "." ++ .word slot :: rest) = .ok ⟨slotNode slot, rest, none⟩ := by
    have hgroup : isGroup .parenthesis (phrase "." ++ .word slot :: rest) = false := rfl
    have hdot : (isDot (phrase "." ++ .word slot :: rest) &&
        !(Node.branch .name [selfPath.node]).isRange) = true := rfl
    rw [applied, ahead_bind, appliedAtMost, ahead_bind, choose_apply, choose_apply, hgroup, hdot]
    simp only [Bool.false_eq_true, if_false, if_true]
    rw [bind_of_ok (dotted_slot hslot hrest)]
    exact appliedAtMost_of_ends hrest _
  exact operandWhere_of_atom hattribute hmark hsigns hatom happlied (by decide)

/-- A reference to the slot of the builder is an operand. -/
theorem operandWhere_ownSlot (hslot : Word.isIdentifier slot = true)
    (hrest : EndsExpression structs rest) :
    operandWhere sorts.deeper structs (ownSlot slot ++ rest) =
      .ok ⟨ownSlotNode slot, rest, none⟩ := by
  have htokens : ownSlot slot ++ rest =
      phrase "&" ++ .word "self" :: (phrase "." ++ .word slot :: rest) := rfl
  have hmark : operator "&" (phrase "&" ++ .word "self" :: (phrase "." ++ .word slot :: rest)) =
      .ok ⟨.operator "&", .word "self" :: (phrase "." ++ .word slot :: rest), none⟩ := rfl
  have hword : keyword? "mut" (.word "self" :: (phrase "." ++ .word slot :: rest)) =
      .ok ⟨[], .word "self" :: (phrase "." ++ .word slot :: rest), none⟩ := rfl
  have hoperand : sorts.deeper.operand structs
      (.word "self" :: (phrase "." ++ .word slot :: rest)) = .ok ⟨slotNode slot, rest, none⟩ :=
    operandWhere_slot hslot hrest
  have hlook : isOp "&" (phrase "&" ++ .word "self" :: (phrase "." ++ .word slot :: rest)) = true :=
    rfl
  have hraw : (isWord "raw" (.word "self" :: (phrase "." ++ .word slot :: rest)) &&
      isAnyOf ["mut", "const"] (afterOne (.word "self" :: (phrase "." ++ .word slot :: rest)))) =
        false := rfl
  rw [htokens, operandWhere, ahead_bind, bind_of_ok (outerAttributes_of_not rfl), ahead_bind,
    choose_of_true hlook, referenceTo, bind_of_ok hmark, ahead_bind, choose_of_false hraw,
    bind_of_ok hword, bind_of_ok hoperand]
  rfl

/-- A reference to the slot of the builder is an expression. -/
theorem readAs_ownSlot (hslot : Word.isIdentifier slot = true) :
    ReadAs sorts.deeper.deeper.expression (ownSlot slot) (ownSlotNode slot) := by
  refine ⟨List.cons_ne_nil _ _, fun rest hrest => ?_⟩
  exact expressionWhere_of_operand (operandWhere_ownSlot hslot hrest) rfl hrest

end Slots

/-! ### Paths from the root -/

/-- The function that copies a value. -/
def clonePath : Grammar.Path := rootPath ["core", "clone", "Clone", "clone"]

/-- An option with a value. -/
def somePath : Grammar.Path := rootPath ["core", "option", "Option", "Some"]

/-- An option without a value. -/
def nonePath : Grammar.Path := rootPath ["core", "option", "Option", "None"]

/-- The macro that says that a place is never reached. -/
def unreachablePath : Grammar.Path := rootPath ["core", "unreachable"]

/-! ### Copies -/

section Copies

variable {sorts : Sorts} {structs : Bool}

/-- A copy is the call of a function. -/
theorem operandWhere_cloneOf {value rest : List Token} {node : Node}
    (hvalue : ReadAs sorts.expression value node) (hrest : EndsExpression structs rest) :
    operandWhere sorts structs (cloneOf value ++ rest) =
      .ok ⟨callNode clonePath [node], rest, none⟩ := by
  have hpath : pathWhere sorts true
      (phrase ":: core :: clone :: Clone :: clone" ++ parens value :: rest) =
        .ok ⟨clonePath, parens value :: rest, none⟩ :=
    pathWhere_rootPath true (List.cons_ne_nil _ _) (by decide) rfl ⟨rfl, rfl⟩
  have hall : List.intercalate (phrase ",") ([(value, node)].map Prod.fst) = value := by simp
  rw [cloneOf, List.append_assoc]
  rw [← hall] at hpath ⊢
  exact operandWhere_call (.path (.colons _)) hpath (List.forall_mem_singleton.mpr hvalue) hrest

/-- A copy is an expression. -/
theorem readAs_cloneOf {value : List Token} {node : Node}
    (hvalue : ReadAs sorts.expression value node) :
    ReadAs sorts.deeper.expression (cloneOf value) (callNode clonePath [node]) :=
  ⟨List.cons_ne_nil _ _, fun _ hrest =>
    expressionWhere_of_operand (operandWhere_cloneOf hvalue hrest) rfl hrest⟩

/-- What has been supplied, as a path. -/
def suppliedPath : Grammar.Path := ⟨false, [⟨"supplied", none⟩]⟩

/-- What has been supplied is an expression. -/
theorem readAs_supplied :
    ReadAs sorts.deeper.expression [.word "supplied"] (.branch .name [suppliedPath.node]) := by
  refine ⟨List.cons_ne_nil _ _, fun rest hrest => ?_⟩
  obtain ⟨hends, hattribute, -, -⟩ := hrest.looks
  have htokens : suppliedPath.node.tokens = [.word "supplied"] := Grammar.Path.tokens_node _
  have hpath : pathWhere sorts true (suppliedPath.node.tokens ++ rest) =
      .ok ⟨suppliedPath, rest, none⟩ :=
    pathWhere_plain true hends suppliedPath (List.cons_ne_nil _ _)
      (List.forall_mem_singleton.mpr ⟨.inr (.inr (by decide)), rfl⟩)
  rw [htokens] at hpath
  have hbegins : BeginsName ([.word "supplied"] ++ rest) :=
    .path (.name (.inl (by decide)) hattribute)
  exact expressionWhere_of_operand (operandWhere_path hbegins hpath hrest) rfl hrest

end Copies

/-! ### Arms -/

section Arms

variable {sorts : Sorts} {rest : List Token}

/-- The arm for a value that has been supplied, as tokens. -/
def someArm : List Token :=
  phrase ":: core :: option :: Option :: Some" ++ [parens [.word "supplied"]] ++ phrase "=>" ++
    cloneOf [.word "supplied"] ++ phrase ","

/-- The arm for a value that has been supplied, as a tree. -/
def someArmNode : Node :=
  .branch .arm
    [.branch .start
      [.branch .tupleStructPattern
        [somePath.node, .group .parenthesis [.branch .bindingPattern [.word "supplied"]]],
        .operator "=>"],
      callNode clonePath [.branch .name [suppliedPath.node]], .operator ","]

/-- The arm for a value that is missing, as tokens. -/
def noneArm (message : String) : List Token :=
  phrase ":: core :: option :: Option :: None => :: core :: unreachable !" ++
    [parens [string message]] ++ phrase ","

/-- The arm for a value that is missing, as a tree. -/
def noneArmNode (message : String) : Node :=
  .branch .arm
    [.branch .start [.branch .pathPattern [nonePath.node], .operator "=>"],
      .branch .callMacro
        [unreachablePath.node, .operator "!", .group .parenthesis [.verbatim [string message]]],
      .operator ","]

/-- The value in the option that a slot holds, as a tree. -/
def takenNode (slot : String) : Node :=
  .branch .matchArms
    [.word "match", ownSlotNode slot,
      .group .brace [someArmNode, noneArmNode ("`" ++ slot ++ "` is supplied before build")]]

/-- The arm for a value that has been supplied is read. -/
theorem readsArm_someArm : ReadsArm sorts.deeper.deeper.deeper someArm someArmNode := by
  refine ⟨List.cons_ne_nil _ _, fun rest => ?_⟩
  have hbody : bodyExpressionWhere sorts.deeper.deeper
      (cloneOf [.word "supplied"] ++ (phrase "," ++ rest)) =
        .ok ⟨callNode clonePath [.branch .name [suppliedPath.node]], phrase "," ++ rest, none⟩ :=
    bodyExpressionWhere_colons
      (operandWhere_cloneOf readAs_supplied (.comma true rest)) rfl rfl
  have hpath : pathWhere sorts.deeper.deeper true (phrase ":: core :: option :: Option :: Some" ++
      parens [.word "supplied"] :: (phrase "=>" ++ (cloneOf [.word "supplied"] ++
        (phrase "," ++ rest)))) =
      .ok ⟨somePath, parens [.word "supplied"] :: (phrase "=>" ++ (cloneOf [.word "supplied"] ++
        (phrase "," ++ rest))), none⟩ :=
    pathWhere_rootPath true (List.cons_ne_nil _ _) (by decide) rfl ⟨rfl, rfl⟩
  have hparts : tupleParts sorts.deeper.deeper (parens [.word "supplied"] ::
      (phrase "=>" ++ (cloneOf [.word "supplied"] ++ (phrase "," ++ rest)))) =
        .ok ⟨.group .parenthesis [.branch .bindingPattern [.word "supplied"]],
          phrase "=>" ++ (cloneOf [.word "supplied"] ++ (phrase "," ++ rest)), none⟩ :=
    group_of_ok rfl
  exact arm_of_parts rfl (alternatives_of_pattern rfl (patternWhere_tupleStruct hpath hparts))
    hbody rfl

/-- The arm for a value that is missing is read. -/
theorem readsArm_noneArm (message : String) :
    ReadsArm sorts.deeper.deeper.deeper (noneArm message) (noneArmNode message) := by
  refine ⟨List.cons_ne_nil _ _, fun rest => ?_⟩
  have hpath : pathWhere sorts.deeper.deeper true (phrase ":: core :: option :: Option :: None" ++
      (phrase "=>" ++ (phrase ":: core :: unreachable" ++ (phrase "!" ++ parens [string message] ::
        (phrase "," ++ rest))))) =
      .ok ⟨nonePath, phrase "=>" ++ (phrase ":: core :: unreachable" ++ (phrase "!" ++
        parens [string message] :: (phrase "," ++ rest))), none⟩ :=
    pathWhere_rootPath true (List.cons_ne_nil _ _) (by decide) rfl ⟨rfl, rfl⟩
  have hmacro : pathWhere sorts.deeper true (phrase ":: core :: unreachable" ++ (phrase "!" ++
      parens [string message] :: (phrase "," ++ rest))) =
      .ok ⟨unreachablePath, phrase "!" ++ parens [string message] :: (phrase "," ++ rest), none⟩ :=
    pathWhere_rootPath true (List.cons_ne_nil _ _) (by decide) rfl ⟨rfl, rfl⟩
  have hbody : bodyExpressionWhere sorts.deeper.deeper (phrase ":: core :: unreachable" ++
      (phrase "!" ++ parens [string message] :: (phrase "," ++ rest))) =
        .ok ⟨.branch .callMacro [unreachablePath.node, .operator "!",
          .group .parenthesis [.verbatim [string message]]], phrase "," ++ rest, none⟩ :=
    bodyExpressionWhere_colons
      (operandWhere_macroCall (.path (.colons _)) rfl hmacro (.comma true rest)) rfl rfl
  exact arm_of_parts rfl (alternatives_of_pattern rfl (patternWhere_path hpath)) hbody rfl

end Arms

/-! ### Tokens of the trees -/

theorem leaves_ownSlotNode (slot : String) : (ownSlotNode slot).leaves = ownSlot slot := rfl

/-- A copy is written with its tokens. -/
theorem leaves_cloneNode (value : Node) :
    (callNode clonePath [value]).leaves = cloneOf value.leaves := by
  have hpath : (Node.branch .name [clonePath.node]).leaves =
      phrase ":: core :: clone :: Clone :: clone" := rfl
  rw [callNode, Node.leaves_branch, List.flatMap_cons, List.flatMap_singleton, Node.leaves_group,
    List.intersperse_singleton, List.flatMap_singleton, hpath]
  rfl

theorem leaves_someArmNode : someArmNode.leaves = someArm := rfl

theorem leaves_noneArmNode (message : String) :
    (noneArmNode message).leaves = noneArm message := by
  have hphrase : phrase ":: core :: option :: Option :: None => :: core :: unreachable !" =
      phrase ":: core :: option :: Option :: None" ++
        (phrase "=>" ++ (phrase ":: core :: unreachable" ++ phrase "!")) := by
    rw [← phrase_append, ← phrase_append, ← phrase_append]
    rfl
  have hnone : nonePath.node.leaves = phrase ":: core :: option :: Option :: None" := rfl
  have hunreachable : unreachablePath.node.leaves = phrase ":: core :: unreachable" := rfl
  simp only [noneArm, hphrase, noneArmNode, Node.leaves_branch, Node.leaves_group,
    List.flatMap_cons, List.flatMap_nil, hnone, hunreachable]
  rfl

/-- The value in the option that a slot holds is written with its arms. -/
theorem tokens_taken (slot : String) :
    (SlotExpression.taken slot).tokens = .word "match" :: (ownSlot slot ++
      [braces [someArm, noneArm ("`" ++ slot ++ "` is supplied before build")].flatten]) := by
  have hword : phrase "match" = [.word "match"] := rfl
  simp only [SlotExpression.tokens, someArm, noneArm, hword, List.flatten_cons, List.flatten_nil,
    List.append_nil, List.append_assoc, List.cons_append, List.nil_append]

theorem leaves_takenNode (slot : String) :
    (takenNode slot).leaves = (SlotExpression.taken slot).tokens := by
  rw [tokens_taken, takenNode, Node.leaves_branch]
  simp only [List.flatMap_cons, List.flatMap_nil, Node.leaves_group, leaves_ownSlotNode,
    leaves_someArmNode, leaves_noneArmNode, List.flatten_cons, List.flatten_nil]
  rfl

/-! ### Readings as expressions -/

section Reads

variable {sorts : Sorts} {slot : String}

/-- The value in the option that a slot holds is an expression. -/
theorem readAs_taken (hslot : Word.isIdentifier slot = true) :
    ReadAs sorts.deeper.deeper.deeper.deeper.expression (SlotExpression.taken slot).tokens
      (takenNode slot) := by
  rw [tokens_taken]
  refine ⟨List.cons_ne_nil _ _, fun rest hrest => ?_⟩
  have harms : List.Forall₂ (ReadsArm sorts.deeper.deeper.deeper)
      [someArm, noneArm ("`" ++ slot ++ "` is supplied before build")]
      [someArmNode, noneArmNode ("`" ++ slot ++ "` is supplied before build")] :=
    .cons readsArm_someArm (.cons (readsArm_noneArm _) .nil)
  have hsubject : ∀ body : List Token,
      sorts.deeper.deeper.deeper.head (ownSlot slot ++ braces body :: rest) =
        .ok ⟨ownSlotNode slot, braces body :: rest, none⟩ := fun body =>
    expressionWhere_of_operand (operandWhere_ownSlot hslot (.block body rest)) rfl
      (.block body rest)
  rw [List.cons_append, List.append_assoc]
  exact expressionWhere_of_operand (operandWhere_match (hsubject _) rfl harms hrest) rfl hrest

end Reads

end Typestate
