import Typestate.Proofs.Grammar.NamedArguments

/-!
# Calls of named functions

A path and parentheses behind it are read as the call of a function in an expression, as long as the
path is read as it is written there.
-/

namespace Typestate.Grammar

open Grammar.Parser Token

/-! ### Where an expression begins and ends -/

/-- The tokens begin an expression that begins with a path. -/
inductive BeginsName : List Token → Prop
  | path {tokens : List Token} (h : BeginsType tokens) : BeginsName tokens
  | attempt (rest : List Token) : BeginsName (.word "try" :: (phrase "::" ++ rest))

/-- Nothing that follows belongs to the expression. A block may follow where a brace does not open a
literal of a struct. -/
inductive EndsExpression : Bool → List Token → Prop
  | nil (structs : Bool) : EndsExpression structs []
  | comma (structs : Bool) (rest : List Token) : EndsExpression structs (phrase "," ++ rest)
  | block (body rest : List Token) : EndsExpression false (braces body :: rest)

/-- What ends an expression goes on with no name, no attribute, no macro and no struct. -/
theorem EndsExpression.looks {structs : Bool} {rest : List Token}
    (h : EndsExpression structs rest) :
    EndsPath rest ∧ isOp "#" rest = false ∧ isCallMark rest = false ∧
      (structs && isGroup .brace rest) = false := by
  cases h with
  | nil structs => exact ⟨⟨rfl, rfl⟩, rfl, rfl, Bool.and_false _⟩
  | comma structs rest => exact ⟨⟨rfl, rfl⟩, rfl, rfl, Bool.and_false _⟩
  | block body rest => exact ⟨⟨rfl, rfl⟩, rfl, rfl, rfl⟩

section Atoms

variable {sorts : Sorts} {structs : Bool} {tokens rest : List Token} {node : Node}

/-- Where no attribute stands, none is read. -/
theorem outerAttributes_of_not (h : isOp "#" tokens = false) :
    outerAttributes sorts tokens = .ok ⟨[], tokens, none⟩ := by
  have hmetas : outerMetas sorts tokens = .ok ⟨[], tokens, none⟩ := repeatWhile_of_not h
  rw [outerAttributes, bind_of_ok hmetas]
  rfl

/-- Nothing is applied to an expression that ends. -/
theorem appliedAtMost_of_ends (h : EndsExpression structs rest) (rounds : ℕ) :
    appliedAtMost sorts node (rounds + 1) rest = .ok ⟨node, rest, none⟩ := by
  cases h with
  | nil structs => rfl
  | comma structs rest => rfl
  | block body rest => rfl

/-- No operator follows an expression that ends. -/
theorem operatorsWhere_of_ends (hnode : node.isRange = false) (h : EndsExpression structs rest) :
    operatorsWhere sorts structs .jump node rest = .ok ⟨node, rest, none⟩ := by
  rw [operatorsWhere, ahead_bind, operatorsAtMost, ahead_bind, choose_apply, hnode]
  cases h with
  | nil structs => rfl
  | comma structs rest => rfl
  | block body rest => rfl

/-- Attributes that are not there change nothing. -/
theorem withAttributes_nil (node : Node) : node.withAttributes [] = node := by
  cases node <;> rfl

/-- An expression is its first operand if nothing follows. -/
theorem expressionWhere_of_operand
    (hoperand : operandWhere sorts structs tokens = .ok ⟨node, rest, none⟩)
    (hnode : node.isRange = false) (h : EndsExpression structs rest) :
    sorts.deeper.expressionWhere structs tokens = .ok ⟨node, rest, none⟩ := by
  have hfirst : sorts.deeper.operand structs tokens = .ok ⟨node, rest, none⟩ := hoperand
  rw [Sorts.expressionWhere, bind_of_ok hfirst]
  exact operatorsWhere_of_ends hnode h

/-- What begins with a path is an expression of that name. -/
theorem atom_of_beginsName (h : BeginsName tokens) :
    atom sorts structs tokens = namedExpression sorts structs tokens := by
  rw [atom, ahead_bind]
  cases h with
  | attempt rest => rfl
  | path h =>
    cases h with
    | colons rest => rfl
    | @name name hname rest hrest =>
      have hbegins := (BeginsType.name hname hrest).beginsPath
      have hbuiltin := (BeginsType.name hname hrest).isBuiltin
      have hliteral := (BeginsType.name hname hrest).looks.2.2.2.1
      have hkept := hname.ne ["async", "try", "move", "for", "const", "static"] (by decide)
      simp only [List.forall_mem_cons] at hkept
      obtain ⟨hasync, htry, hmove, hfor, hconst, hstatic, -⟩ := hkept
      have hdeferred : beginsAsync (.word name :: rest) = false := by
        rw [beginsAsync, isWord_word, hasync, Bool.false_and]
      have hattempt : beginsTryBlock (.word name :: rest) = false := by
        rw [beginsTryBlock, isWord_word, htry, Bool.false_and]
      have hclosure : beginsClosure (.word name :: rest) = false := by
        simp [beginsClosure, beginsBinder, hmove, hfor, hconst, hstatic, hasync]
      simp only [choose_apply, hliteral, hdeferred, hattempt, hclosure, hbuiltin, hbegins,
        Bool.true_or, Bool.false_eq_true, if_false, if_true]

theorem BeginsName.looks (h : BeginsName tokens) :
    isOp "<" tokens = false ∧ isOp "#" tokens = false ∧ isOp "&" tokens = false ∧
      isOneOf ["*", "!", "-"] tokens = false := by
  cases h with
  | attempt rest => exact ⟨rfl, rfl, rfl, rfl⟩
  | path h =>
    cases h with
    | colons rest => exact ⟨rfl, rfl, rfl, rfl⟩
    | name hname hrest => exact ⟨isOp_word .., isOp_word .., isOp_word .., isOneOf_word ..⟩

/-- A path is an expression if nothing makes it the name of a macro or of a struct. -/
theorem atom_path {again : Path} (h : BeginsName tokens)
    (hpath : pathWhere sorts true tokens = .ok ⟨again, rest, none⟩)
    (hcall : isCallMark rest = false) (hstruct : (structs && isGroup .brace rest) = false) :
    atom sorts structs tokens = .ok ⟨.branch .name [again.node], rest, none⟩ := by
  rw [atom_of_beginsName h, namedExpression, bind_of_ok (anyPath_plain h.looks.1 hpath)]
  simp only [ahead_bind, choose_apply, hcall, hstruct, Bool.and_false, Bool.false_eq_true, if_false]
  rfl

/-- Without attributes and signs, an operand is an atom and what is applied to it. -/
theorem operandWhere_eq (hattribute : isOp "#" tokens = false) (hmark : isOp "&" tokens = false)
    (hsigns : isOneOf ["*", "!", "-"] tokens = false) :
    operandWhere sorts structs tokens = appliedAtom sorts structs [] tokens tokens := by
  rw [operandWhere, ahead_bind, bind_of_ok (outerAttributes_of_not hattribute), ahead_bind,
    choose_of_false hmark, choose_of_false hsigns]

/-- An operand is read if an atom and what is applied to it are. -/
theorem operandWhere_of_atom {base : Node} {middle : List Token} {kind : Kind}
    {children : List Node} (hattribute : isOp "#" tokens = false) (hmark : isOp "&" tokens = false)
    (hsigns : isOneOf ["*", "!", "-"] tokens = false)
    (hatom : atom sorts structs tokens = .ok ⟨base, middle, none⟩)
    (happlied : applied sorts base middle = .ok ⟨.branch kind children, rest, none⟩)
    (hkind : kind ≠ .range) :
    operandWhere sorts structs tokens = .ok ⟨.branch kind children, rest, none⟩ := by
  have hrange : (Node.branch kind children).isRange = false := by
    simpa [Node.isRange, Node.isKind, Node.kind?] using hkind
  rw [operandWhere_eq hattribute hmark hsigns, appliedAtom, bind_of_ok hatom, bind_of_ok happlied]
  simp only [choose_apply, hrange, Bool.false_and, Bool.false_eq_true, if_false]
  rfl

/-- A path by itself is an operand. -/
theorem operandWhere_path {again : Path} (hbegins : BeginsName tokens)
    (hpath : pathWhere sorts true tokens = .ok ⟨again, rest, none⟩)
    (hrest : EndsExpression structs rest) :
    operandWhere sorts structs tokens = .ok ⟨.branch .name [again.node], rest, none⟩ := by
  obtain ⟨-, hattribute, hmark, hsigns⟩ := hbegins.looks
  obtain ⟨-, -, hcall, hstruct⟩ := hrest.looks
  have happlied : applied sorts (.branch .name [again.node]) rest =
      .ok ⟨.branch .name [again.node], rest, none⟩ := by
    rw [applied, ahead_bind]
    exact appliedAtMost_of_ends hrest _
  exact operandWhere_of_atom hattribute hmark hsigns (atom_path hbegins hpath hcall hstruct)
    happlied (by decide)

/-- The call of a macro is an operand. -/
theorem operandWhere_macroCall {again : Path} {delimiter : Delimiter} {body : List Token}
    (hbegins : BeginsName tokens) (hplain : again.isPlain = true)
    (hpath : pathWhere sorts true tokens =
      .ok ⟨again, phrase "!" ++ .group delimiter body :: rest, none⟩)
    (hrest : EndsExpression structs rest) :
    operandWhere sorts structs tokens =
      .ok ⟨.branch .callMacro [again.node, .operator "!", .group delimiter [.verbatim body]], rest,
        none⟩ := by
  obtain ⟨hopening, hattribute, hmark, hsigns⟩ := hbegins.looks
  have hcall : isCallMark (phrase "!" ++ .group delimiter body :: rest) = true := rfl
  have hatom : atom sorts structs tokens =
      .ok ⟨.branch .callMacro [again.node, .operator "!", .group delimiter [.verbatim body]], rest,
        none⟩ := by
    rw [atom_of_beginsName hbegins, namedExpression, bind_of_ok (anyPath_plain hopening hpath)]
    simp only [ahead_bind, hplain, hcall, Bool.and_self, if_true]
    rfl
  refine operandWhere_of_atom hattribute hmark hsigns hatom ?_ (by decide)
  rw [applied, ahead_bind]
  exact appliedAtMost_of_ends hrest _

/-- What stands between delimiters is read if all of it is. -/
theorem group_of_ok {delimiter : Delimiter} {parser : Parser (List Node)} {body : List Token}
    {nodes : List Node} (h : parser body = .ok ⟨nodes, [], none⟩) :
    Parser.group delimiter parser (.group delimiter body :: rest) =
      .ok ⟨.group delimiter nodes, rest, none⟩ := by
  have hinside : inside delimiter parser (.group delimiter body :: rest) =
      .ok ⟨nodes, rest, none⟩ := by
    simp [inside, h, bind, Except.bind, pure, Except.pure]
  rw [Parser.group, bind_of_ok hinside]
  rfl

/-- A function is called with what stands in parentheses behind it. -/
theorem applied_call {base arguments : Node} {body : List Token}
    (harguments : callArguments sorts (parens body :: rest) = .ok ⟨arguments, rest, none⟩)
    (h : EndsExpression structs rest) :
    applied sorts base (parens body :: rest) =
      .ok ⟨.branch .call [base, arguments], rest, none⟩ := by
  have hgroup : isGroup .parenthesis (parens body :: rest) = true := rfl
  rw [applied, ahead_bind, appliedAtMost, ahead_bind, choose_of_true hgroup,
    bind_of_ok harguments]
  exact appliedAtMost_of_ends h _

end Atoms

/-! ### Lists of expressions -/

/-- An expression that is read as the tree wherever it ends. -/
def ReadAs (parser : Parser Node) (tokens : List Token) (node : Node) : Prop :=
  tokens ≠ [] ∧ ∀ rest, EndsExpression true rest → parser (tokens ++ rest) = .ok ⟨node, rest, none⟩

/-- Expressions between commas are read one after another. -/
theorem separatedAtMost_tokens {parser : Parser Node} {parts : List (List Token × Node)}
    (hparts : ∀ part ∈ parts, ReadAs parser part.1 part.2) {rounds : ℕ}
    (hrounds : parts.length < rounds) :
    separatedAtMost "," isAtEnd (one parser) rounds
        (List.intercalate (phrase ",") (parts.map Prod.fst)) =
      .ok ⟨(parts.map Prod.snd).intersperse (.operator ","), [], none⟩ := by
  induction parts generalizing rounds with
  | nil =>
    cases rounds with
    | zero => contradiction
    | succ rounds => rfl
  | cons first others ih =>
    cases rounds with
    | zero => contradiction
    | succ rounds =>
      obtain ⟨⟨hfirst, hread⟩, hothers⟩ := List.forall_mem_cons.mp hparts
      have hbegins : ∀ rest, isAtEnd (first.1 ++ rest) = false := by
        intro rest
        rw [isAtEnd, List.isEmpty_eq_false_iff]
        exact List.append_ne_nil_of_left_ne_nil hfirst rest
      have hone : ∀ rest, EndsExpression true rest →
          one parser (first.1 ++ rest) = .ok ⟨[first.2], rest, none⟩ := by
        intro rest hrest
        rw [one, bind_of_ok (hread rest hrest)]
        rfl
      cases others with
      | nil =>
        have hall : List.intercalate (phrase ",") ([first].map Prod.fst) = first.1 ++ [] := by simp
        rw [hall, separatedAtMost, ahead_bind, choose_of_false (hbegins _),
          bind_of_ok (hone [] (.nil true))]
        rfl
      | cons next others =>
        have hall : List.intercalate (phrase ",") ((first :: next :: others).map Prod.fst) =
            first.1 ++ (phrase "," ++
              List.intercalate (phrase ",") ((next :: others).map Prod.fst)) := by
          simp only [List.map_cons, List.intercalate_cons_cons, List.append_assoc]
        have hmore : isAtEnd (phrase "," ++
            List.intercalate (phrase ",") ((next :: others).map Prod.fst)) = false := rfl
        rw [hall, separatedAtMost, ahead_bind, choose_of_false (hbegins _),
          bind_of_ok (hone _ (.comma true _)), ahead_bind, choose_of_false hmore,
          bind_of_ok (operator_comma _), bind_of_ok (ih hothers (Nat.succ_lt_succ_iff.mp hrounds))]
        rfl

/-- Parts that are not empty have at least one token each. -/
theorem length_le_of_ne_nil {parts : List (List Token)} (hparts : ∀ part ∈ parts, part ≠ []) :
    parts.length ≤ (List.intercalate (phrase ",") parts).length := by
  induction parts with
  | nil => exact Nat.zero_le _
  | cons first others ih =>
    obtain ⟨hfirst, hothers⟩ := List.forall_mem_cons.mp hparts
    have hpositive := List.length_pos_of_ne_nil hfirst
    cases others with
    | nil => simpa [Nat.succ_le_iff] using hpositive
    | cons next rest =>
      have hlength := ih hothers
      simp only [List.intercalate_cons_cons, List.length_append, List.length_cons] at hlength ⊢
      omega

/-- A list of expressions is read one after another. -/
theorem commaSeparated_tokens {parser : Parser Node} {parts : List (List Token × Node)}
    (hparts : ∀ part ∈ parts, ReadAs parser part.1 part.2) :
    commaSeparated (one parser) (List.intercalate (phrase ",") (parts.map Prod.fst)) =
      .ok ⟨(parts.map Prod.snd).intersperse (.operator ","), [], none⟩ := by
  rw [commaSeparated, separated, ahead_bind]
  refine separatedAtMost_tokens hparts (Nat.lt_succ_of_le ?_)
  rw [← List.length_map (f := Prod.fst)]
  exact length_le_of_ne_nil (List.forall_mem_map.mpr fun part hpart => (hparts part hpart).1)

/-! ### Calls -/

/-- The call of a function, given its path and its arguments, as a tree. -/
def callNode (callee : Path) (arguments : List Node) : Node :=
  .branch .call
    [.branch .name [callee.node], .group .parenthesis (arguments.intersperse (.operator ","))]

/-- A path and arguments in parentheses behind it are read as a call if both are read. -/
theorem operandWhere_call {sorts : Sorts} {structs : Bool} {tokens rest : List Token}
    {callee : Path} {parts : List (List Token × Node)} (hbegins : BeginsName tokens)
    (hpath : pathWhere sorts true tokens =
      .ok ⟨callee, parens (List.intercalate (phrase ",") (parts.map Prod.fst)) :: rest, none⟩)
    (hparts : ∀ part ∈ parts, ReadAs sorts.expression part.1 part.2)
    (hrest : EndsExpression structs rest) :
    operandWhere sorts structs tokens =
      .ok ⟨callNode callee (parts.map Prod.snd), rest, none⟩ := by
  obtain ⟨-, hattribute, hmark, hsigns⟩ := hbegins.looks
  have hatom : atom sorts structs tokens = .ok ⟨.branch .name [callee.node],
      parens (List.intercalate (phrase ",") (parts.map Prod.fst)) :: rest, none⟩ :=
    atom_path hbegins hpath rfl (by cases structs <;> rfl)
  have harguments : applied sorts (.branch .name [callee.node])
      (parens (List.intercalate (phrase ",") (parts.map Prod.fst)) :: rest) =
        .ok ⟨callNode callee (parts.map Prod.snd), rest, none⟩ :=
    applied_call (group_of_ok (commaSeparated_tokens hparts)) hrest
  exact operandWhere_of_atom hattribute hmark hsigns hatom harguments (by decide)

end Typestate.Grammar
