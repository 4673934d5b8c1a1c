import Typestate.Proofs.Rereading.Repetition
import Typestate.Grammar.Whole

/-!
# Sorts that read again

What the sorts of the grammar have to fulfil so that constructs put together from them are read
again: each of them reads again what is printed of what it has read, and looks from before as it
did. What has to stand behind a construct is what the glances at its end look for.
-/

namespace Typestate.Grammar

open Grammar.Parser Lexer Token

/-! ### What has to stand behind a construct -/

/-- Operators that a glance looks for behind a type. One of a single character is seen in any case,
unless it ends an argument. -/
def typeEnds : List String := ["..", "<=", "<<=", "!="]

/-- Operators that a glance looks for behind a pattern. -/
def patternEnds : List String := typeEnds ++ [","]

/-- Operators that a glance looks for behind alternatives. -/
def alternativesEnds : List String := patternEnds ++ ["||", "|="]

/-- Operators that a glance looks for behind an expression. -/
def expressionEnds : List String :=
  alternativesEnds ++ [">", "+=", "-=", "*=", "/=", "%=", "^=", "&=", ">>=", "&&", "<<", ">>", "==",
    ">=", "=>", "->", "..=", "..."]

/-! ### What a construct looks like from before -/

/-- A bound looks from before as it did. Behind its first word it may be written in another way. -/
structure SameBound (tokens again : List Token) : Prop where
  alike : Alike false tokens again
  isOp_colons : isOp "::" again = isOp "::" tokens

/-- A pattern looks from before as it did, also to a glance for the parameters of a closure. -/
structure SamePattern (tokens again : List Token) : Prop extends Same openers tokens again where
  beginsParameters : beginsParameters again = beginsParameters tokens

/-- An expression looks from before as it did, also to a glance for the call of a macro. -/
structure SameExpression (tokens again : List Token) : Prop extends Same openers tokens again where
  callStatement : callStatement again = callStatement tokens
  beginsBinder : beginsBinder again = beginsBinder tokens
  tryMark : isWord "try" tokens = true →
    isOneOf ["!", "::"] (afterOne again) = isOneOf ["!", "::"] (afterOne tokens)

/-- What follows one colon begins with none, or with two. -/
def FollowsColon (tokens : List Token) : Prop := isOp ":" tokens = true → isOp "::" tokens = true

/-- What a glance finds that does not look for a colon may follow a colon. -/
theorem FollowsColon.of_glance {look : List Token → Bool} {tokens : List Token}
    (h : look tokens = true) (hlook : ∀ spacing others,
      look (.mark ':' spacing :: others) = false) :
    FollowsColon tokens := by
  intro hcolon
  obtain ⟨next, hnext⟩ := Option.isSome_iff_exists.mp hcolon
  obtain ⟨-, spacing, mid, htokens, -⟩ :=
    afterOperator?_cons_eq_some.mp (show afterOperator? [':'] tokens = some next from hnext)
  rw [htokens, hlook] at h
  contradiction

theorem FollowsColon.word (text : String) (rest : List Token) : FollowsColon (.word text :: rest) :=
  .of_glance (show isAnyWord (.word text :: rest) = true from rfl) fun _ _ => rfl

/-- What may be left out in front of what follows a colon may follow a colon. -/
theorem FollowsColon.onlyIf {look : List Token → Bool} {parser : Parser (List Node)}
    {nodes : List Node} {tokens rest : List Token}
    (h : (Parser.onlyIf look parser).Reads tokens nodes rest)
    (hlook : ∀ spacing others, look (.mark ':' spacing :: others) = false)
    (hrest : FollowsColon rest) : FollowsColon tokens := by
  rcases reads_onlyIf.mp h with ⟨hthere, -⟩ | ⟨-, -, rfl⟩
  · exact .of_glance hthere hlook
  · exact hrest

/-- One colon in front of what may follow it is not one of two in front of the inputs of a
function. -/
theorem FollowsColon.isInputTurbofish {colon : Node} {tokens rest : List Token}
    (h : FollowsColon rest) (hcolon : (operator ":").Reads tokens colon rest) :
    isInputTurbofish tokens = false := by
  rw [Bool.eq_false_iff]
  intro hinputs
  obtain ⟨hcolons, hgroup⟩ := Bool.and_eq_true_iff.mp hinputs
  obtain ⟨next, hnext⟩ := Option.isSome_iff_exists.mp hcolons
  obtain ⟨spacing, rfl⟩ := eq_of_colons hnext
  obtain ⟨hop, -⟩ := reads_operator.mp hcolon
  obtain rfl : .mark ':' spacing :: next = rest := Option.some.inj hop
  have hfirst := h rfl
  change isGroup .parenthesis next = true at hgroup
  cases next with
  | nil => contradiction
  | cons token others =>
    cases token with
    | group delimiter body =>
      rw [isOp] at hfirst
      cases spacing with
      | alone => contradiction
      | joint => simp [afterOperator?] at hfirst
    | _ => contradiction

/-! ### Attributes in front -/

/-- Attributes in front of the expression stand in front of all of it. -/
def Node.isLed : Node → Bool
  | .construct .assign attributes [first, _, _] => attributes.isEmpty && first.isLed
  | .construct .binary attributes [first, _, _] => attributes.isEmpty && first.isLed
  | .construct .cast attributes [first, _, _] => attributes.isEmpty && first.isLed
  | .construct _ _ _ => true
  | _ => false

/-- Constructs of an operator and its operands. -/
def operatorKinds : List Kind := [.assign, .binary, .cast]

/-- The construct takes attributes in front. -/
def Node.isOperand : Node → Bool
  | .construct kind _ _ => !operatorKinds.contains kind
  | _ => false

theorem Node.isLed_of_isOperand {node : Node} (h : node.isOperand = true) : node.isLed = true := by
  unfold Node.isLed
  split
  · contradiction
  · contradiction
  · contradiction
  · rfl
  · rename_i hnot
    cases node with
    | construct kind attributes children => exact absurd rfl (hnot kind attributes children)
    | _ => contradiction

/-! ### Runs of the sorts -/

/-- A type is read again. -/
abbrev TypeRun (level : ℕ) (parser : Sorts → Parser Node) (tokens : List Token) (node : Node)
    (rest : List Token) : Prop :=
  Run level parser (Same typeEnds rest) (Same openers tokens) tokens node rest node.leaves

/-- A bound is read again. -/
abbrev BoundRun (level : ℕ) (parser : Sorts → Parser Node) (tokens : List Token) (node : Node)
    (rest : List Token) : Prop :=
  Run level parser (Same typeEnds rest) (SameBound tokens) tokens node rest node.leaves

/-- A pattern is read again, and attributes may be put in front of it. -/
structure PatternRun (level : ℕ) (parser : Sorts → Parser Node) (tokens : List Token) (node : Node)
    (rest : List Token) : Prop where
  run : Run level parser (Same patternEnds rest) (SamePattern tokens) tokens node rest node.leaves
  isLed : node.isLed = true

/-- An expression is read again, and attributes may be put in front of it. -/
structure ExpressionRun (level : ℕ) (parser : Sorts → Parser Node) (tokens : List Token)
    (node : Node) (rest : List Token) : Prop where
  run : Run level parser (Same expressionEnds rest) (SameExpression tokens) tokens node rest
    node.leaves
  isLed : node.isLed = true
  leaves_ne : node.leaves ≠ []

/-- A construct that stands as a statement by itself begins here. -/
def beginsBlock (tokens : List Token) : Bool :=
  isAnyOf ["if", "while", "loop", "match", "unsafe"] tokens ||
    (isWord "for" tokens && !beginsBinder tokens) || beginsTryBlock tokens ||
    (isWord "const" tokens && isGroup .brace (afterOne tokens)) || isGroup .brace tokens ||
    isLifetime tokens

/-- An expression without operators around it is read again, and takes attributes in front. -/
structure AtomRun (operators : List String) (level : ℕ) (parser : Sorts → Parser Node)
    (tokens : List Token) (node : Node) (rest : List Token) : Prop where
  run : Run level parser (Same operators rest) (SameExpression tokens) tokens node rest node.leaves
  isOperand : node.isOperand = true
  leaves_ne : node.leaves ≠ []
  /-- Behind attributes, what stands as a statement by itself is seen from its first tokens. -/
  beginsBlock : isOp "#" tokens = false → node.isBlockLike = true → beginsBlock tokens = true

theorem AtomRun.raise {operators : List String} {lower level : ℕ} {parser : Sorts → Parser Node}
    {tokens : List Token} {node : Node} {rest : List Token}
    (h : AtomRun operators lower parser tokens node rest) (hlevel : lower ≤ level) :
    AtomRun operators level parser tokens node rest :=
  ⟨h.run.raise hlevel, h.isOperand, h.leaves_ne, h.beginsBlock⟩

/-- An expression without operators around it is an expression. -/
theorem AtomRun.expression {level : ℕ} {parser : Sorts → Parser Node} {tokens : List Token}
    {node : Node} {rest : List Token} (h : AtomRun expressionEnds level parser tokens node rest) :
    ExpressionRun level parser tokens node rest :=
  ⟨h.run, Node.isLed_of_isOperand h.isOperand, h.leaves_ne⟩

/-- Operators and their operands after a first operand are read again. Either there are none, or
they take tokens. -/
structure OperatorsRun (level : ℕ) (parser : Sorts → Parser Node) (first : Node)
    (tokens : List Token) (node : Node) (rest printed : List Token) : Prop where
  run : Run level parser (Same expressionEnds rest) (Same expressionEnds tokens) tokens node rest
    printed
  isExplicit : first.isExplicit = true
  isLed : first.isLed = true → node.isLed = true
  leaves : node.leaves = first.leaves ++ printed
  none : printed = [] → node = first ∧ rest = tokens
  some : printed ≠ [] → rest.length < tokens.length ∧ node.isBlockLike = false

section Choices

variable {level : ℕ} {sorts : Sorts} {operators : List String} {tokens rest : List Token}
  {node : Node} {condition : Prop} [Decidable condition] {first second : Sorts → Parser Node}

/-- Of a choice of patterns, the side that was taken is read again. -/
theorem PatternRun.ite (h : (if condition then first sorts else second sorts).Reads tokens
    node rest) (hfirst : condition → (first sorts).Reads tokens node rest →
      PatternRun level first tokens node rest)
    (hsecond : ¬condition → (second sorts).Reads tokens node rest →
      PatternRun level second tokens node rest) :
    PatternRun level (fun sorts => if condition then first sorts else second sorts) tokens node
      rest := by
  rcases reads_ite.mp h with ⟨hcondition, h⟩ | ⟨hnot, h⟩
  · simp only [if_pos hcondition]
    exact hfirst hcondition h
  · simp only [if_neg hnot]
    exact hsecond hnot h

/-- Of a choice of atoms, the side that was taken is read again. -/
theorem AtomRun.ite
    (h : (if condition then first sorts else second sorts).Reads tokens node rest)
    (hfirst : condition → (first sorts).Reads tokens node rest →
      AtomRun operators level first tokens node rest)
    (hsecond : ¬condition → (second sorts).Reads tokens node rest →
      AtomRun operators level second tokens node rest) :
    AtomRun operators level (fun sorts => if condition then first sorts else second sorts)
      tokens node rest := by
  rcases reads_ite.mp h with ⟨hcondition, h⟩ | ⟨hnot, h⟩
  · simp only [if_pos hcondition]
    exact hfirst hcondition h
  · simp only [if_neg hnot]
    exact hsecond hnot h

end Choices

/-- The sorts read again what is printed of what they have read. -/
structure Sorts.Replays (sorts : Sorts) : Prop where
  type : ∀ {plus tokens node rest}, (sorts.type plus).Reads tokens node rest →
    node.isExplicit = true → TypeRun 2 (fun sorts => sorts.type plus) tokens node rest
  type_begins : ∀ {plus tokens node rest}, (sorts.type plus).Reads tokens node rest →
    FollowsColon tokens
  /-- A type that begins with a lifetime goes on with a plus. -/
  type_lifetime : ∀ {plus tokens node rest}, (sorts.type plus).Reads tokens node rest →
    isLifetime tokens = true → isOp ":" (afterOne tokens) = false
  type_wild : ∀ {plus tokens node rest}, (sorts.type plus).Reads tokens node rest →
    isWord "_" tokens = true → rest = afterOne tokens
  /-- A relaxed bound in parentheses stands for a type by itself, too. -/
  type_enclosed : ∀ {plus tokens children rest}, (sorts.type plus).Reads tokens
      (.branch .traitObject [.branch .traitBound [.group .parenthesis children]]) rest →
    (∀ node ∈ children, node.isExplicit = true) →
      ∃ body, tokens = .group .parenthesis body :: rest ∧
      isOp "?" body = true ∧ Run 8 (fun sorts => traitParts sorts ⟨false, false⟩) (· = [])
        (SameBound body) body (false, children) [] (children.flatMap Node.leaves)
  bound : ∀ {rules tokens node rest}, (sorts.bound rules).Reads tokens node rest →
    node.isExplicit = true → BoundRun 1 (fun sorts => sorts.bound rules) tokens node rest
  bound_begins : ∀ {rules tokens node rest}, (sorts.bound rules).Reads tokens node rest →
    FollowsColon tokens
  /-- A lifetime is a bound, but no trait. -/
  bound_lifetime : ∀ {rules tokens node rest}, (sorts.bound rules).Reads tokens node rest →
    isLifetime tokens = true → rest = afterOne tokens ∧ node.isKind .traitBound = false
  operand : ∀ {structs tokens node rest}, (sorts.operand structs).Reads tokens node rest →
    node.isExplicit = true →
      AtomRun expressionEnds 1 (fun sorts => sorts.operand structs) tokens node rest
  operand_begins : ∀ {structs tokens node rest}, (sorts.operand structs).Reads tokens node rest →
    FollowsColon tokens
  /-- No operand begins with an angle that closes. -/
  operand_angle : ∀ {structs tokens node rest}, (sorts.operand structs).Reads tokens node rest →
    isOp ">" tokens = false
  /-- An operand begins with a number sign only if an attribute does. -/
  operand_pound : ∀ {structs tokens node rest}, (sorts.operand structs).Reads tokens node rest →
    isOp "#" tokens = true → isGroup .bracket (afterOne tokens) = true
  operators : ∀ {structs least first tokens node rest},
    (sorts.operators structs least first).Reads tokens node rest → node.isExplicit = true →
      ∃ printed, OperatorsRun 1 (fun sorts => sorts.operators structs least first) first tokens node
        rest printed
  bodyExpression : ∀ {tokens node rest}, sorts.bodyExpression.Reads tokens node rest →
    node.isExplicit = true → ExpressionRun 2 (fun sorts => sorts.bodyExpression) tokens node rest
  /-- A block ends where it ends, whatever operator stands behind it. -/
  bodyExpression_ends : ∀ {tokens node rest}, sorts.bodyExpression.Reads tokens node rest →
    node.isExplicit = true → node.isBlockLike = true → ∀ {operators}, ".." ∈ operators →
      Run 2 (fun sorts => sorts.bodyExpression) (Same operators rest) (SameExpression tokens) tokens
        node rest node.leaves
  pattern : ∀ {tokens node rest}, sorts.pattern.Reads tokens node rest →
    node.isExplicit = true → PatternRun 1 (fun sorts => sorts.pattern) tokens node rest
  pattern_begins : ∀ {tokens node rest}, sorts.pattern.Reads tokens node rest →
    FollowsColon tokens
  statements : ∀ {tokens nodes}, sorts.statements.Reads tokens nodes [] →
    (∀ node ∈ nodes, node.isExplicit = true) →
      Run 3 (fun sorts => sorts.statements) (· = []) (Same openers tokens) tokens nodes []
        (nodes.flatMap Node.leaves)
  /-- No item is explicit. -/
  item : ∀ {attributes start tokens node rest},
    (sorts.item attributes start).Reads tokens node rest → node.isExplicit = false

namespace Sorts.Replays

variable {sorts : Sorts} {tokens rest : List Token} {node : Node}

/-- An operand and the operators behind it are read again. -/
theorem expressionWhere (hsorts : sorts.Replays) {structs : Bool}
    (h : (sorts.expressionWhere structs).Reads tokens node rest) (hnode : node.isExplicit = true) :
    ExpressionRun 1 (fun sorts => sorts.expressionWhere structs) tokens node rest := by
  obtain ⟨first, mid, hfirst, hoperators⟩ := reads_bind.mp h
  obtain ⟨printed, hrun⟩ := hsorts.operators hoperators hnode
  have hoperand := hsorts.operand hfirst hrun.isExplicit
  have hall := hoperand.run.bind _ hrun.run
  refine ⟨hall.cast hrun.leaves.symm, hrun.isLed hoperand.expression.isLed, ?_⟩
  rw [hrun.leaves]
  exact List.append_ne_nil_of_left_ne_nil hoperand.leaves_ne _

end Sorts.Replays

end Typestate.Grammar
