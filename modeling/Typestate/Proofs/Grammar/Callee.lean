import Typestate.Proofs.Grammar.Call
import Typestate.Proofs.Grammar.Remainder

/-!
# What a call calls

Where an expression that begins with a path is read as a name or as the call of one, the path has
been read as it stands in an expression: arguments of its segments have two colons in front. In a
type they may stand behind a name at once.
-/

namespace Typestate.Grammar

open Grammar.Parser Token

namespace Parser

variable {A B : Type} {P : A → Prop}

/-- Whatever the parser finds has the property. -/
def Gives (P : A → Prop) (parser : Parser A) : Prop :=
  ∀ ⦃tokens found⦄, parser tokens = .ok found → P found.value

namespace Gives

theorem pure {value : A} (h : P value) : Gives P (Pure.pure value : Parser A) := by
  intro tokens found hfound
  obtain rfl := Except.ok.inj hfound
  exact h

theorem bind {Q : B → Prop} {parser : Parser B} {next : B → Parser A} (hparser : Gives Q parser)
    (hnext : ∀ value, Q value → Gives P (next value)) : Gives P (parser >>= next) := by
  intro tokens found hfound
  obtain ⟨first, more, hfirst, hmore, rfl⟩ := bind_eq_ok.mp hfound
  have hvalue : P more.value := hnext first.value (hparser hfirst) hmore
  exact hvalue

/-- Whatever comes first, what comes next gives the result. -/
theorem after {parser : Parser B} {next : B → Parser A} (hnext : ∀ value, Gives P (next value)) :
    Gives P (parser >>= next) := by
  intro tokens found hfound
  obtain ⟨first, more, -, hmore, rfl⟩ := bind_eq_ok.mp hfound
  have hvalue : P more.value := hnext first.value hmore
  exact hvalue

theorem choose {condition : Prop} [Decidable condition] {first second : Parser A}
    (hfirst : Gives P first) (hsecond : Gives P second) :
    Gives P (if condition then first else second) := by
  split
  · exact hfirst
  · exact hsecond

theorem fail : Gives P (Parser.fail : Parser A) := by
  intro tokens found hfound
  contradiction

theorem refuse (reason : String) : Gives P (Parser.refuse reason : Parser A) := by
  intro tokens found hfound
  contradiction

/-- What is kept as it was read. -/
theorem keepFrom {P : Node → Prop} {start : List Token} (h : ∀ tokens, P (.verbatim tokens)) :
    Gives P (Parser.keepFrom start) := by
  intro tokens found hfound
  obtain rfl := Except.ok.inj hfound
  exact h _

/-- All that is found one after another has the property that each has. -/
theorem repeatAtMost {look : List Token → Bool} {parser : Parser (List A)}
    (hparser : Gives (∀ value ∈ ·, P value) parser) (rounds : ℕ) :
    Gives (∀ value ∈ ·, P value) (Parser.repeatAtMost look parser rounds) := by
  induction rounds with
  | zero => exact fail
  | succ rounds ih =>
    refine after fun tokens => choose ?_ (pure nofun)
    exact bind hparser fun first hfirst => bind ih fun others hothers =>
      pure (List.forall_mem_append.mpr ⟨hfirst, hothers⟩)

end Gives

end Parser

/-! ### Segments that are read -/

/-- A segment as it can be read: a name by itself, or a name and its arguments, which have two
colons in front in an expression. -/
inductive Segment.IsRead (inExpression : Bool) : Segment → Prop
  | name {name : String} (hname : Segment.IsSound ⟨name, none⟩) : IsRead inExpression ⟨name, none⟩
  | arguments {name : String} (hname : name = "Self" ∨ Word.isIdentifier name = true)
    {colons : Bool} (hcolons : inExpression = true → colons = true) (inner : List Node) :
    IsRead inExpression ⟨name, some (argumentNode colons inner)⟩

section Paths

variable {sorts : Sorts} {inExpression : Bool}

/-- An operator that is read is that operator. -/
theorem gives_operator (text : String) : Gives (· = .operator text) (operator text) := by
  intro tokens found h
  unfold operator at h
  split at h
  · obtain rfl := Except.ok.inj h
    rfl
  · contradiction

theorem gives_angled {separator : Parser Node} {parser : Parser (Bool × Node)} :
    Gives (fun nodes => ∃ inner, nodes = .operator "<" :: inner ++ [.operator ">"])
      (angled separator parser) := by
  refine .bind (gives_operator "<") fun opening hopening => .after fun tokens =>
    .after fun arguments => .bind (gives_operator ">") fun closing hclosing => .pure ?_
  rw [hopening, hclosing]
  exact ⟨_, rfl⟩

/-- Generic arguments stand in angles, behind two colons if these are there. -/
theorem genericArguments_eq_ok {tokens : List Token} {found : Found Node}
    (h : genericArguments sorts tokens = .ok found) :
    ∃ inner, found.value = argumentNode (isOp "::" tokens) inner := by
  obtain ⟨colons, more, hcolons, hmore, rfl⟩ := bind_eq_ok.mp h
  obtain ⟨arguments, last, harguments, hlast, rfl⟩ := bind_eq_ok.mp hmore
  obtain ⟨inner, hinner⟩ := gives_angled harguments
  have hfront : colons.value = if isOp "::" tokens then [.operator "::"] else [] := by
    unfold operator? onlyIf at hcolons
    split at hcolons
    · rename_i hlook
      have hone : Gives (· = [.operator "::"]) (one (operator "::")) :=
        .bind (gives_operator "::") fun node hnode => .pure (by rw [hnode])
      rw [if_pos hlook]
      exact hone hcolons
    · rename_i hlook
      rw [if_neg hlook, ← Except.ok.inj hcolons]
  refine ⟨inner, ?_⟩
  rw [← Except.ok.inj hlast, hfront, hinner]
  rfl

/-- An identifier is read. -/
theorem gives_identifier : Gives (Word.isIdentifier · = true) identifier := by
  intro tokens found h
  unfold identifier at h
  split at h
  · split at h
    · rename_i hidentifier
      rw [← Except.ok.inj h]
      exact hidentifier
    · contradiction
  · contradiction

/-- Behind a name, arguments are read or none. -/
theorem gives_arguments {name : String} (hname : name = "Self" ∨ Word.isIdentifier name = true) :
    Gives (Segment.IsRead inExpression) (do
      let after ← ahead
      if (!inExpression && isOp "<" after && !isOp "<=" after && !isOp "<<=" after) ||
          isTurbofish after then
        return ⟨name, some (← genericArguments sorts)⟩
      else return ⟨name, none⟩) := by
  intro tokens found h
  rw [ahead_bind] at h
  split at h
  · rename_i hlook
    obtain ⟨arguments, last, harguments, hlast, rfl⟩ := bind_eq_ok.mp h
    obtain ⟨inner, hinner⟩ := genericArguments_eq_ok harguments
    rw [← Except.ok.inj hlast, hinner]
    refine .arguments hname (fun hexpression => ?_) inner
    rw [hexpression, Bool.not_true, Bool.false_and, Bool.false_and, Bool.false_and,
      Bool.false_or, isTurbofish, Bool.and_eq_true] at hlook
    exact hlook.1
  · rw [← Except.ok.inj h]
    exact .name (.inr hname)

/-- A name and its arguments, if it has some. -/
theorem gives_segment : Gives (Segment.IsRead inExpression) (segment sorts inExpression) := by
  intro tokens found h
  rw [segment, ahead_bind] at h
  split at h
  · rename_i hplace
    obtain ⟨name, more, hname, hmore, rfl⟩ := bind_eq_ok.mp h
    obtain ⟨word, hword, hfound⟩ := List.any_eq_true.mp hplace
    rw [anyWord_eq_ok hname, isWord_word, beq_iff_eq] at hfound
    rw [← Except.ok.inj hmore]
    exact .name (.inl ⟨hfound ▸ hword, rfl⟩)
  · split at h
    · rename_i hself
      obtain ⟨name, more, hname, hmore, rfl⟩ := bind_eq_ok.mp h
      rw [anyWord_eq_ok hname, isWord_word, beq_iff_eq] at hself
      have hread := gives_arguments (.inl hself) hmore
      exact hread
    · exact Gives.bind gives_identifier (fun name hname => gives_arguments (.inr hname)) h

/-- The segments of a path that is read. -/
theorem gives_pathWhere : Gives (fun found : Path => ∀ segment ∈ found.segments,
    Segment.IsRead inExpression segment) (pathWhere sorts inExpression) := by
  have hmore : Gives (∀ segment ∈ ·, Segment.IsRead inExpression segment)
      (moreSegments sorts inExpression) :=
    .after fun tokens => .repeatAtMost (.after fun colons => .bind gives_segment
      fun segment hsegment => .pure (List.forall_mem_singleton.mpr hsegment)) _
  exact .after fun leading => .bind gives_segment fun first hfirst => .bind hmore
    fun others hothers => .pure (List.forall_mem_cons.mpr ⟨hfirst, hothers⟩)

end Paths

/-! ### Paths as trees -/

/-- A segment is known from its tree. -/
theorem Segment.node_injective : Function.Injective Segment.node := by
  rintro ⟨name, arguments⟩ ⟨otherName, otherArguments⟩ h
  simp only [Segment.node, Node.branch, Node.construct.injEq, List.cons.injEq, Node.word.injEq,
    true_and] at h
  obtain ⟨rfl, harguments⟩ := h
  have hsame := congrArg List.head? harguments
  rw [Option.head?_toList, Option.head?_toList] at hsame
  rw [hsame]

/-- The parts are known from what stands with separators between them. -/
theorem intersperse_injective {A : Type} (between : A) :
    Function.Injective (List.intersperse between) := by
  intro first second h
  refine List.ext_getElem? fun i => ?_
  have hplaces : (first.intersperse between)[2 * i]? = (second.intersperse between)[2 * i]? := by
    rw [h]
  rwa [List.getElem?_intersperse_two_mul, List.getElem?_intersperse_two_mul] at hplaces

/-- Segments are not mistaken for two colons in front. -/
theorem intersperse_segments_ne (segments : List Segment) (others : List Node) :
    (segments.map Segment.node).intersperse (.operator "::") ≠ .operator "::" :: others := by
  intro h
  have hfirst : ((segments.map Segment.node).intersperse (.operator "::"))[2 * 0]? =
      some (.operator "::") := by
    rw [h]
    rfl
  rw [List.getElem?_intersperse_two_mul, List.getElem?_map] at hfirst
  obtain ⟨segment, -, hsegment⟩ := Option.map_eq_some_iff.mp hfirst
  exact Node.noConfusion hsegment

/-- A path is known from its tree. -/
theorem Path.node_injective : Function.Injective Path.node := by
  rintro ⟨leading, segments⟩ ⟨otherLeading, otherSegments⟩ h
  simp only [Path.node, Node.branch, Node.construct.injEq, true_and] at h
  have hsame : leading = otherLeading := by
    cases leading <;> cases otherLeading
    · rfl
    · exact absurd h (intersperse_segments_ne segments _)
    · exact absurd h.symm (intersperse_segments_ne otherSegments _)
    · rfl
  subst hsame
  have hsegments := intersperse_injective _ (List.append_cancel_left h)
  rw [Segment.node_injective.list_map hsegments]

/-! ### What is called -/

/-- The path of a tree that is a name. -/
def Node.name? : Node → Option Node
  | .branch .name [path] => some path
  | _ => none

/-- The path of a tree that is a name or the call of one. -/
def Node.callee? : Node → Option Node
  | .branch .call [function, _] => function.name?
  | node => node.name?

/-- What is named or called by the tree is a path that can be read in an expression. -/
def Node.CallsRead (node : Node) : Prop :=
  ∀ path, node.callee? = some path → ∃ found : Path, path = found.node ∧
    ∀ segment ∈ found.segments, Segment.IsRead true segment

section Calls

variable {sorts : Sorts} {structs : Bool}

theorem Node.callsRead_of_none {node : Node} (h : node.callee? = none) : node.CallsRead := by
  intro path hpath
  rw [h] at hpath
  contradiction

theorem gives_uncalled {node : Node} (h : node.callee? = none) :
    Gives Node.CallsRead (pure node : Parser Node) :=
  .pure (Node.callsRead_of_none h)

/-- What is called by its name has that name. -/
theorem Node.CallsRead.call {base : Node} (h : base.CallsRead) (arguments : Node) :
    (Node.branch .call [base, arguments]).CallsRead := by
  intro path hpath
  refine h path ?_
  change base.name? = some path at hpath
  unfold Node.name? at hpath
  split at hpath
  · exact hpath
  · contradiction

/-- A field of a field is nothing that is called by its name. -/
theorem callsRead_indexFields {base : Node} (h : base.CallsRead) (indexes : List ℕ) :
    (indexFields base indexes).CallsRead := by
  induction indexes generalizing base with
  | nil => exact h
  | cons index others ih => exact ih (Node.callsRead_of_none rfl)

theorem gives_afterDot (base : Node) : Gives Node.CallsRead (afterDot sorts base) := by
  refine .after fun tokens => .choose (.after fun word => gives_uncalled rfl) ?_
  refine .after fun member => .after fun turbofish => .after fun tokens => ?_
  exact .choose (.after fun arguments => gives_uncalled rfl) (gives_uncalled rfl)

theorem gives_dotted {base : Node} (h : base.CallsRead) :
    Gives Node.CallsRead (dotted sorts base) := by
  refine .after fun dot => .after fun indexes => .choose (gives_afterDot _) (.pure ?_)
  exact callsRead_indexFields h indexes.1

/-- Whatever is applied to a tree, a function that is called by its name has been read. -/
theorem gives_appliedAtMost {base : Node} (h : base.CallsRead) (rounds : ℕ) :
    Gives Node.CallsRead (appliedAtMost sorts base rounds) := by
  induction rounds generalizing base with
  | zero => exact .fail
  | succ rounds ih =>
    refine .after fun tokens => .choose (.after fun arguments => ih (h.call arguments)) ?_
    refine .choose (.bind (gives_dotted h) fun node hnode => ih hnode) ?_
    refine .choose (.after fun inside => ih (Node.callsRead_of_none rfl)) ?_
    exact .choose (.after fun mark => ih (Node.callsRead_of_none rfl)) (.pure h)

/-- An operator makes a tree that calls no function by its name. -/
theorem gives_castOf (operand : Node) : Gives Node.CallsRead (castOf sorts operand) := by
  refine .after fun word => .after fun type => .after fun tokens => ?_
  cases appliedToCast? tokens with
  | none => exact gives_uncalled rfl
  | some reason => exact .refuse _

theorem gives_rangeAfter (first : Node) : Gives Node.CallsRead (rangeAfter sorts structs first) :=
  .after fun _ => .after fun _ => gives_uncalled rfl

theorem gives_operatorsAtMost {least : Precedence} {first : Node} (h : first.CallsRead)
    (rounds : ℕ) : Gives Node.CallsRead (operatorsAtMost sorts structs least first rounds) := by
  induction rounds generalizing first with
  | zero => exact .fail
  | succ rounds ih =>
    refine .after fun tokens => .choose (.pure h) ?_
    cases binaryOperator? tokens with
    | some found =>
      refine .choose (.pure h) (.choose (.refuse _) ?_)
      exact .after fun sign => .after fun second => ih (Node.callsRead_of_none rfl)
    | none =>
      refine .choose (.after fun equals => .after fun second => ih (Node.callsRead_of_none rfl)) ?_
      refine .choose (.bind (gives_rangeAfter first) fun range hrange => ih hrange) ?_
      exact .choose (.bind (gives_castOf first) fun cast hcast => ih hcast) (.pure h)

/-- What begins with a path is no qualified path. -/
theorem gives_namedExpression {tokens : List Token} {found : Found Node}
    (hbegins : BeginsName tokens)
    (h : namedExpression sorts structs tokens = .ok found) : found.value.CallsRead := by
  obtain ⟨path, more, hpath, hmore, rfl⟩ := bind_eq_ok.mp h
  have hplain : ∃ plain : Path, path.value = .plain plain ∧
      ∀ segment ∈ plain.segments, Segment.IsRead true segment := by
    rw [anyPath, ahead_bind, choose_of_false hbegins.looks.1] at hpath
    obtain ⟨plain, last, hplain, hlast, rfl⟩ := bind_eq_ok.mp hpath
    exact ⟨plain.value, (congrArg Found.value (Except.ok.inj hlast)).symm, gives_pathWhere hplain⟩
  obtain ⟨plain, hvalue, hsegments⟩ := hplain
  have hname : (Node.branch .name [path.value.node]).CallsRead := by
    intro called hcalled
    obtain rfl := Option.some.inj hcalled
    exact ⟨plain, by rw [hvalue]; rfl, hsegments⟩
  have hrest : more.value.CallsRead := by
    refine (?_ : Gives Node.CallsRead _) hmore
    refine .after fun rest => .choose (.after fun body => gives_uncalled rfl) ?_
    exact .choose (.after fun body => gives_uncalled rfl) (.pure hname)
  exact hrest

/-- What is applied to a path leads to calls of that path. -/
theorem gives_operandWhere {tokens : List Token} {found : Found Node} (hbegins : BeginsName tokens)
    (h : operandWhere sorts structs tokens = .ok found) : found.value.CallsRead := by
  obtain ⟨-, hattribute, hmark, hsigns⟩ := hbegins.looks
  rw [operandWhere_eq hattribute hmark hsigns] at h
  obtain ⟨base, more, hatom, hmore, rfl⟩ := bind_eq_ok.mp h
  rw [atom_of_beginsName hbegins] at hatom
  have hbase := gives_namedExpression hbegins hatom
  have hrest : more.value.CallsRead := by
    refine (?_ : Gives Node.CallsRead _) hmore
    refine .bind (.after fun rest => gives_appliedAtMost hbase _) fun node hnode => ?_
    refine .choose ?_ (.choose (.refuse _) (.pure ?_))
    · exact .keepFrom fun _ => Node.callsRead_of_none rfl
    · rwa [withAttributes_nil]
  exact hrest

/-- An expression that begins with a path calls by its name only what can be read. -/
theorem gives_expressionWhere {tokens : List Token} {found : Found Node}
    (hbegins : BeginsName tokens)
    (h : sorts.deeper.expressionWhere structs tokens = .ok found) : found.value.CallsRead := by
  obtain ⟨first, more, hfirst, hmore, rfl⟩ := bind_eq_ok.mp h
  have hrest : more.value.CallsRead :=
    Gives.after (fun rest => gives_operatorsAtMost (gives_operandWhere hbegins hfirst) _) hmore
  exact hrest

end Calls

/-! ### Arguments as in a type -/

/-- An angle stands right behind the name of the segment, as in a type. -/
def Segment.isTypeStyle (segment : Segment) : Bool := isOp "<" segment.tokens.tail

/-- Arguments with two colons in front are no arguments as in a type. -/
theorem Segment.isTypeStyle_arguments (name : String) (colons : Bool) (inner : List Node) :
    Segment.isTypeStyle ⟨name, some (argumentNode colons inner)⟩ = !colons := by
  have htokens : (Segment.tokens ⟨name, some (argumentNode colons inner)⟩).tail =
      (argumentNode colons inner).tokens := List.flatMap_singleton ..
  rw [Segment.isTypeStyle, htokens, tokens_argumentNode]
  cases colons with
  | true => rfl
  | false => rfl

/-- No segment that is read in an expression has its arguments as in a type. -/
theorem Segment.IsRead.isTypeStyle_eq {segment : Segment} (h : segment.IsRead true) :
    segment.isTypeStyle = false := by
  cases h with
  | name hname => rfl
  | arguments hname hcolons inner =>
    rw [isTypeStyle_arguments, hcolons rfl]
    rfl

/-- Where tokens that begin with a path are read as the call of a function by its name, no segment
of the name has its arguments as in a type. -/
theorem isTypeStyle_of_readTokens? {tokens : List Token} {callee : Path} {arguments : List Node}
    (hbegins : BeginsName tokens)
    (h : readTokens? Sorts.expression tokens = some (callNode callee arguments)) :
    ∀ segment ∈ callee.segments, segment.isTypeStyle = false := by
  obtain ⟨found, hfound, hvalue⟩ := all_eq_ok (toOption_eq_some.mp h)
  rw [Sorts.for, Sorts.deepened_succ] at hfound
  have hcalls := gives_expressionWhere hbegins hfound
  rw [hvalue] at hcalls
  obtain ⟨path, hpath, hsegments⟩ := hcalls callee.node rfl
  rw [Path.node_injective hpath]
  exact fun segment hsegment => (hsegments segment hsegment).isTypeStyle_eq

end Typestate.Grammar
