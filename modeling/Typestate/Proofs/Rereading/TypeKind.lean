import Typestate.Proofs.Grammar.Callee
import Typestate.Proofs.Rereading.Type

/-!
# Kinds of types

What a type begins with decides its kind. A relaxed bound by itself is a type in parentheses only,
and it is read again without them.
-/

namespace Typestate.Grammar

open Grammar.Parser Lexer Token

/-- The tree is the call of a macro in place of a type. -/
def Node.isTypeCall : Node → Bool
  | .construct .callType _ [_, _, _] => true
  | _ => false

/-- The type is neither the call of a macro nor a trait object. -/
def Node.isOtherType (node : Node) : Bool :=
  node.kind? != some .callType && node.kind? != some .traitObject

section TypeKinds

variable {level : ℕ} {sorts : Sorts} {tokens rest : List Token} {node : Node} {plus : Bool}
  {parameters children : List Node}

/-! ### Types of the other kinds -/

theorem gives_inside {A : Type} {P : A → Prop} {delimiter : Delimiter} {parser : Parser A}
    (h : Gives P parser) : Gives P (inside delimiter parser) := by
  intro tokens found hfound
  obtain ⟨body, inner, -, hinner, hvalue⟩ := inside_eq_ok hfound
  have hgives := h hinner
  rwa [hvalue]

theorem gives_expected {A : Type} {P : A → Prop} (choices : List String) :
    Gives P (Parser.expected choices : Parser A) := by
  intro tokens found hfound
  contradiction

theorem gives_functionType : Gives (Node.isOtherType · = true) (functionType sorts parameters) :=
  .after fun _ => .after fun _ => .after fun _ => .after fun _ => .after fun _ => .pure rfl

theorem gives_builtin (start : List Token) : Gives (Node.isOtherType · = true) (builtin start) :=
  .after fun _ => .after fun _ => .after fun _ => .after fun _ => .keepFrom fun _ => rfl

theorem gives_bracketedType : Gives (Node.isOtherType · = true) (bracketedType sorts) :=
  gives_inside <| .after fun _ => .after fun _ =>
    .choose (.after fun _ => .after fun _ => .pure rfl) (.pure rfl)

theorem gives_pointerType : Gives (Node.isOtherType · = true) (pointerType sorts) :=
  .after fun _ => .after fun _ => .choose (.after fun _ => .after fun _ => .pure rfl) <|
    .choose (.after fun _ => .after fun _ => .pure rfl) (.after fun _ => .after fun _ => .pure rfl)

theorem gives_referenceType : Gives (Node.isOtherType · = true) (referenceType sorts) :=
  .after fun _ => .after fun _ => .after fun _ => .after fun _ => .pure rfl

theorem gives_neverType : Gives (Node.isOtherType · = true)
    (do return .branch .neverType [← operator "!"]) :=
  .after fun _ => .pure rfl

theorem gives_implType : Gives (Node.isOtherType · = true) (implType sorts plus) :=
  .after fun _ => .after fun _ => .choose (.pure rfl) (.refuse _)

theorem gives_inferredType : Gives (Node.isOtherType · = true)
    (do return .branch .inferredType [← keyword "_"]) :=
  .after fun _ => .pure rfl

/-- A type of another kind is not the call of a macro. -/
theorem not_call_of_other {parser : Parser Node} (h : Gives (Node.isOtherType · = true) parser) :
    Gives (Node.isTypeCall · = false) parser := by
  intro tokens found hfound
  have hother := h hfound
  cases hnode : found.value with
  | construct kind attributes children =>
    rw [hnode] at hother
    cases kind with
    | callType => contradiction
    | _ => rfl
  | _ => rfl

/-! ### Trait objects in parentheses -/

/-- A bound in parentheses that is a trait object by itself. -/
def enclosedObject (children : List Node) : Node :=
  .branch .traitObject [.branch .traitBound [.group .parenthesis children]]

/-- A construct is of one kind. -/
theorem eq_of_branch {kind kind' : Kind} {nodes nodes' : List Node}
    (h : (pure (Node.branch kind nodes) : Parser Node).Reads tokens (.branch kind' nodes') rest) :
    kind = kind' ∧ nodes = nodes' := by
  obtain ⟨rfl, -, rfl⟩ := Node.construct.inj (reads_pure.mp h).1
  exact ⟨rfl, rfl⟩

/-- Of the constructs behind a path, none is a relaxed bound in parentheses by itself. -/
theorem not_afterPath {found : AnyPath} :
    ¬ (afterPath plus parameters sorts found).Reads tokens (enclosedObject children) rest := by
  intro h
  cases found with
  | qualified found => cases (eq_of_branch h).1
  | plain found =>
    rcases reads_ite.mp (reads_ahead.mp h) with ⟨-, h⟩ | ⟨-, h⟩
    · obtain ⟨body, mid, -, hpure⟩ := reads_bind.mp h
      cases (eq_of_branch hpure).1
    · rw [reads_ahead, ite_bind] at h
      rcases reads_ite.mp h with ⟨-, h⟩ | ⟨-, hpure⟩
      · obtain ⟨others, mid, -, hpure⟩ := reads_bind.mp h
        have hbound := (List.cons.inj (eq_of_branch hpure).2).1
        have hlast := congrArg List.getLast? (Node.construct.inj hbound).2.2
        rw [List.getLast?_append] at hlast
        exact absurd (Option.some.inj hlast) nofun
      · cases (eq_of_branch hpure).1

/-- An object that says so has its word in front. -/
theorem not_objectType :
    ¬ (objectType sorts plus).Reads tokens (enclosedObject children) rest := by
  intro h
  obtain ⟨word, _, hword, star, _, -, found, _, -, hobject⟩ := by
    simpa only [objectBody, reads_bind] using
      (show (objectBody plus tokens sorts).Reads _ _ _ from reads_ahead.mp h)
  obtain ⟨-, rfl⟩ := reads_keyword.mp hword
  rcases reads_ite.mp hobject with ⟨-, hpure⟩ | ⟨-, hkeep⟩
  · cases (List.cons.inj (eq_of_branch hpure).2).1
  · exact absurd (isVerbatim_of_keepFrom hkeep) Bool.false_ne_true

/-- An object of one bound has that bound in parentheses, and nothing follows it. -/
theorem eq_of_objectFrom {bound : List Node}
    (h : (objectFrom sorts bound).Reads tokens (enclosedObject children) rest) :
    bound = children ∧ isOp "+" tokens = false ∧ tokens = rest := by
  obtain ⟨others, last, hothers, hpure⟩ := reads_bind.mp h
  obtain ⟨heq, rfl⟩ := reads_pure.mp hpure
  obtain ⟨rfl, rfl⟩ : bound = children ∧ others = [] := by
    cases heq
    exact ⟨rfl, rfl⟩
  exact ⟨rfl, more_of_plusBounds hothers, eq_of_plusBounds hothers⟩

/-- In parentheses, an object of one bound in parentheses of its own is a relaxed bound. -/
theorem relaxed_of_parenthesized
    (h : (parenthesizedType sorts plus).Reads tokens (enclosedObject children) rest) :
    ∃ body, tokens = .group .parenthesis body :: rest ∧ isOp "?" body = true ∧
      (traitParts sorts ⟨false, false⟩).Reads body (false, children) [] := by
  rw [parenthesizedType_eq] at h
  obtain ⟨found, left, hinside, hafter⟩ := reads_bind.mp h
  obtain ⟨body, rfl, hbody⟩ := reads_inside.mp hinside
  cases found with
  | whole found =>
    obtain ⟨kind, nodes, rfl, -⟩ := exists_of_whole hbody
    cases (List.cons.inj (eq_of_branch hafter).2).1
  | bound nodes =>
    obtain ⟨rfl, -, rfl⟩ := eq_of_objectFrom hafter
    obtain ⟨hop, hparts⟩ := parts_of_enclosed hbody
    exact ⟨body, rfl, hop, hparts⟩
  | type found =>
    simp only [afterParentheses, ↓reads_ahead] at hafter
    split at hafter
    · -- A type is taken for the first bound of an object only where a plus stands behind it.
      rename_i nodes hseen
      obtain ⟨-, hplus, -⟩ := eq_of_objectFrom hafter
      rw [hplus, Bool.and_false, if_neg Bool.false_ne_true] at hseen
      contradiction
    · cases (eq_of_branch hafter).1

/-- Where no parameters are bound in front, nothing was taken for them. -/
theorem eq_of_no_binder (h : (typeBinder? sorts).Reads tokens [] rest) : tokens = rest := by
  obtain ⟨found, left, hfound, hleft⟩ := reads_bind.mp h
  rcases reads_ite.mp (reads_ahead.mp hleft) with ⟨-, hpure⟩ | ⟨-, hexpected⟩
  · obtain ⟨rfl, rfl⟩ := reads_pure.mp hpure
    rcases reads_onlyIf.mp hfound with ⟨-, hone⟩ | ⟨-, -, heq⟩
    · obtain ⟨node, -, hnil⟩ := reads_one.mp hone
      contradiction
    · exact heq
  · exact absurd hexpected not_reads_expected

/-- A type that is an object of one bound in parentheses stands in parentheses itself. -/
theorem parenthesized_of_typeFrom {start : List Token} (hsorts : sorts.Replays)
    (h : (typeFrom plus start parameters sorts tokens).Reads tokens (enclosedObject children)
      rest) :
    isGroup .parenthesis tokens = true ∧
      (parenthesizedType sorts plus).Reads tokens (enclosedObject children) rest := by
  have hnot : ∀ {parser : Parser Node}, Gives (Node.isOtherType · = true) parser →
      ¬ parser.Reads tokens (enclosedObject children) rest := fun hgives hreads =>
    Bool.false_ne_true (hgives hreads)
  rcases reads_ite.mp h with hthere | ⟨-, h⟩
  · exact hthere
  rcases reads_ite.mp h with ⟨-, h⟩ | ⟨-, h⟩
  · exact absurd h (hnot gives_functionType)
  rcases reads_ite.mp h with ⟨-, h⟩ | ⟨-, h⟩
  · exact absurd h (hnot (gives_builtin start))
  rcases reads_ite.mp h with ⟨-, h⟩ | ⟨-, h⟩
  · rw [namedType_eq] at h
    obtain ⟨found, left, -, h⟩ := reads_bind.mp h
    exact absurd h not_afterPath
  rcases reads_ite.mp h with ⟨-, h⟩ | ⟨-, h⟩
  · exact absurd h not_objectType
  rcases reads_ite.mp h with ⟨-, h⟩ | ⟨-, h⟩
  · exact absurd h (hnot gives_bracketedType)
  rcases reads_ite.mp h with ⟨-, h⟩ | ⟨-, h⟩
  · exact absurd h (hnot gives_pointerType)
  rcases reads_ite.mp h with ⟨-, h⟩ | ⟨-, h⟩
  · exact absurd h (hnot gives_referenceType)
  rcases reads_ite.mp h with ⟨-, h⟩ | ⟨-, h⟩
  · exact absurd h (hnot gives_neverType)
  rcases reads_ite.mp h with ⟨-, h⟩ | ⟨-, h⟩
  · exact absurd h (hnot gives_implType)
  rcases reads_ite.mp h with ⟨-, h⟩ | ⟨-, h⟩
  · exact absurd h (hnot gives_inferredType)
  rcases reads_ite.mp h with ⟨hlifetime, h⟩ | ⟨-, h⟩
  · obtain ⟨found, left, hfound, hpure⟩ := reads_bind.mp h
    obtain ⟨first, others, rfl, hkind⟩ := (plus_of_lifetime hsorts hfound hlifetime).2
    obtain ⟨rfl, -⟩ := List.cons.inj (eq_of_branch hpure).2
    contradiction
  · exact absurd h not_reads_expected

/-- A relaxed bound in parentheses by itself is read again without them. -/
theorem typeWhere_enclosed (hsorts : sorts.Replays)
    (h : (typeWhere sorts plus).Reads tokens (enclosedObject children) rest)
    (hchildren : ∀ node ∈ children, node.isExplicit = true) :
    ∃ body, tokens = .group .parenthesis body :: rest ∧ isOp "?" body = true ∧
      Run 8 (fun sorts => traitParts sorts ⟨false, false⟩) (· = []) (SameBound body) body
        (false, children) [] (children.flatMap Node.leaves) := by
  rw [typeWhere_eq, reads_ahead] at h
  obtain ⟨parameters, mid, hparameters, h⟩ := reads_bind.mp h
  obtain ⟨hgroup, hparentheses⟩ := parenthesized_of_typeFrom hsorts (reads_ahead.mp h)
  obtain rfl : parameters = [] := (followsBinder hparameters).resolve_right fun hnot => by
    rw [hgroup] at hnot
    exact absurd hnot.1 (by decide)
  obtain rfl := eq_of_no_binder hparameters
  obtain ⟨body, htokens, hop, hparts⟩ := relaxed_of_parenthesized hparentheses
  exact ⟨body, htokens, hop, (traitParts_run hsorts hparts hchildren).mono
    (fun _ heq => by rw [heq]; exact .nil _) fun _ => id⟩

end TypeKinds

end Typestate.Grammar
