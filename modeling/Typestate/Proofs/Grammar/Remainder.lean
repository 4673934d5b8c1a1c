import Mathlib.Data.Nat.Notation
import Typestate.Proofs.Grammar.Visibility

/-!
# What a parser leaves

A parser takes what it finds from the front of its tokens: what it leaves is the end of what it is
given. This is an instance for each parser that is written over others, so it is found wherever
parsers are put together. A group is taken whole, so nothing is asked of the parser for its inside.
-/

namespace Typestate.Grammar

namespace Parser

/-- What the parser leaves is the end of what it is given. -/
class TakesFront {A : Type} (parser : Parser A) : Prop where
  rest_suffix : ∀ {tokens : List Token} {found : Found A}, parser tokens = .ok found →
    found.rest <:+ tokens

export TakesFront (rest_suffix)

variable {A B : Type}

/-! ### Steps of a parser -/

instance (value : A) : (pure value : Parser A).TakesFront where
  rest_suffix h := by
    obtain rfl := Except.ok.inj h
    exact List.suffix_rfl

/-- Two parsers one after the other. Where the second one is chosen by the shape of what the first
one finds, the cases are told apart by hand. -/
theorem takesFront_bind {parser : Parser A} {next : A → Parser B} [parser.TakesFront]
    (hnext : ∀ value, (next value).TakesFront) : (parser >>= next).TakesFront where
  rest_suffix h := by
    obtain ⟨first, more, hfirst, hmore, rfl⟩ := bind_eq_ok.mp h
    exact ((hnext first.value).rest_suffix hmore).trans (rest_suffix hfirst)

instance {parser : Parser A} {next : A → Parser B} [parser.TakesFront]
    [∀ value, (next value).TakesFront] : (parser >>= next).TakesFront :=
  takesFront_bind inferInstance

instance {condition : Prop} [Decidable condition] {first second : Parser A} [first.TakesFront]
    [second.TakesFront] : (if condition then first else second).TakesFront where
  rest_suffix h := by
    split at h
    · exact rest_suffix h
    · exact rest_suffix h

instance : (fail : Parser A).TakesFront := ⟨fun h => nomatch h⟩

instance (choices : List String) : (expected choices : Parser A).TakesFront :=
  ⟨fun h => nomatch h⟩

instance (reason : String) : (refuse reason : Parser A).TakesFront := ⟨fun h => nomatch h⟩

instance : ahead.TakesFront where
  rest_suffix h := by
    obtain rfl := Except.ok.inj h
    exact List.suffix_rfl

/-! ### Single tokens -/

/-- An operator is followed by the end of the tokens. -/
theorem suffix_of_afterOperator? {chars : List Char} {tokens rest : List Token}
    (h : afterOperator? chars tokens = some rest) : rest <:+ tokens := by
  induction chars generalizing tokens with
  | nil => simp [afterOperator?] at h
  | cons c others ih =>
    unfold afterOperator? at h
    split at h
    · split at h
      · rw [← Option.some.inj h]
        exact List.suffix_cons _ _
      · contradiction
    · rename_i hchars
      obtain ⟨rfl, rfl⟩ := List.cons.inj hchars
      split at h
      · exact (ih h).trans (List.suffix_cons _ _)
      · contradiction
    · contradiction

instance (text : String) : (operator text).TakesFront where
  rest_suffix h := by
    unfold operator at h
    split at h
    · rename_i hrest
      rw [← Except.ok.inj h]
      exact suffix_of_afterOperator? hrest
    · contradiction

instance (text : String) : (keyword text).TakesFront where
  rest_suffix h := by
    unfold keyword at h
    split at h
    · split at h
      · rw [← Except.ok.inj h]
        exact List.suffix_cons _ _
      · contradiction
    · contradiction

theorem anyWord_eq_ok {tokens : List Token} {found : Found String}
    (h : anyWord tokens = .ok found) : tokens = .word found.value :: found.rest := by
  unfold anyWord at h
  split at h
  · rw [← Except.ok.inj h]
  · contradiction

instance : anyWord.TakesFront where
  rest_suffix h := by
    rw [anyWord_eq_ok h]
    exact List.suffix_cons _ _

theorem identifier_eq_ok {tokens : List Token} {found : Found String}
    (h : identifier tokens = .ok found) : tokens = .word found.value :: found.rest := by
  unfold identifier at h
  split at h
  · split at h
    · rw [← Except.ok.inj h]
    · contradiction
  · contradiction

instance : identifier.TakesFront where
  rest_suffix h := by
    rw [identifier_eq_ok h]
    exact List.suffix_cons _ _

instance : lifetime.TakesFront where
  rest_suffix h := by
    unfold lifetime at h
    split at h
    · rw [← Except.ok.inj h]
      exact (List.suffix_cons _ _).trans (List.suffix_cons _ _)
    · contradiction

instance : literal.TakesFront where
  rest_suffix h := by
    unfold literal at h
    split at h
    · rw [← Except.ok.inj h]
      exact List.suffix_cons _ _
    · split at h
      · rw [← Except.ok.inj h]
        exact List.suffix_cons _ _
      · contradiction
    · split at h
      · rw [← Except.ok.inj h]
        exact (List.suffix_cons _ _).trans (List.suffix_cons _ _)
      · contradiction
    · contradiction

instance : string.TakesFront where
  rest_suffix h := by
    unfold string at h
    split at h
    · split at h
      · rw [← Except.ok.inj h]
        exact List.suffix_cons _ _
      · contradiction
    · contradiction

instance : anyGroup.TakesFront where
  rest_suffix h := by
    unfold anyGroup at h
    split at h
    · rw [← Except.ok.inj h]
      exact List.suffix_cons _ _
    · contradiction

/-- What is found inside a group is found in the tokens between its delimiters. -/
theorem inside_eq_ok {delimiter : Delimiter} {parser : Parser A} {tokens : List Token}
    {found : Found A} (h : inside delimiter parser tokens = .ok found) :
    ∃ body inner, tokens = .group delimiter body :: found.rest ∧ parser body = .ok inner ∧
      found.value = inner.value := by
  unfold inside at h
  split at h
  · split at h
    · rename_i body rest hdelimiter
      cases hinner : parser body with
      | error mismatch =>
        rw [hinner] at h
        contradiction
      | ok inner =>
        rw [hinner] at h
        rw [← Except.ok.inj h, hdelimiter]
        exact ⟨body, inner, rfl, hinner, rfl⟩
    · contradiction
  · contradiction

instance {delimiter : Delimiter} {parser : Parser A} : (inside delimiter parser).TakesFront where
  rest_suffix h := by
    obtain ⟨body, inner, htokens, -, -⟩ := inside_eq_ok h
    rw [htokens]
    exact List.suffix_cons _ _

instance {delimiter : Delimiter} {parser : Parser (List Node)} :
    (group delimiter parser).TakesFront := by
  unfold group
  infer_instance

/-! ### Combinations -/

section Combinations

variable {look : List Token → Bool} {separator : String} {parser : Parser (List Node)}

instance [parser.TakesFront] : (onlyIf look parser).TakesFront where
  rest_suffix h := by
    unfold onlyIf at h
    split at h
    · exact rest_suffix h
    · obtain rfl := Except.ok.inj h
      exact List.suffix_rfl

instance {parser : Parser Node} [parser.TakesFront] : (one parser).TakesFront := by
  unfold one
  infer_instance

instance (text : String) : (operator? text).TakesFront := by
  unfold operator?
  infer_instance

instance (text : String) : (keyword? text).TakesFront := by
  unfold keyword?
  infer_instance

instance : lifetime?.TakesFront := by
  unfold lifetime?
  infer_instance

instance {parser : Parser (List A)} [parser.TakesFront] (rounds : ℕ) :
    (repeatAtMost look parser rounds).TakesFront := by
  induction rounds with
  | zero =>
    unfold repeatAtMost
    infer_instance
  | succ rounds ih =>
    unfold repeatAtMost
    infer_instance

instance {parser : Parser (List A)} [parser.TakesFront] :
    (repeatWhile look parser).TakesFront := by
  unfold repeatWhile
  infer_instance

instance [parser.TakesFront] (rounds : ℕ) :
    (separatedAtMost separator look parser rounds).TakesFront := by
  induction rounds with
  | zero =>
    unfold separatedAtMost
    infer_instance
  | succ rounds ih =>
    unfold separatedAtMost
    infer_instance

instance [parser.TakesFront] : (separated separator look parser).TakesFront := by
  unfold separated
  infer_instance

instance [parser.TakesFront] (rounds : ℕ) :
    (linkedAtMost separator look parser rounds).TakesFront := by
  induction rounds with
  | zero =>
    unfold linkedAtMost
    infer_instance
  | succ rounds ih =>
    unfold linkedAtMost
    infer_instance

instance [parser.TakesFront] : (linked separator look parser).TakesFront := by
  unfold linked
  infer_instance

instance [parser.TakesFront] : (linkedUpTo separator look parser).TakesFront := by
  unfold linkedUpTo
  infer_instance

instance (start : List Token) : (keepFrom start).TakesFront where
  rest_suffix h := by
    obtain rfl := Except.ok.inj h
    exact List.suffix_rfl

instance {parser : Parser A} [parser.TakesFront] : (asRead parser).TakesFront := by
  unfold asRead
  infer_instance

end Combinations

end Parser

open Grammar.Parser

/-- Types and bounds take what they find from the front. -/
class Sorts.TakesFront (sorts : Sorts) : Prop where
  type : ∀ plus, (sorts.type plus).TakesFront
  bound : ∀ rules, (sorts.bound rules).TakesFront

attribute [instance] Sorts.TakesFront.type Sorts.TakesFront.bound

section Sorts

variable {sorts : Sorts}

/-! ### Attributes and visibilities -/

instance : (outerMeta sorts).TakesFront := by
  unfold outerMeta
  infer_instance

instance : (outerMetas sorts).TakesFront := by
  unfold outerMetas
  infer_instance

instance : (outerAttributes sorts).TakesFront := by
  unfold outerAttributes
  infer_instance

instance : scope.TakesFront := by
  unfold scope
  infer_instance

instance : visibility.TakesFront := by
  unfold visibility
  infer_instance

/-! ### Paths -/

instance : (constantArgument sorts).TakesFront := by
  unfold constantArgument blockWithAttributes
  infer_instance

instance {separator : Parser Node} {parser : Parser (Bool × Node)} [separator.TakesFront]
    [parser.TakesFront] (rounds : ℕ) : (argumentsAtMost separator parser rounds).TakesFront := by
  induction rounds with
  | zero =>
    unfold argumentsAtMost
    infer_instance
  | succ rounds ih =>
    unfold argumentsAtMost
    infer_instance

instance {separator : Parser Node} {parser : Parser (Bool × Node)} [separator.TakesFront]
    [parser.TakesFront] : (angled separator parser).TakesFront := by
  unfold angled
  infer_instance

instance : callBody.TakesFront := by
  unfold callBody
  infer_instance

variable [sorts.TakesFront]

instance : (typeArgument sorts).TakesFront := by
  unfold typeArgument
  refine takesFront_bind fun argument => ?_
  cases associatedName? argument with
  | none => infer_instance
  | some name => infer_instance

instance : (genericArgument sorts).TakesFront := by
  unfold genericArgument
  infer_instance

instance : (genericArguments sorts).TakesFront := by
  unfold genericArguments
  infer_instance

instance (inExpression : Bool) : (segment sorts inExpression).TakesFront := by
  unfold segment
  infer_instance

instance (inExpression : Bool) : (pathWhere sorts inExpression).TakesFront := by
  unfold pathWhere moreSegments
  infer_instance

instance : (path sorts).TakesFront := by
  unfold path
  infer_instance

instance (inExpression : Bool) : (qualifiedPath sorts inExpression).TakesFront := by
  unfold qualifiedPath
  infer_instance

instance (inExpression : Bool) : (anyPath sorts inExpression).TakesFront := by
  unfold anyPath
  infer_instance

/-! ### Parameters and bounds -/

instance {bounds : Parser (List Node)} [bounds.TakesFront] : (boundedBy bounds).TakesFront := by
  unfold boundedBy
  infer_instance

instance {atEnd : List Token → Bool} : (boundsUpTo sorts atEnd).TakesFront := by
  unfold boundsUpTo
  infer_instance

instance : lifetimeParameter.TakesFront := by
  unfold lifetimeParameter
  infer_instance

instance : (typeParameter sorts).TakesFront := by
  unfold typeParameter
  infer_instance

instance : (constantParameter sorts).TakesFront := by
  unfold constantParameter
  infer_instance

instance {otherwise : Parser Node} [otherwise.TakesFront] :
    (parameterOr sorts otherwise).TakesFront := by
  unfold parameterOr
  infer_instance

instance : (generics sorts).TakesFront := by
  unfold generics
  infer_instance

instance : (binder? sorts).TakesFront := by
  unfold binder? binder
  infer_instance

instance (plus : Bool) : (output? sorts plus).TakesFront := by
  unfold output?
  infer_instance

instance : (traitPath sorts).TakesFront := by
  unfold traitPath inputArguments
  infer_instance

instance (rules : BoundRules) : (constness rules).TakesFront := by
  unfold constness
  infer_instance

instance (rules : BoundRules) : (traitParts sorts rules).TakesFront := by
  unfold traitParts
  infer_instance

instance (rules : BoundRules) : (traitBound sorts rules).TakesFront := by
  unfold traitBound
  infer_instance

instance : captured.TakesFront := by
  unfold captured
  infer_instance

instance : capture.TakesFront := by
  unfold capture
  infer_instance

instance (rules : BoundRules) : (boundWhere sorts rules).TakesFront := by
  unfold boundWhere
  infer_instance

instance (plus : Bool) (rules : BoundRules) : (bounds sorts plus rules).TakesFront := by
  unfold bounds
  infer_instance

instance : (predicate sorts).TakesFront := by
  unfold predicate
  infer_instance

instance : (whereClause sorts).TakesFront := by
  unfold whereClause
  infer_instance

/-! ### Types -/

instance (plus : Bool) : (objectBounds sorts plus).TakesFront := by
  unfold objectBounds
  infer_instance

instance (bound : List Node) : (objectFrom sorts bound).TakesFront := by
  unfold objectFrom plusBounds
  infer_instance

instance (plus : Bool) : (parenthesizedType sorts plus).TakesFront := by
  unfold parenthesizedType
  refine takesFront_bind fun found => ?_
  cases found with
  | whole node => infer_instance
  | bound nodes => infer_instance
  | type node =>
    refine takesFront_bind fun tokens => ?_
    cases if plus && isOp "+" tokens then asTraitBound? node else none with
    | none => infer_instance
    | some nodes => infer_instance

instance (parameters : List Node) : (functionType sorts parameters).TakesFront := by
  unfold functionType convention?
  infer_instance

instance (plus : Bool) (parameters : List Node) :
    (namedType sorts plus parameters).TakesFront := by
  unfold namedType furtherBounds
  refine takesFront_bind fun found => ?_
  cases found with
  | plain path => infer_instance
  | qualified node => infer_instance

instance (plus : Bool) : (objectType sorts plus).TakesFront := by
  unfold objectType
  infer_instance

instance : (bracketedType sorts).TakesFront := by
  unfold bracketedType
  infer_instance

instance : (pointerType sorts).TakesFront := by
  unfold pointerType
  infer_instance

instance : (referenceType sorts).TakesFront := by
  unfold referenceType
  infer_instance

instance (plus : Bool) : (implType sorts plus).TakesFront := by
  unfold implType
  infer_instance

instance (start : List Token) : (builtin start).TakesFront := by
  unfold builtin groupAsRead
  infer_instance

instance : (typeBinder? sorts).TakesFront := by
  unfold typeBinder?
  infer_instance

instance (plus : Bool) : (typeWhere sorts plus).TakesFront := by
  unfold typeWhere
  exact takesFront_bind fun start => takesFront_bind fun parameters =>
    takesFront_bind fun tokens => inferInstance

end Sorts

/-! ### All sorts -/

instance : Sorts.none.TakesFront where
  type _ := inferInstanceAs (fail : Parser Node).TakesFront
  bound _ := inferInstanceAs (fail : Parser Node).TakesFront

instance {sorts : Sorts} [sorts.TakesFront] : sorts.deeper.TakesFront where
  type plus := inferInstanceAs (typeWhere sorts plus).TakesFront
  bound rules := inferInstanceAs (boundWhere sorts rules).TakesFront

instance {sorts : Sorts} [h : sorts.TakesFront] (steps : ℕ) :
    (Sorts.deepened steps sorts).TakesFront := by
  induction steps generalizing sorts with
  | zero => exact h
  | succ steps ih => exact ih

/-- However deep constructs are nested, they are taken from the front. -/
instance (tokens : List Token) : (Sorts.for tokens).TakesFront := by
  unfold Sorts.for
  infer_instance

end Typestate.Grammar
