import Typestate.Proofs.Rereading.Statement

/-!
# Items

An item is kept as it was read, or it is a construct that may be written in another way than it is
read. Either way it is not explicit, so that nothing explicit holds one.
-/

namespace Typestate.Grammar

open Grammar.Parser

/-- Nothing that the parser finds is explicit. -/
structure Parser.IsLoose (parser : Parser Node) : Prop where
  loose : ∀ {tokens node rest}, parser.Reads tokens node rest → node.isExplicit = false

namespace Parser.IsLoose

variable {A : Type} {parser first second : Parser Node}

/-- What is found last decides. -/
theorem bind {parser : Parser A} {next : A → Parser Node} (h : ∀ value, (next value).IsLoose) :
    (parser >>= next).IsLoose where
  loose hreads := by
    obtain ⟨value, mid, -, hnext⟩ := reads_bind.mp hreads
    exact (h value).loose hnext

theorem ite {condition : Prop} [Decidable condition] (hfirst : first.IsLoose)
    (hsecond : second.IsLoose) : (if condition then first else second).IsLoose := by
  split
  · exact hfirst
  · exact hsecond

/-- Both sides of a choice are followed by the same. -/
theorem choose {condition : Prop} [Decidable condition] {first second : Parser A}
    {next : A → Parser Node} (h : ∀ value, (next value).IsLoose) :
    (if condition then first >>= next else second >>= next).IsLoose :=
  .ite (.bind h) (.bind h)

theorem item (children : List Node) : (pure (.branch .item children) : Parser Node).IsLoose where
  loose hreads := by
    obtain ⟨rfl, -⟩ := reads_pure.mp hreads
    simp [Node.isExplicit, looseKinds]

theorem keepFrom (start : List Token) : (Parser.keepFrom start).IsLoose where
  loose hreads := by
    rw [← Bool.not_eq_true]
    exact Node.not_isExplicit_of_isVerbatim (isVerbatim_of_keepFrom hreads)

theorem expected (choices : List String) : (Parser.expected choices : Parser Node).IsLoose where
  loose hreads := absurd hreads not_reads_expected

theorem refuse (message : String) : (Parser.refuse message : Parser Node).IsLoose where
  loose hreads := absurd hreads nofun

/-- A parser that reads a given text, whatever is at hand. -/
theorem given (h : parser.IsLoose) (start : List Token) :
    (show Parser Node from fun _ => parser start).IsLoose where
  loose hreads := h.loose (show parser.Reads start _ _ from hreads)

end Parser.IsLoose

open Parser.IsLoose

variable (sorts : Sorts) (start after : List Token)

theorem functionItem_isLoose : (functionItem sorts start).IsLoose :=
  .bind fun _ => .bind fun _ => .bind fun _ => .ite (.bind fun _ => .keepFrom _)
    (.bind fun _ => .item _)

theorem useItem_isLoose : (useItem sorts start).IsLoose :=
  .bind fun _ => .bind fun _ => .bind fun _ => .bind fun _ => .bind fun _ =>
    .ite (.keepFrom _) (.item _)

theorem staticItem_isLoose : (staticItem sorts start).IsLoose :=
  .bind fun _ => .bind fun _ => .bind fun _ => .bind fun _ => .bind fun _ =>
    .ite (.bind fun _ => .bind fun _ => .bind fun _ => .keepFrom _) <|
      .bind fun _ => .bind fun _ => .bind fun _ => .ite (.bind fun _ => .keepFrom _) <|
        .bind fun _ => .bind fun _ => .bind fun _ => .item _

theorem constantItem_isLoose : (constantItem sorts start).IsLoose :=
  .bind fun _ => .bind fun _ => .ite (.keepFrom _) (.item _)

theorem typeItem_isLoose : (typeItem sorts start).IsLoose :=
  .bind fun _ => .bind fun _ => .ite (.keepFrom _) (.item _)

theorem structItem_isLoose : (structItem sorts).IsLoose :=
  .bind fun _ => .bind fun _ => .bind fun _ => .bind fun _ => .bind fun _ => .item _

theorem enumItem_isLoose : (enumItem sorts).IsLoose :=
  .bind fun _ => .bind fun _ => .bind fun _ => .bind fun _ => .bind fun _ => .bind fun _ => .item _

theorem unionItem_isLoose : (unionItem sorts).IsLoose :=
  .bind fun _ => .bind fun _ => .bind fun _ => .bind fun _ => .bind fun _ => .bind fun _ => .item _

theorem callItem_isLoose (name : Parser (List Node)) : (callItem name).IsLoose :=
  .bind fun _ => .bind fun _ => .bind fun _ => .bind fun _ => .choose fun _ => .item _

theorem moduleItem_isLoose : (moduleItem sorts).IsLoose :=
  .bind fun _ => .bind fun _ => .bind fun _ => .bind fun _ => .choose fun _ => .bind fun _ =>
    .ite (.bind fun _ => .item _) (.choose fun _ => .item _)

theorem libraryItem_isLoose : libraryItem.IsLoose :=
  .bind fun _ => .bind fun _ => .bind fun _ => .bind fun _ => .choose fun _ => .bind fun _ =>
    .bind fun _ => .item _

theorem foreignItem_isLoose : (foreignItem sorts).IsLoose :=
  .bind fun _ => .bind fun _ => .bind fun _ => .bind fun _ => .item _

theorem traitItem_isLoose : (traitItem sorts).IsLoose :=
  .bind fun _ => .bind fun _ => .bind fun _ => .bind fun _ => .bind fun _ => .bind fun _ =>
    .bind fun _ => .ite (.bind fun _ => .item _) (.choose fun _ => .item _)

theorem implItem_isLoose : (implItem sorts start).IsLoose :=
  .bind fun _ => .bind fun _ => .bind fun _ => .bind fun _ => .bind fun _ => .choose fun _ =>
    .bind fun _ => .bind fun _ => .bind fun _ => .bind fun _ => .ite (.refuse _) <|
      .bind fun _ => .bind fun _ => .ite (.keepFrom _) (.item _)

theorem macroItem_isLoose : (macroItem start).IsLoose :=
  .bind fun _ => .bind fun _ => .bind fun _ => .bind fun _ => .bind fun _ => .bind fun _ =>
    .ite (.bind fun _ => .keepFrom _) (.expected _)

theorem outsideItem_isLoose : (outsideItem sorts).IsLoose :=
  .bind fun _ => .bind fun _ => .bind fun _ => .bind fun _ => .ite (libraryItem_isLoose.given _) <|
    .ite ((foreignItem_isLoose sorts).given _) <|
      .ite (.bind fun _ => .bind fun _ => .ite ((foreignItem_isLoose sorts).given _) (.expected _))
        (.expected _)

theorem unsafeItem_isLoose : (unsafeItem sorts start after).IsLoose :=
  .ite (traitItem_isLoose sorts) <| .ite (implItem_isLoose sorts start) <|
    .ite (foreignItem_isLoose sorts) <| .ite (moduleItem_isLoose sorts)
      ((Parser.IsLoose.expected _).given _)

theorem itemOf_isLoose (isInherited : Bool) : (itemOf sorts start after isInherited).IsLoose :=
  .ite (functionItem_isLoose sorts start) <| .ite (outsideItem_isLoose sorts) <|
    .ite (useItem_isLoose sorts start) <| .ite (staticItem_isLoose sorts start) <|
    .ite (constantItem_isLoose sorts start) <| .ite (unsafeItem_isLoose sorts start _) <|
    .ite (moduleItem_isLoose sorts) <| .ite (typeItem_isLoose sorts start) <|
    .ite (structItem_isLoose sorts) <| .ite (enumItem_isLoose sorts) <|
    .ite (unionItem_isLoose sorts) <| .ite (traitItem_isLoose sorts) <|
    .ite (implItem_isLoose sorts start) <| .ite (macroItem_isLoose start) <|
    .ite (callItem_isLoose definedName) ((Parser.IsLoose.expected _).given _)

/-- No item is explicit. -/
theorem itemWhere_isLoose (attributes : List Node) :
    (itemWhere sorts attributes start).IsLoose where
  loose {tokens node rest} hreads := by
    have hreads := reads_ahead.mp hreads
    cases hvisibility : visibility tokens with
    | error mismatch =>
      simp only [hvisibility] at hreads
      exact absurd hreads nofun
    | ok found =>
      simp only [hvisibility] at hreads
      obtain ⟨item, mid, hitem, hpure⟩ := reads_bind.mp hreads
      obtain ⟨rfl, -⟩ := reads_pure.mp hpure
      have hloose := (itemOf_isLoose sorts start found.rest found.value.isEmpty).loose hitem
      rw [Bool.eq_false_iff] at hloose ⊢
      exact fun hexplicit => hloose (Node.isExplicit_of_withAttributes hexplicit)

end Typestate.Grammar
