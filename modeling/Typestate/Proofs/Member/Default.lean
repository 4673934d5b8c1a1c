import Typestate.Proofs.Member.Accepted
import Typestate.Proofs.Rereading.Whole
import Typestate.Token.Phrase

/-!
# Defaults

A default is kept as a text: that of the expression that is given, in the layout of tokens, or that
of the call which asks the type for its own default. What the generated items hold are the tokens of
the expression that is read of this text again.
-/

namespace Typestate

open Token

/-- The text of the default, if one is given. -/
def Fallback.text? : Fallback → Option String
  | .expression text => some text
  | .required => none
  | .provided => none

/-- The call that asks a type for its default. -/
def providedTokens : List Token := phrase ":: core :: default :: Default :: default" ++ [parens []]

/-- The tokens are the default that the text gives, or without a text the one of the type. A text
that is given is an expression, and the tokens are those of what its layout is read as, which is the
same expression if the text is faithful. -/
def IsDefault (tokens : List Token) : Option String → Prop
  | none => tokens = providedTokens
  | some text => ∃ node, Grammar.readExpression? text = some node ∧
    (Grammar.isFaithfulExpression text = true → tokens = node.tokens) ∧
    ∀ again, Grammar.readExpression? node.render = some again → tokens = again.tokens

namespace DefaultText

/-- The default is read of the text, or without a text is the one that the type provides. -/
def ReadOf (default : DefaultText) : Option String → Prop
  | none => default = .provided
  | some text => default.isProvided = false ∧
    (Grammar.readExpression? text).map Grammar.Node.render = some default.text

theorem readOf_of_read {member text : String} {default : DefaultText}
    (h : read member text = .ok default) : default.ReadOf (some text) := by
  unfold read at h
  split at h
  · contradiction
  · split at h
    · rename_i node hnode
      rw [← Except.ok.inj h]
      exact ⟨rfl, by rw [hnode, Option.map_some]⟩
    · contradiction

theorem readOf_of_resolve {member : String} {fallback : Fallback}
    {default : DefaultText} (h : fallback.resolve member = .ok default) :
    default.ReadOf fallback.text? := by
  cases fallback with
  | required => exact (Except.ok.inj h).symm
  | provided => exact (Except.ok.inj h).symm
  | expression text => exact readOf_of_read h

theorem tokens_provided : provided.tokens = providedTokens := by decide +kernel

/-- The tokens of a default are the default that it is read of. -/
theorem ReadOf.isDefault {default : DefaultText} {text : Option String}
    (h : default.ReadOf text) : IsDefault default.tokens text := by
  cases text with
  | none =>
    obtain rfl : default = .provided := h
    exact tokens_provided
  | some text =>
    obtain ⟨node, hnode, htext⟩ := Option.map_eq_some_iff.mp h.2
    have htokens : ∀ again, Grammar.readExpression? node.render = some again →
        default.tokens = again.tokens := fun again hagain => by rw [tokens, ← htext, hagain]
    exact ⟨node, hnode, fun hfaithful =>
      htokens node (Grammar.readExpression?_of_isFaithfulExpression hnode hfaithful).2, htokens⟩

end DefaultText

end Typestate
