import Typestate.Member.Basic
import Typestate.Proofs.Grammar.Visibility
import Typestate.Proofs.Token.Numeral

/-!
# References to fields

A reference to a field is one token: the name of the field, or the index of a field without a name
as a numeral.
-/

namespace Typestate

open Grammar Grammar.Parser

/-- The field that a reference names, as tokens. -/
def fieldTokens (reference : String) : List Token :=
  match readFieldReference? reference with
  | some node => node.tokens
  | none => Token.diagnostic refusal

/-- A word by itself is written as it is. -/
theorem Grammar.Node.tokens_word (text : String) : (Node.word text).tokens = [.word text] := by
  simp [Node.tokens, Node.settled, needsParentheses_plain, Surroundings.write, Node.leaves,
    Node.leavesBefore]

/-- A literal by itself is written as it is. -/
theorem Grammar.Node.tokens_literal (text : String) :
    (Node.literal text).tokens = [.literal text] := by
  simp [Node.tokens, Node.settled, needsParentheses_plain, Surroundings.write, Node.leaves,
    Node.leavesBefore]

/-- An identifier that is a whole text is its only token. -/
theorem lex?_of_isIdentifierText {name : String} (h : isIdentifierText name = true) :
    Token.lex? name = some [.word name] ∧ Word.isIdentifier name = true := by
  obtain ⟨tokens, hlex, hread⟩ := Option.bind_eq_some_iff.mp (beq_iff_eq.mp h)
  have hall : all identifier tokens = .ok name := toOption_eq_some.mp hread
  unfold all identifier at hall
  split at hall
  · rename_i text rest
    split at hall
    · rename_i hidentifier
      simp only [bind, Except.bind] at hall
      split at hall
      · rename_i hempty
        obtain rfl : text = name := Except.ok.inj hall
        rw [List.isEmpty_iff.mp hempty] at hlex
        exact ⟨hlex, hidentifier⟩
      · contradiction
    · contradiction
  · contradiction

/-- What is read as a reference to a field is one identifier, or one number that is an index. -/
theorem all_fieldReference_eq_ok {tokens : List Token} {value : Bool × Node}
    (h : all fieldReference tokens = .ok value) :
    (∃ name, tokens = [.word name] ∧ Word.isIdentifier name = true ∧ value.2 = .word name) ∨
      ∃ text index, tokens = [.literal text] ∧ Literal.index? text = some index ∧
        value.2 = .literal (toString index) := by
  unfold all fieldReference at h
  split at h
  · rename_i text rest
    split at h
    · rename_i hidentifier
      simp only [bind, Except.bind] at h
      split at h
      · rename_i hempty
        refine .inl ⟨text, ?_, hidentifier, ?_⟩
        · rw [List.isEmpty_iff.mp hempty]
        · rw [← Except.ok.inj h]
      · contradiction
    · contradiction
  · rename_i text rest
    split at h
    · unfold indexOf at h
      cases hindex : Literal.index? text with
      | none =>
        rw [hindex] at h
        contradiction
      | some index =>
        rw [hindex] at h
        simp only [bind, Except.bind, pure, Except.pure] at h
        split at h
        · rename_i hempty
          refine .inr ⟨text, index, ?_, hindex, ?_⟩
          · rw [List.isEmpty_iff.mp hempty]
          · rw [← Except.ok.inj h]
        · contradiction
    · contradiction
  · split at h
    · contradiction
    · contradiction
  · contradiction

/-- A word by itself as a reference. -/
theorem readFieldReference?_of_lex? {name : String} (hlex : Token.lex? name = some [.word name]) :
    readFieldReference? name = if Word.isIdentifier name then some (.word name) else none := by
  have hread : readFieldReference? name =
      (all fieldReference [.word name]).toOption.map Prod.snd := by
    rw [readFieldReference?, read?, hlex]
    rfl
  rw [hread, all, fieldReference]
  split
  · rfl
  · rfl

/-- A field is referred to by its name, if it can be referred to. -/
theorem fieldTokens_of_lex? {name : String} (hlex : Token.lex? name = some [.word name])
    (h : (readFieldReference? name).isSome = true) : fieldTokens name = [.word name] := by
  have hidentifier : Word.isIdentifier name = true := by
    by_contra hidentifier
    rw [readFieldReference?_of_lex? hlex, if_neg hidentifier] at h
    contradiction
  rw [fieldTokens, readFieldReference?_of_lex? hlex, if_pos hidentifier]
  exact Node.tokens_word name

theorem fieldTokens_of_isIdentifierText {name : String} (h : isIdentifierText name = true) :
    fieldTokens name = [.word name] := by
  obtain ⟨hlex, hidentifier⟩ := lex?_of_isIdentifierText h
  refine fieldTokens_of_lex? hlex ?_
  rw [readFieldReference?_of_lex? hlex, if_pos hidentifier]
  rfl

/-- The index of a field as a reference. -/
theorem readFieldReference?_toString (position : ℕ) :
    readFieldReference? (toString position) =
      if position ≤ Literal.maxIndex then some (.literal (toString position)) else none := by
  have hindex : Literal.index? (toString position) =
      if position ≤ Literal.maxIndex then some position else none := by
    rw [Literal.index?, Literal.wholeValue?_toString]
    simp
  have hwhole : isWhole (toString position) = true := by
    rw [isWhole, Literal.wholeValue?_toString]
    rfl
  have hread : readFieldReference? (toString position) =
      (all fieldReference [.literal (toString position)]).toOption.map Prod.snd := by
    rw [readFieldReference?, read?, Token.lex?_toString]
    rfl
  rw [hread, all, fieldReference, if_pos hwhole, indexOf, hindex]
  by_cases hlimit : position ≤ Literal.maxIndex
  · rw [if_pos hlimit, if_pos hlimit]
    rfl
  · rw [if_neg hlimit, if_neg hlimit]
    rfl

/-- A field without a name is referred to by its position, if it can be referred to. -/
theorem fieldTokens_toString {position : ℕ}
    (h : (readFieldReference? (toString position)).isSome = true) :
    fieldTokens (toString position) = [.literal (toString position)] := by
  have hlimit : position ≤ Literal.maxIndex := by
    by_contra hlimit
    rw [readFieldReference?_toString, if_neg hlimit] at h
    contradiction
  rw [fieldTokens, readFieldReference?_toString, if_pos hlimit]
  exact Node.tokens_literal _

/-! ### Fields as they are named -/

/-- A field of the target: by its name, or by its position in a tuple. The names are compared as they
are written, so a raw name is told apart from the plain one although both name one field. -/
inductive FieldName where
  | named (name : String)
  | position (index : ℕ)
  deriving DecidableEq, Repr

namespace FieldName

/-- The field as it is written. -/
def tokens : FieldName → List Token
  | named name => [.word name]
  | position index => [.literal (toString index)]

/-- The name without the sign of being raw. Fields are one field if this is the same. -/
def plain : FieldName → FieldName
  | named name => named (Word.unraw name)
  | position index => position index

/-- The field that a reference names: one identifier, or a whole number of any base. -/
def read? (reference : String) : Option FieldName :=
  match Token.lex? reference with
  | some [.word name] => if Word.isIdentifier name then some (.named name) else none
  | some [.literal text] => (Literal.index? text).map .position
  | _ => none

/-- Fields that are written alike are the same field. -/
theorem tokens_injective : Function.Injective tokens := by
  intro first second h
  cases first with
  | named name =>
    cases second with
    | named other => exact congrArg named (Token.word.inj (List.singleton_inj.mp h))
    | position index => exact Token.noConfusion (List.singleton_inj.mp h)
  | position index =>
    cases second with
    | named other => exact Token.noConfusion (List.singleton_inj.mp h)
    | position other =>
      have hvalue := Literal.wholeValue?_toString index
      rw [Token.literal.inj (List.singleton_inj.mp h), Literal.wholeValue?_toString] at hvalue
      exact congrArg position (Prod.mk.inj (Option.some.inj hvalue)).1.symm

/-- What is read of an identifier is the field of that name. -/
theorem read?_of_isIdentifierText {name : String} (h : isIdentifierText name = true) :
    read? name = some (.named name) := by
  obtain ⟨hlex, hidentifier⟩ := lex?_of_isIdentifierText h
  rw [read?, hlex]
  exact if_pos hidentifier

/-- A reference that can be read names a field, and this field is what is written. -/
theorem exists_read?_eq_some {reference : String}
    (h : (Grammar.readFieldReference? reference).isSome = true) :
    ∃ field, read? reference = some field ∧ fieldTokens reference = field.tokens := by
  obtain ⟨node, hnode⟩ := Option.isSome_iff_exists.mp h
  obtain ⟨value, hvalue, rfl⟩ := Option.map_eq_some_iff.mp hnode
  obtain ⟨tokens, hlex, hread⟩ := Option.bind_eq_some_iff.mp hvalue
  have htokens : fieldTokens reference = value.2.tokens := by
    rw [fieldTokens, hnode]
  rcases all_fieldReference_eq_ok (Grammar.toOption_eq_some.mp hread) with
    ⟨name, rfl, hidentifier, hword⟩ | ⟨text, index, rfl, hindex, hliteral⟩
  · refine ⟨.named name, ?_, ?_⟩
    · rw [read?, hlex]
      exact if_pos hidentifier
    · rw [htokens, hword]
      exact Grammar.Node.tokens_word name
  · refine ⟨.position index, ?_, ?_⟩
    · rw [read?, hlex]
      exact congrArg (Option.map position) hindex
    · rw [htokens, hliteral]
      exact Grammar.Node.tokens_literal _

/-- What is written for a reference is the field that is read of it. -/
theorem fieldTokens_of_read? {reference : String} {field : FieldName}
    (hread : read? reference = some field)
    (h : (Grammar.readFieldReference? reference).isSome = true) :
    fieldTokens reference = field.tokens := by
  obtain ⟨other, hother, htokens⟩ := exists_read?_eq_some h
  rw [htokens, Option.some.inj (hread.symm.trans hother)]

end FieldName

end Typestate
