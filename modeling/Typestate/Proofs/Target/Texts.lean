import Typestate.Proofs.Rereading.Whole
import Typestate.Proofs.Target.Collecting
import Typestate.Proofs.Target.Outcome

/-!
# Texts that are kept

A type and a default are kept as texts in the layout of tokens, and what the generated items show is
read of these texts once more. A text that is written with its own tokens is read as the same tree,
whatever it holds. Other texts may be written with other spacing in their operators, a comma more or
less, arguments in another order: if the tree is told apart down to its tokens and needs no
parentheses but its own, it is read again all the same. The kept text is then accepted again and
kept as it is, its tokens are those of what was given, and they are printed as the kept text.
Nothing that is generated of such texts shows the error that stands for a text which cannot be read.

The rest is not as stable: tokens that are kept as they were read are cut out of the text by the
number of tokens behind them, and parentheses that are added there move the cut.
-/

namespace Typestate

open Token

/-! ### Blank texts -/

/-- A text of blanks has no tokens. -/
theorem Lexer.run_of_isBlank {chars : List Char} {steps : ℕ} {tokens found : List Token}
    (h : chars.all Unicode.isBlank = true) (hrun : run steps ⟨[], tokens, chars⟩ = some found) :
    found = tokens.reverse := by
  induction chars generalizing steps with
  | nil =>
    cases steps with
    | zero => contradiction
    | succ steps => exact (Option.some.inj hrun).symm
  | cons c rest ih =>
    cases steps with
    | zero => contradiction
    | succ steps =>
      obtain ⟨hblank, hrest⟩ := Bool.and_eq_true_iff.mp (List.all_cons ▸ h)
      obtain ⟨next, hnext, hmore⟩ := Option.bind_eq_some_iff.mp hrun
      rw [advance?, if_pos hblank] at hnext
      obtain rfl := Option.some.inj hnext
      exact ih hrest hmore

theorem Token.lex?_of_isBlankText {text : String} {tokens : List Token}
    (h : Unicode.isBlankText text = true) (hlex : lex? text = some tokens) : tokens = [] := by
  have hblank : text.toList.all Unicode.isBlank = true :=
    List.all_eq_true.mpr fun c hc => by
      rw [Unicode.isBlank, List.all_eq_true.mp h c hc]
      rfl
  unfold lex? at hlex
  split at hlex
  · rename_i rest hparts
    rw [hparts] at hblank
    exact absurd (Bool.and_eq_true_iff.mp (List.all_cons ▸ hblank)).1 (by decide +kernel)
  · exact Lexer.run_of_isBlank hblank hlex

/-! ### Texts by themselves -/

namespace Grammar

variable {text : String} {node : Node}

/-- Nothing is read of no tokens. -/
theorem not_readExpression_nil : readTokens? Sorts.expression [] = none := by decide +kernel

/-- What an expression is read of is not blank. -/
theorem not_isBlankText_of_readExpression? (h : readExpression? text = some node) :
    ¬ Unicode.isBlankText text = true := by
  intro hblank
  obtain ⟨tokens, hlex, hread⟩ := Option.bind_eq_some_iff.mp h
  rw [lex?_of_isBlankText hblank hlex] at hread
  exact absurd (hread.symm.trans not_readExpression_nil) (Option.some_ne_none _)

end Grammar

/-- The tokens of the type are those of what is read of the given text, and the kept text has these
tokens. -/
def TypeText.Shows (type : TypeText) (text : String) : Prop :=
  ∃ node, Grammar.readType? text = some node ∧ type.tokens = node.tokens ∧
    lex? type.text = some type.tokens

/-- The tokens of the default are those of what is read of the given text, and the kept text has
these tokens. Without a text they are those of the default that the type provides. -/
def DefaultText.Shows (default : DefaultText) : Option String → Prop
  | none => default.tokens = providedTokens
  | some text => ∃ node, Grammar.readExpression? text = some node ∧ default.tokens = node.tokens ∧
      lex? default.text = some default.tokens

/-- The kept text is accepted again and kept as it is, and it is the text of the tokens. -/
structure TypeText.IsStable (type : TypeText) : Prop where
  again : ∀ member, read member type.text = .ok type
  printed : render type.tokens = type.text

/-- The kept text is accepted again and kept as it is, and it is the text of the tokens. -/
structure DefaultText.IsStable (default : DefaultText) : Prop where
  again : ∀ member, read member default.text = .ok default
  printed : render default.tokens = default.text

/-- A type is stable exactly if its text is read as a tree that is written as this text. -/
theorem TypeText.isStable_iff {type : TypeText} :
    type.IsStable ↔
      ∃ node, Grammar.readType? type.text = some node ∧ node.render = type.text := by
  constructor
  · intro hstable
    exact Option.map_eq_some_iff.mp (render_of_read (hstable.again ""))
  · rintro ⟨node, hread, htext⟩
    refine ⟨fun member => ?_, ?_⟩
    · rw [read, hread]
      exact congrArg (Except.ok ∘ TypeText.mk) htext
    · rw [tokens, hread]
      exact htext

/-- A default that was given is stable exactly if its text is read as a tree that is written as this
text. -/
theorem DefaultText.isStable_iff {default : DefaultText} (hgiven : default.isProvided = false) :
    default.IsStable ↔
      ∃ node, Grammar.readExpression? default.text = some node ∧ node.render = default.text := by
  constructor
  · intro hstable
    exact Option.map_eq_some_iff.mp (readOf_of_read (hstable.again "")).2
  · rintro ⟨node, hread, htext⟩
    have hblank : ¬ Unicode.isBlankText default.text = true :=
      Grammar.not_isBlankText_of_readExpression? hread
    refine ⟨fun member => ?_, ?_⟩
    · rw [read, if_neg hblank, hread]
      simp only [htext, ← hgiven]
    · rw [tokens, hread]
      exact htext

/-- A type that is read of a faithful text shows it and is stable. -/
theorem TypeText.stable_of_read {text : String} {type : TypeText}
    (h : (Grammar.readType? text).map Grammar.Node.render = some type.text)
    (hfaithful : Grammar.isFaithfulType text = true) : type.Shows text ∧ type.IsStable := by
  obtain ⟨node, hnode, htext⟩ := Option.map_eq_some_iff.mp h
  obtain ⟨hlex, hread⟩ := Grammar.readType?_of_isFaithfulType hnode hfaithful
  rw [htext] at hlex hread
  have htokens : type.tokens = node.tokens := by rw [tokens, hread]
  exact ⟨⟨node, hnode, htokens, htokens ▸ hlex⟩, isStable_iff.mpr ⟨node, hread, htext⟩⟩

/-- A default that is read of a faithful text shows it and is stable. -/
theorem DefaultText.stable_of_read {text : String} {default : DefaultText}
    (h : default.ReadOf (some text)) (hfaithful : Grammar.isFaithfulExpression text = true) :
    default.Shows (some text) ∧ default.IsStable := by
  obtain ⟨hgiven, h⟩ := h
  obtain ⟨node, hnode, htext⟩ := Option.map_eq_some_iff.mp h
  obtain ⟨hlex, hread⟩ := Grammar.readExpression?_of_isFaithfulExpression hnode hfaithful
  rw [htext] at hlex hread
  have htokens : default.tokens = node.tokens := by rw [tokens, hread]
  exact ⟨⟨node, hnode, htokens, htokens ▸ hlex⟩,
    (isStable_iff hgiven).mpr ⟨node, hread, htext⟩⟩

/-- What the type provides by itself can be read, too. -/
theorem DefaultText.shows_provided : provided.Shows none := tokens_provided

/-- A default shows what it is read of. -/
theorem DefaultText.ReadOf.shows {default : DefaultText} {text : Option String}
    (h : default.ReadOf text) (hfaithful : text.all Grammar.isFaithfulExpression = true) :
    default.Shows text := by
  cases text with
  | none =>
    obtain rfl : default = .provided := h
    exact DefaultText.shows_provided
  | some text => exact (DefaultText.stable_of_read h hfaithful).1

/-! ### Texts of a target -/

/-- The types and defaults that are described are read again. -/
structure Draft.IsFaithful (draft : Draft) : Prop where
  types : ∀ described ∈ draft.memberDrafts, Grammar.isFaithfulType described.type = true
  defaults : ∀ described ∈ draft.memberDrafts,
    described.fallback.text?.all Grammar.isFaithfulExpression = true
  fixed : ∀ described ∈ draft.fixed, described.default.all Grammar.isFaithfulExpression = true

/-- The generated items show the types and defaults that are described, each in its place. -/
structure Generated.Shows (generated : Generated) (draft : Draft) : Prop where
  types : List.Forall₂ (fun described slot => slot.type.Shows described.type)
    draft.memberDrafts generated.builderType.slots
  seeds : List.Forall₂ (fun described seed => ∀ default, seed.2 = .default default →
    default.Shows described.fallback.text?) draft.memberDrafts generated.factory.seeds
  fixed : ∀ assigned values, generated.builderType.body = .literal assigned values →
    List.Forall₂ (fun described entry => entry.value.Shows described.default) draft.fixed values

namespace Draft

variable {draft : Draft} {target : Target} {flag : Option CancelFlag} {generated : Generated}

/-- The values of a literal are the defaults of the fields that are left alone. -/
theorem values_of_ofTarget {assigned : List Assignment} {values : List FixedValue}
    (h : BuildBody.ofTarget target = .ok (.literal assigned values)) :
    values.map FixedValue.value = target.fixed.map FixedField.default := by
  obtain ⟨found, -, h⟩ := bind_eq_ok.mp h
  cases hconstruction : target.construction with
  | literal =>
    rw [hconstruction] at h
    obtain ⟨fixed, hfixed, hbody⟩ := bind_eq_ok.mp h
    obtain ⟨-, rfl⟩ := (BuildBody.literal.injEq ..).mp (Except.ok.inj hbody)
    refine map_of_mapM_eq_ok (fun field value hvalue => ?_) (mapError_eq_ok.mp hfixed)
    obtain ⟨node, -, hresult⟩ := bind_eq_ok.mp hvalue
    rw [← Except.ok.inj hresult]
  | function path =>
    rw [hconstruction] at h
    obtain ⟨found, -, hbody⟩ := bind_eq_ok.mp h
    exact absurd (Except.ok.inj hbody) nofun

/-- The items of a target show the types and defaults of its description. -/
theorem shows_of_generateUnder (hfinish : draft.finish = .ok target) (hfaithful : draft.IsFaithful)
    (hgenerate : generateUnder target flag = .ok generated) : generated.Shows draft := by
  rw [generateUnder_of_not_stops (not_stops_of_generateUnder hgenerate)] at hgenerate
  obtain ⟨arguments, fields, hfinished⟩ := finished_of_finish hfinish
  obtain ⟨body, -, -, -, hbuilder, hfactory, hbody⟩ := generate_eq_ok hgenerate
  have hmembers := hfinished.forall₂_memberDrafts
  have htypes : List.Forall₂ (fun described member => member.type.Shows described.type)
      draft.memberDrafts target.members.toList :=
    ((List.forall₂_and_left _ _).mpr ⟨hfaithful.types, hmembers⟩).imp
      fun _ _ ⟨hthis, _, _, hbecomes⟩ => (TypeText.stable_of_read hbecomes.type hthis).1
  have hdefaults : List.Forall₂ (fun described member =>
      member.default.Shows described.fallback.text?) draft.memberDrafts target.members.toList :=
    ((List.forall₂_and_left _ _).mpr ⟨hfaithful.defaults, hmembers⟩).imp
      fun _ _ ⟨hthis, _, _, hbecomes⟩ => hbecomes.default.shows hthis
  have hfixed : List.Forall₂ (fun described default => default.Shows described.default)
      draft.fixed (target.fixed.map FixedField.default) :=
    List.forall₂_map_right_iff.mpr <|
      ((List.forall₂_and_left _ _).mpr ⟨hfaithful.fixed, hfinished.forall₂_fixed⟩).imp
        fun _ _ ⟨hthis, hbecomes⟩ => hbecomes.default.shows hthis
  constructor
  · rw [hbuilder, List.forall₂_map_right_iff]
    exact htypes
  · rw [hfactory, Factory.ofLattice, List.forall₂_map_right_iff]
    refine hdefaults.imp fun described member hshows default hdefault => ?_
    simp only [Seed.ofMember] at hdefault
    split at hdefault
    · contradiction
    · rwa [← Seed.default.inj hdefault]
  · intro assigned values hvalues
    rw [hbuilder] at hvalues
    obtain rfl : body = .literal assigned values := hvalues
    rw [← values_of_ofTarget hbody] at hfixed
    exact List.forall₂_map_right_iff.mp hfixed

end Draft

/-- **Kept texts.** What is kept of a type or a default is accepted again, kept as it is and printed
as it is exactly if it is read as a tree that is written as it. What is kept of a faithful text is,
and shows this text. The default that a type provides can be read, too, so that nothing that is
generated of such texts holds an error in place of a type or a default. -/
theorem kept_texts (member text : String) (draft : Draft) :
    (∀ type, TypeText.read member text = .ok type →
      (type.IsStable ↔
        ∃ node, Grammar.readType? type.text = some node ∧ node.render = type.text) ∧
      (Grammar.isFaithfulType text = true → type.Shows text ∧ type.IsStable)) ∧
    (∀ default, DefaultText.read member text = .ok default →
      (default.IsStable ↔
        ∃ node, Grammar.readExpression? default.text = some node ∧ node.render = default.text) ∧
      (Grammar.isFaithfulExpression text = true →
        default.Shows (some text) ∧ default.IsStable)) ∧
    (∃ node, Grammar.readExpression? DefaultText.provided.text = some node ∧
      DefaultText.provided.tokens = node.tokens ∧ DefaultText.provided.Shows none) ∧
    ∀ target flag generated, draft.finish = .ok target → draft.IsFaithful →
      generateUnder target flag = .ok generated → generated.Shows draft := by
  refine ⟨fun type h => ⟨TypeText.isStable_iff, TypeText.stable_of_read (TypeText.render_of_read h)⟩,
    fun default h => ?_, ?_, fun target flag generated => Draft.shows_of_generateUnder⟩
  · have hread := DefaultText.readOf_of_read h
    exact ⟨DefaultText.isStable_iff hread.1, DefaultText.stable_of_read hread⟩
  obtain ⟨node, hnode⟩ := Option.isSome_iff_exists.mp
    (show (Grammar.readExpression? DefaultText.provided.text).isSome = true by decide +kernel)
  exact ⟨node, hnode, by rw [DefaultText.tokens, hnode], DefaultText.shows_provided⟩

/-- A description with types and defaults of several kinds. -/
def parcelDraft : Draft where
  target := "Parcel"
  fields :=
    [⟨⟨"label", "Option<<Vec<u8> as IntoIterator>::Item>", .expression "a||b>>2"⟩, "label"⟩,
      ⟨⟨"weight", "scales![kg>>4]", .required⟩, "weight"⟩]
  fixed :=
    [⟨"stamp", some "m![a >>= b]"⟩, ⟨"tare", some "\x7b fn tare() -> u64 \x7b 0 \x7d tare() \x7d"⟩,
      ⟨"seal", none⟩]

/-- The members that are described. -/
def parcelMembers : MemberList where
  toList :=
    [⟨"label", "Label", ⟨"Option < < Vec < u8 > as IntoIterator > :: Item >"⟩, false, 0,
        ⟨"a || b >> 2", false⟩, .field "label"⟩,
      ⟨"weight", "Weight", ⟨"scales ! [kg >> 4]"⟩, true, 1, .provided, .field "weight"⟩]
  sorted := by simp

/-- The target that is described. -/
def parcelTarget : Target where
  name := "Parcel"
  visibility := ""
  construction := .literal
  members := parcelMembers
  fixed :=
    [⟨"stamp", ⟨"m ! [a >>= b]", false⟩⟩,
      ⟨"tare", ⟨"\x7b fn tare () -> u64 \x7b 0 \x7d tare () \x7d", false⟩⟩, ⟨"seal", .provided⟩]
  settings := {}

/-- Operators that are split, or joined, are kept as they are written, the call of a macro is a
type, and an item stands in a block. -/
theorem kept_texts_parcelDraft :
    ∃ generated, parcelDraft.finish = .ok parcelTarget ∧ generate parcelTarget = .ok generated ∧
      generated.Shows parcelDraft ∧
      TypeText.IsStable ⟨"Option < < Vec < u8 > as IntoIterator > :: Item >"⟩ ∧
      TypeText.IsStable ⟨"scales ! [kg >> 4]"⟩ ∧
      DefaultText.IsStable ⟨"a || b >> 2", false⟩ ∧
      DefaultText.IsStable ⟨"\x7b fn tare () -> u64 \x7b 0 \x7d tare () \x7d", false⟩ := by
  have hfinish : parcelDraft.finish = .ok parcelTarget :=
    Draft.finish_of_parts parcelMembers (by decide +kernel) (by decide +kernel) (by decide +kernel)
  obtain ⟨generated, hgenerate⟩ : ∃ generated, generate parcelTarget = .ok generated :=
    exists_generate_eq_ok.mpr (by decide +kernel)
  have hfaithful : parcelDraft.IsFaithful :=
    ⟨by decide +kernel, by decide +kernel, by decide +kernel⟩
  obtain ⟨htype, -, -, hshows⟩ :=
    kept_texts "label" "Option<<Vec<u8> as IntoIterator>::Item>" parcelDraft
  obtain ⟨hcall, -⟩ := kept_texts "weight" "scales![kg>>4]" parcelDraft
  obtain ⟨-, hoperators, -⟩ := kept_texts "label" "a||b>>2" parcelDraft
  obtain ⟨-, hitem, -⟩ :=
    kept_texts "tare" "\x7b fn tare() -> u64 \x7b 0 \x7d tare() \x7d" parcelDraft
  exact ⟨generated, hfinish, hgenerate, hshows _ _ _ hfinish hfaithful hgenerate,
    ((htype _ (by decide +kernel)).2 (by decide +kernel)).2,
    ((hcall _ (by decide +kernel)).2 (by decide +kernel)).2,
    ((hoperators _ (by decide +kernel)).2 (by decide +kernel)).2,
    ((hitem _ (by decide +kernel)).2 (by decide +kernel)).2⟩

/-- Where a mark that is joined to the one behind it is kept as it was read, and parentheses are
added behind it, the tokens of the default are printed as another text than the one that is kept. -/
theorem printed_ne_kept :
    ∃ default, DefaultText.read "value" "\x7b fn f();|x| ..|| -> u8 \x7b\x7d .. m!() \x7d" =
      .ok default ∧ render default.tokens ≠ default.text := by
  have hread : (DefaultText.read "value"
      "\x7b fn f();|x| ..|| -> u8 \x7b\x7d .. m!() \x7d").toOption.any
        (fun default => render default.tokens != default.text) = true := by decide +kernel
  obtain ⟨default, hdefault, hne⟩ := (Option.any_eq_true ..).mp hread
  exact ⟨default, Grammar.toOption_eq_some.mp hdefault, bne_iff_ne.mp hne⟩

end Typestate
