import Typestate.Proofs.Grammar.Reading

/-!
# Glances at tokens

A parser decides by a glance at the tokens in front of it. A tree is written with the spacing of
its operators, not with that of the text it was read from, so the tokens of a tree are not those
that it was read from. They look alike all the same: words and lifetimes are the same one after
another, up to a literal, a group or a mark, where the glance ends. No operator goes on further than
it did, and a caller names those that have to stand there as they did.
-/

namespace Typestate.Grammar

open Grammar.Parser Token

/-- Words behind which bounds stand. A bound may be written in another way than it was read. -/
def boundWords : List String := ["dyn", "impl"]

/-- Bounds stand behind no identifier. -/
theorem not_mem_boundWords {text : String} (h : Word.isIdentifier text = true) :
    text ∉ boundWords := by
  intro hmem
  rcases List.mem_cons.mp hmem with rfl | hmem
  · exact absurd h (by decide)
  · obtain rfl := List.mem_singleton.mp hmem
    exact absurd h (by decide)

theorem exists_word_of_isIdentifier {tokens : List Token} (h : isIdentifier tokens = true) :
    ∃ text, isWord text tokens = true ∧ text ∉ boundWords := by
  unfold isIdentifier at h
  split at h
  · rename_i text rest
    exact ⟨text, beq_self_eq_true text, not_mem_boundWords h⟩
  · contradiction

/-! ### Single tokens -/

section Tokens

variable (rest : List Token)

@[simp] theorem afterOperator?_literal (chars : List Char) (text : String) :
    afterOperator? chars (.literal text :: rest) = none := by
  unfold afterOperator?
  split <;> simp_all

@[simp] theorem afterOperator?_group (chars : List Char) (delimiter : Delimiter)
    (body : List Token) : afterOperator? chars (.group delimiter body :: rest) = none := by
  unfold afterOperator?
  split <;> simp_all

/-- An apostrophe belongs to no operator. -/
@[simp] theorem afterOperator?_quote (chars : List Char) (spacing : Spacing) :
    afterOperator? chars (.mark '\'' spacing :: rest) = none := by
  unfold afterOperator?
  split <;> rename_i h <;> first | (cases h; simp) | rfl

@[simp] theorem isOp_literal (text literal : String) :
    isOp text (.literal literal :: rest) = false := by
  simp [isOp]

@[simp] theorem isOp_group (text : String) (delimiter : Delimiter) (body : List Token) :
    isOp text (.group delimiter body :: rest) = false := by
  simp [isOp]

@[simp] theorem isOp_quote (text : String) (spacing : Spacing) :
    isOp text (.mark '\'' spacing :: rest) = false := by
  simp [isOp]

/-- The word that is looked for stands at the front. -/
theorem eq_of_isWord {tokens : List Token} {text : String} (h : isWord text tokens = true) :
    ∃ others, tokens = .word text :: others := by
  cases tokens with
  | nil => contradiction
  | cons token others =>
    cases token with
    | word found =>
      obtain rfl : found = text := by simpa [isWord] using h
      exact ⟨others, rfl⟩
    | _ => contradiction

/-- A mark that is no apostrophe begins no lifetime. -/
theorem isLifetime_mark {char : Char} (h : char ≠ '\'') (spacing : Spacing) :
    isLifetime (.mark char spacing :: rest) = false := by
  unfold isLifetime
  split
  · simp_all
  · rfl

end Tokens

/-! ### Tokens that look alike -/

/-- An operator begins with a mark, which its other characters are joined to. -/
theorem afterOperator?_cons_eq_some {c : Char} {others : List Char} {tokens rest : List Token} :
    afterOperator? (c :: others) tokens = some rest ↔
      c ≠ '\'' ∧ ∃ spacing mid, tokens = .mark c spacing :: mid ∧
        (others = [] ∧ mid = rest ∨
          others ≠ [] ∧ spacing = .joint ∧ afterOperator? others mid = some rest) := by
  constructor
  · intro h
    unfold afterOperator? at h
    split at h
    · rename_i found spacing mid hchars
      obtain ⟨rfl, rfl⟩ := List.cons.inj hchars
      simp only [Option.ite_none_right_eq_some, Bool.and_eq_true, beq_iff_eq, bne_iff_ne,
        Option.some.injEq] at h
      obtain ⟨⟨rfl, hquote⟩, rfl⟩ := h
      exact ⟨hquote, spacing, _, rfl, .inl ⟨rfl, rfl⟩⟩
    · rename_i found mid hne hchars
      obtain ⟨rfl, rfl⟩ := List.cons.inj hchars
      simp only [Option.ite_none_right_eq_some, Bool.and_eq_true, beq_iff_eq, bne_iff_ne] at h
      obtain ⟨⟨rfl, hquote⟩, hrest⟩ := h
      exact ⟨hquote, .joint, mid, rfl, .inr ⟨hne, rfl, hrest⟩⟩
    · contradiction
  · rintro ⟨hquote, spacing, mid, rfl, ⟨rfl, rfl⟩ | ⟨hne, rfl, hrest⟩⟩
    · simp [afterOperator?, hquote]
    · cases others with
      | nil => contradiction
      | cons d more => simpa [afterOperator?, hquote] using hrest

/-- Marks behind an argument in angles. Arguments may change places, so one mark stands for the
other. -/
def stops : List Char := [',', '>']

/-- A glance at an operator sees what it saw: it does not begin like the end of an argument, and it
is not a sign that three dots may have given way to. -/
def IsSeen (text : String) : Prop := text ≠ "..=" ∧ ∀ c ∈ text.toList.head?, c ∉ stops

instance (text : String) : Decidable (IsSeen text) :=
  @instDecidableAnd _ _ _ (Option.decidableForallMem _)

/-- Marks that the glances of a parser do not tell apart. -/
structure MarksAlike (tokens again : List Token) : Prop where
  /-- No operator goes on further than it did. -/
  isOp : ∀ text, IsSeen text → Grammar.isOp text again = true → Grammar.isOp text tokens = true
  isLiteral : Grammar.isLiteral again = Grammar.isLiteral tokens
  isTurbofish : Grammar.isTurbofish again = true → Grammar.isTurbofish tokens = true
  /-- An exclamation mark follows a number sign if it did. -/
  isBang : Grammar.isOp "#" tokens = true →
    Grammar.isOp "!" (afterOne again) = Grammar.isOp "!" (afterOne tokens)

/-- Tokens that the glances of a parser do not tell apart, past words if they go deep. -/
inductive Alike : Bool → List Token → List Token → Prop
  | nil {deep} : Alike deep [] []
  | word {deep text rest after} (h : deep = true → text ∉ boundWords → Alike deep rest after) :
    Alike deep (.word text :: rest) (.word text :: after)
  | lifetime {deep name rest after} (h : Alike deep rest after) :
    Alike deep (.mark '\'' .joint :: .word name :: rest) (.mark '\'' .joint :: .word name :: after)
  | literal {deep text text' rest after} (h : Literal.isNumber text' = Literal.isNumber text) :
    Alike deep (.literal text :: rest) (.literal text' :: after)
  | group {deep delimiter body body' rest after} :
    Alike deep (.group delimiter body :: rest) (.group delimiter body' :: after)
  | mark {deep char spacing spacing' rest after} (hquote : char ≠ '\'')
    (h : MarksAlike (.mark char spacing :: rest) (.mark char spacing' :: after)) :
    Alike deep (.mark char spacing :: rest) (.mark char spacing' :: after)
  | stop {deep char char' spacing spacing' rest after} (h : char ∈ stops) (h' : char' ∈ stops) :
    Alike deep (.mark char spacing :: rest) (.mark char' spacing' :: after)

/-- No operator stands where another character does than the one that it begins with. -/
theorem isOp_mark {text : String} {char : Char} (h : text.toList.head? ≠ some char)
    (spacing : Spacing) (rest : List Token) : isOp text (.mark char spacing :: rest) = false := by
  rw [Bool.eq_false_iff]
  intro hop
  obtain ⟨next, hnext⟩ := Option.isSome_iff_exists.mp hop
  cases hchars : text.toList with
  | nil => simp [hchars, afterOperator?] at hnext
  | cons c others =>
    rw [hchars] at hnext h
    obtain ⟨-, spacing', mid, htokens, -⟩ := afterOperator?_cons_eq_some.mp hnext
    obtain ⟨⟨rfl, -⟩, -⟩ : (char = c ∧ spacing = spacing') ∧ rest = mid := by simpa using htokens
    exact h rfl

/-- A glance that does not look for the end of an argument does not see one. -/
theorem isOp_stop {text : String} (htext : IsSeen text) {char : Char} (h : char ∈ stops)
    (spacing : Spacing) (rest : List Token) : isOp text (.mark char spacing :: rest) = false :=
  isOp_mark (fun heq => htext.2 char heq h) spacing rest

theorem isLiteral_stop {char : Char} (h : char ∈ stops) (spacing : Spacing) (rest : List Token) :
    isLiteral (.mark char spacing :: rest) = false := by
  unfold isLiteral
  split <;> simp_all [stops]

theorem quote_not_mem_stops : '\'' ∉ stops := by decide

namespace Alike

variable {deep : Bool} {tokens again : List Token}

theorem isEmpty (h : Alike deep tokens again) : again.isEmpty = tokens.isEmpty := by
  cases h <;> rfl

theorem isAtEnd (h : Alike deep tokens again) : Grammar.isAtEnd again = Grammar.isAtEnd tokens :=
  h.isEmpty

theorem isWord (h : Alike deep tokens again) (text : String) :
    Grammar.isWord text again = Grammar.isWord text tokens := by
  cases h <;> rfl

theorem isAnyWord (h : Alike deep tokens again) :
    Grammar.isAnyWord again = Grammar.isAnyWord tokens := by
  cases h <;> rfl

theorem isAnyOf (h : Alike deep tokens again) (words : List String) :
    Grammar.isAnyOf words again = Grammar.isAnyOf words tokens := by
  simp only [Grammar.isAnyOf, h.isWord]

theorem isIdentifier (h : Alike deep tokens again) :
    Grammar.isIdentifier again = Grammar.isIdentifier tokens := by
  cases h <;> rfl

theorem isPathWord (h : Alike deep tokens again) :
    Grammar.isPathWord again = Grammar.isPathWord tokens := by
  cases h <;> rfl

theorem isGroup (h : Alike deep tokens again) (delimiter : Delimiter) :
    Grammar.isGroup delimiter again = Grammar.isGroup delimiter tokens := by
  cases h <;> rfl

theorem isLifetime (h : Alike deep tokens again) :
    Grammar.isLifetime again = Grammar.isLifetime tokens := by
  cases h with
  | mark hquote h => rw [isLifetime_mark _ hquote, isLifetime_mark _ hquote]
  | stop h h' =>
    rw [isLifetime_mark _ (ne_of_mem_of_not_mem h' quote_not_mem_stops),
      isLifetime_mark _ (ne_of_mem_of_not_mem h quote_not_mem_stops)]
  | nil => rfl
  | word h => rfl
  | lifetime h => rfl
  | literal h => rfl
  | group => rfl

theorem isLiteral (h : Alike deep tokens again) :
    Grammar.isLiteral again = Grammar.isLiteral tokens := by
  cases h with
  | mark hquote h => exact h.isLiteral
  | stop h h' => rw [Grammar.isLiteral_stop h', Grammar.isLiteral_stop h]
  | nil => rfl
  | word h => rfl
  | lifetime h => rfl
  | literal h => rfl
  | group => rfl

/-- No operator goes on further than it did. -/
theorem isOp_of_again (h : Alike deep tokens again) {text : String} (htext : IsSeen text)
    (hagain : isOp text again = true) : isOp text tokens = true := by
  cases h with
  | mark hquote h => exact h.isOp text htext hagain
  | stop h h' => rw [isOp_stop htext h'] at hagain; contradiction
  | nil => exact hagain
  | word h => simp at hagain
  | lifetime h => simp at hagain
  | literal h => simp at hagain
  | group => simp at hagain

theorem isTurbofish_of_again (h : Alike deep tokens again) (hagain : isTurbofish again = true) :
    isTurbofish tokens = true := by
  cases h with
  | mark hquote h => exact h.isTurbofish hagain
  | stop h h' => simp [isTurbofish, isOp_stop (by decide : IsSeen "::") h'] at hagain
  | nil => exact hagain
  | word h => simp [isTurbofish] at hagain
  | lifetime h => simp [isTurbofish] at hagain
  | literal h => simp [isTurbofish] at hagain
  | group => simp [isTurbofish] at hagain

/-- An attribute stands inside what it describes if it did. -/
theorem isBang (h : Alike deep tokens again) (hpound : isOp "#" tokens = true) :
    isOp "!" (afterOne again) = isOp "!" (afterOne tokens) := by
  cases h with
  | mark hquote h => exact h.isBang hpound
  | stop h h' => rw [isOp_stop (by decide) h] at hpound; contradiction
  | nil => rfl
  | word h => simp at hpound
  | lifetime h => simp at hpound
  | literal h => simp at hpound
  | group => simp at hpound

/-- Whether an operator of one character stands there is seen from the first token. -/
theorem isOp_char (h : Alike deep tokens again) (text : String)
    (htext : text.toList.length = 1) (hseen : IsSeen text) :
    isOp text again = isOp text tokens := by
  obtain ⟨c, hc⟩ := List.length_eq_one_iff.mp htext
  cases h with
  | mark hquote h => simp only [isOp, hc, afterOperator?]; split <;> rfl
  | stop h h' => rw [isOp_stop hseen h', isOp_stop hseen h]
  | nil => rfl
  | word h => simp
  | lifetime h => simp
  | literal h => simp
  | group => simp

/-- The end of an argument stands there if it did. -/
theorem isStop (h : Alike deep tokens again) :
    isOneOf [",", ">"] again = isOneOf [",", ">"] tokens := by
  cases h with
  | mark hquote h =>
    simp only [isOneOf, isOp, List.any_cons, List.any_nil]
    congr 1
    · simp only [String.reduceToList, afterOperator?]; split <;> rfl
    · simp only [String.reduceToList, afterOperator?]; split <;> rfl
  | stop h h' =>
    simp only [stops, List.mem_cons, List.not_mem_nil, or_false] at h h'
    rcases h with rfl | rfl <;> rcases h' with rfl | rfl <;> rfl
  | nil => rfl
  | word h => simp [isOneOf]
  | lifetime h => simp [isOneOf]
  | literal h => simp [isOneOf]
  | group => simp [isOneOf]

/-- Behind a first word without bounds, what follows looks alike. -/
theorem behind (h : Alike true tokens again)
    (hword : ∃ text, Grammar.isWord text tokens = true ∧ text ∉ boundWords) :
    Alike true (afterOne tokens) (afterOne again) := by
  obtain ⟨text, hword, htext⟩ := hword
  cases h with
  | word hrest =>
    obtain rfl := beq_iff_eq.mp (show (_ == text) = true from hword)
    exact hrest rfl htext
  | _ => contradiction

/-- A glance past a given first word sees what it saw. -/
theorem isWord_and (h : Alike true tokens again) {text : String} (htext : text ∉ boundWords)
    {look : List Token → Bool} (hlook : Alike true (afterOne tokens) (afterOne again) →
      look (afterOne again) = look (afterOne tokens)) :
    (Grammar.isWord text again && look (afterOne again)) =
      (Grammar.isWord text tokens && look (afterOne tokens)) := by
  rw [h.isWord]
  cases hword : Grammar.isWord text tokens with
  | false => rfl
  | true => rw [hlook (h.behind ⟨text, hword, htext⟩)]

theorem weaken (h : Alike true tokens again) : Alike false tokens again := by
  induction h with
  | nil => exact .nil
  | word h ih => exact .word nofun
  | lifetime h ih => exact .lifetime ih
  | literal h => exact .literal h
  | group => exact .group
  | mark hquote h => exact .mark hquote h
  | stop h h' => exact .stop h h'

end Alike

/-! ### Operators where they stood -/

/-- Operators that a glance looks for behind a name. -/
def nameEnds : List String := ["::", ".."]

/-- Operators that a glance looks for in front of a construct. -/
def openers : List String := nameEnds ++ [",", ">"]

/-- Tokens that look alike, where the given operators stand in front if they did, and behind a first
name if they go on with it. -/
structure Same (operators : List String) (tokens again : List Token) : Prop where
  alike : Alike true tokens again
  isOp_of_mem : ∀ text ∈ operators, Grammar.isOp text again = Grammar.isOp text tokens
  isInputTurbofish : Grammar.isInputTurbofish again = Grammar.isInputTurbofish tokens
  afterName : isPathWord tokens = true → ∀ text ∈ nameEnds, text ∈ operators →
    Grammar.isOp text (afterOne again) = Grammar.isOp text (afterOne tokens)

namespace Same

variable {operators : List String} {tokens again : List Token}

theorem nil (operators : List String) : Same operators [] [] where
  alike := .nil
  isOp_of_mem _ _ := rfl
  isInputTurbofish := rfl
  afterName _ _ _ _ := rfl

theorem group {delimiter : Delimiter} {body body' rest after : List Token} :
    Same operators (.group delimiter body :: rest) (.group delimiter body' :: after) where
  alike := .group
  isOp_of_mem _ _ := by rw [isOp_group, isOp_group]
  isInputTurbofish := by simp [Grammar.isInputTurbofish]
  afterName h := nomatch h

theorem literal {text text' : String} {rest after : List Token}
    (h : Literal.isNumber text' = Literal.isNumber text) :
    Same operators (.literal text :: rest) (.literal text' :: after) where
  alike := .literal h
  isOp_of_mem _ _ := by rw [isOp_literal, isOp_literal]
  isInputTurbofish := by simp [Grammar.isInputTurbofish]
  afterName h := nomatch h

/-- Behind a word that begins no path, nothing has to stand but what looks alike. -/
theorem keyword {text : String} {rest after : List Token} (htext : isPathWord [.word text] = false)
    (h : text ∉ boundWords → Alike true rest after) :
    Same operators (.word text :: rest) (.word text :: after) where
  alike := .word fun _ => h
  isOp_of_mem _ _ := by rw [isOp_word, isOp_word]
  isInputTurbofish := by simp [Grammar.isInputTurbofish]
  afterName hname := by
    rw [show isPathWord (.word text :: rest) = isPathWord [.word text] from rfl, htext] at hname
    contradiction

/-- Behind a name that may begin a path, the operators that go on with it stand as they did. -/
theorem name {text : String} {rest after : List Token} (h : Alike true rest after)
    (hends : ∀ text ∈ nameEnds, text ∈ operators →
      Grammar.isOp text after = Grammar.isOp text rest) :
    Same operators (.word text :: rest) (.word text :: after) where
  alike := .word fun _ _ => h
  isOp_of_mem _ _ := by rw [isOp_word, isOp_word]
  isInputTurbofish := by simp [Grammar.isInputTurbofish]
  afterName _ := hends

theorem lifetime {name : String} {rest after : List Token} (h : Alike true rest after) :
    Same operators (ofLifetime name ++ rest) (ofLifetime name ++ after) where
  alike := .lifetime h
  isOp_of_mem _ _ := by simp [ofLifetime]
  isInputTurbofish := by simp [Grammar.isInputTurbofish, ofLifetime]
  afterName h := nomatch h

/-- The ends of two arguments look alike to what does not look for them. -/
theorem stop {char char' : Char} {spacing spacing' : Spacing} {rest after : List Token}
    (h : char ∈ stops) (h' : char' ∈ stops) (hseen : ∀ text ∈ operators, IsSeen text) :
    Same operators (.mark char spacing :: rest) (.mark char' spacing' :: after) where
  alike := .stop h h'
  isOp_of_mem text htext := by rw [isOp_stop (hseen text htext) h', isOp_stop (hseen text htext) h]
  isInputTurbofish := by
    simp [Grammar.isInputTurbofish, isOp_stop (by decide : IsSeen "::") h,
      isOp_stop (by decide : IsSeen "::") h']
  afterName h := nomatch h

theorem mono {fewer : List String} (h : Same operators tokens again) (hfewer : fewer ⊆ operators) :
    Same fewer tokens again :=
  { h with
    isOp_of_mem := fun text htext => h.isOp_of_mem text (hfewer htext)
    afterName := fun hname text htext hmem => h.afterName hname text htext (hfewer hmem) }

theorem isOp (h : Same operators tokens again) (text : String)
    (htext : (text.toList.length = 1 ∧ IsSeen text) ∨ text ∈ operators) :
    Grammar.isOp text again = Grammar.isOp text tokens := by
  rcases htext with ⟨hlength, hseen⟩ | hmem
  · exact h.alike.isOp_char text hlength hseen
  · exact h.isOp_of_mem text hmem

theorem isOneOf (h : Same operators tokens again) (texts : List String)
    (htexts : ∀ text ∈ texts, (text.toList.length = 1 ∧ IsSeen text) ∨ text ∈ operators) :
    Grammar.isOneOf texts again = Grammar.isOneOf texts tokens := by
  rw [Bool.eq_iff_iff]
  simp only [Grammar.isOneOf, List.any_eq_true]
  exact exists_congr fun text =>
    and_congr_right fun htext => by rw [h.isOp text (htexts text htext)]

end Same

/-! ### Operators as they are written -/

section Operators

variable {tokens rest : List Token}

/-- An operator that is written is found where it stands. -/
theorem afterOperator?_ofOperator {chars : List Char}
    (h : afterOperator? chars tokens = some rest) (after : List Token) :
    afterOperator? chars (ofOperator chars ++ after) = some after := by
  induction chars generalizing tokens with
  | nil => simp [afterOperator?] at h
  | cons c others ih =>
    obtain ⟨hquote, spacing, mid, rfl, ⟨rfl, rfl⟩ | ⟨hne, rfl, hrest⟩⟩ :=
      afterOperator?_cons_eq_some.mp h
    · exact afterOperator?_cons_eq_some.mpr ⟨hquote, .alone, after, rfl, .inl ⟨rfl, rfl⟩⟩
    · obtain ⟨d, more, rfl⟩ := List.exists_cons_of_ne_nil hne
      exact afterOperator?_cons_eq_some.mpr ⟨hquote, .joint, _, rfl, .inr ⟨hne, rfl, ih hrest⟩⟩

/-- What is found in front of an operator that is written is the beginning of it. -/
theorem prefix_of_ofOperator {chars found : List Char} {after : List Token}
    (h : afterOperator? found (ofOperator chars ++ after) = some rest) (hne : chars ≠ []) :
    found <+: chars := by
  induction found generalizing chars with
  | nil => exact List.nil_prefix
  | cons c others ih =>
    obtain ⟨d, more, rfl⟩ := List.exists_cons_of_ne_nil hne
    obtain ⟨-, spacing, mid, htokens, hothers⟩ := afterOperator?_cons_eq_some.mp h
    cases more with
    | nil =>
      obtain ⟨⟨rfl, rfl⟩, rfl⟩ : (d = c ∧ .alone = spacing) ∧ after = mid := by
        simpa [ofOperator] using htokens
      rcases hothers with ⟨rfl, -⟩ | ⟨-, hspacing, -⟩
      · exact List.prefix_rfl
      · contradiction
    | cons e more =>
      obtain ⟨⟨rfl, rfl⟩, rfl⟩ :
          (d = c ∧ .joint = spacing) ∧ ofOperator (e :: more) ++ after = mid := by
        simpa [ofOperator] using htokens
      rcases hothers with ⟨rfl, -⟩ | ⟨-, -, hrest⟩
      · exact List.cons_prefix_cons.mpr ⟨rfl, List.nil_prefix⟩
      · exact List.cons_prefix_cons.mpr ⟨rfl, ih hrest (List.cons_ne_nil _ _)⟩

/-- Of two operators at the front one is the beginning of the other. -/
theorem prefix_or_prefix {first second : List Char} {rest' : List Token}
    (hfirst : afterOperator? first tokens = some rest)
    (hsecond : afterOperator? second tokens = some rest') :
      first <+: second ∨ second <+: first := by
  induction first generalizing second tokens with
  | nil => exact .inl List.nil_prefix
  | cons c others ih =>
    cases second with
    | nil => exact .inr List.nil_prefix
    | cons d more =>
      obtain ⟨-, spacing, mid, rfl, hothers⟩ := afterOperator?_cons_eq_some.mp hfirst
      obtain ⟨-, spacing', mid', htokens, hmore⟩ := afterOperator?_cons_eq_some.mp hsecond
      obtain ⟨⟨rfl, rfl⟩, rfl⟩ : (c = d ∧ spacing = spacing') ∧ mid = mid' := by
        simpa using htokens
      simp only [List.cons_prefix_cons, true_and]
      rcases hothers with ⟨rfl, -⟩ | ⟨-, -, hothers⟩
      · exact .inl List.nil_prefix
      · rcases hmore with ⟨rfl, -⟩ | ⟨-, -, hmore⟩
        · exact .inr List.nil_prefix
        · exact ih hothers hmore

/-- The beginning of an operator stands where the operator stands. -/
theorem isSome_of_prefix {chars found : List Char} (h : afterOperator? chars tokens = some rest)
    (hbegins : found <+: chars) (hne : found ≠ []) : (afterOperator? found tokens).isSome := by
  induction found generalizing chars tokens with
  | nil => contradiction
  | cons c others ih =>
    cases chars with
    | nil => simp at hbegins
    | cons d more =>
      obtain ⟨rfl, hothers⟩ := List.cons_prefix_cons.mp hbegins
      obtain ⟨hquote, spacing, mid, rfl, hmore⟩ := afterOperator?_cons_eq_some.mp h
      by_cases hnil : others = []
      · subst hnil
        exact Option.isSome_iff_exists.mpr
          ⟨mid, afterOperator?_cons_eq_some.mpr ⟨hquote, spacing, mid, rfl, .inl ⟨rfl, rfl⟩⟩⟩
      · rcases hmore with ⟨rfl, -⟩ | ⟨-, rfl, hmore⟩
        · simp [hnil] at hothers
        · obtain ⟨next, hnext⟩ := Option.isSome_iff_exists.mp (ih hmore hothers hnil)
          exact Option.isSome_iff_exists.mpr ⟨next, afterOperator?_cons_eq_some.mpr
            ⟨hquote, .joint, mid, rfl, .inr ⟨hnil, rfl, hnext⟩⟩⟩

/-- What is found in front of an operator that is written was found in front of the operator that
was read. -/
theorem isOp_of_ofOperator {chars : List Char} (h : afterOperator? chars tokens = some rest)
    {after : List Token} {text : String} (hagain : isOp text (ofOperator chars ++ after) = true) :
    isOp text tokens = true := by
  have hne : chars ≠ [] := by
    rintro rfl
    simp [afterOperator?] at h
  obtain ⟨next, hnext⟩ := Option.isSome_iff_exists.mp hagain
  refine isSome_of_prefix h (prefix_of_ofOperator hnext hne) ?_
  intro hnil
  simp [hnil, afterOperator?] at hnext

/-- Behind a minus only a literal matters. -/
theorem isLiteral_minus {after : List Token} (h : Alike false rest after)
    (spacing spacing' : Spacing) :
    isLiteral (.mark '-' spacing' :: after) = isLiteral (.mark '-' spacing :: rest) := by
  cases h with
  | literal h => exact h
  | nil => rfl
  | word h => rfl
  | lifetime h => rfl
  | group => rfl
  | mark hquote h => rfl
  | stop h h' => rfl

/-- No literal begins with an operator unless it is a minus. -/
theorem isLiteral_eq_false {chars : List Char} (h : afterOperator? chars tokens = some rest)
    (hminus : chars ≠ ['-']) : isLiteral tokens = false := by
  cases chars with
  | nil => simp [afterOperator?] at h
  | cons c others =>
    obtain ⟨-, spacing, mid, rfl, ⟨rfl, -⟩ | ⟨hne, rfl, hrest⟩⟩ := afterOperator?_cons_eq_some.mp h
    · have hc : c ≠ '-' := by simpa using hminus
      unfold isLiteral
      split <;> simp_all
    · obtain ⟨d, more, rfl⟩ := List.exists_cons_of_ne_nil hne
      obtain ⟨-, spacing', mid', rfl, -⟩ := afterOperator?_cons_eq_some.mp hrest
      unfold isLiteral
      split <;> simp_all

/-- Two colons are two marks. -/
theorem eq_of_colons (h : afterOperator? [':', ':'] tokens = some rest) :
    ∃ spacing, tokens = .mark ':' .joint :: .mark ':' spacing :: rest := by
  obtain ⟨-, spacing, mid, rfl, ⟨hnil, -⟩ | ⟨-, rfl, hrest⟩⟩ := afterOperator?_cons_eq_some.mp h
  · contradiction
  · obtain ⟨-, spacing, mid, rfl, ⟨-, rfl⟩ | ⟨hnil, -⟩⟩ := afterOperator?_cons_eq_some.mp hrest
    · exact ⟨spacing, rfl⟩
    · contradiction

/-- If two colons stand where an operator was read, they are the operator or begin with it. -/
theorem eq_of_isOp_colons {chars : List Char} (h : afterOperator? chars tokens = some rest)
    (hcolons : [':', ':'] <+: chars → chars = [':', ':']) (hop : isOp "::" tokens = true) :
    chars = [':'] ∨ chars = [':', ':'] := by
  obtain ⟨next, hnext⟩ := Option.isSome_iff_exists.mp hop
  rcases prefix_or_prefix h hnext with hprefix | hprefix
  · match chars, h, hprefix with
    | [], h, _ => simp [afterOperator?] at h
    | [c], _, hprefix => simp_all
    | [c, d], _, hprefix => simp_all
    | c :: d :: e :: more, _, hprefix => simpa using hprefix.length_le
  · exact .inr (hcolons hprefix)

/-- What has to look as it did behind an operator, for the operator to look as it did. -/
def signs : List (List Char) := [['-'], [':', ':'], ['#']]

/-- An operator that is written looks like the one that was read. -/
theorem alike_operator {deep : Bool} {chars : List Char}
    (h : afterOperator? chars tokens = some rest) {after : List Token}
    (hcolons : [':', ':'] <+: chars → chars = [':', ':'])
    (hpound : ['#'] <+: chars → chars = ['#'])
    (hafter : chars ∈ signs → Alike false rest after) :
    Alike deep tokens (ofOperator chars ++ after) := by
  have hagain := afterOperator?_ofOperator h after
  cases chars with
  | nil => simp [afterOperator?] at h
  | cons c others =>
    obtain ⟨hquote, spacing, mid, rfl, -⟩ := afterOperator?_cons_eq_some.mp h
    obtain ⟨-, spacing', mid', htokens, -⟩ := afterOperator?_cons_eq_some.mp hagain
    have hone : others = [] → mid = rest ∧ mid' = after := by
      rintro rfl
      rw [htokens] at hagain
      simpa [afterOperator?, hquote] using And.intro h hagain
    rw [htokens] at hagain ⊢
    refine .mark hquote
      ⟨fun text _ hop => isOp_of_ofOperator h (htokens ▸ hop), ?_, fun hopens => ?_, fun hop => ?_⟩
    · by_cases hminus : c :: others = ['-']
      · obtain ⟨rfl, rfl⟩ := List.cons.inj hminus
        obtain ⟨rfl, rfl⟩ := hone rfl
        exact isLiteral_minus (hafter (by decide)) spacing spacing'
      · rw [isLiteral_eq_false h hminus, isLiteral_eq_false hagain hminus]
    · rw [isTurbofish, Bool.and_eq_true] at hopens ⊢
      have hop : isOp "::" (.mark c spacing :: mid) = true :=
        isOp_of_ofOperator h (htokens ▸ hopens.1)
      refine ⟨hop, ?_⟩
      rcases eq_of_isOp_colons h hcolons hop with hone | htwo
      · obtain ⟨next, hnext⟩ := Option.isSome_iff_exists.mp hopens.1
        rw [← htokens, hone] at hnext
        exact absurd (prefix_of_ofOperator hnext (by simp)).length_le (by decide)
      · rw [htwo] at h hagain
        obtain ⟨spacing, hrest⟩ := eq_of_colons h
        obtain ⟨spacing', hafter'⟩ := eq_of_colons hagain
        rw [hafter'] at hopens
        rw [hrest]
        change isOp "<" rest = true
        rw [← (hafter (by simp [htwo, signs])).isOp_char "<" rfl (by decide)]
        exact hopens.2
    · obtain ⟨rfl, -⟩ : c = '#' ∧ _ := by
        simpa [isOp, afterOperator?] using hop
      obtain rfl : others = [] := by simpa using hpound (by simp)
      obtain ⟨rfl, rfl⟩ := hone rfl
      exact (hafter (by decide)).isOp_char "!" rfl (by decide)

/-- An operator that is written stands where the one that was read stood. -/
theorem same_operator {operators : List String} {chars : List Char}
    (h : afterOperator? chars tokens = some rest) {after : List Token}
    (hcolons : [':', ':'] <+: chars → chars = [':', ':'])
    (hpound : ['#'] <+: chars → chars = ['#'])
    (hafter : chars ∈ signs → Alike false rest after)
    (hfits : ∀ text ∈ operators, chars <+: text.toList → text.toList = chars ∨
      isOp text tokens = false)
    (hinputs : chars = [':'] → isInputTurbofish tokens = false) :
    Same operators tokens (ofOperator chars ++ after) where
  alike := alike_operator h hcolons hpound hafter
  isOp_of_mem := by
    intro text htext
    rw [Bool.eq_iff_iff]
    refine ⟨isOp_of_ofOperator h, fun hop => ?_⟩
    obtain ⟨next, hnext⟩ := Option.isSome_iff_exists.mp hop
    have hagain := afterOperator?_ofOperator h after
    rcases prefix_or_prefix h hnext with hprefix | hprefix
    · rcases hfits text htext hprefix with heq | hnot
      · rw [isOp, heq, hagain]
        rfl
      · rw [hop] at hnot
        contradiction
    · refine isSome_of_prefix hagain hprefix ?_
      intro hnil
      simp [hnil, afterOperator?] at hnext
  isInputTurbofish := by
    have hagain := afterOperator?_ofOperator h after
    cases hop : isOp "::" tokens with
    | false =>
      have hno : isOp "::" (ofOperator chars ++ after) = false := by
        rw [Bool.eq_false_iff]
        intro hyes
        rw [isOp_of_ofOperator h hyes] at hop
        contradiction
      rw [isInputTurbofish, isInputTurbofish, hop, hno, Bool.false_and, Bool.false_and]
    | true =>
      rcases eq_of_isOp_colons h hcolons hop with hone | htwo
      · rw [hinputs hone, isInputTurbofish, Bool.and_eq_false_iff]
        refine .inl (Bool.eq_false_iff.mpr fun hyes => ?_)
        obtain ⟨next, hnext⟩ := Option.isSome_iff_exists.mp hyes
        rw [hone] at hnext
        exact absurd (prefix_of_ofOperator hnext (by simp)).length_le (by decide)
      · rw [htwo] at h hagain
        obtain ⟨spacing, hrest⟩ := eq_of_colons h
        obtain ⟨spacing', hafter'⟩ := eq_of_colons hagain
        rw [htwo, hrest, hafter']
        exact (hafter (by simp [htwo, signs])).isGroup .parenthesis
  afterName := by
    intro hname
    cases chars with
    | nil => simp [afterOperator?] at h
    | cons c others =>
      obtain ⟨-, spacing, mid, rfl, -⟩ := afterOperator?_cons_eq_some.mp h
      contradiction

end Operators

end Typestate.Grammar
