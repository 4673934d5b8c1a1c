import Typestate.Grammar.Whole

/-!
# Tokens of visibilities

A visibility is written with no word of its own but the first. So words that are searched for among
the tokens of an item are not found in its visibility.
-/

namespace Typestate.Grammar

open Grammar.Parser

/-- What a parser and the next one find together. -/
theorem Parser.bind_eq_ok {A B : Type} {parser : Parser A} {next : A → Parser B}
    {tokens : List Token} {found : Found B} :
    (parser >>= next) tokens = .ok found ↔
      ∃ first more, parser tokens = .ok first ∧ next first.value first.rest = .ok more ∧
        found = { more with excess := first.excess.or more.excess } := by
  change (parser tokens).bind (fun first => (next first.value first.rest).bind fun more =>
    .ok { more with excess := first.excess.or more.excess }) = .ok found ↔ _
  cases parser tokens with
  | error mismatch => simp [Except.bind]
  | ok first =>
    cases hmore : next first.value first.rest with
    | error mismatch => simp [Except.bind, hmore]
    | ok more => simp [Except.bind, hmore, eq_comm]

/-- Where the first parser succeeds, the second one goes on. -/
theorem Parser.bind_of_ok {A B : Type} {parser : Parser A} {next : A → Parser B}
    {tokens rest : List Token} {value : A} (h : parser tokens = .ok ⟨value, rest, none⟩) :
    (parser >>= next) tokens = next value rest := by
  change (parser tokens).bind (fun first => (next first.value first.rest).bind fun more =>
    .ok { more with excess := first.excess.or more.excess }) = _
  rw [h]
  cases hmore : next value rest with
  | error mismatch => simp [Except.bind, hmore]
  | ok more => simp [Except.bind, hmore]

/-- Looking ahead takes nothing. -/
@[simp] theorem Parser.ahead_bind {A : Type} (next : List Token → Parser A) (tokens : List Token) :
    (ahead >>= next) tokens = next tokens tokens := bind_of_ok rfl

/-- A taken keyword is that word. -/
theorem keyword_eq_ok {text : String} {tokens : List Token} {found : Found Node}
    (h : keyword text tokens = .ok found) : found.value = .word text := by
  unfold keyword at h
  split at h
  · split at h
    · rw [← Except.ok.inj h]
    · contradiction
  · contradiction

/-- The scope of a visibility is a group. -/
theorem scope_eq_ok {tokens : List Token} {found : Found Node} (h : scope tokens = .ok found) :
    ∃ children, found.value = .group .parenthesis children := by
  obtain ⟨inner, more, -, hmore, rfl⟩ := bind_eq_ok.mp h
  rw [← Except.ok.inj hmore]
  exact ⟨inner.value, rfl⟩

/-- A visibility is left out, or it is the word `pub` and perhaps a group. -/
theorem visibility_eq_ok {tokens : List Token} {found : Found (List Node)}
    (h : visibility tokens = .ok found) :
    found.value = [] ∨ found.value = [.branch .visibility [.word "pub"]] ∨
      ∃ children,
        found.value = [.branch .visibility [.word "pub", .group .parenthesis children]] := by
  unfold visibility onlyIf at h
  split at h
  · obtain ⟨word, more, hword, hmore, rfl⟩ := bind_eq_ok.mp h
    obtain ⟨scopes, last, hscopes, hlast, rfl⟩ := bind_eq_ok.mp hmore
    refine Or.inr ?_
    rw [← Except.ok.inj hlast, keyword_eq_ok hword]
    split at hscopes
    · obtain ⟨node, single, hnode, hsingle, rfl⟩ := bind_eq_ok.mp hscopes
      obtain ⟨children, hchildren⟩ := scope_eq_ok hnode
      rw [← Except.ok.inj hsingle, hchildren]
      exact Or.inr ⟨children, rfl⟩
    · rw [← Except.ok.inj hscopes]
      exact Or.inl rfl
  · rw [← Except.ok.inj h]
    exact Or.inl rfl

/-- What is left of a result if the reason of a failure is forgotten. -/
theorem toOption_eq_some {E A : Type} {result : Except E A} {a : A} :
    result.toOption = some a ↔ result = .ok a := by
  cases result with
  | error error =>
    constructor
    · intro h
      contradiction
    · intro h
      contradiction
  | ok found =>
    change some found = some a ↔ _
    rw [Option.some.injEq, Except.ok.injEq]

/-- What is read of all tokens is what the parser finds. -/
theorem all_eq_ok {A : Type} {parser : Parser A} {tokens : List Token} {value : A}
    (h : all parser tokens = .ok value) :
    ∃ found, parser tokens = .ok found ∧ found.value = value := by
  unfold all at h
  cases hfound : parser tokens with
  | error mismatch =>
    rw [hfound] at h
    contradiction
  | ok found =>
    rw [hfound] at h
    refine ⟨found, rfl, ?_⟩
    simp only [bind, Except.bind] at h
    split at h
    · contradiction
    · split at h
      · exact Except.ok.inj h
      · contradiction

/-- Tokens that a parser reads as a whole are read by it. -/
theorem read?_eq_some {A : Type} {parser : Sorts → Parser A} {text : String} {value : A}
    (h : read? parser text = some value) :
    ∃ sorts tokens found, parser sorts tokens = .ok found ∧ found.value = value := by
  obtain ⟨tokens, -, hread⟩ := Option.bind_eq_some_iff.mp h
  obtain ⟨found, hfound, hvalue⟩ := all_eq_ok (toOption_eq_some.mp hread)
  exact ⟨Sorts.for tokens, tokens, found, hfound, hvalue⟩

/-- With nothing around it, a tree needs no parentheses. -/
theorem needsParentheses_plain (node : Node) :
    Surroundings.plain.needsParentheses node = false := by
  simp [Surroundings.needsParentheses, Surroundings.plain]

/-- The tokens of a visibility are the word and what its scope is written as. -/
theorem tokens_visibility (scopes : List Node) :
    (Node.branch .visibility (.word "pub" :: scopes)).tokens =
      .word "pub" :: Node.listLeavesBefore [] (listSettled scopes) := by
  simp [Node.tokens, Node.settled, listSettled, needsParentheses_plain, Surroundings.write,
    Node.leaves, Node.leavesBefore, Node.listLeavesBefore]

/-- A visibility that is not left out is written as the word `pub` and perhaps a group. -/
theorem flatMap_tokens_visibility {text : String} {nodes : List Node}
    (h : readVisibility? text = some nodes) :
    nodes = [] ∨ nodes.flatMap Node.tokens = [.word "pub"] ∨
      ∃ body, nodes.flatMap Node.tokens = [.word "pub", .group .parenthesis body] := by
  obtain ⟨sorts, tokens, found, hfound, rfl⟩ := read?_eq_some h
  rcases visibility_eq_ok hfound with hnone | hpublic | ⟨children, hscope⟩
  · exact .inl hnone
  · rw [hpublic, List.flatMap_cons, tokens_visibility]
    exact .inr (.inl rfl)
  · have hgroup : Node.listLeavesBefore [] (listSettled [.group .parenthesis children]) =
        [.group .parenthesis (Node.listLeavesBefore [] (listSettled children))] := by
      simp [listSettled, Node.settled, needsParentheses_plain, Surroundings.write,
        Node.leavesBefore, Node.listLeavesBefore]
    rw [hscope, List.flatMap_cons, tokens_visibility, hgroup]
    exact .inr (.inr ⟨_, rfl⟩)

/-- Tokens are written for a visibility exactly if it is not left out. -/
theorem tokens_visibility_eq_nil {text : String} {nodes : List Node}
    (h : readVisibility? text = some nodes) : nodes.flatMap Node.tokens = [] ↔ nodes = [] := by
  constructor
  · intro hempty
    rcases flatMap_tokens_visibility h with hnone | hpublic | ⟨body, hscope⟩
    · exact hnone
    · exact absurd (hempty.symm.trans hpublic) nofun
    · exact absurd (hempty.symm.trans hscope) nofun
  · rintro rfl
    rfl

/-- What holds of the word `pub` and of every group in parentheses holds of the tokens of a
visibility. -/
theorem forall_visibility {text : String} {nodes : List Node}
    (h : readVisibility? text = some nodes) {P : Token → Prop} (hpub : P (.word "pub"))
    (hscope : ∀ body, P (.group .parenthesis body)) :
    ∀ token ∈ nodes.flatMap Node.tokens, P token := by
  rcases flatMap_tokens_visibility h with rfl | hpublic | ⟨body, hgroup⟩
  · exact fun token htoken => absurd htoken List.not_mem_nil
  · rw [hpublic]
    exact List.forall_mem_singleton.mpr hpub
  · rw [hgroup]
    exact List.forall_mem_cons.mpr ⟨hpub, List.forall_mem_singleton.mpr (hscope body)⟩

end Typestate.Grammar
