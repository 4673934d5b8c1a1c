import Typestate.Proofs.Grammar.NamedArguments
import Typestate.Proofs.Rereading.Glance
import Typestate.Proofs.Token.Lexed

/-!
# Runs that can be repeated

A parser that has found something finds it again in what is printed of it. This is shown for the
parser of each construct from the same for the parsers that it is put together from: a run of a
parser has an end, where what follows has to look as it did, and a beginning, which looks as it did
from before. How deep the sorts are is counted along with it, as a construct is read again by the
sorts that are deep enough for what is printed of it.
-/

namespace Typestate.Grammar

open Lexer Token

namespace Parser

variable {A B : Type} {tokens rest : List Token}

/-- The parser finds the value and leaves the rest, and nothing is left over in a group. -/
def Reads (parser : Parser A) (tokens : List Token) (value : A) (rest : List Token) : Prop :=
  parser tokens = .ok ⟨value, rest, none⟩

/-- A parser finds one thing. -/
theorem Reads.eq {parser : Parser A} {value found : A} {left : List Token}
    (h : parser.Reads tokens value rest) (h' : parser.Reads tokens found left) :
    value = found ∧ rest = left := by
  obtain ⟨rfl, rfl, -⟩ := (Found.mk.injEq ..).mp (Except.ok.inj (h.symm.trans h'))
  exact ⟨rfl, rfl⟩

theorem reads_pure {value found : A} :
    (pure value : Parser A).Reads tokens found rest ↔ value = found ∧ tokens = rest := by
  simp [Reads]

theorem reads_bind {parser : Parser A} {next : A → Parser B} {value : B} :
    (parser >>= next).Reads tokens value rest ↔
      ∃ first mid, parser.Reads tokens first mid ∧ (next first).Reads mid value rest := by
  constructor
  · intro h
    obtain ⟨⟨first, mid, excess⟩, ⟨found, left, excess'⟩, hfirst, hmore, heq⟩ := bind_eq_ok.mp h
    obtain ⟨rfl, rfl, hexcess⟩ := (Found.mk.injEq ..).mp heq
    obtain ⟨rfl, rfl⟩ := Option.or_eq_none_iff.mp hexcess.symm
    exact ⟨first, mid, hfirst, hmore⟩
  · rintro ⟨first, mid, hfirst, hmore⟩
    exact bind_eq_ok.mpr ⟨_, _, hfirst, hmore, rfl⟩

/-- What is at hand is taken as it is. -/
@[simp] theorem pure_bind (value : A) (next : A → Parser B) :
    (pure value : Parser A) >>= next = next value := by
  funext tokens
  change ((next value tokens).bind fun more =>
    .ok { more with excess := Option.none.or more.excess }) = _
  cases next value tokens with
  | error mismatch => rfl
  | ok found => rfl

/-- What follows a choice follows either side of it. -/
theorem ite_bind {condition : Prop} [Decidable condition] (first second : Parser A)
    (next : A → Parser B) :
    (if condition then first >>= next else second >>= next) =
      (if condition then first else second) >>= next := by
  split
  · rfl
  · rfl

/-- A choice reads what the side reads that is taken. -/
theorem reads_ite {condition : Prop} [Decidable condition] {first second : Parser A} {value : A} :
    (if condition then first else second).Reads tokens value rest ↔
      (condition ∧ first.Reads tokens value rest) ∨ (¬condition ∧
        second.Reads tokens value rest) := by
  split
  · rename_i hcondition
    simp [hcondition]
  · rename_i hnot
    simp [hnot]

theorem reads_ahead {next : List Token → Parser B} {value : B} :
    (ahead >>= next).Reads tokens value rest ↔ (next tokens).Reads tokens value rest := by
  rw [Reads, ahead_bind, Reads]

@[simp] theorem not_reads_fail {value : A} : ¬ (fail : Parser A).Reads tokens value rest := nofun

@[simp] theorem not_reads_expected {choices : List String} {value : A} :
    ¬ (expected choices : Parser A).Reads tokens value rest := nofun

@[simp] theorem not_reads_refuse {reason : String} {value : A} :
    ¬ (refuse reason : Parser A).Reads tokens value rest := nofun

theorem reads_one {parser : Parser Node} {nodes : List Node} :
    (one parser).Reads tokens nodes rest ↔ ∃ node, parser.Reads tokens node rest ∧
      [node] = nodes := by
  simp [one, reads_bind, reads_pure]

theorem reads_onlyIf {look : List Token → Bool} {parser : Parser (List Node)} {nodes : List Node} :
    (onlyIf look parser).Reads tokens nodes rest ↔
      (look tokens = true ∧ parser.Reads tokens nodes rest) ∨
        (look tokens = false ∧ nodes = [] ∧ tokens = rest) := by
  cases hlook : look tokens with
  | true => simp [Reads, onlyIf, hlook]
  | false => simp [Reads, onlyIf, hlook, eq_comm]

theorem reads_slotIf {look : List Token → Bool} {parser : Parser Node} {node : Node} :
    (slotIf look parser).Reads tokens node rest ↔
      (look tokens = true ∧ parser.Reads tokens node rest) ∨
        (look tokens = false ∧ node = .nothing ∧ tokens = rest) := by
  cases hlook : look tokens with
  | true => simp [Reads, slotIf, hlook]
  | false => simp [Reads, slotIf, hlook, eq_comm]

/-- What is kept is kept as it was read. -/
theorem isVerbatim_of_keepFrom {start : List Token} {node : Node}
    (h : (keepFrom start).Reads tokens node rest) : node.isVerbatim = true := by
  obtain ⟨rfl, -, -⟩ := (Found.mk.injEq ..).mp (Except.ok.inj h)
  rfl

theorem isVerbatim_of_asRead {A : Type} {parser : Parser A} {node : Node}
    (h : (asRead parser).Reads tokens node rest) : node.isVerbatim = true := by
  obtain ⟨_, _, -, hkeep⟩ := reads_bind.mp (reads_ahead.mp h)
  exact isVerbatim_of_keepFrom hkeep

/-- A group is read whole. -/
theorem reads_inside {delimiter : Delimiter} {parser : Parser A} {value : A} :
    (inside delimiter parser).Reads tokens value rest ↔
      ∃ body, tokens = .group delimiter body :: rest ∧ parser.Reads body value [] := by
  constructor
  · intro h
    unfold Reads inside at h
    split at h
    · split at h
      · rename_i found body left hdelimiter
        subst hdelimiter
        cases hinner : parser body with
        | error mismatch =>
          rw [hinner] at h
          contradiction
        | ok inner =>
          obtain ⟨found, remaining, excess⟩ := inner
          rw [hinner] at h
          obtain ⟨rfl, rfl, hexcess⟩ := (Found.mk.injEq ..).mp (Except.ok.inj h)
          obtain ⟨rfl, hremaining⟩ := Option.or_eq_none_iff.mp hexcess
          cases remaining with
          | nil => exact ⟨body, rfl, hinner⟩
          | cons token others => contradiction
      · contradiction
    · contradiction
  · rintro ⟨body, rfl, hbody⟩
    unfold Reads at hbody ⊢
    simp only [inside, if_true, hbody]
    rfl

theorem reads_group {delimiter : Delimiter} {parser : Parser (List Node)} {node : Node} :
    (group delimiter parser).Reads tokens node rest ↔
      ∃ body nodes, tokens = .group delimiter body :: rest ∧ parser.Reads body nodes [] ∧
        .group delimiter nodes = node := by
  simp only [group, reads_bind, reads_inside, reads_pure]
  grind

end Parser

open Grammar.Parser

/-- Every token counts. -/
theorem sizeList_pos {tokens : List Token} (h : tokens ≠ []) : 0 < sizeList tokens := by
  obtain ⟨token, rest, rfl⟩ := List.exists_cons_of_ne_nil h
  cases token <;> simp [sizeList, size]

/-! ### Runs -/

/-- A parser has found a value, of which the given tokens are printed, and finds it again in them.
What follows is to look as `ends` says, and what is printed looks as `begins` says. -/
structure Run {A : Type} (level : ℕ) (parser : Sorts → Parser A) (ends begins : List Token → Prop)
    (tokens : List Token) (value : A) (rest printed : List Token) : Prop where
  /-- Sorts that are deep enough for what is printed read it again. -/
  again : ∀ {after : List Token} {depth : ℕ}, ends after → 8 * sizeList printed + level ≤ depth →
    (parser (Sorts.deepened depth .none)).Reads (printed ++ after) value after
  begins : ∀ {after : List Token}, ends after → begins (printed ++ after)
  written : Written tokens → Written printed ∧ Written rest
  shorter : rest.length ≤ tokens.length

namespace Run

variable {A B : Type} {level : ℕ} {parser : Sorts → Parser A} {ends begins : List Token → Prop}
  {tokens rest printed : List Token} {value : A}

theorem pure : Run level (fun _ => pure value) ends ends tokens value tokens [] where
  again _ _ := reads_pure.mpr ⟨rfl, rfl⟩
  begins h := h
  written h := ⟨.nil, h⟩
  shorter := le_rfl

/-- One run after another, at any depth. -/
theorem bind {next : Sorts → A → Parser B} {mid again : List Token} {more : B}
    (middle : List Token → Prop)
    (hfirst : Run level parser middle begins tokens value mid printed)
    (hnext : Run level (fun sorts => next sorts value) ends middle mid more rest again) :
    Run level (fun sorts => parser sorts >>= next sorts) ends begins tokens more rest
      (printed ++ again) where
  again {after depth} hafter hdepth := by
    rw [sizeList_append] at hdepth
    rw [List.append_assoc]
    exact reads_bind.mpr ⟨value, again ++ after, hfirst.again (hnext.begins hafter) (by omega),
      hnext.again hafter (by omega)⟩
  begins hafter := by
    rw [List.append_assoc]
    exact hfirst.begins (hnext.begins hafter)
  written h := by
    obtain ⟨hprinted, hmid⟩ := hfirst.written h
    obtain ⟨hagain, hrest⟩ := hnext.written hmid
    exact ⟨Written.append hprinted hagain, hrest⟩
  shorter := hnext.shorter.trans hfirst.shorter

/-- Behind a token that is taken, sorts that are eight steps less deep are deep enough. -/
theorem next {next : Sorts → A → Parser B} {mid again : List Token} {more : B}
    (middle : List Token → Prop)
    (hfirst : Run level parser middle begins tokens value mid printed) (hne : printed ≠ [])
    (hnext : Run (level + 8) (fun sorts => next sorts value) ends middle mid more rest again) :
    Run level (fun sorts => parser sorts >>= next sorts) ends begins tokens more rest
      (printed ++ again) where
  again {after depth} hafter hdepth := by
    have hsize : 0 < sizeList printed := sizeList_pos hne
    rw [sizeList_append] at hdepth
    rw [List.append_assoc]
    exact reads_bind.mpr ⟨value, again ++ after, hfirst.again (hnext.begins hafter) (by omega),
      hnext.again hafter (by omega)⟩
  begins hafter := by
    rw [List.append_assoc]
    exact hfirst.begins (hnext.begins hafter)
  written h := by
    obtain ⟨hprinted, hmid⟩ := hfirst.written h
    obtain ⟨hagain, hrest⟩ := hnext.written hmid
    exact ⟨Written.append hprinted hagain, hrest⟩
  shorter := hnext.shorter.trans hfirst.shorter

theorem map (f : A → B) (h : Run level parser ends begins tokens value rest printed) :
    Run level (fun sorts => do return f (← parser sorts)) ends begins tokens (f value) rest
      printed where
  again hafter hdepth := reads_bind.mpr ⟨value, _, h.again hafter hdepth, reads_pure.mpr ⟨rfl, rfl⟩⟩
  begins := h.begins
  written := h.written
  shorter := h.shorter

theorem raise {lower : ℕ} (h : Run lower parser ends begins tokens value rest printed)
    (hlevel : lower ≤ level) : Run level parser ends begins tokens value rest printed where
  again hafter hdepth := h.again hafter (by omega)
  begins := h.begins
  written := h.written
  shorter := h.shorter

theorem mono {ends' begins' : List Token → Prop}
    (h : Run level parser ends begins tokens value rest printed)
    (hends : ∀ after, ends' after → ends after) (hbegins : ∀ again, begins again → begins' again) :
    Run level parser ends' begins' tokens value rest printed where
  again hafter hdepth := h.again (hends _ hafter) hdepth
  begins hafter := hbegins _ (h.begins (hends _ hafter))
  written := h.written
  shorter := h.shorter

theorem cast {printed' : List Token}
    (h : Run level parser ends begins tokens value rest printed') (heq : printed' = printed) :
    Run level parser ends begins tokens value rest printed := heq ▸ h

/-- What a parser finds may depend on what is at hand only as far as it is found again. -/
theorem aheadFrom {next : Sorts → List Token → Parser A}
    (h : Run level (fun sorts => next sorts tokens) ends begins tokens value rest printed)
    (hnext : ∀ again sorts after, begins again → (next sorts tokens).Reads again value after →
      (next sorts again).Reads again value after) :
    Run level (fun sorts => Parser.ahead >>= next sorts) ends begins tokens value rest printed where
  again hafter hdepth :=
    reads_ahead.mpr (hnext _ _ _ (h.begins hafter) (h.again hafter hdepth))
  begins := h.begins
  written := h.written
  shorter := h.shorter

/-- A glance sees in what is printed what it saw before. -/
theorem ahead {next : Sorts → List Token → Parser A}
    (h : Run level (fun sorts => next sorts tokens) ends begins tokens value rest printed)
    (hnext : ∀ again sorts, begins again → next sorts again = next sorts tokens) :
    Run level (fun sorts => Parser.ahead >>= next sorts) ends begins tokens value rest printed :=
  h.aheadFrom fun again sorts after hagain hreads => by rwa [hnext again sorts hagain]

/-- What a parser finds may be independent of what is at hand. -/
theorem from_any {next : Sorts → List Token → Parser A}
    (h : ∀ start, Run level (fun sorts => next sorts start) ends begins tokens value rest printed) :
    Run level (fun sorts => Parser.ahead >>= next sorts) ends begins tokens value rest printed where
  again hafter hdepth := reads_ahead.mpr ((h _).again hafter hdepth)
  begins := (h []).begins
  written := (h []).written
  shorter := (h []).shorter

/-- The number of rounds that a parser is given grows with the tokens. -/
theorem rounds {next : Sorts → ℕ → Parser A}
    (h : ∀ rounds, printed.length < rounds →
      Run level (fun sorts => next sorts rounds) ends begins tokens value rest printed) :
    Run level (fun sorts => Parser.ahead >>= fun tokens => next sorts (tokens.length + 1))
      ends begins tokens value rest printed where
  again {after depth} hafter hdepth := by
    rw [reads_ahead]
    refine (h _ ?_).again hafter hdepth
    rw [List.length_append]
    omega
  begins := (h _ (Nat.lt_succ_self _)).begins
  written := (h _ (Nat.lt_succ_self _)).written
  shorter := (h _ (Nat.lt_succ_self _)).shorter

/-- Of a choice that is settled, the side that was taken is read again. -/
theorem ite {condition : Prop} [Decidable condition] {first second : Sorts → Parser A}
    {sorts : Sorts}
    (h : (if condition then first sorts else second sorts).Reads tokens value rest)
    (hfirst : condition → (first sorts).Reads tokens value rest →
      Run level first ends begins tokens value rest printed)
    (hsecond : ¬condition → (second sorts).Reads tokens value rest →
      Run level second ends begins tokens value rest printed) :
    Run level (fun sorts => if condition then first sorts else second sorts) ends begins
      tokens value rest printed := by
  rcases reads_ite.mp h with ⟨hcondition, h⟩ | ⟨hnot, h⟩
  · simp only [if_pos hcondition]
    exact hfirst hcondition h
  · simp only [if_neg hnot]
    exact hsecond hnot h

/-- The same for parsers that need no sorts. -/
theorem choose {condition : Prop} [Decidable condition] {first second : Parser A}
    (h : (if condition then first else second).Reads tokens value rest)
    (hfirst : condition → first.Reads tokens value rest →
      Run level (fun _ => first) ends begins tokens value rest printed)
    (hsecond : ¬condition → second.Reads tokens value rest →
      Run level (fun _ => second) ends begins tokens value rest printed) :
    Run level (fun _ => if condition then first else second) ends begins tokens value rest
      printed := by
  rcases reads_ite.mp h with ⟨hcondition, h⟩ | ⟨hnot, h⟩
  · simp only [if_pos hcondition]
    exact hfirst hcondition h
  · simp only [if_neg hnot]
    exact hsecond hnot h

theorem one {parser : Sorts → Parser Node} {node : Node}
    (h : Run level parser ends begins tokens node rest printed) :
    Run level (fun sorts => Parser.one (parser sorts)) ends begins tokens [node] rest printed where
  again hafter hdepth := reads_one.mpr ⟨node, h.again hafter hdepth, rfl⟩
  begins := h.begins
  written := h.written
  shorter := h.shorter

/-- What is looked for is found again, and what was not there is not there again. -/
theorem onlyIf {look : List Token → Bool} {parser : Sorts → Parser (List Node)} {nodes : List Node}
    (sorts : Sorts) (h : (Parser.onlyIf look (parser sorts)).Reads tokens nodes rest)
    (htaken : look tokens = true → (parser sorts).Reads tokens nodes rest →
      Run level parser ends begins tokens nodes rest (nodes.flatMap Node.leaves))
    (hskipped : look tokens = false → tokens = rest → ∀ after, ends after → begins after)
    (hlook : ∀ again, begins again → look again = look tokens) :
    Run level (fun sorts => Parser.onlyIf look (parser sorts)) ends begins tokens nodes rest
      (nodes.flatMap Node.leaves) := by
  rcases reads_onlyIf.mp h with ⟨hthere, hreads⟩ | ⟨hnot, rfl, rfl⟩
  · have hrun := htaken hthere hreads
    exact ⟨fun hafter hdepth => reads_onlyIf.mpr
        (.inl ⟨(hlook _ (hrun.begins hafter)).trans hthere, hrun.again hafter hdepth⟩),
      hrun.begins, hrun.written, hrun.shorter⟩
  · have hbegins := hskipped hnot rfl
    exact ⟨fun hafter _ => reads_onlyIf.mpr
        (.inr ⟨(hlook _ (hbegins _ hafter)).trans hnot, rfl, rfl⟩),
      fun hafter => hbegins _ hafter, fun h => ⟨.nil, h⟩, le_rfl⟩

/-- The same for a part that keeps its place if it is left out. -/
theorem slotIf {look : List Token → Bool} {parser : Sorts → Parser Node} {node : Node}
    (sorts : Sorts) (h : (Parser.slotIf look (parser sorts)).Reads tokens node rest)
    (htaken : look tokens = true → (parser sorts).Reads tokens node rest →
      Run level parser ends begins tokens node rest node.leaves)
    (hskipped : look tokens = false → tokens = rest → ∀ after, ends after → begins after)
    (hlook : ∀ again, begins again → look again = look tokens) :
    Run level (fun sorts => Parser.slotIf look (parser sorts)) ends begins tokens node rest
      node.leaves := by
  rcases reads_slotIf.mp h with ⟨hthere, hreads⟩ | ⟨hnot, rfl, rfl⟩
  · have hrun := htaken hthere hreads
    exact ⟨fun hafter hdepth => reads_slotIf.mpr
        (.inl ⟨(hlook _ (hrun.begins hafter)).trans hthere, hrun.again hafter hdepth⟩),
      hrun.begins, hrun.written, hrun.shorter⟩
  · have hbegins := hskipped hnot rfl
    exact ⟨fun hafter _ => reads_slotIf.mpr
        (.inr ⟨(hlook _ (hbegins _ hafter)).trans hnot, rfl, rfl⟩),
      fun hafter => hbegins _ hafter, fun h => ⟨.nil, h⟩, le_rfl⟩

/-- What stands in a group ends where the group ends. -/
theorem inside {delimiter : Delimiter} {body : List Token} {inner : List Token → Prop}
    (h : Run 8 parser (· = []) inner body value [] printed) (operators : List String) :
    Run level (fun sorts => Parser.inside delimiter (parser sorts)) ends
      (Same operators (.group delimiter body :: rest)) (.group delimiter body :: rest) value rest
      [.group delimiter printed] where
  again {after depth} _ hdepth := by
    have hsize : sizeList [.group delimiter printed] = sizeList printed + 1 := by
      simp [sizeList, size]
    refine reads_inside.mpr ⟨printed, rfl, ?_⟩
    have hagain : (parser (Sorts.deepened depth .none)).Reads (printed ++ []) value [] :=
      h.again rfl (by omega)
    rwa [List.append_nil] at hagain
  begins _ := .group
  written hwritten := ⟨.group (h.written hwritten.body).1 .nil, hwritten.tail⟩
  shorter := Nat.le_succ _

theorem group {delimiter : Delimiter} {body : List Token} {inner : List Token → Prop}
    {parser : Sorts → Parser (List Node)} {nodes : List Node}
    (h : Run 8 parser (· = []) inner body nodes [] (nodes.flatMap Node.leaves))
    (operators : List String) :
    Run level (fun sorts => Parser.group delimiter (parser sorts)) ends
      (Same operators (.group delimiter body :: rest)) (.group delimiter body :: rest)
      (.group delimiter nodes) rest (Node.group delimiter nodes).leaves := by
  rw [Node.leaves_group]
  exact (h.inside operators).map (Node.group delimiter)

end Run

end Typestate.Grammar
