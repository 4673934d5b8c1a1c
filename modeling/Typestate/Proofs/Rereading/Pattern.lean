import Typestate.Proofs.Rereading.Field

/-!
# Patterns, read again

Alternatives stand between single bars, a range between its ends, and a name by itself unless
something goes on with it. A pattern takes attributes where it stands.
-/

namespace Typestate.Grammar

open Grammar.Parser Lexer Token

section Pattern

variable {level : ℕ} {sorts : Sorts} {operators : List String} {tokens rest : List Token}
  {ends : List Token → Prop} {node : Node}

/-! ### Alternatives -/

theorem Same.isAlternativeBar {again : List Token} (h : Same alternativesEnds tokens again) :
    Grammar.isAlternativeBar again = Grammar.isAlternativeBar tokens := by
  rw [Grammar.isAlternativeBar, Grammar.isAlternativeBar, h.isOp "|" (by decide),
    h.isOp "||" (by decide), h.isOp "|=" (by decide)]

/-- A bar between alternatives is no longer operator. -/
theorem alternativeBar_run (h : (operator "|").Reads tokens node rest)
    (hbar : isAlternativeBar tokens = true) :
    Run level (fun _ => operator "|") ends (Same alternativesEnds tokens) tokens node rest
      node.leaves := by
  refine operator_run h fun after _ => same_operator (reads_operator.mp h).1 (by decide) (by decide)
    (fun hmem => absurd hmem (by decide)) (fun longer hmem hbegins => ?_) nofun
  have hall : ∀ longer ∈ alternativesEnds, ['|'] <+: longer.toList →
      longer = "||" ∨ longer = "|=" := by
    decide
  simp only [isAlternativeBar, Bool.and_eq_true, Bool.not_eq_true'] at hbar
  rcases hall longer hmem hbegins with rfl | rfl
  · exact .inr hbar.1.2
  · exact .inr hbar.2

/-- The bar in front of the first alternative is read again. -/
theorem leadingBar_run {nodes : List Node} (h : (operator? "|").Reads tokens nodes rest) :
    Run level (fun _ => operator? "|") (SamePattern rest) (SamePattern tokens) tokens nodes rest
      (nodes.flatMap Node.leaves) := by
  refine .onlyIf .none h (fun hthere hreads => ?_) (fun _ heq after => heq ▸ id)
    fun again hagain => hagain.isOp "|" (by decide)
  obtain ⟨bar, hbar, rfl⟩ := reads_one.mp hreads
  have hrun : Run level (fun _ => operator "|") (SamePattern rest) (Same openers tokens) tokens bar
      rest bar.leaves := clear_run hbar (by decide)
  refine (hrun.one.cast (List.append_nil _).symm).mono (fun _ => id) fun _ h => h.pattern ?_
  obtain ⟨next, hnext⟩ := Option.isSome_iff_exists.mp hthere
  obtain ⟨-, spacing, mid, rfl, -⟩ :=
    afterOperator?_cons_eq_some.mp (show afterOperator? ['|'] tokens = some next from hnext)
  exact isOp_mark (by decide) _ _

/-- A pattern with its alternatives is read again. -/
theorem alternatives_run (hsorts : sorts.Replays) (hlevel : 1 ≤ level)
    (h : (alternatives sorts).Reads tokens node rest) (hnode : node.isExplicit = true) :
    Run level alternatives (Same alternativesEnds rest) (SamePattern tokens) tokens node rest
      node.leaves ∧ node.isLed = true := by
  obtain ⟨leading, mid, hleading, h⟩ := reads_bind.mp h
  obtain ⟨first, left, hfirst, h⟩ := reads_bind.mp h
  have hpattern : ∀ {tokens node rest}, sorts.pattern.Reads tokens node rest →
      node.isExplicit = true → Run level (fun sorts => sorts.pattern) (Same alternativesEnds rest)
        (SamePattern tokens) tokens node rest node.leaves := fun hreads hexplicit =>
    ((hsorts.pattern hreads hexplicit).run.raise hlevel).mono (fun _ h => h.mono (by decide))
      fun _ => id
  unfold alternatives
  rcases reads_ite.mp (reads_ahead.mp h) with ⟨hbar, h⟩ | ⟨hnot, hpure⟩
  · obtain ⟨others, last, hothers, hpure⟩ := reads_bind.mp h
    obtain ⟨rfl, rfl⟩ := reads_pure.mp hpure
    have hparts := Node.isExplicit_parts hnode rfl
    have hmore : Run level (fun sorts => repeatWhile isAlternativeBar do
          let bar ← operator "|"
          return [bar, ← sorts.pattern]) (Same alternativesEnds last)
            (Same alternativesEnds left) left
        others last (others.flatMap Node.leaves) := by
      refine repeatWhile_run Node.leaves (fun node => node.isExplicit = true)
        (fun hagain => hagain.isAlternativeBar) (fun hthere hfound hexplicit => ?_) hothers
        fun node hmem => hparts node (by simp [hmem])
      obtain ⟨bar, mid, hbar, shape, last, hshape, hpure⟩ := by simpa only [reads_bind] using hfound
      obtain ⟨rfl, rfl⟩ := reads_pure.mp hpure
      refine ⟨?_, .cast (.bind (SamePattern mid) (alternativeBar_run hbar hthere)
        ((hpattern hshape (hexplicit shape (by simp))).map _)) (by simp)⟩
      rw [List.flatMap_cons]
      exact List.append_ne_nil_of_left_ne_nil (leaves_ne_nil_of_operator hbar) _
    refine ⟨.cast (.bind _ (leadingBar_run hleading) (.bind (Same alternativesEnds left)
      (hpattern hfirst (hparts first (by simp)))
      (.ahead ?_ fun again sorts hagain => by rw [hagain.isAlternativeBar])))
      (show _ ++ (first.leaves ++ others.flatMap Node.leaves) = _ by simp), rfl⟩
    simp only [if_pos hbar]
    exact hmore.map _
  · obtain ⟨rfl, rfl⟩ := reads_pure.mp hpure
    obtain rfl : leading = [] := by
      have hnone := Bool.or_eq_false_iff.mp (Bool.eq_false_iff.mpr hnot)
      simpa using hnone.1
    refine ⟨.cast (.bind _ (leadingBar_run hleading) (.bind (Same alternativesEnds left)
      (hpattern hfirst hnode)
      (.ahead ?_ fun again sorts hagain => by rw [hagain.isAlternativeBar])))
      (show [] ++ (first.leaves ++ []) = _ by simp), (hsorts.pattern hfirst hnode).isLed⟩
    simp only [if_neg hnot]
    exact .pure

/-! ### Ranges -/

/-- The first end of a range, or a constant by itself, is read again. -/
theorem rangeBound_run (hsorts : sorts.Replays) (h : (rangeBound sorts).Reads tokens node rest)
    (hnode : node.isExplicit = true) :
    Run level rangeBound (Same patternEnds rest) (SamePattern tokens) tokens node rest node.leaves ∧
      node.isLed = true := by
  have hled : node.isLed = true := by
    rcases reads_ite.mp (reads_ahead.mp h) with ⟨-, h⟩ | ⟨-, h⟩
    · obtain ⟨_, _, -, hpure⟩ := reads_bind.mp h
      rw [← (reads_pure.mp hpure).1]
      rfl
    rcases reads_ite.mp h with ⟨-, h⟩ | ⟨-, h⟩
    · obtain ⟨_, _, -, hpure⟩ := reads_bind.mp h
      rw [← (reads_pure.mp hpure).1]
      rfl
    rcases reads_ite.mp h with ⟨-, h⟩ | ⟨-, h⟩
    · obtain ⟨_, _, -, _, _, -, hpure⟩ := by simpa only [reads_bind] using h
      rw [← (reads_pure.mp hpure).1]
      rfl
    · exact absurd h not_reads_expected
  refine ⟨?_, hled⟩
  rw [rangeBound, reads_ahead] at h
  unfold rangeBound
  refine .ahead (.ite h (fun hliteral h => ?_) fun _ h => .ite h (fun _ h => ?_) fun _ h => .ite h
    (fun hword h => ?_) fun _ h => absurd h not_reads_expected)
    fun again sorts hagain => by
      rw [hagain.alike.isLiteral, hagain.toSame.beginsPath, hagain.alike.isWord]
  · obtain ⟨value, mid, hvalue, hpure⟩ := reads_bind.mp h
    obtain ⟨rfl, rfl⟩ := reads_pure.mp hpure
    have hrun : Run level (fun _ => Parser.literal) (Same patternEnds mid) (Same openers tokens)
        tokens value mid value.leaves := literal_run hvalue fun _ h => h.alike
    refine ((hrun.map _).cast (by simp)).mono (fun _ => id) fun _ h => h.pattern ?_
    unfold isLiteral at hliteral
    split at hliteral
    · exact isOp_literal ..
    · exact isOp_word ..
    · exact isOp_mark (by decide) _ _
    · contradiction
  · obtain ⟨found, mid, hfound, hpure⟩ := reads_bind.mp h
    obtain ⟨rfl, rfl⟩ := reads_pure.mp hpure
    have hexplicit := Node.isExplicit_parts hnode rfl _ (List.mem_singleton_self _)
    exact ((anyPath_run hsorts (by decide) (by decide) hfound hexplicit).map _).cast (by simp)
  · obtain ⟨word, mid, hconst, block, last, hblock, hpure⟩ := by simpa only [reads_bind] using h
    obtain ⟨rfl, rfl⟩ := reads_pure.mp hpure
    have hexplicit := Node.isExplicit_parts hnode rfl block (by simp)
    have hrun : Run level (fun _ => keyword "const") (Same [] mid) (Same openers tokens) tokens word
        mid word.leaves := keyword_run hconst rfl fun _ h _ => h.alike
    refine .cast (.bind _ (hrun.mono (fun _ => id) fun _ h => h.pattern ?_)
      ((blockWithAttributes_run hsorts hblock hexplicit).map _)) (by simp)
    rw [(reads_keyword.mp hconst).1]
    exact isOp_word ..

theorem Same.isRangeEnd {again : List Token} (h : Same openers tokens again) :
    Grammar.isRangeEnd again = Grammar.isRangeEnd tokens := by
  rw [Grammar.isRangeEnd, Grammar.isRangeEnd, h.alike.isEmpty, h.isOneOf _ (by decide),
    h.alike.isWord, h.isOp ":" (by decide), h.isOp "::" (by decide)]

/-- Where a range ended, it ends again. -/
theorem Same.endsRange {again : List Token} (h : Same patternEnds tokens again)
    (hend : Grammar.isRangeEnd tokens = true) : Grammar.isRangeEnd again = true := by
  rw [Grammar.isRangeEnd, h.alike.isEmpty, h.isOneOf _ (by decide), h.alike.isWord,
    h.isOp ":" (by decide)]
  rw [Grammar.isRangeEnd] at hend
  cases hcolons : Grammar.isOp "::" again with
  | true =>
    rw [h.alike.isOp_of_again (by decide) hcolons] at hend
    exact hend
  | false =>
    cases hthere : Grammar.isOp "::" tokens with
    | false => rwa [hthere] at hend
    | true =>
      rw [hthere] at hend
      rcases Bool.or_eq_true_iff.mp hend with hend | hend
      · rw [hend, Bool.true_or]
      · rw [Bool.not_true, Bool.and_false] at hend
        contradiction

/-- The last end of a range is read again, or left out again. -/
theorem rangeStop_run {closed : Bool} (hsorts : sorts.Replays)
    (h : (rangeStop sorts closed).Reads tokens node rest) (hnode : node.isExplicit = true) :
    Run level (fun sorts => rangeStop sorts closed) (Same patternEnds rest)
      (fun again => isRangeEnd again = isRangeEnd tokens) tokens node rest node.leaves := by
  rw [rangeStop, reads_ahead] at h
  unfold rangeStop
  refine .ahead (.ite h (fun hend h => ?_) fun hnot h => ?_) fun again sorts
    hagain => by rw [hagain]
  · rcases reads_ite.mp h with ⟨-, hexpected⟩ | ⟨hopen, hpure⟩
    · exact absurd hexpected not_reads_expected
    · obtain ⟨rfl, rfl⟩ := reads_pure.mp hpure
      simp only [if_neg hopen]
      exact .mono .pure (fun _ => id) fun _ hagain => (hagain.endsRange hend).trans hend.symm
  · exact (rangeBound_run hsorts h hnode).1.mono (fun _ => id) fun _ h => h.toSame.isRangeEnd

/-- A range is read again after its first end. -/
theorem rangeFrom_run {first : Node} (hsorts : sorts.Replays)
    (h : (rangeFrom sorts first).Reads tokens node rest) (hnode : node.isExplicit = true) :
    first.isExplicit = true ∧ node.isLed = true ∧ ∃ printed, node.leaves = first.leaves ++ printed ∧
      Run level (fun sorts => rangeFrom sorts first) (Same patternEnds rest)
        (Same patternEnds tokens) tokens node rest printed := by
  obtain ⟨⟨closed, sign⟩, mid, hsign, stop, last, hstop, hpure⟩ := by
    simpa only [rangeFrom, reads_bind] using h
  obtain ⟨rfl, rfl⟩ := reads_pure.mp hpure
  have hparts := Node.isExplicit_parts hnode rfl
  refine ⟨hparts first (by simp), rfl, sign.leaves ++ stop.leaves, by simp, ?_⟩
  unfold rangeFrom
  exact .bind _ (rangeSign_run hsign) ((rangeStop_run hsorts hstop (hparts stop (by simp))).map _)

/-- A range without a first end, or the rest of a list, is read again. -/
theorem rangeUpTo_run (hsorts : sorts.Replays) (h : (rangeUpTo sorts).Reads tokens node rest)
    (hnode : node.isExplicit = true) (hdots : isOp ".." tokens = true) :
    Run level rangeUpTo (Same patternEnds rest) (SamePattern tokens) tokens node rest node.leaves ∧
      node.isLed = true := by
  obtain ⟨⟨closed, sign⟩, mid, hsign, stop, last, hstop, h⟩ := by
    simpa only [rangeUpTo, reads_bind] using h
  have hangle : isOp "<" tokens = false := by
    obtain ⟨next, hnext⟩ := Option.isSome_iff_exists.mp hdots
    obtain ⟨-, spacing, mid, rfl, -⟩ :=
      afterOperator?_cons_eq_some.mp (show afterOperator? ['.', '.'] tokens = some next from hnext)
    exact isOp_mark (by decide) _ _
  have hsignRun : ∀ {ends}, Run level (fun _ => openRangeSign) ends (SamePattern tokens) tokens
      (closed, sign) mid sign.leaves := by
    intro ends
    have hrun : Run level (fun _ => openRangeSign) ends (Same ("..=" :: "..." :: openers) tokens)
        tokens (closed, sign) mid sign.leaves := openRangeSign_run hsign (by decide) (by decide)
    exact hrun.mono (fun _ => id) fun _ h => (h.mono (by decide)).pattern hangle
  unfold rangeUpTo
  split at h
  · obtain ⟨rfl, rfl⟩ := reads_pure.mp h
    refine ⟨.cast
      (.bind _ hsignRun (.bind (Same patternEnds last) (rangeStop_run hsorts hstop rfl) .pure))
      (by simp), rfl⟩
  · rename_i hne
    obtain ⟨rfl, rfl⟩ := reads_pure.mp h
    have hexplicit := Node.isExplicit_parts hnode rfl stop (by simp)
    refine ⟨.cast
      (.bind _ hsignRun (.bind (Same patternEnds last) (rangeStop_run hsorts hstop hexplicit)
      ?_)) (show sign.leaves ++ (stop.leaves ++ []) = _ by simp), rfl⟩
    cases stop with
    | nothing => exact absurd rfl hne
    | _ => exact .pure

/-- A constant, or the range that it begins, is read again. -/
theorem constantPattern_run (hsorts : sorts.Replays)
    (h : (constantPattern sorts).Reads tokens node rest) (hnode : node.isExplicit = true) :
    Run level constantPattern (Same patternEnds rest) (SamePattern tokens) tokens node rest
      node.leaves ∧ node.isLed = true := by
  obtain ⟨first, mid, hfirst, h⟩ := reads_bind.mp h
  unfold constantPattern
  rcases reads_ite.mp (reads_ahead.mp h) with ⟨hdots, h⟩ | ⟨hnot, hpure⟩
  · obtain ⟨hexplicit, hled, printed, hleaves, hrun⟩ := rangeFrom_run hsorts h hnode
    refine ⟨.cast (.bind (Same patternEnds mid) (rangeBound_run hsorts hfirst hexplicit).1
      (.ahead ?_ fun again sorts hagain => by rw [hagain.isOp ".." (by decide)])) hleaves.symm,
        hled⟩
    simp only [if_pos hdots]
    exact hrun
  · obtain ⟨rfl, rfl⟩ := reads_pure.mp hpure
    obtain ⟨hrun, hled⟩ := rangeBound_run hsorts hfirst hnode
    refine ⟨.cast (.bind (Same patternEnds _) hrun
      (.ahead ?_ fun again sorts hagain => by rw [hagain.isOp ".." (by decide)]))
        (List.append_nil _), hled⟩
    simp only [if_neg hnot]
    exact .pure

/-! ### Names and fields -/

/-- What is bound to a name is read again. -/
theorem innerPattern_run {nodes : List Node} (hsorts : sorts.Replays) (hlevel : 1 ≤ level)
    (h : (onlyIf (isOp "@") do
      let mark ← operator "@"
      return [mark, ← sorts.pattern]).Reads tokens nodes rest)
    (hnodes : ∀ node ∈ nodes, node.isExplicit = true) :
    Run level (fun sorts => onlyIf (isOp "@") do
      let mark ← operator "@"
      return [mark, ← sorts.pattern]) (Same patternEnds rest) (Same patternEnds tokens) tokens nodes
      rest (nodes.flatMap Node.leaves) := by
  refine .onlyIf sorts h (fun _ hreads => ?_) (fun _ heq after => heq ▸ id)
    fun again hagain => hagain.isOp "@" (by decide)
  obtain ⟨mark, mid, hmark, shape, last, hshape, hpure⟩ := by simpa only [reads_bind] using hreads
  obtain ⟨rfl, rfl⟩ := reads_pure.mp hpure
  exact .cast (.bind (SamePattern mid) (clear_run hmark (by decide))
    (((hsorts.pattern hshape (hnodes shape (by simp))).run.raise hlevel).map _)) (by simp)

/-- The name that a value is bound to: a word of its own or an identifier. -/
def boundName (tokens : List Token) : Parser String :=
  if isWord "self" tokens then anyWord else identifier

/-- A name by itself is read again. -/
theorem boundName_run {name : String} (h : (boundName tokens).Reads tokens name rest)
    (hends : ∀ after, ends after → Alike true rest after)
    (hnameEnds : ∀ after, ends after → ∀ longer ∈ nameEnds, longer ∈ operators →
      isOp longer after = isOp longer rest) :
    Run level (fun _ => boundName tokens) ends (Same operators tokens) tokens name rest
      [.word name] :=
  .choose h (fun _ h => anyWord_run h hends hnameEnds) fun _ h => identifier_run h hends hnameEnds

theorem Alike.boundName {deep : Bool} {again : List Token} (h : Alike deep tokens again) :
    Grammar.boundName again = Grammar.boundName tokens := by
  rw [Grammar.boundName, Grammar.boundName, h.isWord]

theorem bindingPattern_eq (sorts : Sorts) : bindingPattern sorts =
    keyword? "ref" >>= fun byReference => keyword? "mut" >>= fun mutability =>
      ahead >>= fun tokens =>
      boundName tokens >>= fun name => do
        let inner ← onlyIf (isOp "@") do
          let mark ← operator "@"
          return [mark, ← sorts.pattern]
        return .branch .bindingPattern (byReference ++ mutability ++ .word name :: inner) := by
  unfold bindingPattern
  simp only [ite_bind]
  rfl

/-- The name of a binding looks as it did. Where it stands free, no path is seen in it either. -/
def SameBinding (isFree : Prop) (tokens again : List Token) : Prop :=
  Same [] tokens again ∧ (isFree → Same openers tokens again)

/-- A name that a value is bound to is read again; it is free where no two colons follow it. -/
theorem boundName_binding_run {name : String} (h : (boundName tokens).Reads tokens name rest) :
    Run level (fun _ => boundName tokens) (Same patternEnds rest)
      (SameBinding (isOp "::" rest = false) tokens) tokens name rest [.word name] := by
  have hbare : Run level (fun _ => boundName tokens) (Same patternEnds rest) (Same [] tokens)
      tokens name rest [.word name] :=
    boundName_run h (fun _ h => h.alike) fun _ _ _ _ hmem => absurd hmem List.not_mem_nil
  refine ⟨hbare.again, fun hafter => ⟨hbare.begins hafter, fun hnot => ?_⟩, hbare.written,
    hbare.shorter⟩
  have hopen : Run level (fun _ => boundName tokens) (Same patternEnds rest) (Same openers tokens)
      tokens name rest [.word name] := by
    refine boundName_run h (fun _ h => h.alike) fun after hafter longer hlonger _ => ?_
    rcases List.mem_cons.mp hlonger with rfl | hlonger
    · rw [hnot, Bool.eq_false_iff]
      intro hagain
      rw [hafter.alike.isOp_of_again (by decide) hagain] at hnot
      contradiction
    · rw [List.mem_singleton.mp hlonger]
      exact hafter.isOp ".." (by decide)
  exact hopen.begins hafter

/-- The word of a mutable binding is read again in front of its name. -/
theorem mutability_run {text : String} {nodes : List Node}
    (h : (keyword? "mut").Reads tokens nodes (.word text :: rest)) :
    Run level (fun _ => keyword? "mut")
      (SameBinding (isOp "::" rest = false) (.word text :: rest))
      (SameBinding (isWord "mut" tokens = false → isOp "::" (afterOne tokens) = false) tokens)
      tokens nodes (.word text :: rest) (nodes.flatMap Node.leaves) := by
  refine .onlyIf .none h (fun _ hreads => ?_) (fun hnot heq after hafter => ?_)
    fun again hagain => hagain.1.alike.isWord "mut"
  · obtain ⟨word, hword, rfl⟩ := reads_one.mp hreads
    refine ((keyword_bare hword fun after hafter => ?_).one).cast (List.append_nil _).symm
    obtain ⟨rfl, -⟩ := reads_keyword.mp hword
    exact ⟨.keyword rfl fun _ => hafter.1.alike, fun _ => .keyword rfl fun _ => hafter.1.alike⟩
  · subst heq
    exact ⟨hafter.1, fun hfree => hafter.2 (hfree hnot)⟩

/-- The word of a binding by reference is read again in front of the others. -/
theorem byReference_run {nodes : List Node} (h : (keyword? "ref").Reads tokens nodes rest)
    (hcolons : isWord "ref" tokens = false → isWord "mut" tokens = false →
      isOp "::" (afterOne tokens) = false) :
    Run level (fun _ => keyword? "ref")
      (SameBinding (isWord "mut" rest = false → isOp "::" (afterOne rest) = false) rest)
      (Same openers tokens) tokens nodes rest (nodes.flatMap Node.leaves) := by
  refine .onlyIf .none h (fun _ hreads => ?_) (fun hnot heq after hafter => ?_)
    fun again hagain => hagain.alike.isWord "ref"
  · obtain ⟨word, hword, rfl⟩ := reads_one.mp hreads
    exact (keyword_run hword rfl fun _ h _ => h.1.alike).one.cast (List.append_nil _).symm
  · subst heq
    exact hafter.2 (hcolons hnot)

/-- No angle stands in front of a word that may be left out. -/
theorem not_angle_of_keyword? {text : String} {nodes : List Node}
    (h : (keyword? text).Reads tokens nodes rest) (hrest : isOp "<" rest = false) :
    isOp "<" tokens = false := by
  rcases reads_onlyIf.mp h with ⟨hthere, -⟩ | ⟨-, -, rfl⟩
  · obtain ⟨others, rfl⟩ := eq_of_isWord hthere
    exact isOp_word ..
  · exact hrest

/-- A binding, with the pattern of what is bound if there is one, is read again. -/
theorem bindingPattern_run (hsorts : sorts.Replays)
    (h : (bindingPattern sorts).Reads tokens node rest) (hnode : node.isExplicit = true)
    (hcolons : isWord "ref" tokens = false → isWord "mut" tokens = false →
      isOp "::" (afterOne tokens) = false) :
    Run level bindingPattern (Same patternEnds rest) (SamePattern tokens) tokens node rest
      node.leaves ∧ node.isLed = true := by
  rw [bindingPattern_eq] at h
  obtain ⟨byReference, mid, hreference, h⟩ := reads_bind.mp h
  obtain ⟨mutability, left, hmutability, h⟩ := reads_bind.mp h
  obtain ⟨name, last, hname, h⟩ := reads_bind.mp (reads_ahead.mp h)
  obtain ⟨inner, final, hinner, hpure⟩ := reads_bind.mp h
  obtain ⟨rfl, rfl⟩ := reads_pure.mp hpure
  refine ⟨?_, rfl⟩
  have hparts := Node.isExplicit_parts hnode rfl
  have hword : ∃ text, left = .word text :: last := by
    rcases reads_ite.mp hname with ⟨-, hname⟩ | ⟨-, hname⟩
    · exact ⟨_, reads_anyWord.mp hname⟩
    · exact ⟨_, (reads_identifier.mp hname).1⟩
  obtain ⟨text, rfl⟩ := hword
  have hangle : isOp "<" tokens = false :=
    not_angle_of_keyword? hreference (not_angle_of_keyword? hmutability (isOp_word ..))
  rw [show bindingPattern = _ from funext bindingPattern_eq]
  refine .cast (.bind _ ((byReference_run hreference hcolons).mono (fun _ => id) fun _ h =>
    h.pattern hangle) (.bind _ (mutability_run hmutability) (.ahead (.next _
      (boundName_binding_run hname) (by simp) ((innerPattern_run hsorts (by omega) hinner
        fun node hmem => hparts node (by simp [hmem])).map _))
      fun again sorts hagain => by rw [hagain.1.alike.boundName]))) (by simp)

/-! ### Structs -/

/-- What is read of the pattern of a field that is named as the field itself, from a start on. -/
def shorthandBody (start : List Token) : Parser Node := do
  let boxed ← keyword? "box"
  let byReference ← keyword? "ref"
  let mutability ← keyword? "mut"
  let name ← identifier
  if boxed.isEmpty then return .branch .fieldPattern (byReference ++ mutability ++ [.word name])
  else return .branch .fieldPattern [← keepFrom start]

/-- The pattern of a field that is named as the field itself is read again. -/
theorem shorthandField_run (h : shorthandField.Reads tokens node rest)
    (hnode : node.isExplicit = true) :
    Run level (fun _ => shorthandField) (Same patternEnds rest) (Same [".."] tokens) tokens
      node rest node.leaves ∧ node.isConstruct = true := by
  have hbody : (shorthandBody tokens).Reads tokens node rest := reads_ahead.mp h
  have hstart : ∀ {start start' again after : List Token},
      (shorthandBody start).Reads again node after →
        (shorthandBody start').Reads again node after := by
    intro start start' again after hreads
    obtain ⟨boxed, mid, hboxed, byReference, left, hreference, mutability, mid₂, hmutability, name,
      mid₃, hname, h⟩ := by simpa only [shorthandBody, reads_bind] using hreads
    refine reads_bind.mpr ⟨boxed, mid, hboxed, reads_bind.mpr ⟨byReference, left, hreference,
      reads_bind.mpr ⟨mutability, mid₂, hmutability, reads_bind.mpr ⟨name, mid₃, hname, ?_⟩⟩⟩⟩
    refine reads_ite.mpr ((reads_ite.mp h).imp_right fun ⟨hboxed, h⟩ => ?_)
    obtain ⟨kept, _, hkeep, hpure⟩ := reads_bind.mp h
    obtain ⟨rfl, -⟩ := reads_pure.mp hpure
    exact absurd (Node.isExplicit_parts hnode rfl _ (List.mem_singleton_self _))
      (Node.not_isExplicit_of_isVerbatim (isVerbatim_of_keepFrom hkeep))
  obtain ⟨boxed, mid, hboxed, byReference, left, hreference, mutability, mid₂, hmutability, name,
    mid₃, hname, h⟩ := by simpa only [shorthandBody, reads_bind] using hbody
  rcases reads_ite.mp h with ⟨hnone, hpure⟩ | ⟨-, h⟩
  · obtain ⟨rfl, rfl⟩ := reads_pure.mp hpure
    obtain rfl := List.isEmpty_iff.mp hnone
    refine ⟨.aheadFrom ?_ fun again sorts after _ => hstart, rfl⟩
    have hskip : Run level (fun _ => keyword? "box") (Same [".."] mid) (Same [".."] tokens) tokens
        [] mid [] := keyword?_run hboxed rfl
    refine .cast (.bind _ hskip (.bind (Same [".."] left) (keyword?_run hreference rfl)
      (.bind (Same [".."] mid₂) (keyword?_run hmutability rfl)
        (.bind (Same patternEnds mid₃) (identifier_run hname (fun _ h => h.alike)
          fun after hafter longer _ hmem => ?_) .pure)))) (by simp)
    rw [List.mem_singleton.mp hmem]
    exact hafter.isOp ".." (by decide)
  · obtain ⟨kept, _, hkeep, hpure⟩ := reads_bind.mp h
    obtain ⟨rfl, -⟩ := reads_pure.mp hpure
    exact absurd (Node.isExplicit_parts hnode rfl _ (List.mem_singleton_self _))
      (Node.not_isExplicit_of_isVerbatim (isVerbatim_of_keepFrom hkeep))

/-- What a pattern with alternatives begins with may follow a colon. -/
theorem followsColon_alternatives (hsorts : sorts.Replays)
    (h : (alternatives sorts).Reads tokens node rest) : FollowsColon tokens := by
  obtain ⟨leading, mid, hleading, h⟩ := reads_bind.mp h
  obtain ⟨first, left, hfirst, -⟩ := reads_bind.mp h
  exact .onlyIf hleading (fun _ _ => rfl) (hsorts.pattern_begins hfirst)

/-- A colon behind the name of a field is read again. -/
theorem fieldColon_run (h : (operator ":").Reads tokens node rest) (hfollows : FollowsColon rest) :
    Run level (fun _ => operator ":") ends (Same patternEnds tokens) tokens node rest node.leaves :=
  colon_run h (by decide) (hfollows.isInputTurbofish h)

/-- The pattern of a field is read again. -/
theorem fieldPattern_run (hsorts : sorts.Replays) (hlevel : 1 ≤ level)
    (h : (fieldPattern sorts).Reads tokens node rest) (hnode : node.isExplicit = true) :
    Run level fieldPattern (Same alternativesEnds rest) (Same [".."] tokens) tokens node rest
      node.leaves ∧ node.isConstruct = true := by
  have hmono : ∀ after, Same alternativesEnds rest after → Same patternEnds rest after :=
    fun _ h => h.mono (by decide)
  unfold fieldPattern
  rcases reads_ite.mp (reads_ahead.mp h) with ⟨hshort, h⟩ | ⟨hnot, h⟩
  · obtain ⟨hrun, hconstruct⟩ := shorthandField_run h hnode
    refine ⟨.ahead ?_ fun again sorts hagain => by rw [hagain.alike.isAnyOf], hconstruct⟩
    simp only [if_pos hshort]
    exact hrun.mono hmono fun _ => id
  obtain ⟨⟨named, reference⟩, mid, hreference, h⟩ := reads_bind.mp h
  have hreferenceRun : Run level (fun _ => fieldReference) (Same patternEnds mid)
      (Same [".."] tokens) tokens (named, reference) mid reference.leaves :=
    fieldReference_run hreference (fun _ h => h.alike) fun after hafter longer _ hmem => by
      rw [List.mem_singleton.mp hmem]
      exact hafter.isOp ".." (by decide)
  rcases reads_ite.mp (reads_ahead.mp h) with ⟨hcolonThere, h⟩ | ⟨hnotColon, hpure⟩
  · obtain ⟨colon, left, hcolon, shape, last, hshape, hpure⟩ := by simpa only [reads_bind] using h
    obtain ⟨rfl, rfl⟩ := reads_pure.mp hpure
    have hexplicit := Node.isExplicit_parts hnode rfl shape (by simp)
    refine ⟨.ahead ?_ fun again sorts hagain => by rw [hagain.alike.isAnyOf], rfl⟩
    simp only [if_neg hnot]
    refine .cast (.bind _ hreferenceRun
      (.ahead ?_ fun again sorts hagain => by rw [hagain.isOp ":" (by decide)]))
      (show reference.leaves ++ (colon.leaves ++ shape.leaves) = _ by simp)
    simp only [if_pos hcolonThere]
    exact .bind _ (fieldColon_run hcolon (followsColon_alternatives hsorts hshape))
      ((alternatives_run hsorts hlevel hshape hexplicit).1.map _)
  · obtain ⟨rfl, rfl⟩ := reads_pure.mp hpure
    refine ⟨.ahead ?_ fun again sorts hagain => by rw [hagain.alike.isAnyOf], rfl⟩
    simp only [if_neg hnot]
    refine .cast (.bind _ hreferenceRun
      (.ahead ?_ fun again sorts hagain => by rw [hagain.isOp ":" (by decide)]))
      (show reference.leaves ++ [] = _ by simp)
    simp only [if_neg hnotColon]
    exact .mono .pure hmono fun _ => id

/-- What is read of the fields of a struct behind the attributes of the first one. -/
def fieldsFrom (rounds : ℕ) (attributes : List Node) (sorts : Sorts) (tokens : List Token) :
    Parser (List Node) :=
  if isOp ".." tokens then
    operator ".." >>= fun dots => pure [.construct .restPattern attributes [dots]]
  else fieldPattern sorts >>= fun field => ahead >>= fun tokens =>
    if tokens.isEmpty then pure [field.withAttributes attributes]
    else operator "," >>= fun comma => fieldPatternsAtMost sorts rounds >>= fun others =>
      pure (field.withAttributes attributes :: comma :: others)

theorem fieldPatternsAtMost_succ (sorts : Sorts) (rounds : ℕ) :
    fieldPatternsAtMost sorts (rounds + 1) = ahead >>= fun tokens =>
      if tokens.isEmpty then pure []
      else outerAttributes sorts >>= fun attributes =>
        ahead >>= fieldsFrom rounds attributes sorts := rfl

/-- An explicit field with its attributes is a construct of explicit parts. -/
theorem fieldPattern_withAttributes {field : Node} {attributes : List Node}
    (hsorts : sorts.Replays) (h : (fieldPattern sorts).Reads tokens field rest)
    (hwith : (field.withAttributes attributes).isExplicit = true) :
    (∀ node ∈ attributes, node.isExplicit = true) ∧
      (field.withAttributes attributes).leaves = attributes.flatMap Node.leaves ++ field.leaves ∧
      Run 8 fieldPattern (Same alternativesEnds rest) (Same [".."] tokens) tokens field rest
        field.leaves := by
  have hrun : field.isExplicit = true → Run 8 fieldPattern (Same alternativesEnds rest)
      (Same [".."] tokens) tokens field rest field.leaves ∧ field.isConstruct = true :=
    fieldPattern_run hsorts (by decide) h
  have hconstruct : field.isConstruct = true := by
    cases field with
    | construct kind others children => rfl
    | _ =>
      have hexplicit : Node.isExplicit _ = true := hwith
      exact absurd (hrun hexplicit).2 Bool.false_ne_true
  obtain ⟨hattributes, hexplicit⟩ := (Node.isExplicit_withAttributes hconstruct).mp hwith
  exact ⟨hattributes, Node.leaves_withAttributes _ hconstruct, (hrun hexplicit).1⟩

/-- Fields are read again behind the attributes of the first one, if those behind a comma are. -/
theorem fieldsFrom_run {rounds rounds' : ℕ} {attributes nodes : List Node}
    (hsorts : sorts.Replays)
    (hmore : ∀ {tokens others}, (fieldPatternsAtMost sorts rounds).Reads tokens others [] →
      (∀ node ∈ others, node.isExplicit = true) → (others.flatMap Node.leaves).length < rounds' →
        Run 8 (fun sorts => fieldPatternsAtMost sorts rounds') (· = []) (Same [".."] tokens)
          tokens others [] (others.flatMap Node.leaves))
    (h : (fieldsFrom rounds attributes sorts tokens).Reads tokens nodes [])
    (hnodes : ∀ node ∈ nodes, node.isExplicit = true)
    (hrounds : (nodes.flatMap Node.leaves).length < rounds' + 1) :
    (∀ node ∈ attributes, node.isExplicit = true) ∧ ∃ printed,
      nodes.flatMap Node.leaves = attributes.flatMap Node.leaves ++ printed ∧
        Run 8 (fun sorts => fieldsFrom rounds' attributes sorts tokens) (· = [])
          (Same [".."] tokens) tokens nodes [] printed := by
  rcases reads_ite.mp h with ⟨hdots, h⟩ | ⟨hnotDots, h⟩
  · obtain ⟨dots, left, hsign, hpure⟩ := reads_bind.mp h
    obtain ⟨rfl, rfl⟩ := reads_pure.mp hpure
    have hexplicit := (Node.isExplicit_construct rfl).mp (hnodes _ (List.mem_singleton_self _))
    refine ⟨hexplicit.2.2.1, dots.leaves, by simp, ?_⟩
    simp only [fieldsFrom, if_pos hdots]
    exact (clear_run hsign (by decide)).map _
  obtain ⟨field, left, hfield, h⟩ := reads_bind.mp h
  simp only [fieldsFrom, if_neg hnotDots]
  rcases reads_ite.mp (reads_ahead.mp h) with ⟨hempty, hpure⟩ | ⟨hnotEmpty, h⟩
  · obtain ⟨rfl, rfl⟩ := reads_pure.mp hpure
    obtain ⟨hattributes, hleaves, hrun⟩ :=
      fieldPattern_withAttributes hsorts hfield (hnodes _ (List.mem_singleton_self _))
    refine ⟨hattributes, field.leaves ++ [], by simp [hleaves], ?_⟩
    refine .bind _ hrun (.ahead ?_ fun again sorts hagain => by rw [hagain.alike.isEmpty])
    simp only [List.isEmpty_nil, if_true]
    exact .mono .pure (fun _ => id) fun _ heq => by rw [heq]; exact .nil _
  · obtain ⟨comma, last, hcomma, others, final, hothers, hpure⟩ := by
      simpa only [reads_bind] using h
    obtain ⟨rfl, rfl⟩ := reads_pure.mp hpure
    obtain ⟨hwith, hparts⟩ := List.forall_mem_cons.mp hnodes
    obtain ⟨hattributes, hleaves, hrun⟩ := fieldPattern_withAttributes hsorts hfield hwith
    have hpos := List.length_pos_of_ne_nil (leaves_ne_nil_of_operator hcomma)
    rw [List.flatMap_cons, List.flatMap_cons, List.length_append, List.length_append] at hrounds
    refine ⟨hattributes, field.leaves ++ (comma.leaves ++ others.flatMap Node.leaves),
      by simp [hleaves], ?_⟩
    refine .bind _ hrun (.ahead ?_ fun again sorts hagain => by rw [hagain.alike.isEmpty])
    simp only [if_neg hnotEmpty]
    exact .bind _ (clear_run hcomma (by decide))
      ((hmore hothers (List.forall_mem_cons.mp hparts).2 (by omega)).map _)

/-- The fields of a struct in a pattern are read again. -/
theorem fieldPatternsAtMost_run (hsorts : sorts.Replays) {rounds : ℕ} {nodes : List Node}
    (h : (fieldPatternsAtMost sorts rounds).Reads tokens nodes [])
    (hnodes : ∀ node ∈ nodes, node.isExplicit = true) :
    ∀ rounds', (nodes.flatMap Node.leaves).length < rounds' →
      Run 8 (fun sorts => fieldPatternsAtMost sorts rounds') (· = []) (Same [".."] tokens) tokens
        nodes [] (nodes.flatMap Node.leaves) := by
  induction rounds generalizing tokens nodes with
  | zero => exact absurd h not_reads_fail
  | succ rounds ih =>
    intro rounds' hrounds
    obtain ⟨rounds', rfl⟩ : ∃ fewer, rounds' = fewer + 1 :=
      Nat.exists_eq_add_one.mpr (Nat.lt_of_le_of_lt (Nat.zero_le _) hrounds)
    simp only [fieldPatternsAtMost_succ, reads_ahead] at h ⊢
    refine .ahead ?_ fun again sorts hagain => by rw [hagain.alike.isEmpty]
    rcases reads_ite.mp h with ⟨hempty, hpure⟩ | ⟨hnotEmpty, h⟩
    · obtain ⟨rfl, rfl⟩ := reads_pure.mp hpure
      simp only [List.isEmpty_nil, if_true]
      exact .mono .pure (fun _ => id) fun _ heq => by rw [heq]; exact .nil _
    · obtain ⟨attributes, mid, hattributes, h⟩ := reads_bind.mp h
      obtain ⟨hexplicit, printed, hleaves, hrun⟩ := fieldsFrom_run hsorts
        (fun hothers hexplicit => ih hothers hexplicit _) (reads_ahead.mp h) hnodes hrounds
      simp only [if_neg hnotEmpty]
      refine .cast (.bind _ (outerAttributes_run hsorts hattributes hexplicit
        (fun h => h.isOp "#" (by decide)) fun _ h => h.mono (by decide))
        (.ahead hrun fun again sorts hagain => ?_)) hleaves.symm
      rw [fieldsFrom, fieldsFrom, hagain.isOp ".." (by decide)]

/-! ### Patterns by their beginning -/

/-- The mark of a call of a macro looks as it did. -/
theorem same_bang {after : List Token} (h : afterOperator? ['!'] tokens = some rest)
    (hcall : isCallMark tokens = true)
    (hall : ∀ longer ∈ operators, ['!'] <+: longer.toList → longer = "!=") :
    Same operators tokens (ofOperator ['!'] ++ after) := by
  refine same_operator h (by decide) (by decide) (fun hmem => absurd hmem (by decide))
    (fun longer hmem hbegins => ?_) nofun
  rw [hall longer hmem hbegins]
  exact .inr (by simpa using (Bool.and_eq_true_iff.mp hcall).2)

/-- The arguments of a call of a macro are read again behind its path. -/
theorem callBody_run {body : CallBody} (h : callBody.Reads tokens body rest)
    (hcall : isCallMark tokens = true)
    (hall : ∀ longer ∈ operators, ['!'] <+: longer.toList → longer = "!=") :
    Run level (fun _ => callBody) ends (Same operators tokens) tokens body rest
      (body.nodes.flatMap Node.leaves) := by
  obtain ⟨bang, left, hbang, ⟨delimiter, body⟩, final, hbodyGroup, hpure⟩ := by
    simpa only [callBody, reads_bind] using h
  obtain ⟨rfl, rfl⟩ := reads_pure.mp hpure
  refine .cast (.bind (Same [] left) (operator_run hbang fun after _ => ?_)
    ((anyGroup_run hbodyGroup).map _)) (by simp)
  exact same_bang (reads_operator.mp hbang).1 hcall hall

/-- The parts of a tuple in a pattern are read again. -/
theorem tupleParts_run (hsorts : sorts.Replays) (h : (tupleParts sorts).Reads tokens node rest)
    (hnode : node.isExplicit = true) :
    Run level tupleParts ends (Same operators tokens) tokens node rest node.leaves := by
  obtain ⟨body, nodes, rfl, hnodes, rfl⟩ := reads_group.mp h
  have hinner : Run 8 (fun sorts => commaSeparated (one (alternatives sorts))) (· = [])
      (fun again => isAtEnd again = isAtEnd body) body nodes [] (nodes.flatMap Node.leaves) := by
    refine commaSeparated_run alternativesEnds (fun (h : SamePattern _ _) => h.alike.isAtEnd)
      (by decide) (fun hitem hfit => ?_) hnodes (Node.isExplicit_group.mp hnode)
    obtain ⟨shape, hshape, rfl⟩ := reads_one.mp hitem
    exact (alternatives_run hsorts (by decide) hshape
      (hfit _ (List.mem_singleton_self _))).1.one.cast (List.append_nil _).symm
  exact hinner.group operators

/-- What stands behind the path that a pattern begins with. -/
def afterPatternPath (tokens : List Token) (sorts : Sorts) : AnyPath → Bool → Parser Node
  | .plain plain, true => do
    if plain.isPlain then
      let body ← callBody
      return .branch .callPattern (plain.node :: body.nodes)
    else return .branch .pathPattern [plain.node]
  | found, _ => do
    if isGroup .brace tokens then
      let fields ← group .brace do
        fieldPatternsAtMost sorts ((← ahead).length + 1)
      return .branch .structPattern [found.node, fields]
    else if isGroup .parenthesis tokens then
      return .branch .tupleStructPattern [found.node, ← tupleParts sorts]
    else if isOp ".." tokens then
      rangeFrom sorts (.branch .pathPattern [found.node])
    else return .branch .pathPattern [found.node]

theorem namedPattern_eq (sorts : Sorts) : namedPattern sorts = anyPath sorts true >>= fun found =>
    ahead >>= fun tokens => afterPatternPath tokens sorts found (isCallMark tokens) := by
  unfold namedPattern
  congr 1
  funext found
  congr 1
  funext tokens
  unfold afterPatternPath
  cases found with
  | plain plain => cases isCallMark tokens <;> rfl
  | qualified node => cases isCallMark tokens <;> rfl

/-- What stands behind a path in a pattern is read again, unless it is the call of a macro. -/
theorem afterPatternPath_run {found : AnyPath} {isCall : Bool} (hsorts : sorts.Replays)
    (hcall : isCall = true → ∃ node, found = .qualified node)
    (h : (afterPatternPath tokens sorts found isCall).Reads tokens node rest)
    (hnode : node.isExplicit = true) :
    found.node.isExplicit = true ∧ node.isLed = true ∧ ∃ printed,
      node.leaves = found.node.leaves ++ printed ∧
        Run level (fun sorts => afterPatternPath tokens sorts found isCall) (Same patternEnds rest)
          (Same patternEnds tokens) tokens node rest printed := by
  have heq : ∀ sorts, afterPatternPath tokens sorts found isCall =
      afterPatternPath tokens sorts found false := by
    intro sorts
    cases isCall with
    | false => rfl
    | true =>
      obtain ⟨node, rfl⟩ := hcall rfl
      rfl
  simp only [heq] at h ⊢
  have hunfold : ∀ sorts, afterPatternPath tokens sorts found false =
      if isGroup .brace tokens then do
        let fields ← group .brace do
          fieldPatternsAtMost sorts ((← ahead).length + 1)
        return .branch .structPattern [found.node, fields]
      else if isGroup .parenthesis tokens then
        do return .branch .tupleStructPattern [found.node, ← tupleParts sorts]
      else if isOp ".." tokens then
        rangeFrom sorts (.branch .pathPattern [found.node])
      else return .branch .pathPattern [found.node] := by
    intro sorts
    cases found <;> rfl
  simp only [hunfold] at h ⊢
  rcases reads_ite.mp h with ⟨hlook, h⟩ | ⟨hnotBrace, h⟩
  · obtain ⟨fields, mid, hfields, hpure⟩ := reads_bind.mp h
    obtain ⟨rfl, rfl⟩ := reads_pure.mp hpure
    have hparts := Node.isExplicit_parts hnode rfl
    obtain ⟨body, nodes, rfl, hnodes, rfl⟩ := reads_group.mp hfields
    have hinner : Run 8 (fun sorts => do fieldPatternsAtMost sorts ((← ahead).length + 1)) (· = [])
        (Same [".."] body) body nodes [] (nodes.flatMap Node.leaves) :=
      .rounds (fieldPatternsAtMost_run hsorts (reads_ahead.mp hnodes)
        (Node.isExplicit_group.mp (hparts (.group .brace nodes) (by simp))))
    refine ⟨hparts found.node (by simp), rfl, [.group .brace (nodes.flatMap Node.leaves)], by simp,
      ?_⟩
    simp only [if_pos hlook]
    exact ((hinner.group patternEnds).map _).cast (by simp)
  simp only [if_neg hnotBrace]
  rcases reads_ite.mp h with ⟨hlook, h⟩ | ⟨hnotParenthesis, h⟩
  · obtain ⟨parts, mid, htuple, hpure⟩ := reads_bind.mp h
    obtain ⟨rfl, rfl⟩ := reads_pure.mp hpure
    have hparts := Node.isExplicit_parts hnode rfl
    refine ⟨hparts found.node (by simp), rfl, parts.leaves, by simp, ?_⟩
    simp only [if_pos hlook]
    exact (tupleParts_run hsorts htuple (hparts parts (by simp))).map _
  simp only [if_neg hnotParenthesis]
  rcases reads_ite.mp h with ⟨hlook, h⟩ | ⟨hnotDots, hpure⟩
  · obtain ⟨hfirst, hled, printed, hleaves, hrun⟩ := rangeFrom_run hsorts h hnode
    refine ⟨Node.isExplicit_parts hfirst rfl _ (List.mem_singleton_self _), hled, printed, ?_, ?_⟩
    · rw [hleaves]
      simp
    · simp only [if_pos hlook]
      exact hrun
  · obtain ⟨rfl, rfl⟩ := reads_pure.mp hpure
    refine ⟨Node.isExplicit_parts hnode rfl _ (List.mem_singleton_self _), rfl, [], by simp, ?_⟩
    simp only [if_neg hnotDots]
    exact .pure

theorem Same.afterPatternPath {again : List Token} {found : AnyPath} {isCall : Bool}
    (h : Same patternEnds tokens again) :
    Grammar.afterPatternPath again sorts found isCall =
      Grammar.afterPatternPath tokens sorts found isCall := by
  unfold Grammar.afterPatternPath
  rw [h.alike.isGroup, h.alike.isGroup, h.isOp ".." (by decide)]

/-- A path without arguments is explicit. -/
theorem Path.isExplicit_of_isPlain {path : Path} (h : path.isPlain = true) :
    path.node.isExplicit = true := by
  refine (Node.isExplicit_construct rfl).mpr ⟨by decide, rfl, nofun, fun node hnode => ?_⟩
  rcases List.mem_append.mp hnode with hnode | hnode
  · split at hnode
    · rw [List.mem_singleton.mp hnode]
      rfl
    · contradiction
  · have hsegments : ∀ {nodes : List Node}, (∀ node ∈ nodes, node.isExplicit = true) →
        ∀ node ∈ nodes.intersperse (.operator "::"), node.isExplicit = true := by
      intro nodes hnodes
      induction nodes with
      | nil => simp
      | cons first others ih =>
        cases others with
        | nil => simpa using hnodes
        | cons next more =>
          obtain ⟨hfirst, hmore⟩ := List.forall_mem_cons.mp hnodes
          exact List.forall_mem_cons.mpr ⟨hfirst, List.forall_mem_cons.mpr ⟨rfl, ih hmore⟩⟩
    refine hsegments (fun node hmem => ?_) node hnode
    obtain ⟨segment, hsegment, rfl⟩ := List.mem_map.mp hmem
    have hnone : segment.arguments = none := by
      simpa using List.all_eq_true.mp h segment hsegment
    refine (Node.isExplicit_construct rfl).mpr ⟨by decide, rfl, nofun, ?_⟩
    rw [hnone]
    simp [Node.isExplicit]

/-- A pattern that begins with a path is read again. -/
theorem namedPattern_run (hsorts : sorts.Replays) (h : (namedPattern sorts).Reads tokens node rest)
    (hnode : node.isExplicit = true) :
    Run level namedPattern (Same patternEnds rest) (SamePattern tokens) tokens node rest
      node.leaves ∧
      node.isLed = true := by
  rw [namedPattern_eq] at h
  obtain ⟨found, mid, hfound, h⟩ := reads_bind.mp h
  rw [reads_ahead] at h
  have hpath : found.node.isExplicit = true → Run level (fun sorts => anyPath sorts true)
      (Same patternEnds mid) (SamePattern tokens) tokens found mid found.node.leaves :=
    anyPath_run hsorts (by decide) (by decide) hfound
  have hahead : ∀ {printed}, Run level
      (fun sorts => afterPatternPath mid sorts found (isCallMark mid)) (Same patternEnds rest)
        (Same patternEnds mid) mid node rest printed →
      Run level (fun sorts => ahead >>= fun tokens =>
        afterPatternPath tokens sorts found (isCallMark tokens)) (Same patternEnds rest)
        (Same patternEnds mid) mid node rest printed := fun hrun =>
    .ahead hrun fun again sorts hagain => by
      rw [hagain.isCallMark (by decide), hagain.afterPatternPath]
  rw [show namedPattern = _ from funext namedPattern_eq]
  by_cases hqualified : isCallMark mid = true → ∃ node, found = .qualified node
  · obtain ⟨hexplicit, hled, printed, hleaves, hrun⟩ :=
      afterPatternPath_run hsorts hqualified h hnode
    exact ⟨.cast (.bind _ (hpath hexplicit) (hahead hrun)) hleaves.symm, hled⟩
  · obtain ⟨hcall, hplain⟩ := Classical.not_imp.mp hqualified
    cases found with
    | qualified node => exact absurd ⟨node, rfl⟩ hplain
    | plain plain =>
      rw [hcall] at h hahead
      rcases reads_ite.mp h with ⟨hisPlain, h⟩ | ⟨hnotPlain, hpure⟩
      · obtain ⟨body, last, hbody, hpure⟩ := reads_bind.mp h
        obtain ⟨rfl, rfl⟩ := reads_pure.mp hpure
        refine ⟨.cast (.bind _ (hpath (Path.isExplicit_of_isPlain hisPlain)) (hahead ?_))
          (show _ ++ (body.nodes.flatMap Node.leaves) = _ by simp [AnyPath.node]), rfl⟩
        simp only [afterPatternPath, if_pos hisPlain]
        exact (callBody_run hbody hcall (by decide)).map _
      · obtain ⟨rfl, rfl⟩ := reads_pure.mp hpure
        have hexplicit := Node.isExplicit_parts hnode rfl _ (List.mem_singleton_self _)
        refine ⟨.cast (.bind _ (hpath hexplicit) (hahead ?_)) (show _ ++ [] = _ by
          simp [AnyPath.node]), rfl⟩
        simp only [afterPatternPath, if_neg hnotPlain]
        exact .pure

/-- Tokens that begin with a group look alike to a glance for parameters, too. -/
theorem isOp_of_group {delimiter : Delimiter} {text : String}
    (h : isGroup delimiter tokens = true) : isOp text tokens = false := by
  cases tokens with
  | nil => contradiction
  | cons token others =>
    cases token with
    | group found body => exact isOp_group ..
    | _ => contradiction

/-- The kind of a pattern in parentheses with the given parts. -/
def enclosedKind : Node → Kind
  | .group _ [only] => if only.isKind .restPattern then .tuplePattern else .parenthesizedPattern
  | _ => .tuplePattern

theorem enclosedPattern_eq (sorts : Sorts) : enclosedPattern sorts =
    tupleParts sorts >>= fun parts => pure (.branch (enclosedKind parts) [parts]) := by
  unfold enclosedPattern
  refine congrArg (tupleParts sorts >>= ·) (funext fun parts => ?_)
  cases parts with
  | group delimiter children =>
    match children with
    | [] | [_] | _ :: _ :: _ => rfl
  | _ => rfl

theorem enclosedKind_eq (parts : Node) :
    enclosedKind parts = .tuplePattern ∨ enclosedKind parts = .parenthesizedPattern := by
  unfold enclosedKind
  split
  · split <;> simp
  · simp

/-- A pattern in parentheses is read again. -/
theorem enclosedPattern_run (hsorts : sorts.Replays)
    (h : (enclosedPattern sorts).Reads tokens node rest) (hnode : node.isExplicit = true)
    (hgroup : isGroup .parenthesis tokens = true) :
    Run level enclosedPattern (Same patternEnds rest) (SamePattern tokens) tokens node rest
      node.leaves ∧ node.isLed = true := by
  rw [enclosedPattern_eq] at h
  obtain ⟨parts, mid, hparts, hpure⟩ := reads_bind.mp h
  obtain ⟨rfl, rfl⟩ := reads_pure.mp hpure
  rw [show enclosedPattern = _ from funext enclosedPattern_eq]
  have hrun : parts.isExplicit = true → Run level tupleParts (Same patternEnds mid)
      (SamePattern tokens) tokens parts mid parts.leaves := fun hexplicit =>
    (tupleParts_run hsorts hparts hexplicit).mono (fun _ => id) fun _ h => h.pattern
      (isOp_of_group hgroup)
  have hparts : parts.isExplicit = true ∧
      (Node.branch (enclosedKind parts) [parts]).isLed = true := by
    rcases enclosedKind_eq parts with hkind | hkind
    · rw [hkind] at hnode ⊢
      exact ⟨Node.isExplicit_parts hnode rfl _ (List.mem_singleton_self _), rfl⟩
    · rw [hkind] at hnode ⊢
      exact ⟨Node.isExplicit_parts hnode rfl _ (List.mem_singleton_self _), rfl⟩
  exact ⟨((hrun hparts.1).map _).cast (by simp), hparts.2⟩

/-- A pattern for the elements of a slice is read again. -/
theorem slicePattern_run (hsorts : sorts.Replays)
    (h : (slicePattern sorts).Reads tokens node rest) (hnode : node.isExplicit = true)
    (hgroup : isGroup .bracket tokens = true) :
    Run level slicePattern (Same patternEnds rest) (SamePattern tokens) tokens node rest
      node.leaves ∧ node.isLed = true := by
  obtain ⟨elements, mid, helements, hpure⟩ := reads_bind.mp h
  obtain ⟨rfl, rfl⟩ := reads_pure.mp hpure
  obtain ⟨body, nodes, rfl, hnodes, rfl⟩ := reads_group.mp helements
  have hexplicit := Node.isExplicit_group.mp
    (Node.isExplicit_parts hnode rfl _ (List.mem_singleton_self _))
  have hinner : Run 8 (fun sorts => commaSeparated do
        let element ← alternatives sorts
        if isOpenRange element then
          refuse "range pattern is not allowed unparenthesized inside slice pattern"
        else return [element]) (· = [])
      (fun again => isAtEnd again = isAtEnd body) body nodes [] (nodes.flatMap Node.leaves) := by
    refine commaSeparated_run alternativesEnds (fun (h : SamePattern _ _) => h.alike.isAtEnd)
      (by decide) (fun hitem hfit => ?_) hnodes hexplicit
    obtain ⟨shape, left, hshape, hitem⟩ := reads_bind.mp hitem
    rcases reads_ite.mp hitem with ⟨-, hrefuse⟩ | ⟨hclosed, hpure⟩
    · exact absurd hrefuse not_reads_refuse
    · obtain ⟨rfl, rfl⟩ := reads_pure.mp hpure
      refine .cast (.bind _ (alternatives_run hsorts (by decide) hshape
        (hfit _ (List.mem_singleton_self _))).1 ?_) (show shape.leaves ++ [] = _ by simp)
      simp only [if_neg hclosed]
      exact .pure
  refine ⟨?_, rfl⟩
  unfold slicePattern
  exact (((hinner.group openers).map _).cast (by simp)).mono (fun _ => id) fun _ h =>
    h.pattern (isOp_of_group hgroup)

/-- A pattern that refers to a value is read again. -/
theorem referencePattern_run (hsorts : sorts.Replays)
    (h : (referencePattern sorts).Reads tokens node rest) (hnode : node.isExplicit = true) :
    Run level referencePattern (Same patternEnds rest) (SamePattern tokens) tokens node rest
      node.leaves ∧ node.isLed = true := by
  obtain ⟨mark, mid, hmark, word, left, hword, shape, last, hshape, hpure⟩ := by
    simpa only [referencePattern, reads_bind] using h
  obtain ⟨rfl, rfl⟩ := reads_pure.mp hpure
  refine ⟨?_, rfl⟩
  have hexplicit := Node.isExplicit_parts hnode rfl shape (by simp)
  have hangle : isOp "<" tokens = false := by
    obtain ⟨-, spacing, mid, rfl, -⟩ := afterOperator?_cons_eq_some.mp
      (show afterOperator? ['&'] tokens = some _ from (reads_operator.mp hmark).1)
    exact isOp_mark (by decide) _ _
  have hmarkRun : Run level (fun _ => operator "&") (Same openers mid) (Same openers tokens) tokens
      mark mid mark.leaves := clear_run hmark (by decide)
  unfold referencePattern
  exact .cast (.next _ (hmarkRun.mono (fun _ => id) fun _ h => h.pattern hangle)
    (leaves_ne_nil_of_operator hmark) (.bind (Same openers left) (keyword?_run hword rfl)
      ((((hsorts.pattern hshape hexplicit).run.raise (by omega)).mono (fun _ => id)
        fun _ h => h.toSame).map _))) (by simp)

/-! ### Patterns -/

/-- What follows a name goes on with it if it did. -/
theorem Same.continuesName {again : List Token} (h : Same openers tokens again)
    (hidentifier : Grammar.isIdentifier tokens = true) :
    Grammar.continuesName (Grammar.afterOne again) =
      Grammar.continuesName (Grammar.afterOne tokens) := by
  have hword := exists_word_of_isIdentifier hidentifier
  have halike := h.alike.behind hword
  have hpath : isPathWord tokens = true := by
    unfold Grammar.isIdentifier at hidentifier
    split at hidentifier
    · simp [isPathWord, hidentifier]
    · contradiction
  simp only [Grammar.continuesName, Grammar.isOneOf, List.any_cons, List.any_nil,
    h.afterName hpath "::" (by decide) (by decide), h.afterName hpath ".." (by decide) (by decide),
    halike.isOp_char "!" rfl (by decide), halike.isGroup]

/-- A pattern begins with a path that goes on. -/
def beginsNamed (tokens : List Token) : Bool :=
  (isIdentifier tokens && continuesName (afterOne tokens)) ||
    (isWord "self" tokens && isOp "::" (afterOne tokens)) ||
    isOneOf ["::", "<"] tokens || isAnyOf ["Self", "super", "crate"] tokens

theorem Same.beginsNamed {again : List Token} (h : Same openers tokens again) :
    Grammar.beginsNamed again = Grammar.beginsNamed tokens := by
  have hname : (isIdentifier again && Grammar.continuesName (afterOne again)) =
      (isIdentifier tokens && Grammar.continuesName (afterOne tokens)) := by
    rw [h.alike.isIdentifier]
    cases hidentifier : isIdentifier tokens with
    | false => rfl
    | true => rw [h.continuesName hidentifier]
  have hself : (isWord "self" again && Grammar.isOp "::" (afterOne again)) =
      (isWord "self" tokens && Grammar.isOp "::" (afterOne tokens)) := by
    rw [h.alike.isWord]
    cases hword : isWord "self" tokens with
    | false => rfl
    | true =>
      refine congrArg _ (h.afterName ?_ "::" (by decide) (by decide))
      unfold isWord at hword
      split at hword
      · rw [beq_iff_eq.mp hword]
        rfl
      · contradiction
  rw [Grammar.beginsNamed, Grammar.beginsNamed, hname, hself, h.isOneOf _ (by decide),
    h.alike.isAnyOf]

theorem PatternRun.of_both {parser : Sorts → Parser Node}
    (h : Run level parser (Same patternEnds rest) (SamePattern tokens) tokens node rest
      node.leaves ∧
      node.isLed = true) : PatternRun level parser tokens node rest := ⟨h.1, h.2⟩

/-- A pattern without alternatives, given what it begins with. -/
def patternFrom (sorts : Sorts) (tokens : List Token) : Parser Node :=
  if beginsNamed tokens then namedPattern sorts
  else if isWord "_" tokens then return .branch .wildPattern [← keyword "_"]
  else if isWord "box" tokens then boxPattern sorts
  else if isOp "-" tokens || isLiteral tokens || isWord "const" tokens then constantPattern sorts
  else if isAnyOf ["ref", "mut", "self"] tokens || isIdentifier tokens then bindingPattern sorts
  else if isOp "&" tokens then referencePattern sorts
  else if isGroup .parenthesis tokens then enclosedPattern sorts
  else if isGroup .bracket tokens then slicePattern sorts
  else if isOp "..." tokens then expected (patternBeginnings.filter (· != "`..`"))
  else if isOp ".." tokens then rangeUpTo sorts
  else expected patternBeginnings

/-- No pattern begins with three dots. -/
theorem dots_of_patternFrom (h : (patternFrom sorts tokens).Reads tokens node rest) :
    isOp "..." tokens = false := by
  rw [Bool.eq_false_iff]
  intro hdots
  obtain ⟨next, hnext⟩ := Option.isSome_iff_exists.mp hdots
  obtain ⟨-, spacing, mid, rfl, ⟨hnil, -⟩ | ⟨-, rfl, -⟩⟩ := afterOperator?_cons_eq_some.mp
    (show afterOperator? ['.', '.', '.'] tokens = some next from hnext)
  · contradiction
  have hexpected : patternFrom sorts (.mark '.' .joint :: mid) =
      if isOp "..." (.mark '.' .joint :: mid) then
        expected (patternBeginnings.filter (· != "`..`"))
      else if isOp ".." (.mark '.' .joint :: mid) then rangeUpTo sorts
      else expected patternBeginnings := rfl
  rw [hexpected, if_pos hdots] at h
  exact absurd h not_reads_expected

theorem Same.patternFrom {again : List Token} (h : Same openers tokens again)
    (hdots : Grammar.isOp "..." tokens = false) :
    Grammar.patternFrom sorts again = Grammar.patternFrom sorts tokens := by
  have hagain : Grammar.isOp "..." again = Grammar.isOp "..." tokens := by
    rw [hdots, Bool.eq_false_iff]
    intro hthere
    rw [h.alike.isOp_of_again (by decide) hthere] at hdots
    contradiction
  unfold Grammar.patternFrom
  rw [h.beginsNamed, h.alike.isWord, h.alike.isWord, h.alike.isWord, h.isOp "-" (by decide),
    h.alike.isLiteral, h.alike.isAnyOf, h.alike.isIdentifier, h.isOp "&" (by decide),
    h.alike.isGroup, h.alike.isGroup, hagain, h.isOp ".." (by decide)]

variable (level) in
/-- A pattern is read again. -/
theorem patternWhere_run (hsorts : sorts.Replays) (h : (patternWhere sorts).Reads tokens node rest)
    (hnode : node.isExplicit = true) : PatternRun level patternWhere tokens node rest := by
  have h := reads_ahead.mp h
  suffices hrun : PatternRun level (fun sorts => patternFrom sorts tokens) tokens node rest by
    refine ⟨.ahead hrun.run fun again sorts hagain => ?_, hrun.isLed⟩
    exact hagain.toSame.patternFrom (dots_of_patternFrom h)
  unfold patternFrom
  refine .ite h (fun _ h => ?_) fun hnamed h => .ite h (fun _ h => ?_) fun _ h => .ite h
    (fun _ h => ?_)
    fun _ h => .ite h (fun _ h => ?_) fun _ h => .ite h (fun hlook h => ?_) fun _ h =>
    .ite h (fun _ h => ?_) fun _ h => .ite h (fun hlook h => ?_) fun _ h => .ite h
      (fun hlook h => ?_)
    fun _ h => .ite h (fun _ h => absurd h not_reads_expected) fun _ h => .ite h (fun hlook h => ?_)
    fun _ h => absurd h not_reads_expected
  · exact .of_both (namedPattern_run hsorts h hnode)
  · obtain ⟨word, mid, hword, hpure⟩ := reads_bind.mp h
    obtain ⟨rfl, rfl⟩ := reads_pure.mp hpure
    have hrun : Run level (fun _ => keyword "_") (Same patternEnds mid) (Same openers tokens) tokens
        word mid word.leaves := keyword_run hword rfl fun _ h _ => h.alike
    refine ⟨((hrun.map _).cast (by simp)).mono (fun _ => id) fun _ h => h.pattern ?_, rfl⟩
    rw [(reads_keyword.mp hword).1]
    exact isOp_word ..
  · exact absurd hnode (Node.not_isExplicit_of_isVerbatim (isVerbatim_of_asRead h))
  · exact .of_both (constantPattern_run hsorts h hnode)
  · refine .of_both (bindingPattern_run hsorts h hnode fun href hmut => ?_)
    have hnotNamed := Bool.eq_false_iff.mpr hnamed
    simp only [beginsNamed, Bool.or_eq_false_iff] at hnotNamed
    have hword : isWord "self" tokens = true ∨ isIdentifier tokens = true := by
      simpa [isAnyOf, href, hmut] using hlook
    rcases hword with hself | hidentifier
    · simpa [hself] using hnotNamed.1.1.2
    · have hfree : continuesName (afterOne tokens) = false := by
        simpa [hidentifier] using hnotNamed.1.1.1
      simp only [continuesName, isOneOf, List.any_cons, Bool.or_eq_false_iff] at hfree
      exact hfree.1.1.1
  · exact .of_both (referencePattern_run hsorts h hnode)
  · exact .of_both (enclosedPattern_run hsorts h hnode hlook)
  · exact .of_both (slicePattern_run hsorts h hnode hlook)
  · exact .of_both (rangeUpTo_run hsorts h hnode hlook)

/-- What a pattern begins with may follow a colon. -/
theorem followsColon_pattern (h : (patternWhere sorts).Reads tokens node rest) :
    FollowsColon tokens := by
  have h := reads_ahead.mp h
  rcases reads_ite.mp h with ⟨hlook, -⟩ | ⟨-, h⟩
  · rcases Bool.or_eq_true_iff.mp hlook with hlook | hlook
    · rcases Bool.or_eq_true_iff.mp hlook with hlook | hlook
      · rcases Bool.or_eq_true_iff.mp hlook with hlook | hlook
        · exact .of_glance (Bool.and_eq_true_iff.mp hlook).1 fun _ _ => rfl
        · exact .of_glance (Bool.and_eq_true_iff.mp hlook).1 fun _ _ => rfl
      · intro hcolon
        obtain ⟨text, htext, hop⟩ := List.any_eq_true.mp hlook
        simp only [List.mem_cons, List.not_mem_nil, or_false] at htext
        rcases htext with rfl | rfl
        · exact hop
        · exact FollowsColon.of_glance hop (fun _ _ => rfl) hcolon
    · exact .of_glance hlook fun _ _ => rfl
  rcases reads_ite.mp h with ⟨hlook, -⟩ | ⟨-, h⟩
  · exact .of_glance hlook fun _ _ => rfl
  rcases reads_ite.mp h with ⟨hlook, -⟩ | ⟨-, h⟩
  · exact .of_glance hlook fun _ _ => rfl
  rcases reads_ite.mp h with ⟨hlook, -⟩ | ⟨-, h⟩
  · rcases Bool.or_eq_true_iff.mp hlook with hlook | hlook
    · rcases Bool.or_eq_true_iff.mp hlook with hlook | hlook
      · exact .of_glance hlook fun _ _ => rfl
      · exact .of_glance hlook fun _ _ => rfl
    · exact .of_glance hlook fun _ _ => rfl
  rcases reads_ite.mp h with ⟨hlook, -⟩ | ⟨-, h⟩
  · rcases Bool.or_eq_true_iff.mp hlook with hlook | hlook
    · exact .of_glance hlook fun _ _ => rfl
    · exact .of_glance hlook fun _ _ => rfl
  rcases reads_ite.mp h with ⟨hlook, -⟩ | ⟨-, h⟩
  · exact .of_glance hlook fun _ _ => rfl
  rcases reads_ite.mp h with ⟨hlook, -⟩ | ⟨-, h⟩
  · exact .of_glance hlook fun _ _ => rfl
  rcases reads_ite.mp h with ⟨hlook, -⟩ | ⟨-, h⟩
  · exact .of_glance hlook fun _ _ => rfl
  rcases reads_ite.mp h with ⟨-, h⟩ | ⟨-, h⟩
  · exact absurd h not_reads_expected
  rcases reads_ite.mp h with ⟨hlook, -⟩ | ⟨-, h⟩
  · exact .of_glance hlook fun _ _ => isOp_mark (by decide) _ _
  · exact absurd h not_reads_expected

end Pattern

end Typestate.Grammar
