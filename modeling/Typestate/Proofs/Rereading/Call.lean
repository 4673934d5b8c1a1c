import Typestate.Proofs.Rereading.Branch

/-!
# Expressions that begin with a name, read again

What a call of a macro in place of a statement turns out to be depends on the path and on what
stands behind it. The path of an expression is read by another parser, which finds the same names.
-/

namespace Typestate.Grammar

open Grammar.Parser Lexer Token

section Call

variable {level : ℕ} {sorts : Sorts} {operators : List String} {tokens rest : List Token}
  {ends : List Token → Prop} {node : Node}

/-! ### The path of a call -/

/-- The segment stands in the path of a call of a macro. -/
def Segment.isCallName (segment : Segment) : Bool :=
  segment.arguments.isNone && isPathWord [.word segment.name]

/-- What stands behind a segment is a path mark without arguments, or none. -/
theorem reads_bareSegment {inExpression : Bool} {found : Segment}
    (h : (segment sorts inExpression).Reads tokens found rest) :
    ∃ left, tokens = .word found.name :: left ∧
      (found.arguments = none → left = rest) ∧
      (found.arguments ≠ none → inExpression = true → isTurbofish left = true) := by
  rcases reads_ite.mp (reads_ahead.mp h) with ⟨-, h⟩ | ⟨-, h⟩
  · obtain ⟨name, left, hname, hpure⟩ := reads_bind.mp h
    obtain ⟨rfl, rfl⟩ := reads_pure.mp hpure
    exact ⟨left, reads_anyWord.mp hname, fun _ => rfl, fun hne => absurd rfl hne⟩
  · have hword : ∀ {name left}, (if isWord "Self" tokens then anyWord else identifier).Reads tokens
        name left → tokens = .word name :: left := by
      intro name left hname
      rcases reads_ite.mp hname with ⟨-, hname⟩ | ⟨-, hname⟩
      · exact reads_anyWord.mp hname
      · exact (reads_identifier.mp hname).1
    rw [show (if isWord "Self" tokens then _ else _) = _ from ite_bind ..] at h
    obtain ⟨name, left, hname, h⟩ := reads_bind.mp h
    rcases reads_ite.mp (reads_ahead.mp h) with ⟨hopens, h⟩ | ⟨-, hpure⟩
    · obtain ⟨arguments, last, -, hpure⟩ := reads_bind.mp h
      obtain ⟨rfl, rfl⟩ := reads_pure.mp hpure
      refine ⟨left, hword hname, nofun, fun _ hin => ?_⟩
      simpa [hin] using hopens
    · obtain ⟨rfl, rfl⟩ := reads_pure.mp hpure
      exact ⟨left, hword hname, fun _ => rfl, fun hne => absurd rfl hne⟩

/-- The names of a path are found if no segment has arguments and no further marks follow. -/
theorem reads_namesAtMost {rounds : ℕ} {others : List Segment}
    (h : (repeatAtMost goesOn (nextSegment true sorts) rounds).Reads tokens others rest)
    (hnames : ∀ segment ∈ others, segment.isCallName = true) (hrest : isOp "::" rest = false)
    (name : String) : ∀ rounds', tokens.length < rounds' →
      (namesAtMost isPathWord rounds').Reads (.word name :: tokens)
        (name :: others.map Segment.name) rest := by
  induction rounds generalizing tokens others name with
  | zero => exact absurd h not_reads_fail
  | succ rounds ih =>
    intro rounds' hrounds
    obtain ⟨more, rfl⟩ : ∃ more, rounds' = more + 1 := ⟨rounds' - 1, by omega⟩
    refine reads_bind.mpr ⟨name, tokens, reads_anyWord.mpr rfl, reads_ahead.mpr ?_⟩
    rcases reads_ite.mp (reads_ahead.mp h) with ⟨hgoes, h⟩ | ⟨-, hpure⟩
    · obtain ⟨first, mid, hfirst, h⟩ := reads_bind.mp h
      obtain ⟨found, left, hfound, hpure⟩ := reads_bind.mp h
      obtain ⟨rfl, rfl⟩ := reads_pure.mp hpure
      obtain ⟨colons, next, segment, hcolons, hsegment, rfl⟩ := reads_nextSegment.mp hfirst
      obtain ⟨last, rfl, hplain, -⟩ := reads_bareSegment hsegment
      have hcall := Bool.and_eq_true_iff.mp (hnames segment (by simp))
      obtain rfl := hplain (Option.isNone_iff_eq_none.mp hcall.1)
      have hfits : last.length < more := by
        obtain ⟨spacing, rfl⟩ := eq_of_colons (reads_operator.mp hcolons).1
        simp at hrounds
        omega
      refine reads_ite.mpr (.inl ⟨(Bool.and_eq_true_iff.mp hgoes).1, reads_bind.mpr
        ⟨colons, _, hcolons, reads_ahead.mpr (reads_ite.mpr (.inl ⟨hcall.2, reads_bind.mpr
          ⟨_, _, ih hfound (fun segment hmem => hnames segment (by simp [hmem])) segment.name
            more hfits, reads_pure.mpr ⟨rfl, rfl⟩⟩⟩))⟩⟩)
    · obtain ⟨rfl, rfl⟩ := reads_pure.mp hpure
      exact reads_ite.mpr (.inr ⟨by simp [hrest], reads_pure.mpr ⟨rfl, rfl⟩⟩)

/-- Two colons behind a name of a path have a name behind them. -/
theorem name_of_namesAtMost {rounds : ℕ} {name : String} {names : List String} {left : List Token}
    (h : (namesAtMost isPathWord rounds).Reads (.word name :: tokens) names left)
    (hcolons : isOp "::" tokens = true) : ∃ colons mid found rounds',
      mid = afterOne (afterOne tokens) ∧
      (operator "::").Reads tokens colons mid ∧ isPathWord mid = true ∧
        (namesAtMost isPathWord rounds').Reads mid found left := by
  cases rounds with
  | zero => exact absurd h not_reads_fail
  | succ more =>
    obtain ⟨_, mid, hname, h⟩ := reads_bind.mp h
    obtain rfl := (List.cons.inj (reads_anyWord.mp hname)).2
    rcases reads_ite.mp (reads_ahead.mp h) with ⟨-, h⟩ | ⟨hnot, -⟩
    · obtain ⟨colons, mid, hmark, h⟩ := reads_bind.mp h
      rcases reads_ite.mp (reads_ahead.mp h) with ⟨hallowed, h⟩ | ⟨-, h⟩
      · obtain ⟨found, _, hfound, hpure⟩ := reads_bind.mp h
        obtain ⟨-, rfl⟩ := reads_pure.mp hpure
        obtain ⟨spacing, rfl⟩ := eq_of_colons (reads_operator.mp hmark).1
        exact ⟨colons, mid, found, more, rfl, hmark, hallowed, hfound⟩
      · exact absurd h not_reads_expected
    · exact absurd hcolons hnot

/-- No arguments stand behind a name that is found. -/
theorem not_turbofish_of_namesAtMost {rounds : ℕ} {name : String} {names : List String}
    {left : List Token} (h : (namesAtMost isPathWord rounds).Reads (.word name :: tokens)
      names left) :
    ¬ isTurbofish tokens = true := by
  intro hturbofish
  obtain ⟨hcolons, hangle⟩ := Bool.and_eq_true_iff.mp hturbofish
  obtain ⟨_, mid, _, _, rfl, -, hword, -⟩ := name_of_namesAtMost h hcolons
  obtain ⟨next, hnext⟩ := Option.isSome_iff_exists.mp hangle
  obtain ⟨-, spacing, _, heq, -⟩ := afterOperator?_cons_eq_some.mp
    (show afterOperator? ['<'] (afterOne (afterOne tokens)) = some next from hnext)
  rw [heq] at hword
  contradiction

/-- Names that are found behind a name are those of the segments. -/
theorem isCallName_of_namesAtMost {rounds rounds' : ℕ} {others : List Segment} {name : String}
    {names : List String} {left : List Token}
    (h : (repeatAtMost goesOn (nextSegment true sorts) rounds).Reads tokens others rest)
    (hnames : (namesAtMost isPathWord rounds').Reads (.word name :: tokens) names left) :
    (∀ segment ∈ others, segment.isCallName = true) ∧ isOp "::" rest = false := by
  induction rounds generalizing tokens others name names rounds' with
  | zero => exact absurd h not_reads_fail
  | succ rounds ih =>
    rcases reads_ite.mp (reads_ahead.mp h) with ⟨hgoes, h⟩ | ⟨hends, hpure⟩
    · obtain ⟨first, next, hfirst, h⟩ := reads_bind.mp h
      obtain ⟨others, last, hothers, hpure⟩ := reads_bind.mp h
      obtain ⟨rfl, rfl⟩ := reads_pure.mp hpure
      obtain ⟨_, start, segment, hmark, hsegment, rfl⟩ := reads_nextSegment.mp hfirst
      obtain ⟨colons, mid, found, more, -, hmark', hallowed, hfound⟩ :=
        name_of_namesAtMost hnames (Bool.and_eq_true_iff.mp hgoes).1
      obtain ⟨-, rfl⟩ := hmark.eq hmark'
      obtain ⟨behind, rfl, hplain, hturbofish⟩ := reads_bareSegment hsegment
      cases harguments : segment.arguments with
      | none =>
        obtain rfl := hplain harguments
        obtain ⟨hmore, hrest⟩ := ih hothers hfound
        refine ⟨fun other hmem => ?_, hrest⟩
        rcases List.mem_cons.mp hmem with rfl | hmem
        · exact Bool.and_eq_true_iff.mpr ⟨Option.isNone_iff_eq_none.mpr harguments, hallowed⟩
        · exact hmore other hmem
      | some arguments =>
        exact absurd (hturbofish (by simp [harguments]) rfl) (not_turbofish_of_namesAtMost hfound)
    · obtain ⟨rfl, rfl⟩ := reads_pure.mp hpure
      refine ⟨nofun, Bool.eq_false_iff.mpr fun hcolons => hends ?_⟩
      obtain ⟨_, mid, _, _, rfl, -, hword, -⟩ := name_of_namesAtMost hnames hcolons
      refine Bool.and_eq_true_iff.mpr ⟨hcolons, ?_⟩
      cases hinputs : isInputTurbofish tokens with
      | false => rfl
      | true =>
        have hgroup := (Bool.and_eq_true_iff.mp hinputs).2
        cases hleft : afterOne (afterOne tokens) with
        | nil =>
          rw [hleft] at hword
          contradiction
        | cons token others =>
          rw [hleft] at hword hgroup
          cases token with
          | word text => contradiction
          | _ => contradiction

/-- Nothing that a parser finds leaves anything over in a group. -/
structure Parser.IsWhole {A : Type} (parser : Parser A) : Prop where
  excess : ∀ {tokens found}, parser tokens = .ok found → found.excess = none

namespace Parser.IsWhole

variable {A B : Type}

theorem bind {parser : Parser A} {next : A → Parser B} (h : parser.IsWhole)
    (hnext : ∀ value, (next value).IsWhole) : (parser >>= next).IsWhole where
  excess hfound := by
    obtain ⟨first, more, hfirst, hmore, rfl⟩ := bind_eq_ok.mp hfound
    simp [h.excess hfirst, (hnext _).excess hmore]

theorem pure (value : A) : (Pure.pure value : Parser A).IsWhole where
  excess hfound := by
    obtain rfl := Except.ok.inj hfound
    rfl

theorem ahead : Parser.ahead.IsWhole where
  excess hfound := by
    obtain rfl := Except.ok.inj hfound
    rfl

theorem expected (choices : List String) : (Parser.expected choices : Parser A).IsWhole where
  excess hfound := absurd hfound (by simp [Parser.expected])

theorem ite {condition : Prop} [Decidable condition] {first second : Parser A}
    (hfirst : first.IsWhole) (hsecond : second.IsWhole) :
    (if condition then first else second).IsWhole := by
  split
  · exact hfirst
  · exact hsecond

theorem operator (text : String) : (Parser.operator text).IsWhole where
  excess hfound := by
    unfold Parser.operator at hfound
    split at hfound
    · obtain rfl := Except.ok.inj hfound
      rfl
    · contradiction

theorem anyWord : Parser.anyWord.IsWhole where
  excess hfound := by
    unfold Parser.anyWord at hfound
    split at hfound
    · obtain rfl := Except.ok.inj hfound
      rfl
    · contradiction

theorem identifier : Parser.identifier.IsWhole where
  excess hfound := by
    unfold Parser.identifier at hfound
    split at hfound
    · split at hfound
      · obtain rfl := Except.ok.inj hfound
        rfl
      · contradiction
    · contradiction

theorem namesAtMost {allowed : List Token → Bool} {rounds : ℕ} :
    (Grammar.namesAtMost allowed rounds).IsWhole := by
  induction rounds with
  | zero => exact ⟨nofun⟩
  | succ rounds ih =>
    exact anyWord.bind fun _ => ahead.bind fun _ => .ite ((operator _).bind fun _ => ahead.bind
      fun _ => .ite (ih.bind fun _ => .pure _) (.expected _)) (.pure _)

theorem plainPath : Grammar.plainPath.IsWhole := by
  have hleading : (Parser.operator? "::").IsWhole := by
    refine ⟨fun {tokens found} hfound => ?_⟩
    unfold Parser.operator? Parser.onlyIf at hfound
    split at hfound
    · exact ((operator _).bind fun _ => .pure _).excess hfound
    · obtain rfl := Except.ok.inj hfound
      rfl
  exact hleading.bind fun _ => ahead.bind fun _ => .ite (ahead.bind fun _ => namesAtMost.bind
    fun _ => .pure _) (identifier.bind fun _ => (pure _).bind fun _ => .pure _)

end Parser.IsWhole

/-- What a call turns out to be, given what stands behind its path. -/
def callFrom (rest : List Token) : CallStatement :=
  let body := afterOne rest
  if !isOp "!" rest then .expression
  else if isIdentifier body || isWord "try" body then .item
  else if isGroup .brace body && !isDot (afterOne body) && !isOp "?" (afterOne body) then .statement
  else .expression

/-- What a call turns out to be is seen from the path that the expression begins with. -/
theorem callStatement_eq {found : Path} (h : (pathWhere sorts true).Reads tokens found rest) :
    callStatement tokens = if (found.segments.all Segment.isCallName && !isOp "::" rest) = true then
      callFrom rest else .expression := by
  obtain ⟨leading, mid, hleading, h⟩ := reads_bind.mp h
  obtain ⟨first, left, hfirst, h⟩ := reads_bind.mp h
  obtain ⟨others, last, hothers, hpure⟩ := reads_bind.mp h
  obtain ⟨rfl, rfl⟩ := reads_pure.mp hpure
  obtain ⟨behind, rfl, hplain, hturbofish⟩ := reads_bareSegment hfirst
  have hothers := reads_ahead.mp hothers
  split
  · rename_i hcall
    obtain ⟨hnames, hrest⟩ := Bool.and_eq_true_iff.mp hcall
    have hall := List.all_eq_true.mp hnames
    obtain ⟨hnone, hword⟩ := Bool.and_eq_true_iff.mp (hall first (by simp))
    obtain rfl := hplain (Option.isNone_iff_eq_none.mp hnone)
    have hpath : ∃ path, plainPath.Reads tokens path last := by
      refine ⟨_, reads_bind.mpr ⟨leading, _, hleading, reads_ahead.mpr (reads_ite.mpr (.inl ⟨hword,
        reads_ahead.mpr (reads_bind.mpr ⟨_, _, reads_namesAtMost hothers (fun segment hmem =>
          hall segment (by simp [hmem])) (by simpa using hrest) first.name _ ?_,
          reads_pure.mpr ⟨rfl, rfl⟩⟩)⟩))⟩⟩
      simp only [List.length_cons]
      omega
    obtain ⟨path, hpath⟩ := hpath
    rw [callStatement, show plainPath tokens = _ from hpath]
    rfl
  · rename_i hnot
    cases hfound : plainPath tokens with
    | error mismatch => rw [callStatement, hfound]
    | ok found =>
      obtain ⟨path, final, excess⟩ := found
      obtain rfl : excess = none := Parser.IsWhole.plainPath.excess hfound
      obtain ⟨_, next, hleading', hpath⟩ :=
        reads_bind.mp (show plainPath.Reads tokens path final from hfound)
      obtain ⟨rfl, rfl⟩ := hleading.eq hleading'
      rcases reads_ite.mp (reads_ahead.mp hpath) with ⟨hword, hpath⟩ | ⟨hnot, hpath⟩
      · obtain ⟨names, _, hnames, -⟩ := reads_bind.mp (reads_ahead.mp hpath)
        cases harguments : first.arguments with
        | none =>
          obtain rfl := hplain harguments
          obtain ⟨hmore, hlast⟩ := isCallName_of_namesAtMost hothers hnames
          refine absurd ?_ hnot
          have hfirst : first.isCallName = true := by
            rw [Segment.isCallName, harguments]
            exact hword
          simpa [hlast, hfirst] using hmore
        | some arguments =>
          exact absurd (hturbofish (by simp [harguments]) rfl) (not_turbofish_of_namesAtMost hnames)
      · obtain ⟨name, _, hname, -⟩ := reads_bind.mp hpath
        obtain ⟨heq, hidentifier⟩ := reads_identifier.mp hname
        obtain rfl : first.name = name := Token.word.inj (List.cons.inj heq).1
        exact absurd (Bool.or_eq_true_iff.mpr (.inl hidentifier)) hnot

/-- What a call turns out to be, given the path that the expression begins with. -/
def callBehind (rest : List Token) : AnyPath → CallStatement
  | .plain path =>
    if (path.segments.all Segment.isCallName && !isOp "::" rest) = true then callFrom rest
    else .expression
  | .qualified _ => .expression

theorem callStatement_anyPath {found : AnyPath} (h : (anyPath sorts true).Reads tokens found rest) :
    callStatement tokens = callBehind rest found := by
  rcases reads_ite.mp (reads_ahead.mp h) with ⟨hangle, h⟩ | ⟨-, h⟩
  · obtain ⟨node, _, -, hpure⟩ := reads_bind.mp h
    obtain ⟨rfl, rfl⟩ := reads_pure.mp hpure
    obtain ⟨next, hnext⟩ := Option.isSome_iff_exists.mp hangle
    obtain ⟨-, spacing, mid, rfl, -⟩ :=
      afterOperator?_cons_eq_some.mp (show afterOperator? ['<'] tokens = some next from hnext)
    exact callStatement_of_not rfl (isOp_mark (by decide) _ _)
  · obtain ⟨path, _, hpath, hpure⟩ := reads_bind.mp h
    obtain ⟨rfl, rfl⟩ := reads_pure.mp hpure
    exact callStatement_eq hpath

/-- No path begins with the word that binds parameters. -/
theorem not_for_of_anyPath {found : AnyPath} (h : (anyPath sorts true).Reads tokens found rest) :
    isWord "for" tokens = false := by
  rw [Bool.eq_false_iff]
  intro hfor
  obtain ⟨others, rfl⟩ := eq_of_isWord hfor
  rcases reads_ite.mp (reads_ahead.mp h) with ⟨hangle, -⟩ | ⟨-, h⟩
  · rw [isOp_word] at hangle
    contradiction
  · obtain ⟨path, _, hpath, -⟩ := reads_bind.mp h
    obtain ⟨leading, mid, hleading, hpath⟩ := reads_bind.mp hpath
    obtain ⟨first, left, hfirst, -⟩ := reads_bind.mp hpath
    rcases reads_onlyIf.mp hleading with ⟨hcolons, -⟩ | ⟨-, -, rfl⟩
    · rw [isOp_word] at hcolons
      contradiction
    · rcases reads_ite.mp (reads_ahead.mp hfirst) with ⟨hword, -⟩ | ⟨-, hfirst⟩
      · exact absurd (show isAnyOf ["super", "self", "crate", "try"] [.word "for"] = true
          from hword)
          (by decide)
      · rw [show (if isWord "Self" _ then _ else _) = _ from ite_bind ..] at hfirst
        obtain ⟨name, _, hname, -⟩ := reads_bind.mp hfirst
        rcases reads_ite.mp hname with ⟨hself, -⟩ | ⟨-, hname⟩
        · exact absurd (show isWord "Self" [.word "for"] = true from hself) (by decide)
        · obtain ⟨heq, hidentifier⟩ := reads_identifier.mp hname
          obtain rfl := Token.word.inj (List.cons.inj heq).1
          exact absurd hidentifier (by decide)

/-- What stands behind the path looks as it did, also to a glance for the call of a macro. -/
structure SameCall (found : AnyPath) (tokens again : List Token) : Prop
    extends Same expressionEnds tokens again where
  callBehind : Grammar.callBehind again found = Grammar.callBehind tokens found

/-- What stands behind the name `try` at the front of a path looks as it did. -/
theorem tryMark_of_anyPath {found : AnyPath} {after : List Token}
    (h : (anyPath sorts true).Reads tokens found rest) (htry : isWord "try" tokens = true)
    (hafter : Same expressionEnds rest after) :
    isOneOf ["!", "::"] (afterOne (found.node.leaves ++ after)) =
      isOneOf ["!", "::"] (afterOne tokens) := by
  obtain ⟨left, rfl⟩ := eq_of_isWord htry
  rcases reads_ite.mp (reads_ahead.mp h) with ⟨hangle, -⟩ | ⟨-, h⟩
  · rw [isOp_word] at hangle
    contradiction
  obtain ⟨path, _, hpath, hpure⟩ := reads_bind.mp h
  obtain ⟨rfl, rfl⟩ := reads_pure.mp hpure
  obtain ⟨leading, mid, hleading, hpath⟩ := reads_bind.mp hpath
  obtain ⟨first, next, hfirst, hpath⟩ := reads_bind.mp hpath
  obtain ⟨others, last, hothers, hpure⟩ := reads_bind.mp hpath
  obtain ⟨rfl, rfl⟩ := reads_pure.mp hpure
  rcases reads_onlyIf.mp hleading with ⟨hcolons, -⟩ | ⟨-, rfl, rfl⟩
  · rw [isOp_word] at hcolons
    contradiction
  rcases reads_ite.mp (reads_ahead.mp hfirst) with ⟨-, hfirst⟩ | ⟨hnot, -⟩
  · obtain ⟨name, _, hname, hpure⟩ := reads_bind.mp hfirst
    obtain ⟨rfl, rfl⟩ := reads_pure.mp hpure
    obtain ⟨hword, rfl⟩ := List.cons.inj (reads_anyWord.mp hname)
    obtain rfl := Token.word.inj hword
    have hleaves : (AnyPath.plain ⟨false, ⟨"try", none⟩ :: others⟩).node.leaves =
        .word "try" :: others.flatMap Segment.printed := by
      have hsegments := leaves_segments ⟨"try", none⟩ others
      simpa [AnyPath.node, Path.node, Node.branch, Segment.node] using hsegments
    rw [show (AnyPath.plain ⟨!List.isEmpty ([] : List Node), _⟩).node.leaves = _ from hleaves]
    simp only [List.cons_append, afterOne_word, isOneOf, List.any_cons, List.any_nil, Bool.or_false]
    rcases reads_ite.mp (reads_ahead.mp (reads_ahead.mp hothers)) with ⟨hgoes, h⟩ | ⟨hends, hpure⟩
    · obtain ⟨found, mid, hfound, h⟩ := reads_bind.mp h
      obtain ⟨more, _, -, hpure⟩ := reads_bind.mp h
      obtain ⟨rfl, rfl⟩ := reads_pure.mp hpure
      obtain ⟨_, _, segment, -, -, rfl⟩ := reads_nextSegment.mp hfound
      have hprinted : isOp "::" (([segment] ++ more).flatMap Segment.printed ++ after) = true := rfl
      rw [hprinted, (Bool.and_eq_true_iff.mp hgoes).1, Bool.or_true, Bool.or_true]
    · obtain ⟨rfl, rfl⟩ := reads_pure.mp hpure
      rw [List.flatMap_nil, List.nil_append, hafter.isOp "!" (.inl (by decide)),
        (hafter.colons (Bool.eq_false_iff.mpr hends)).isOp_colons]
  · exact absurd rfl hnot

/-- The path of an expression is read again. -/
theorem expressionPath_run {found : AnyPath} (hsorts : sorts.Replays)
    (h : (anyPath sorts true).Reads tokens found rest) (hfound : found.node.isExplicit = true) :
    Run level (fun sorts => anyPath sorts true) (SameCall found rest) (SameExpression tokens) tokens
      found rest found.node.leaves := by
  have hrun : Run level (fun sorts => anyPath sorts true) (Same expressionEnds rest)
      (SamePattern tokens) tokens found rest found.node.leaves :=
    anyPath_run hsorts (by decide) (by decide) h hfound
  refine ⟨fun hafter => hrun.again hafter.toSame, fun hafter => ?_, hrun.written, hrun.shorter⟩
  have hpattern := hrun.begins hafter.toSame
  refine ⟨hpattern.toSame, ?_, ?_, fun htry => ?_⟩
  · rw [callStatement_anyPath h, callStatement_anyPath (hrun.again hafter.toSame le_rfl),
      hafter.callBehind]
  · rw [beginsBinder, beginsBinder, hpattern.alike.isWord, not_for_of_anyPath h]
    rfl
  · exact tryMark_of_anyPath h htry hafter.toSame

theorem callFrom_of_not (h : isCallMark rest = false) : callFrom rest = .expression := by
  cases hbang : isOp "!" rest with
  | false => simp [callFrom, hbang]
  | true =>
    have hnot : isOp "!=" rest = true := by simpa [isCallMark, hbang] using h
    obtain ⟨next, hnext⟩ := Option.isSome_iff_exists.mp hnot
    obtain ⟨-, spacing, mid, rfl, hmid⟩ :=
      afterOperator?_cons_eq_some.mp (show afterOperator? ['!', '='] rest = some next from hnext)
    obtain ⟨heq, -⟩ | ⟨-, -, hmid⟩ := hmid
    · contradiction
    · obtain ⟨-, spacing', mid', rfl, -⟩ := afterOperator?_cons_eq_some.mp hmid
      simp [callFrom, afterOne, isIdentifier, isWord, isGroup, Token.isGroup]

/-- Where no macro is called, a glance behind the path sees no call. -/
theorem callBehind_of_not {found : AnyPath}
    (h : ∀ path, found = .plain path → path.isPlain = true → isCallMark rest = false) :
    callBehind rest found = .expression := by
  cases found with
  | qualified node => rfl
  | plain path =>
    rw [callBehind]
    split
    · rename_i hcall
      refine callFrom_of_not (h path rfl (List.all_eq_true.mpr fun segment hmem => ?_))
      exact (Bool.and_eq_true_iff.mp (List.all_eq_true.mp (Bool.and_eq_true_iff.mp hcall).1 segment
        hmem)).1
    · rfl

theorem Same.isDot {again : List Token} (h : Same operators tokens again)
    (hmem : ".." ∈ operators) :
    Grammar.isDot again = Grammar.isDot tokens := by
  rw [Grammar.isDot, Grammar.isDot, h.isOp "." (.inl (by decide)), h.isOp ".." (.inr hmem)]

/-- The arguments of a call of a macro are read again. -/
theorem expressionCall_run {found : AnyPath} {body : CallBody}
    (h : callBody.Reads tokens body rest) (hcall : isCallMark tokens = true) :
    Run level (fun _ => callBody) (Same expressionEnds rest) (SameCall found tokens) tokens
      body rest (body.nodes.flatMap Node.leaves) := by
  obtain ⟨bang, mid, hbang, ⟨delimiter, group⟩, last, hgroup, hpure⟩ := by
    simpa only [callBody, reads_bind] using h
  obtain ⟨rfl, rfl⟩ := reads_pure.mp hpure
  obtain ⟨delimiter, inner, rfl, heq⟩ := reads_anyGroup.mp hgroup
  obtain ⟨rfl, rfl⟩ := Prod.mk.inj heq
  have hgroupRun : Run level (fun _ => anyGroup) (Same expressionEnds last)
      (fun again => ∃ after, Same expressionEnds last after ∧
        again = .group delimiter inner :: after)
      (.group delimiter inner :: last) (delimiter, .group delimiter [.verbatim inner]) last
      (Node.group delimiter [.verbatim inner]).leaves := by
    have hrun : Run level (fun _ => anyGroup) (Same expressionEnds last) (Same [] _)
        (.group delimiter inner :: last) _ last _ := anyGroup_run hgroup
    refine ⟨hrun.again, fun {after} hafter => ⟨after, hafter, ?_⟩, hrun.written, hrun.shorter⟩
    simp [Node.leaves_group]
  refine .cast (.bind _ (operator_run hbang fun again hagain => ?_) (hgroupRun.map _)) (by simp)
  obtain ⟨after, hafter, rfl⟩ := hagain
  have hop := (reads_operator.mp hbang).1
  obtain ⟨-, spacing, mid, rfl, hmid⟩ :=
    afterOperator?_cons_eq_some.mp (show afterOperator? ['!'] tokens = some _ from hop)
  obtain rfl : mid = _ := by simpa using hmid
  refine ⟨same_bang hop hcall (by decide), ?_⟩
  have hcolons : ∀ (spacing : Spacing) others, isOp "::" (.mark '!' spacing :: others) = false :=
    fun _ _ => isOp_mark (by decide) _ _
  have hfrom : ∀ {spacing : Spacing} {others},
      callFrom (.mark '!' spacing :: .group delimiter inner ::
        others) = if (delimiter = .brace ∧ isDot others = false ∧ isOp "?" others = false) then
          .statement else .expression := by
    intro spacing others
    cases delimiter <;> simp [callFrom, afterOne, isIdentifier, isWord, isGroup, Token.isGroup,
      isOp, afterOperator?]
  cases found with
  | qualified node => rfl
  | plain path =>
    rw [show ofOperator "!".toList ++ .group delimiter inner :: after =
      .mark '!' .alone :: .group delimiter inner :: after from rfl]
    rw [callBehind, callBehind, hcolons, hcolons, hfrom, hfrom, hafter.isDot (by decide),
      hafter.isOp "?" (.inl (by decide))]

/-! ### Literals of structs -/

theorem followsColon_expression (hsorts : sorts.Replays) {structs : Bool}
    (h : (sorts.expressionWhere structs).Reads tokens node rest) : FollowsColon tokens := by
  obtain ⟨first, mid, hfirst, -⟩ := reads_bind.mp h
  exact hsorts.operand_begins hfirst

/-- A field of a struct literal is read again. -/
theorem fieldValue_run (hsorts : sorts.Replays) (hlevel : 1 ≤ level)
    (h : (fieldValue sorts).Reads tokens node rest) (hnode : node.isExplicit = true) :
    Run level fieldValue (Same expressionEnds rest) (Same [".."] tokens) tokens node rest
      node.leaves := by
  obtain ⟨attributes, mid, hattributes, h⟩ := reads_bind.mp h
  obtain ⟨⟨named, reference⟩, left, hreference, h⟩ := reads_bind.mp h
  have hattributesRun : (∀ node ∈ attributes, node.isExplicit = true) →
      Run level outerAttributes (Same [".."] mid) (Same [".."] tokens) tokens attributes mid
        (attributes.flatMap Node.leaves) := fun hexplicit =>
    outerAttributes_run hsorts hattributes hexplicit (fun h => h.isOp "#" (by decide))
      fun _ h => h.mono (by decide)
  have hreferenceRun : Run level (fun _ => fieldReference) (Same patternEnds left) (Same [".."] mid)
      mid (named, reference) left reference.leaves :=
    fieldReference_run hreference (fun _ h => h.alike) fun after hafter longer _ hmem => by
      rw [List.mem_singleton.mp hmem]
      exact hafter.isOp ".." (by decide)
  unfold fieldValue
  rcases reads_ite.mp (reads_ahead.mp h) with ⟨hcolonThere, h⟩ | ⟨hnotColon, hpure⟩
  · obtain ⟨colon, next, hcolon, value, last, hvalue, hpure⟩ := by simpa only [reads_bind] using h
    obtain ⟨rfl, rfl⟩ := reads_pure.mp hpure
    obtain ⟨-, -, hleading, hparts⟩ := (Node.isExplicit_construct rfl).mp hnode
    refine .cast (.bind _ (hattributesRun hleading) (.bind _ hreferenceRun
      (.ahead ?_ fun again sorts hagain => by rw [hagain.isOp ":" (by decide)])))
      (show _ ++ (reference.leaves ++ (colon.leaves ++ value.leaves)) = _ by simp)
    simp only [if_pos hcolonThere]
    exact .bind (SameExpression next)
      (fieldColon_run hcolon (followsColon_expression hsorts hvalue))
      (((hsorts.expressionWhere hvalue (hparts value (by simp))).run.raise hlevel).map _)
  · obtain ⟨rfl, rfl⟩ := reads_pure.mp hpure
    obtain ⟨-, -, hleading, -⟩ := (Node.isExplicit_construct rfl).mp hnode
    refine .cast (.bind _ (hattributesRun hleading) (.bind _ hreferenceRun
      (.ahead ?_ fun again sorts hagain => by rw [hagain.isOp ":" (by decide)])))
      (show _ ++ (reference.leaves ++ []) = _ by simp)
    simp only [if_neg hnotColon]
    exact .mono .pure (fun _ h => h.mono (by decide)) fun _ => id

/-- An expression that may be left out at the end of a group is read again. -/
theorem lastExpression_run {nodes : List Node} (hsorts : sorts.Replays)
    (h : (onlyIf (fun tokens => !tokens.isEmpty) (one sorts.expression)).Reads tokens nodes [])
    (hnodes : ∀ node ∈ nodes, node.isExplicit = true) :
    Run 8 (fun sorts => onlyIf (fun tokens => !tokens.isEmpty) (one sorts.expression)) (· = [])
      (fun again => again.isEmpty = tokens.isEmpty) tokens nodes []
        (nodes.flatMap Node.leaves) := by
  refine .onlyIf sorts h (fun _ h => ?_) (fun _ heq after hafter => ?_) fun _
    hagain => by rw [hagain]
  · obtain ⟨value, hvalue, rfl⟩ := reads_one.mp h
    have hrun := hsorts.expressionWhere hvalue (hnodes value (by simp))
    refine (((hrun.run.raise (by decide)).one).cast (by simp)).mono (fun after heq => ?_)
      fun _ h => h.alike.isEmpty
    subst heq
    exact .nil _
  · rw [hafter, heq]

/-- The fields of a struct literal are read again. -/
theorem fieldValuesAtMost_run (hsorts : sorts.Replays) {rounds : ℕ} {nodes : List Node}
    (h : (fieldValuesAtMost sorts rounds).Reads tokens nodes [])
    (hnodes : ∀ node ∈ nodes, node.isExplicit = true) :
    ∀ rounds', (nodes.flatMap Node.leaves).length < rounds' →
      Run 8 (fun sorts => fieldValuesAtMost sorts rounds') (· = []) (Same [".."] tokens) tokens
        nodes [] (nodes.flatMap Node.leaves) := by
  induction rounds generalizing tokens nodes with
  | zero => exact absurd h not_reads_fail
  | succ rounds ih =>
    intro rounds' hrounds
    obtain ⟨rounds', rfl⟩ : ∃ fewer, rounds' = fewer + 1 :=
      Nat.exists_eq_add_one.mpr (Nat.lt_of_le_of_lt (Nat.zero_le _) hrounds)
    simp only [fieldValuesAtMost, reads_ahead] at h ⊢
    refine .ahead ?_ fun again sorts hagain => by rw [hagain.alike.isEmpty]
    rcases reads_ite.mp h with ⟨hempty, hpure⟩ | ⟨hnotEmpty, h⟩
    · obtain ⟨rfl, rfl⟩ := reads_pure.mp hpure
      simp only [List.isEmpty_nil, if_true]
      exact .mono .pure (fun _ => id) fun _ heq => by rw [heq]; exact .nil _
    simp only [if_neg hnotEmpty]
    refine .ahead ?_ fun again sorts hagain => by rw [hagain.isOp ".." (by decide)]
    rcases reads_ite.mp (reads_ahead.mp h) with ⟨hdots, h⟩ | ⟨hnotDots, h⟩
    · obtain ⟨dots, left, hsign, others, last, hothers, hpure⟩ := by simpa only [reads_bind] using h
      obtain ⟨rfl, rfl⟩ := reads_pure.mp hpure
      simp only [if_pos hdots]
      exact .cast (.bind _ (clear_run hsign (by decide)) ((lastExpression_run hsorts hothers
        (List.forall_mem_cons.mp hnodes).2).map _)) (by simp)
    simp only [if_neg hnotDots]
    obtain ⟨field, left, hfield, h⟩ := reads_bind.mp h
    have hfieldRun : field.isExplicit = true → Run 8 fieldValue (Same expressionEnds left)
        (Same [".."] tokens) tokens field left field.leaves :=
          fieldValue_run hsorts (by decide) hfield
    rcases reads_ite.mp (reads_ahead.mp h) with ⟨hend, hpure⟩ | ⟨hnotEnd, h⟩
    · obtain ⟨rfl, rfl⟩ := reads_pure.mp hpure
      refine .cast (.bind _ (hfieldRun (hnodes _ (by simp)))
        (.ahead ?_ fun again sorts hagain => by rw [hagain.alike.isEmpty]))
        (show field.leaves ++ [] = _ by simp)
      simp only [List.isEmpty_nil, if_true]
      exact .mono .pure (fun _ => id) fun _ heq => by rw [heq]; exact .nil _
    · obtain ⟨comma, last, hcomma, others, final, hothers, hpure⟩ := by
        simpa only [reads_bind] using h
      obtain ⟨rfl, rfl⟩ := reads_pure.mp hpure
      obtain ⟨hexplicit, hmore⟩ := List.forall_mem_cons.mp hnodes
      have hpos := List.length_pos_of_ne_nil (leaves_ne_nil_of_operator hcomma)
      rw [List.flatMap_cons, List.flatMap_cons, List.length_append, List.length_append] at hrounds
      refine .cast (.bind _ (hfieldRun hexplicit)
        (.ahead ?_ fun again sorts hagain => by rw [hagain.alike.isEmpty]))
        (show field.leaves ++ (comma.leaves ++ others.flatMap Node.leaves) = _ by simp)
      simp only [if_neg hnotEnd]
      exact .bind _ (clear_run hcomma (by decide))
        ((ih hothers (List.forall_mem_cons.mp hmore).2 rounds' (by omega)).map _)

/-- The fields of a struct literal in braces are read again. -/
theorem structBody_run (hsorts : sorts.Replays) (h : (structBody sorts).Reads tokens node rest)
    (hnode : node.isExplicit = true) :
    Run level structBody ends (Same operators tokens) tokens node rest node.leaves := by
  obtain ⟨body, nodes, rfl, hnodes, rfl⟩ := reads_group.mp h
  have hinner :
    Run 8 (fun sorts => ahead >>= fun tokens => fieldValuesAtMost sorts (tokens.length + 1))
      (· = []) (Same [".."] body) body nodes [] (nodes.flatMap Node.leaves) :=
    .rounds fun rounds hrounds => fieldValuesAtMost_run hsorts (reads_ahead.mp hnodes)
      (Node.isExplicit_group.mp hnode) rounds hrounds
  exact hinner.group operators

/-! ### Names -/

/-- The path calls a macro. -/
def callsMacro (tokens : List Token) : AnyPath → Bool
  | .plain plain => plain.isPlain && isCallMark tokens
  | .qualified _ => false

theorem namedExpression_eq (structs : Bool) (sorts : Sorts) : namedExpression sorts structs =
    anyPath sorts true >>= fun found => ahead >>= fun tokens =>
      if callsMacro tokens found then
        callBody >>= fun body => pure (.branch .callMacro (found.node :: body.nodes))
      else if structs && isGroup .brace tokens then
        structBody sorts >>= fun body => pure (.branch .structLiteral [found.node, body])
      else pure (.branch .name [found.node]) := rfl

/-- A path is not empty. -/
theorem leaves_anyPath_ne {found : AnyPath} (h : (anyPath sorts true).Reads tokens found rest) :
    found.node.leaves ≠ [] := by
  rcases reads_ite.mp (reads_ahead.mp h) with ⟨-, h⟩ | ⟨-, h⟩
  · obtain ⟨node, _, hnode, hpure⟩ := reads_bind.mp h
    obtain ⟨rfl, rfl⟩ := reads_pure.mp hpure
    obtain ⟨opening, _, hopening, _, _, -, _, _, -, _, _, -, _, _, -, _, _, -, _, _, -, hpure⟩ := by
      simpa only [qualifiedPath, reads_bind] using hnode
    obtain ⟨rfl, rfl⟩ := reads_pure.mp hpure
    have hne := leaves_ne_nil_of_operator hopening
    simp [AnyPath.node, hne]
  · obtain ⟨path, _, hpath, hpure⟩ := reads_bind.mp h
    obtain ⟨rfl, rfl⟩ := reads_pure.mp hpure
    obtain ⟨leading, _, -, first, _, -, others, _, -, hpure⟩ := by
      simpa only [pathWhere, reads_bind] using hpath
    obtain ⟨rfl, rfl⟩ := reads_pure.mp hpure
    have hne : (((first :: others).map Segment.node).intersperse (.operator "::")).flatMap
        Node.leaves ≠ [] := by
      rw [leaves_segments]
      simp [Segment.node]
    intro heq
    simp only [AnyPath.node, Path.node, Node.branch, Node.leaves_construct, List.flatMap_append,
      List.append_eq_nil_iff] at heq
    exact hne heq.2.2

/-- An expression that begins with a path is read again. -/
theorem namedExpression_run {structs : Bool} (hsorts : sorts.Replays)
    (h : (namedExpression sorts structs).Reads tokens node rest) (hnode : node.isExplicit = true) :
    AtomRun expressionEnds level (fun sorts => namedExpression sorts structs) tokens node rest := by
  rw [namedExpression_eq] at h
  obtain ⟨found, mid, hfound, h⟩ := reads_bind.mp h
  rw [reads_ahead] at h
  have hpath : found.node.isExplicit = true → Run level (fun sorts => anyPath sorts true)
      (SameCall found mid) (SameExpression tokens) tokens found mid found.node.leaves :=
    expressionPath_run hsorts hfound
  have hne : found.node.leaves ≠ [] := leaves_anyPath_ne hfound
  have hglance : ∀ {again : List Token}, SameCall found mid again →
      callsMacro again found = callsMacro mid found := by
    intro again hagain
    cases found with
    | qualified node => rfl
    | plain path => rw [callsMacro, callsMacro, hagain.toSame.isCallMark (by decide)]
  have hahead : ∀ printed, Run level (fun sorts => if callsMacro mid found then
        callBody >>= fun body => pure (.branch .callMacro (found.node :: body.nodes))
      else if structs && isGroup .brace mid then
        structBody sorts >>= fun body => pure (.branch .structLiteral [found.node, body])
      else pure (.branch .name [found.node])) (Same expressionEnds rest)
        (SameCall found mid) mid node
        rest printed → found.node.isExplicit = true → found.node.leaves ++ printed = node.leaves →
      Run level (fun sorts => namedExpression sorts structs) (Same expressionEnds rest)
        (SameExpression tokens) tokens node rest node.leaves := by
    intro printed hrun hexplicit hprinted
    rw [show (fun sorts => namedExpression sorts structs) = _ from
      funext fun sorts => namedExpression_eq structs sorts]
    refine .cast (.bind _ (hpath hexplicit) (.ahead hrun fun again sorts hagain => ?_)) hprinted
    rw [hglance hagain, hagain.alike.isGroup]
  rcases reads_ite.mp h with ⟨hcall, h⟩ | ⟨hnotCall, h⟩
  · obtain ⟨body, last, hbody, hpure⟩ := reads_bind.mp h
    obtain ⟨rfl, rfl⟩ := reads_pure.mp hpure
    cases found with
    | qualified node => exact absurd hcall Bool.false_ne_true
    | plain path =>
      obtain ⟨hplain, hmark⟩ := Bool.and_eq_true_iff.mp hcall
      refine ⟨hahead (body.nodes.flatMap Node.leaves) ?_ (Path.isExplicit_of_isPlain hplain)
        (by simp), rfl, by simp [hne],
      fun _ h => absurd h Bool.false_ne_true⟩
      simp only [if_pos hcall]
      exact (expressionCall_run hbody hmark).map _
  have hnone : ∀ path, found = .plain path → path.isPlain = true → isCallMark mid = false := by
    rintro path rfl hplain
    simpa [callsMacro, hplain] using hnotCall
  have hbehind : ∀ {again : List Token}, Same expressionEnds mid again → SameCall found mid again :=
    fun hagain => ⟨hagain, by
      rw [callBehind_of_not hnone, callBehind_of_not fun path heq hplain =>
        (hagain.isCallMark (by decide)).trans (hnone path heq hplain)]⟩
  rcases reads_ite.mp h with ⟨hstruct, h⟩ | ⟨hnotStruct, hpure⟩
  · obtain ⟨body, last, hbody, hpure⟩ := reads_bind.mp h
    obtain ⟨rfl, rfl⟩ := reads_pure.mp hpure
    have hparts := Node.isExplicit_parts hnode rfl
    refine ⟨hahead body.leaves ?_ (hparts _ (by simp)) (by simp), rfl, by simp [hne],
      fun _ h => absurd h Bool.false_ne_true⟩
    simp only [if_neg hnotCall, if_pos hstruct]
    exact ((structBody_run hsorts hbody (hparts body (by simp))).map _).mono (fun _ => id)
      fun _ => hbehind
  · obtain ⟨rfl, rfl⟩ := reads_pure.mp hpure
    have hparts := Node.isExplicit_parts hnode rfl
    refine ⟨hahead [] ?_ (hparts _ (by simp)) (by simp), rfl, by simp [hne],
      fun _ h => absurd h Bool.false_ne_true⟩
    simp only [if_neg hnotCall, if_neg hnotStruct]
    exact .mono .pure (fun _ => id) fun _ => hbehind

end Call

end Typestate.Grammar
