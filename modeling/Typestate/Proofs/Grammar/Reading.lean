import Mathlib.Data.List.Forall2
import Typestate.Proofs.Grammar.PathTokens

/-!
# Reading what is written

What is written as a path is read as that path: a parser is followed from the front of the tokens,
each look ahead being decided by the first of them. Only the arguments of a segment are taken for
granted here.
-/

namespace Typestate.Grammar

open Grammar.Parser Token

/-! ### Following a parser -/

namespace Parser

variable {A B : Type}

@[simp] theorem pure_apply (value : A) (tokens : List Token) :
    (pure value : Parser A) tokens = .ok ⟨value, tokens, none⟩ := rfl

@[simp] theorem choose_apply {condition : Prop} [Decidable condition] (first second : Parser A)
    (tokens : List Token) : (if condition then first else second) tokens =
      if condition then first tokens else second tokens := by
  split <;> rfl

theorem choose_of_true {look : Bool} (h : look = true) (first second : Parser A)
    (tokens : List Token) : (if look then first else second) tokens = first tokens := by
  rw [if_pos h]

theorem choose_of_false {look : Bool} (h : look = false) (first second : Parser A)
    (tokens : List Token) : (if look then first else second) tokens = second tokens := by
  rw [if_neg (Bool.not_eq_true look ▸ h)]

/-- What is left out is left out. -/
theorem onlyIf_of_not {look : List Token → Bool} {parser : Parser (List Node)} {tokens : List Token}
    (h : look tokens = false) : onlyIf look parser tokens = .ok ⟨[], tokens, none⟩ := by
  rw [onlyIf, h]
  rfl

/-- Nothing is repeated where no more is asked for. -/
theorem repeatWhile_of_not {more : List Token → Bool} {parser : Parser (List A)}
    {tokens : List Token} (h : more tokens = false) :
    repeatWhile more parser tokens = .ok ⟨[], tokens, none⟩ := by
  rw [repeatWhile, ahead_bind, repeatAtMost, ahead_bind, choose_of_false h]
  rfl

end Parser

section Operators

variable (rest : List Token)

theorem operator_colons :
    operator "::" (phrase "::" ++ rest) = .ok ⟨.operator "::", rest, none⟩ := rfl

theorem operator_comma : operator "," (phrase "," ++ rest) = .ok ⟨.operator ",", rest, none⟩ := rfl

theorem operator_opening :
    operator "<" (phrase "<" ++ rest) = .ok ⟨.operator "<", rest, none⟩ := rfl

theorem operator_closing :
    operator ">" (phrase ">" ++ rest) = .ok ⟨.operator ">", rest, none⟩ := rfl

end Operators

/-! ### Looking at a word -/

section Word

variable (name : String) (rest : List Token)

@[simp] theorem afterOperator?_word (chars : List Char) :
    afterOperator? chars (.word name :: rest) = none := by
  unfold afterOperator?
  split <;> simp_all

@[simp] theorem isOp_word (text : String) : isOp text (.word name :: rest) = false := by
  rw [isOp, afterOperator?_word]
  rfl

@[simp] theorem isOneOf_word (operators : List String) :
    isOneOf operators (.word name :: rest) = false := by
  simp [isOneOf]

@[simp] theorem isWord_word (text : String) : isWord text (.word name :: rest) = (name == text) :=
  rfl

@[simp] theorem isGroup_word (delimiter : Delimiter) :
    isGroup delimiter (.word name :: rest) = false := rfl

@[simp] theorem afterOne_word : afterOne (.word name :: rest) = rest := rfl

end Word

/-- An identifier is none of the words that are kept. -/
theorem ne_of_isIdentifier {name word : String} (h : Word.isIdentifier name = true)
    (hword : Word.isIdentifier word = false) : (name == word) = false := by
  rw [beq_eq_false_iff_ne]
  rintro rfl
  rw [h] at hword
  contradiction

/-- Two colons in front are read if they are there. -/
theorem operator?_colons (colons : Bool) {rest : List Token} (hrest : isOp "::" rest = false) :
    operator? "::" ((if colons then phrase "::" else []) ++ rest) =
      .ok ⟨if colons then [.operator "::"] else [], rest, none⟩ := by
  cases colons with
  | true => rfl
  | false => exact onlyIf_of_not hrest

/-! ### Segments -/

/-- Words that lead through the modules, or that are kept and may begin a path all the same. -/
def placeWords : List String := ["super", "self", "crate", "try"]

/-- The segment may stand in a path: words that lead through the modules take no arguments. -/
def Segment.IsSound (segment : Segment) : Prop :=
  (segment.name ∈ placeWords ∧ segment.arguments = none) ∨ segment.name = "Self" ∨
    Word.isIdentifier segment.name = true

/-- Neither a segment nor the arguments of one follow. -/
structure EndsPath (tokens : List Token) : Prop where
  colons : isOp "::" tokens = false
  opening : isOp "<" tokens = false

/-- Arguments are taken from the front where they stand behind a name, and are written alike. -/
def Node.ReadIn (sorts : Sorts) (arguments : Node) : Prop :=
  ∀ rest, ∃ again, genericArguments sorts (arguments.tokens ++ rest) = .ok ⟨again, rest, none⟩ ∧
    again.tokens = arguments.tokens

/-- What is read instead of a segment is written alike, and is the same if there are no
arguments. -/
structure Segment.Again (original again : Segment) : Prop where
  tokens : again.tokens = original.tokens
  eq_of_none : original.arguments = none → again = original

/-- The segment is taken from the front of a path, and is written alike. -/
def Segment.ReadIn (sorts : Sorts) (inExpression : Bool) (original : Segment) : Prop :=
  ∀ rest, isTurbofish rest = false → isOp "<" rest = false → ∃ again : Segment,
    segment sorts inExpression (original.tokens ++ rest) = .ok ⟨again, rest, none⟩ ∧
      original.Again again

/-- A name that does not lead through the modules stands at the front. -/
theorem isAnyOf_placeWords {name : String} {rest : List Token}
    (h : name = "Self" ∨ Word.isIdentifier name = true) :
    isAnyOf placeWords (.word name :: rest) = false := by
  rcases h with rfl | hidentifier
  · rfl
  · simp only [isAnyOf, placeWords, isWord_word, List.any_cons, List.any_nil, Bool.or_false]
    simp only [ne_of_isIdentifier hidentifier (by decide : Word.isIdentifier "super" = false),
      ne_of_isIdentifier hidentifier (by decide : Word.isIdentifier "self" = false),
      ne_of_isIdentifier hidentifier (by decide : Word.isIdentifier "crate" = false),
      ne_of_isIdentifier hidentifier (by decide : Word.isIdentifier "try" = false), Bool.or_false]

/-- Behind a name, either arguments are read or the segment ends. -/
theorem segment_word {sorts : Sorts} {inExpression : Bool} {name : String} {rest : List Token}
    (h : name = "Self" ∨ Word.isIdentifier name = true) :
    segment sorts inExpression (.word name :: rest) =
      (if (!inExpression && isOp "<" rest && !isOp "<=" rest && !isOp "<<=" rest) ||
          isTurbofish rest then
        (do return ⟨name, some (← genericArguments sorts)⟩ : Parser Segment)
      else pure ⟨name, none⟩) rest := by
  have hplace : isAnyOf ["super", "self", "crate", "try"] (.word name :: rest) = false :=
    isAnyOf_placeWords h
  rcases h with rfl | hidentifier
  · have hname : anyWord (.word "Self" :: rest) = .ok ⟨"Self", rest, none⟩ := rfl
    simp only [segment, ahead_bind, choose_apply, hplace, isWord_word, beq_self_eq_true, if_true,
      Bool.false_eq_true, if_false]
    rw [bind_of_ok hname]
    simp only [ahead_bind, choose_apply]
  · have hself : (name == "Self") = false := ne_of_isIdentifier hidentifier (by decide)
    have hname : identifier (.word name :: rest) = .ok ⟨name, rest, none⟩ := by
      rw [identifier, if_pos hidentifier]
    simp only [segment, ahead_bind, choose_apply, hplace, isWord_word, hself, Bool.false_eq_true,
      if_false]
    rw [bind_of_ok hname]
    simp only [ahead_bind, choose_apply]

/-- A name without arguments is read. -/
theorem Segment.readIn_name {sorts : Sorts} {inExpression : Bool} {name : String}
    (h : Segment.IsSound ⟨name, none⟩) : Segment.ReadIn sorts inExpression ⟨name, none⟩ := by
  intro rest hcolons hopening
  refine ⟨⟨name, none⟩, ?_, rfl, fun _ => rfl⟩
  change segment sorts inExpression (.word name :: rest) = _
  rcases h with ⟨hplace, -⟩ | hname
  · have hword : isAnyOf ["super", "self", "crate", "try"] (.word name :: rest) = true :=
      List.any_eq_true.mpr ⟨name, hplace, beq_self_eq_true name⟩
    simp only [segment, ahead_bind, hword, if_true]
    rfl
  · rw [segment_word hname, hcolons, hopening]
    simp

/-- A name with arguments is read if they are, where they may stand. -/
theorem Segment.readIn_arguments {sorts : Sorts} {inExpression : Bool} {name : String}
    {arguments : Node} (hname : name = "Self" ∨ Word.isIdentifier name = true)
    (harguments : arguments.ReadIn sorts)
    (hbegins : ∀ rest, ((!inExpression && isOp "<" (arguments.tokens ++ rest) &&
        !isOp "<=" (arguments.tokens ++ rest) && !isOp "<<=" (arguments.tokens ++ rest)) ||
      isTurbofish (arguments.tokens ++ rest)) = true) :
    Segment.ReadIn sorts inExpression ⟨name, some arguments⟩ := by
  intro rest hcolons hopening
  obtain ⟨again, hagain, htokens⟩ := harguments rest
  refine ⟨⟨name, some again⟩, ?_, ?_, nofun⟩
  · have hall : Segment.tokens ⟨name, some arguments⟩ ++ rest =
        .word name :: (arguments.tokens ++ rest) := by
      simp [Segment.tokens]
    rw [hall, segment_word hname, if_pos (hbegins rest), bind_of_ok hagain]
    rfl
  · simp [Segment.tokens, htokens]

/-! ### Paths -/

theorem EndsPath.isTurbofish {rest : List Token} (h : EndsPath rest) :
    Grammar.isTurbofish rest = false := by
  rw [Grammar.isTurbofish, h.colons, Bool.false_and]

/-- Segments as they are written behind another one. -/
def moreTokens (segments : List Segment) : List Token :=
  segments.flatMap fun segment => phrase "::" ++ segment.tokens

/-- A path is its first segment and the segments behind it. -/
theorem intercalate_segments (first : Segment) (others : List Segment) :
    List.intercalate (phrase "::") ((first :: others).map Segment.tokens) =
      first.tokens ++ moreTokens others := by
  induction others generalizing first with
  | nil => simp [moreTokens]
  | cons next rest ih =>
    rw [List.map_cons, List.map_cons, List.intercalate_cons_cons, ← List.map_cons, ih, moreTokens,
      moreTokens, List.flatMap_cons]
    simp only [List.append_assoc]

section Paths

variable {sorts : Sorts} {inExpression : Bool} {rest : List Token}

/-- Whatever segments follow, the one before them has no arguments. -/
theorem ends_moreTokens (hrest : EndsPath rest) (segments : List Segment) :
    isTurbofish (moreTokens segments ++ rest) = false ∧
      isOp "<" (moreTokens segments ++ rest) = false := by
  cases segments with
  | nil => exact ⟨hrest.isTurbofish, hrest.opening⟩
  | cons segment others => exact ⟨rfl, rfl⟩

/-- Segments behind another one are read one after another. -/
theorem repeatAtMost_moreTokens (hrest : EndsPath rest) {segments : List Segment}
    (hsegments : ∀ segment ∈ segments, Segment.ReadIn sorts inExpression segment) {rounds : ℕ}
    (hrounds : segments.length < rounds) :
    ∃ again : List Segment,
      repeatAtMost (fun tokens => isOp "::" tokens && !isInputTurbofish tokens)
          (do
            let _ ← operator "::"
            return [← segment sorts inExpression])
          rounds (moreTokens segments ++ rest) = .ok ⟨again, rest, none⟩ ∧
        List.Forall₂ Segment.Again segments again := by
  induction segments generalizing rounds with
  | nil =>
    cases rounds with
    | zero => contradiction
    | succ rounds =>
      refine ⟨[], ?_, .nil⟩
      simp only [repeatAtMost, ahead_bind, moreTokens, List.flatMap_nil, List.nil_append,
        hrest.colons, Bool.false_and, Bool.false_eq_true, if_false, pure_apply]
  | cons first others ih =>
    cases rounds with
    | zero => contradiction
    | succ rounds =>
      obtain ⟨hfirst, hothers⟩ := List.forall_mem_cons.mp hsegments
      obtain ⟨hcolons, hopening⟩ := ends_moreTokens hrest others
      obtain ⟨again, hagain, hsame⟩ := hfirst _ hcolons hopening
      obtain ⟨more, hmore, hmoreSame⟩ := ih hothers (Nat.succ_lt_succ_iff.mp hrounds)
      have hall : moreTokens (first :: others) ++ rest =
          phrase "::" ++ (first.tokens ++ (moreTokens others ++ rest)) := by
        simp only [moreTokens, List.flatMap_cons, List.append_assoc]
      have hgoes : (isOp "::" (moreTokens (first :: others) ++ rest) &&
          !isInputTurbofish (moreTokens (first :: others) ++ rest)) = true := rfl
      refine ⟨again :: more, ?_, .cons hsame hmoreSame⟩
      have hstep : (do
            let _ ← operator "::"
            return [← segment sorts inExpression] : Parser (List Segment))
          (moreTokens (first :: others) ++ rest) =
            .ok ⟨[again], moreTokens others ++ rest, none⟩ := by
        rw [hall, bind_of_ok (operator_colons _), bind_of_ok hagain]
        rfl
      simp only [repeatAtMost, ahead_bind, hgoes, if_true]
      rw [bind_of_ok hstep, bind_of_ok hmore]
      rfl

/-- Every segment takes at least one token. -/
theorem length_le_moreTokens (segments : List Segment) :
    segments.length ≤ (moreTokens segments).length := by
  induction segments with
  | nil => exact Nat.zero_le _
  | cons segment others ih =>
    simp only [moreTokens, List.flatMap_cons, List.length_append, List.length_cons,
      Segment.tokens] at ih ⊢
    omega

/-- A path is read as it is written if its segments are. -/
theorem pathWhere_tokens (hrest : EndsPath rest) {original : Path}
    (hne : original.segments ≠ [])
    (hsegments : ∀ segment ∈ original.segments, Segment.ReadIn sorts inExpression segment) :
    ∃ again : Path,
      pathWhere sorts inExpression (original.node.tokens ++ rest) = .ok ⟨again, rest, none⟩ ∧
        again.leading = original.leading ∧
        List.Forall₂ Segment.Again original.segments again.segments := by
  obtain ⟨leading, segments⟩ := original
  cases segments with
  | nil => contradiction
  | cons first others =>
    obtain ⟨hfirst, hothers⟩ := List.forall_mem_cons.mp hsegments
    obtain ⟨hcolons, hopening⟩ := ends_moreTokens hrest others
    obtain ⟨again, hagain, hsame⟩ := hfirst _ hcolons hopening
    have hrounds : others.length < (moreTokens others ++ rest).length + 1 := by
      have hlength := length_le_moreTokens others
      rw [List.length_append]
      omega
    obtain ⟨more, hmore, hmoreSame⟩ := repeatAtMost_moreTokens hrest hothers hrounds
    have hword : isOp "::" (first.tokens ++ (moreTokens others ++ rest)) = false := isOp_word ..
    have hothers : moreSegments sorts inExpression (moreTokens others ++ rest) =
        .ok ⟨more, rest, none⟩ := by
      rw [moreSegments, repeatWhile, ahead_bind]
      exact hmore
    refine ⟨⟨leading, again :: more⟩, ?_, rfl, .cons hsame hmoreSame⟩
    rw [Path.tokens_node, intercalate_segments, List.append_assoc, List.append_assoc, pathWhere,
      bind_of_ok (operator?_colons leading hword), bind_of_ok hagain, bind_of_ok hothers]
    cases leading with
    | true => rfl
    | false => rfl

end Paths

/-- What does not begin with an angle is a path. -/
theorem anyPath_plain {sorts : Sorts} {inExpression : Bool} {tokens rest : List Token}
    {found : Path} (hopening : isOp "<" tokens = false)
    (hpath : pathWhere sorts inExpression tokens = .ok ⟨found, rest, none⟩) :
    anyPath sorts inExpression tokens = .ok ⟨.plain found, rest, none⟩ := by
  rw [anyPath, ahead_bind, choose_of_false hopening, bind_of_ok hpath]
  rfl

/-- What is read instead of segments is written alike. -/
theorem map_tokens_of_again {segments again : List Segment}
    (h : List.Forall₂ Segment.Again segments again) :
    again.map Segment.tokens = segments.map Segment.tokens := by
  induction h with
  | nil => rfl
  | cons hsame hothers ih => rw [List.map_cons, List.map_cons, hsame.tokens, ih]

/-- Segments without arguments are read as they are. -/
theorem eq_of_again {segments again : List Segment}
    (h : List.Forall₂ Segment.Again segments again)
    (hplain : ∀ segment ∈ segments, segment.arguments = none) : again = segments := by
  induction h with
  | nil => rfl
  | cons hsame hothers ih =>
    obtain ⟨hfirst, hrest⟩ := List.forall_mem_cons.mp hplain
    rw [hsame.eq_of_none hfirst, ih hrest]

/-- A path without arguments is read as it is. -/
theorem pathWhere_plain {sorts : Sorts} (inExpression : Bool) {rest : List Token}
    (hrest : EndsPath rest) (original : Path) (hne : original.segments ≠ [])
    (hplain : ∀ segment ∈ original.segments, segment.IsSound ∧ segment.arguments = none) :
    pathWhere sorts inExpression (original.node.tokens ++ rest) = .ok ⟨original, rest, none⟩ := by
  have hread : ∀ segment ∈ original.segments,
      Segment.ReadIn sorts inExpression segment := by
    intro segment hsegment
    obtain ⟨name, arguments⟩ := segment
    obtain ⟨hsound, rfl⟩ := hplain _ hsegment
    exact Segment.readIn_name hsound
  obtain ⟨again, hagain, hleading, hsame⟩ := pathWhere_tokens hrest hne hread
  have hsegments := eq_of_again hsame fun segment hsegment => (hplain segment hsegment).2
  have heq : again = original := by
    cases again
    cases original
    simp only at hleading hsegments
    rw [hleading, hsegments]
  rw [hagain, heq]

/-- A path from the root, without arguments. -/
def rootPath (names : List String) : Path := ⟨true, names.map fun name => ⟨name, none⟩⟩

/-- A path from the root is read wherever it ends. -/
theorem pathWhere_rootPath {sorts : Sorts} (inExpression : Bool) {names : List String}
    (hne : names ≠ []) (hnames : ∀ name ∈ names, Word.isIdentifier name = true)
    {tokens rest : List Token}
    (htokens : phrase "::" ++ List.intercalate (phrase "::") (names.map fun name => [.word name]) =
      tokens)
    (hrest : EndsPath rest) :
    pathWhere sorts inExpression (tokens ++ rest) = .ok ⟨rootPath names, rest, none⟩ := by
  have hsegments : (rootPath names).segments ≠ [] := by
    rwa [rootPath, Ne, List.map_eq_nil_iff]
  have hpath : (rootPath names).node.tokens = tokens := by
    rw [Path.tokens_node, rootPath, List.map_map, ← htokens]
    rfl
  rw [← hpath]
  exact pathWhere_plain inExpression hrest (rootPath names) hsegments
    (List.forall_mem_map.mpr fun name hname => ⟨.inr (.inr (hnames name hname)), rfl⟩)

end Typestate.Grammar
