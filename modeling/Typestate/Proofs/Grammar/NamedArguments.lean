import Typestate.Proofs.Grammar.Reading

/-!
# Arguments made of names

Generic arguments that are made of lifetimes, literals and names, where names may have such
arguments in turn, are read back as they are written, however deep they are nested.
-/

namespace Typestate.Grammar

open Grammar.Parser Token

/-! ### Trees made of names -/

/-- Generic arguments as a tree, with two colons in front or not. -/
def argumentNode (colons : Bool) (inner : List Node) : Node :=
  .branch .genericArguments <|
    (if colons then [.operator "::"] else []) ++ (.operator "<" :: inner ++ [.operator ">"])

/-- Generic arguments are written in angles. -/
theorem tokens_argumentNode (colons : Bool) (inner : List Node) :
    (argumentNode colons inner).tokens = (if colons then phrase "::" else []) ++
      (phrase "<" ++ (inner.flatMap Node.tokens ++ phrase ">")) := by
  have hcolons : (Node.operator "::").tokens = phrase "::" := Node.tokens_operator "::"
  have hopening : (Node.operator "<").tokens = phrase "<" := Node.tokens_operator "<"
  have hclosing : (Node.operator ">").tokens = phrase ">" := Node.tokens_operator ">"
  rw [argumentNode, Node.tokens_branch (by decide), List.flatMap_append, List.flatMap_append,
    List.flatMap_cons, List.flatMap_singleton, hopening, hclosing, List.append_assoc]
  congr 1
  split
  · rw [List.flatMap_singleton, hcolons]
  · rfl

/-- A lifetime as an argument. -/
def lifetimeNode (name : String) : Node := .branch .lifetimeArgument [.lifetime name]

/-- The generic arguments of a name: lifetimes and then others. -/
structure NameArguments where
  /-- Two colons stand in front. -/
  colons : Bool
  lifetimes : List String
  others : List Node

/-- The arguments one by one, each with whether it is a lifetime. -/
def NameArguments.entries (arguments : NameArguments) : List (Bool × Node) :=
  arguments.lifetimes.map (fun name => (true, lifetimeNode name)) ++
    arguments.others.map fun other => (false, other)

/-- The arguments as a tree. -/
def NameArguments.node (arguments : NameArguments) : Node :=
  argumentNode arguments.colons ((arguments.entries.map Prod.snd).intersperse (.operator ","))

/-- A literal as an argument. -/
inductive IsLiteralNode : Node → Prop
  | literal (text : String) : IsLiteralNode (.branch .literal [.literal text])
  | truth (text : String) (htext : text = "true" ∨ text = "false") :
    IsLiteralNode (.branch .literal [.word text])
  | negative (text : String) (htext : Literal.isNumber text = true) :
    IsLiteralNode (.branch .literal [.operator "-", .literal text])

/-- A name and its arguments as a segment. -/
def namedSegment (entry : String × Option NameArguments) : Segment :=
  ⟨entry.1, entry.2.map NameArguments.node⟩

/-- The name may begin a type: it is no word that is kept, but for those that begin a path. -/
def IsTypeName (name : String) : Prop := Word.isIdentifier name = true ∨ name ∈ pathWords

/-- A type that is a path of names with such types, literals and lifetimes as their arguments. Words
that lead through the modules have none. -/
inductive IsNamedType : Node → Prop
  | path (leading : Bool) (segments : List (String × Option NameArguments)) (hne : segments ≠ [])
    (hnames : ∀ entry ∈ segments, IsTypeName entry.1)
    (hplaces : ∀ entry ∈ segments, entry.1 ∈ placeWords → entry.2 = none)
    (harguments : ∀ name arguments, (name, some arguments) ∈ segments →
      ∀ other ∈ arguments.others, ¬ IsLiteralNode other → IsNamedType other) :
    IsNamedType (.branch .pathType [(Path.mk leading (segments.map namedSegment)).node])

/-- Arguments that are made of names. -/
def NameArguments.IsNamed (arguments : NameArguments) : Prop :=
  ∀ other ∈ arguments.others, IsLiteralNode other ∨ IsNamedType other

/-! ### Reading arguments -/

/-- What stands behind an argument. -/
inductive EndsArgument : List Token → Prop
  | comma (rest : List Token) : EndsArgument (phrase "," ++ rest)
  | closing (rest : List Token) : EndsArgument (phrase ">" ++ rest)

theorem EndsArgument.endsPath {rest : List Token} (h : EndsArgument rest) : EndsPath rest := by
  cases h with
  | comma rest => exact ⟨rfl, rfl⟩
  | closing rest => exact ⟨rfl, rfl⟩

/-- An argument does not begin like the end of the arguments; it is read, as a lifetime or not, and
is written alike. -/
structure Node.ArgumentIn (sorts : Sorts) (isLifetime : Bool) (argument : Node) : Prop where
  begins : ∀ rest, EndsArgument rest → isOp ">" (argument.tokens ++ rest) = false
  read : ∀ rest, EndsArgument rest → ∃ again,
    genericArgument sorts (argument.tokens ++ rest) = .ok ⟨(isLifetime, again), rest, none⟩ ∧
      again.tokens = argument.tokens

section Arguments

variable {sorts : Sorts}

theorem lifetimeNode_argumentIn (name : String) :
    (lifetimeNode name).ArgumentIn sorts true := by
  have htokens : (lifetimeNode name).tokens = ofLifetime name := by
    rw [lifetimeNode, Node.tokens_branch (by decide), List.flatMap_singleton]
    simp [Node.tokens, Node.settled, needsParentheses_plain, Surroundings.write, Node.leaves,
      Node.leavesBefore]
  refine ⟨fun rest _ => by rw [htokens]; rfl, fun rest hrest => ⟨lifetimeNode name, ?_, rfl⟩⟩
  rw [htokens]
  cases hrest with
  | comma rest => rfl
  | closing rest => rfl

/-- A literal is read as a constant. -/
theorem genericArgument_literal {tokens rest : List Token} {node : Node}
    (hlifetime : isLifetime tokens = false) (hlook : isLiteral tokens = true)
    (hliteral : Parser.literal tokens = .ok ⟨node, rest, none⟩) :
    genericArgument sorts tokens = .ok ⟨(false, node), rest, none⟩ := by
  have hconstant : constantArgument sorts tokens = .ok ⟨node, rest, none⟩ := by
    simp only [constantArgument, ahead_bind, choose_apply, hlook, if_true, hliteral]
  simp only [genericArgument, ahead_bind, choose_apply, hlifetime, hlook, Bool.false_and,
    Bool.true_or, Bool.false_eq_true, if_false, if_true]
  rw [bind_of_ok hconstant]
  rfl

/-- What stands behind an argument is no attribute. -/
theorem EndsArgument.noAttribute {rest : List Token} (h : EndsArgument rest) :
    isOp "#" rest = false := by
  cases h with
  | comma rest => rfl
  | closing rest => rfl

theorem IsLiteralNode.argumentIn {argument : Node} (h : IsLiteralNode argument) :
    argument.ArgumentIn sorts false := by
  cases h with
  | literal text =>
    have htokens : (Node.branch .literal [.literal text]).tokens = [.literal text] := by
      rw [Node.tokens_branch (by decide), List.flatMap_singleton, Node.tokens_literal]
    refine ⟨fun rest _ => by rw [htokens]; rfl, fun rest hrest => ⟨_, ?_, rfl⟩⟩
    rw [htokens]
    exact genericArgument_literal rfl rfl rfl
  | truth text htext =>
    have htokens : (Node.branch .literal [.word text]).tokens = [.word text] := by
      rw [Node.tokens_branch (by decide), List.flatMap_singleton, Node.tokens_word]
    refine ⟨fun rest _ => by rw [htokens]; exact isOp_word .., fun rest hrest => ⟨_, ?_, rfl⟩⟩
    rw [htokens]
    have hlook : isLiteral ([.word text] ++ rest) = true := by simpa [isLiteral] using htext
    exact genericArgument_literal rfl hlook (if_pos hlook)
  | negative text htext =>
    have htokens : (Node.branch .literal [.operator "-", .literal text]).tokens =
        [.mark '-' .alone, .literal text] := by
      rw [Node.tokens_branch (by decide), List.flatMap_cons, List.flatMap_singleton,
        Node.tokens_literal, Node.tokens_operator]
      rfl
    refine ⟨fun rest _ => by rw [htokens]; rfl, fun rest hrest => ⟨_, ?_, rfl⟩⟩
    rw [htokens]
    exact genericArgument_literal rfl htext (if_pos htext)

/-- Arguments as they are read: with a comma behind each but the last one. -/
def Argument.Listed (arguments : List Argument) : Prop :=
  ∀ argument ∈ arguments.dropLast, argument.comma = true

/-- Arguments with their commas. -/
def Argument.written (arguments : List Argument) : List Node :=
  arguments.flatMap fun argument =>
    argument.node :: if argument.comma then [.operator ","] else []

namespace Argument

theorem Listed.cons_cons {first next : Argument} {others : List Argument}
    (h : Listed (first :: next :: others)) : first.comma = true ∧ Listed (next :: others) := by
  rw [Listed, List.dropLast_cons_cons] at h
  exact List.forall_mem_cons.mp h

/-- Listed arguments are laid out as they are. -/
theorem layout_of_listed {arguments : List Argument} (h : Listed arguments) :
    layout false arguments = written arguments := by
  induction arguments with
  | nil => rfl
  | cons first others ih =>
    cases others with
    | nil => simp [layout, written]
    | cons next rest =>
      obtain ⟨hcomma, hothers⟩ := h.cons_cons
      rw [layout, hcomma, Bool.not_true, ih hothers]
      simp [written, hcomma]

/-- Lifetimes that stand first stay where they are. -/
theorem lifetimesFirst_append {lifetimes others : List Argument}
    (h : Listed (lifetimes ++ others))
    (hlifetimes : ∀ argument ∈ lifetimes, argument.isLifetime = true)
    (hothers : ∀ argument ∈ others, argument.isLifetime = false) :
    lifetimesFirst (lifetimes ++ others) = written (lifetimes ++ others) := by
  have hfirst : (lifetimes ++ others).filter isLifetime = lifetimes := by
    rw [List.filter_append, List.filter_eq_self.mpr hlifetimes,
      List.filter_eq_nil_iff.mpr fun argument hargument => by simp [hothers argument hargument],
      List.append_nil]
  have hlast : (lifetimes ++ others).filter (fun argument => !argument.isLifetime) = others := by
    rw [List.filter_append,
      List.filter_eq_nil_iff.mpr fun argument hargument => by simp [hlifetimes argument hargument],
      List.filter_eq_self.mpr fun argument hargument => by simp [hothers argument hargument],
      List.nil_append]
  have hwritten : written (lifetimes ++ others) = written lifetimes ++ written others :=
    List.flatMap_append
  rw [lifetimesFirst, hfirst, hlast, hwritten]
  congr 1
  cases others with
  | nil => rfl
  | cons other rest =>
    rw [Listed, List.dropLast_append_cons, List.forall_mem_append] at h
    obtain ⟨hcommas, hrest⟩ := h
    rw [← layout_of_listed hrest]
    cases hlast : lifetimes.getLast? with
    | none => rfl
    | some last =>
      have hdue : (!last.comma) = false := congrArg not (hcommas last (List.mem_of_getLast? hlast))
      exact congrArg (fun due => layout due (other :: rest)) hdue

end Argument

/-- A comma between any two arguments. -/
def argumentTokens (arguments : List Node) : List Token :=
  List.intercalate (phrase ",") (arguments.map Node.tokens)

/-- Arguments up to a closing angle are read one after another. -/
theorem argumentsAtMost_tokens {arguments : List (Bool × Node)}
    (harguments : ∀ argument ∈ arguments, argument.2.ArgumentIn sorts argument.1) {rounds : ℕ}
    (hrounds : arguments.length < rounds) (rest : List Token) :
    ∃ again : List Argument,
      argumentsAtMost (operator ",") (genericArgument sorts) rounds
          (argumentTokens (arguments.map Prod.snd) ++ (phrase ">" ++ rest)) =
        .ok ⟨again, phrase ">" ++ rest, none⟩ ∧
      Argument.Listed again ∧ again.map Argument.isLifetime = arguments.map Prod.fst ∧
      (Argument.written again).flatMap Node.tokens = argumentTokens (arguments.map Prod.snd) := by
  induction arguments generalizing rounds with
  | nil =>
    cases rounds with
    | zero => contradiction
    | succ rounds => exact ⟨[], rfl, nofun, rfl, rfl⟩
  | cons first others ih =>
    cases rounds with
    | zero => contradiction
    | succ rounds =>
      obtain ⟨hfirst, hothers⟩ := List.forall_mem_cons.mp harguments
      cases others with
      | nil =>
        obtain ⟨again, hagain, htokens⟩ := hfirst.read _ (.closing rest)
        refine ⟨[⟨first.1, again, false⟩], ?_, nofun, rfl, ?_⟩
        · have hall : argumentTokens ([first].map Prod.snd) = first.2.tokens := by
            simp [argumentTokens]
          rw [hall]
          simp only [argumentsAtMost, ahead_bind, choose_apply,
            hfirst.begins _ (.closing rest), Bool.false_eq_true, if_false]
          rw [bind_of_ok hagain]
          rfl
        · simp [Argument.written, argumentTokens, htokens]
      | cons next others =>
        obtain ⟨more, hmore, hlisted, hflags, hwritten⟩ :=
          ih hothers (Nat.succ_lt_succ_iff.mp hrounds)
        obtain ⟨again, hagain, htokens⟩ := hfirst.read _ (.comma
          (argumentTokens ((next :: others).map Prod.snd) ++ (phrase ">" ++ rest)))
        have hall : argumentTokens ((first :: next :: others).map Prod.snd) =
            first.2.tokens ++ (phrase "," ++ argumentTokens ((next :: others).map Prod.snd)) := by
          simp only [argumentTokens, List.map_cons, List.intercalate_cons_cons, List.append_assoc]
        have hmany : more ≠ [] := by
          rintro rfl
          exact List.cons_ne_nil _ _ hflags.symm
        refine ⟨⟨first.1, again, true⟩ :: more, ?_, ?_, ?_, ?_⟩
        · rw [hall, List.append_assoc, List.append_assoc]
          simp only [argumentsAtMost, ahead_bind, choose_apply, hfirst.begins _ (.comma _),
            Bool.false_eq_true, if_false]
          rw [bind_of_ok hagain]
          have hgoes : isOp ">" (phrase "," ++ (argumentTokens ((next :: others).map Prod.snd) ++
              (phrase ">" ++ rest))) = false := rfl
          simp only [ahead_bind, choose_apply, hgoes, Bool.false_eq_true, if_false]
          rw [bind_of_ok (operator_comma _), bind_of_ok hmore]
          rfl
        · rw [Argument.Listed, List.dropLast_cons_of_ne_nil hmany]
          exact List.forall_mem_cons.mpr ⟨rfl, hlisted⟩
        · exact congrArg (first.1 :: ·) hflags
        · have hcomma : (Node.operator ",").tokens = phrase "," := Node.tokens_operator ","
          rw [hall, ← hwritten]
          simp [Argument.written, htokens, hcomma]

/-- There are no more arguments than commas between them and one. -/
theorem length_le_argumentTokens (arguments : List Node) :
    arguments.length ≤ (argumentTokens arguments).length + 1 := by
  induction arguments with
  | nil => exact Nat.zero_le _
  | cons first others ih =>
    cases others with
    | nil => exact Nat.le_add_left _ _
    | cons next rest =>
      have hcomma : (phrase ",").length = 1 := rfl
      simp only [argumentTokens, List.map_cons, List.intercalate_cons_cons, List.length_append,
        List.length_cons, hcomma] at ih ⊢
      omega

namespace NameArguments

/-- Generic arguments are written in angles. -/
theorem tokens_node (arguments : NameArguments) :
    arguments.node.tokens = (if arguments.colons then phrase "::" else []) ++
      (phrase "<" ++ (argumentTokens (arguments.entries.map Prod.snd) ++ phrase ">")) := by
  have hcomma : (Node.operator ",").tokens = phrase "," := Node.tokens_operator ","
  rw [node, tokens_argumentNode, flatMap_tokens_intersperse, hcomma, argumentTokens]

theorem argumentIn_entries {arguments : NameArguments}
    (hothers : ∀ other ∈ arguments.others, other.ArgumentIn sorts false) :
    ∀ entry ∈ arguments.entries, entry.2.ArgumentIn sorts entry.1 := by
  rw [entries, List.forall_mem_append, List.forall_mem_map, List.forall_mem_map]
  exact ⟨fun name _ => lifetimeNode_argumentIn name, hothers⟩

/-- What is read with the flags of the entries has its lifetimes first. -/
theorem lifetimesFirst_eq {arguments : NameArguments} {again : List Argument}
    (hlisted : Argument.Listed again)
    (hflags : again.map Argument.isLifetime = arguments.entries.map Prod.fst) :
    Argument.lifetimesFirst again = Argument.written again := by
  rw [entries, List.map_append, List.map_map, List.map_map] at hflags
  obtain ⟨lifetimes, others, rfl, hlifetimes, hothers⟩ := List.map_eq_append_iff.mp hflags
  refine Argument.lifetimesFirst_append hlisted ?_ ?_
  · intro argument hargument
    have hmem := List.mem_map_of_mem (f := Argument.isLifetime) hargument
    rw [hlifetimes] at hmem
    obtain ⟨name, -, hflag⟩ := List.mem_map.mp hmem
    exact hflag.symm
  · intro argument hargument
    have hmem := List.mem_map_of_mem (f := Argument.isLifetime) hargument
    rw [hothers] at hmem
    obtain ⟨name, -, hflag⟩ := List.mem_map.mp hmem
    exact hflag.symm

/-- Generic arguments are read if those are that are no lifetimes. -/
theorem readIn {arguments : NameArguments}
    (hothers : ∀ other ∈ arguments.others, other.ArgumentIn sorts false) :
    arguments.node.ReadIn sorts := by
  intro rest
  have hrounds : arguments.entries.length <
      (argumentTokens (arguments.entries.map Prod.snd) ++ (phrase ">" ++ rest)).length + 1 := by
    have hlength := length_le_argumentTokens (arguments.entries.map Prod.snd)
    have hclosing : (phrase ">" ++ rest).length = rest.length + 1 := rfl
    rw [List.length_map] at hlength
    rw [List.length_append, hclosing]
    omega
  obtain ⟨again, hagain, hlisted, hflags, hwritten⟩ :=
    argumentsAtMost_tokens (argumentIn_entries hothers) hrounds rest
  have hangled : angled (operator ",") (genericArgument sorts) (phrase "<" ++
      (argumentTokens (arguments.entries.map Prod.snd) ++ (phrase ">" ++ rest))) =
        .ok ⟨.operator "<" :: Argument.lifetimesFirst again ++ [.operator ">"], rest, none⟩ := by
    rw [angled, bind_of_ok (operator_opening _), ahead_bind, bind_of_ok hagain,
      bind_of_ok (operator_closing _)]
    rfl
  refine ⟨argumentNode arguments.colons (Argument.lifetimesFirst again), ?_, ?_⟩
  · rw [tokens_node]
    simp only [List.append_assoc]
    rw [genericArguments, bind_of_ok (operator?_colons arguments.colons rfl), bind_of_ok hangled]
    rfl
  · rw [tokens_argumentNode, lifetimesFirst_eq hlisted hflags, hwritten, tokens_node]

end NameArguments

end Arguments

/-! ### Reading types -/

/-- A name that may begin a type is none of the other words that are kept. -/
theorem IsTypeName.ne {name : String} (h : IsTypeName name) (words : List String)
    (hwords : ∀ word ∈ words, Word.isIdentifier word = false ∧ word ∉ pathWords) :
    ∀ word ∈ words, (name == word) = false := by
  intro word hword
  obtain ⟨hkept, hpath⟩ := hwords word hword
  rw [beq_eq_false_iff_ne]
  rintro rfl
  rcases h with hidentifier | hname
  · rw [hidentifier] at hkept
    contradiction
  · exact hpath hname

/-- None of the words that are kept stands at the front. -/
theorem IsTypeName.isAnyOf {name : String} (h : IsTypeName name) (words : List String)
    (hwords : ∀ word ∈ words, Word.isIdentifier word = false ∧ word ∉ pathWords)
    (rest : List Token) : isAnyOf words (.word name :: rest) = false :=
  List.any_eq_false.mpr fun word hword => by simp [h.ne words hwords word hword]

/-- The names of a path may be those of its segments. -/
theorem IsTypeName.isSound {name : String} (h : IsTypeName name) :
    Segment.IsSound ⟨name, none⟩ := by
  rcases h with hidentifier | hname
  · exact .inr (.inr hidentifier)
  · simp only [pathWords, List.mem_cons, List.not_mem_nil, or_false] at hname
    rcases hname with rfl | rfl | rfl | rfl
    · exact .inl ⟨by decide, rfl⟩
    · exact .inl ⟨by decide, rfl⟩
    · exact .inr (.inl rfl)
    · exact .inl ⟨by decide, rfl⟩

/-- The tokens begin a type that is a path. -/
inductive BeginsType : List Token → Prop
  | colons (rest : List Token) : BeginsType (phrase "::" ++ rest)
  | name {name : String} (hname : IsTypeName name) {rest : List Token}
    (hrest : isOp "#" rest = false) : BeginsType (.word name :: rest)

section Types

variable {sorts : Sorts}

theorem BeginsType.beginsPath {tokens : List Token} (h : BeginsType tokens) :
    Grammar.beginsPath tokens = true := by
  cases h with
  | colons rest => rfl
  | name hname hrest =>
    rw [Grammar.beginsPath, isPathWord, Bool.or_eq_true, Bool.or_eq_true, Bool.or_eq_true,
      List.contains_iff_mem]
    exact .inl (.inl hname)

theorem BeginsType.isBuiltin {tokens : List Token} (h : BeginsType tokens) :
    Grammar.isBuiltin tokens = false := by
  cases h with
  | colons rest => rfl
  | name hname hrest => rw [Grammar.isBuiltin, afterOne_word, hrest, Bool.and_false]

/-- What begins with a path is a type of that name. -/
theorem typeWhere_of_beginsType {plus : Bool} {tokens : List Token} (h : BeginsType tokens) :
    typeWhere sorts plus tokens = namedType sorts plus [] tokens := by
  have hbegins := h.beginsPath
  have hbuiltin := h.isBuiltin
  cases h with
  | colons rest =>
    have hbinder : typeBinder? sorts (phrase "::" ++ rest) = .ok ⟨[], phrase "::" ++ rest, none⟩ :=
      rfl
    rw [typeWhere, ahead_bind, bind_of_ok hbinder, ahead_bind]
    rfl
  | @name name hname rest hrest =>
    have hfor : isWord "for" (.word name :: rest) = false :=
      hname.ne ["for"] (by decide) "for" List.mem_cons_self
    have hfn : isAnyOf ["fn", "unsafe", "extern"] (.word name :: rest) = false :=
      hname.isAnyOf _ (by decide) rest
    have hbinder : typeBinder? sorts (.word name :: rest) =
        .ok ⟨[], .word name :: rest, none⟩ := by
      rw [typeBinder?, binder?, bind_of_ok (onlyIf_of_not hfor)]
      rfl
    rw [typeWhere, ahead_bind, bind_of_ok hbinder]
    simp only [ahead_bind, choose_apply]
    simp only [isGroup_word, hfn, hbuiltin, hbegins, Bool.false_eq_true, if_false, if_true]

/-- A type that is a path does not begin like anything else. -/
theorem BeginsType.looks {tokens : List Token} (h : BeginsType tokens) :
    isOp "<" tokens = false ∧ isOp ">" tokens = false ∧ isLifetime tokens = false ∧
      isLiteral tokens = false ∧ isGroup .brace tokens = false := by
  cases h with
  | colons rest => exact ⟨rfl, rfl, rfl, rfl, rfl⟩
  | @name name hname rest hrest =>
    refine ⟨isOp_word .., isOp_word .., rfl, ?_, rfl⟩
    have hkept := hname.ne ["true", "false"] (by decide)
    rw [isLiteral, hkept "true" (by decide), hkept "false" (by decide)]
    rfl

/-- A type that is a path is read as it is written, if the segments of the path are. -/
theorem typeWhere_path (plus : Bool) {original : Path} {rest : List Token}
    (hrest : EndsArgument rest) (hbegins : BeginsType (original.node.tokens ++ rest))
    (hne : original.segments ≠ [])
    (hsegments : ∀ segment ∈ original.segments, Segment.ReadIn sorts false segment) :
    ∃ again : Path,
      typeWhere sorts plus (original.node.tokens ++ rest) =
        .ok ⟨.branch .pathType [again.node], rest, none⟩ ∧
      again.node.tokens = original.node.tokens := by
  obtain ⟨again, hagain, hleading, hsame⟩ := pathWhere_tokens hrest.endsPath hne hsegments
  have htokens : again.node.tokens = original.node.tokens := by
    rw [Path.tokens_node, Path.tokens_node, hleading, map_tokens_of_again hsame]
  refine ⟨again, ?_, htokens⟩
  rw [typeWhere_of_beginsType hbegins, namedType, bind_of_ok (anyPath_plain hbegins.looks.1 hagain)]
  cases hrest with
  | comma rest => cases plus <;> rfl
  | closing rest => cases plus <;> rfl

/-- A type that is read where it may stand is read as an argument. -/
theorem genericArgument_of_type {tokens rest : List Token} {node : Node}
    (hbegins : BeginsType tokens) (hrest : EndsArgument rest)
    (htype : sorts.type true tokens = .ok ⟨node, rest, none⟩) :
    genericArgument sorts tokens = .ok ⟨(false, node), rest, none⟩ := by
  obtain ⟨-, -, hlifetime, hliteral, hgroup⟩ := hbegins.looks
  have hargument : typeArgument sorts tokens = .ok ⟨node, rest, none⟩ := by
    rw [typeArgument, bind_of_ok htype]
    cases associatedName? node with
    | none => rfl
    | some name =>
      cases hrest with
      | comma rest => rfl
      | closing rest => rfl
  simp only [genericArgument, ahead_bind, choose_apply, hlifetime, hliteral, hgroup,
    Bool.false_and, Bool.or_false, Bool.false_eq_true, if_false]
  rw [bind_of_ok hargument]
  rfl

end Types

/-! ### Depth -/

/-- The sorts so many steps deeper, seen from outside. -/
theorem Sorts.deepened_succ (steps : ℕ) (sorts : Sorts) :
    Sorts.deepened (steps + 1) sorts = (Sorts.deepened steps sorts).deeper := by
  induction steps generalizing sorts with
  | zero => rfl
  | succ steps ih => exact ih sorts.deeper

theorem sizeList_append (first second : List Token) :
    sizeList (first ++ second) = sizeList first + sizeList second := by
  induction first with
  | nil => simp [sizeList]
  | cons token rest ih => simp only [List.cons_append, sizeList, ih, Nat.add_assoc]

/-- What stands between separators is no larger than the whole. -/
theorem sizeList_le_intercalate (separator : List Token) {part : List Token}
    {parts : List (List Token)} (h : part ∈ parts) :
    sizeList part ≤ sizeList (List.intercalate separator parts) := by
  induction parts with
  | nil => exact absurd h List.not_mem_nil
  | cons first others ih =>
    cases others with
    | nil =>
      obtain rfl := List.mem_singleton.mp h
      simp
    | cons next rest =>
      rw [List.intercalate_cons_cons, sizeList_append, sizeList_append]
      rcases List.mem_cons.mp h with rfl | hrest
      · omega
      · have := ih hrest
        omega

/-- An argument is no larger than all of them. -/
theorem sizeList_le_of_argument {arguments : NameArguments} {other : Node}
    (hother : other ∈ arguments.others) :
    sizeList other.tokens ≤ sizeList arguments.node.tokens := by
  have hentry : (false, other) ∈ arguments.entries :=
    List.mem_append_right _ (List.mem_map_of_mem hother)
  have hmem : other.tokens ∈ (arguments.entries.map Prod.snd).map Node.tokens :=
    List.mem_map_of_mem (List.mem_map_of_mem hentry)
  have hpart := sizeList_le_intercalate (phrase ",") hmem
  rw [NameArguments.tokens_node, sizeList_append, sizeList_append, sizeList_append,
    argumentTokens]
  omega

/-- An argument is smaller than the type that it is an argument of. -/
theorem sizeList_lt_of_argument (leading : Bool) {segments : List (String × Option NameArguments)}
    {name : String} {arguments : NameArguments} (hsegment : (name, some arguments) ∈ segments)
    {other : Node} (hother : other ∈ arguments.others) :
    sizeList other.tokens <
      sizeList (Path.mk leading (segments.map namedSegment)).node.tokens := by
  have harguments := sizeList_le_of_argument hother
  have hpath : sizeList (namedSegment (name, some arguments)).tokens ≤
      sizeList (Path.mk leading (segments.map namedSegment)).node.tokens := by
    have hmem : (namedSegment (name, some arguments)).tokens ∈
        (segments.map namedSegment).map Segment.tokens :=
      List.mem_map_of_mem (List.mem_map_of_mem hsegment)
    rw [Path.tokens_node, sizeList_append]
    exact (sizeList_le_intercalate (phrase "::") hmem).trans (Nat.le_add_left _ _)
  have hsegmentSize : sizeList (namedSegment (name, some arguments)).tokens =
      sizeList arguments.node.tokens + 1 := by
    simp [namedSegment, Segment.tokens, sizeList, Token.size, Nat.add_comm]
  omega

/-- A name with arguments is read in a type, if its arguments are. -/
theorem readIn_namedSegment {sorts : Sorts} {entry : String × Option NameArguments}
    (hname : IsTypeName entry.1) (hplace : entry.1 ∈ placeWords → entry.2 = none)
    (harguments : ∀ arguments, entry.2 = some arguments → arguments.node.ReadIn sorts) :
    Segment.ReadIn sorts false (namedSegment entry) := by
  obtain ⟨name, given⟩ := entry
  cases given with
  | none => exact Segment.readIn_name hname.isSound
  | some arguments =>
    refine Segment.readIn_arguments ?_ (harguments arguments rfl) fun rest => ?_
    · rcases hname.isSound with ⟨hin, -⟩ | hfree
      · exact absurd (hplace hin) nofun
      · exact hfree
    · rw [NameArguments.tokens_node]
      cases arguments.colons with
      | true => rfl
      | false => rfl

/-- A path of names begins a type. -/
theorem beginsType_namedPath {leading : Bool} {segments : List (String × Option NameArguments)}
    (hne : segments ≠ []) (hnames : ∀ entry ∈ segments, IsTypeName entry.1) {rest : List Token}
    (hrest : EndsArgument rest) :
    BeginsType ((Path.mk leading (segments.map namedSegment)).node.tokens ++ rest) := by
  cases segments with
  | nil => contradiction
  | cons first others =>
    rw [Path.tokens_node, List.map_cons, intercalate_segments, List.append_assoc]
    cases leading with
    | true => exact .colons _
    | false =>
      refine .name (hnames first List.mem_cons_self) ?_
      obtain ⟨name, given⟩ := first
      cases given with
      | none =>
        cases others with
        | nil => exact hrest.noAttribute
        | cons next rest => rfl
      | some arguments =>
        have hgiven : (some arguments.node).toList.flatMap Node.tokens = arguments.node.tokens :=
          List.flatMap_singleton ..
        rw [namedSegment, Option.map_some, hgiven, NameArguments.tokens_node]
        cases arguments.colons with
        | true => rfl
        | false => rfl

/-- A path has at least one token. -/
theorem sizeList_path_pos {original : Path} (hne : original.segments ≠ []) :
    0 < sizeList original.node.tokens := by
  obtain ⟨leading, segments⟩ := original
  cases segments with
  | nil => contradiction
  | cons first others =>
    rw [Path.tokens_node, intercalate_segments, sizeList_append, sizeList_append, Segment.tokens,
      sizeList, Token.size]
    omega

/-- A type made of names is read as an argument, if the sorts are deep enough. -/
theorem IsNamedType.argumentIn {type : Node} (h : IsNamedType type) {depth : ℕ}
    (hdepth : sizeList type.tokens ≤ depth) :
    type.ArgumentIn (Sorts.deepened depth .none) false := by
  induction h generalizing depth with
  | path leading segments hne hnames hplaces harguments ih =>
    have hsegments : (Path.mk leading (segments.map namedSegment)).segments ≠ [] := by
      rwa [Ne, List.map_eq_nil_iff]
    have htokens : (Node.branch .pathType
        [(Path.mk leading (segments.map namedSegment)).node]).tokens =
          (Path.mk leading (segments.map namedSegment)).node.tokens := by
      rw [Node.tokens_branch (by decide), List.flatMap_singleton]
    rw [htokens] at hdepth
    have hpositive := sizeList_path_pos hsegments
    obtain ⟨steps, rfl⟩ : ∃ steps, depth = steps + 1 := ⟨depth - 1, by omega⟩
    have hread : ∀ segment ∈ segments.map namedSegment,
        Segment.ReadIn (Sorts.deepened steps .none) false segment := by
      refine List.forall_mem_map.mpr fun entry hentry =>
        readIn_namedSegment (hnames entry hentry) (hplaces entry hentry) fun arguments hgiven => ?_
      obtain ⟨name, given⟩ := entry
      obtain rfl : given = some arguments := hgiven
      refine NameArguments.readIn fun other hother => ?_
      by_cases hliteral : IsLiteralNode other
      · exact hliteral.argumentIn
      · refine ih name arguments hentry other hother hliteral ?_
        have hsmaller := sizeList_lt_of_argument leading hentry hother
        omega
    have hbegins : ∀ rest, EndsArgument rest → BeginsType
        ((Path.mk leading (segments.map namedSegment)).node.tokens ++ rest) :=
      fun rest hrest => beginsType_namedPath hne hnames hrest
    refine ⟨fun rest hrest => ?_, fun rest hrest => ?_⟩
    · rw [htokens]
      exact (hbegins rest hrest).looks.2.1
    · obtain ⟨again, hagain, hagainTokens⟩ :=
        typeWhere_path true hrest (hbegins rest hrest) hsegments hread
      refine ⟨.branch .pathType [again.node], ?_, ?_⟩
      · rw [htokens, Sorts.deepened_succ]
        exact genericArgument_of_type (hbegins rest hrest) hrest hagain
      · rw [Node.tokens_branch (by decide), List.flatMap_singleton, hagainTokens, htokens]

/-- Arguments made of names are read back, if the sorts are deep enough. -/
theorem NameArguments.IsNamed.readIn {arguments : NameArguments} (h : arguments.IsNamed) {depth : ℕ}
    (hdepth : sizeList arguments.node.tokens ≤ depth) :
    arguments.node.ReadIn (Sorts.deepened depth .none) := by
  refine NameArguments.readIn fun other hother => ?_
  rcases h other hother with hliteral | hnamed
  · exact hliteral.argumentIn
  · exact hnamed.argumentIn ((sizeList_le_of_argument hother).trans hdepth)

end Typestate.Grammar
