import Typestate.Proofs.Code.Building
import Typestate.Proofs.Code.Constructor
import Typestate.Proofs.Code.Names
import Typestate.Proofs.Code.SlotReading
import Typestate.Proofs.Grammar.Callee
import Typestate.Proofs.Rereading.Whole

/-!
# The call of the constructor

The text that designates the constructor is read as a path stands in a type, but the path is written
where an expression stands. There it is read as the call of that path with the readings of the slots
if no segment has its arguments right behind its name; if one has, the angle is an operator.
-/

namespace Typestate

open Grammar Grammar.Parser Token

namespace Grammar

/-! ### Paths that are resolved -/

/-- The path begins with two colons or has more than one segment. -/
inductive Path.IsLong : Path → Prop
  | rooted (first : Segment) (others : List Segment) : IsLong ⟨true, first :: others⟩
  | several (leading : Bool) (first second : Segment) (others : List Segment) :
    IsLong ⟨leading, first :: second :: others⟩

theorem Path.IsLong.segments_ne_nil {path : Path} (h : path.IsLong) : path.segments ≠ [] := by
  cases h with
  | rooted first others => exact List.cons_ne_nil _ _
  | several leading first second others => exact List.cons_ne_nil _ _

/-- The segments of a text that is read are segments that can be read in a type. -/
theorem isRead_of_readPath? {text : String} {path : Path} (h : readPath? text = some path) :
    ∀ segment ∈ path.segments, segment.IsRead false := by
  obtain ⟨sorts, tokens, found, hfound, rfl⟩ := read?_eq_some h
  exact gives_pathWhere hfound

/-- A segment can be read with another name. -/
theorem Segment.IsRead.rename {segment : Segment} (h : segment.IsRead false) {name : String}
    (hname : Word.isIdentifier name = true) :
    Segment.IsRead false { segment with name := name } := by
  cases h with
  | name hold => exact .name (.inr (.inr hname))
  | arguments hold hcolons inner => exact .arguments (.inr hname) hcolons inner

section Resolve

variable {path : Path} {target : String}

theorem Path.isLong_resolve (hne : path.segments ≠ []) : (path.resolve target).IsLong := by
  obtain ⟨leading, segments⟩ := path
  cases leading with
  | true =>
    match segments, hne with
    | first :: others, _ => exact .rooted first others
  | false =>
    match segments, hne with
    | [only], _ => exact .several ..
    | first :: second :: others, _ =>
      by_cases hname : first.name = "Self"
      · have hresolved : resolve ⟨false, first :: second :: others⟩ target =
            ⟨false, { first with name := target } :: second :: others⟩ := by
          simp [resolve, hname]
        rw [hresolved]
        exact .several ..
      · have hresolved : resolve ⟨false, first :: second :: others⟩ target =
            ⟨false, first :: second :: others⟩ := by
          simp [resolve, hname]
        rw [hresolved]
        exact .several ..

theorem Path.isRead_resolve (htarget : Word.isIdentifier target = true)
    (h : ∀ segment ∈ path.segments, segment.IsRead false) :
    ∀ segment ∈ (path.resolve target).segments, segment.IsRead false := by
  unfold Path.resolve
  split
  · exact h
  · split
    · rename_i only hsegments
      rw [hsegments] at h
      exact List.forall_mem_cons.mpr ⟨.name (.inr (.inr htarget)), h⟩
    · rename_i first others hmany hsegments
      split
      · rw [hsegments] at h
        obtain ⟨hfirst, hothers⟩ := List.forall_mem_cons.mp h
        exact List.forall_mem_cons.mpr ⟨hfirst.rename htarget, hothers⟩
      · exact h
    · exact h

end Resolve

/-! ### Paths in an expression -/

/-- A name that may begin a segment with arguments may begin a type. -/
theorem isTypeName_of_free {name : String} (h : name = "Self" ∨ Word.isIdentifier name = true) :
    IsTypeName name := by
  rcases h with rfl | hidentifier
  · exact .inr (by decide)
  · exact .inl hidentifier

/-- A name of a segment may begin a type, but for one word. -/
theorem isTypeName_of_isSound {name : String} (h : Segment.IsSound ⟨name, none⟩)
    (hattempt : name ≠ "try") : IsTypeName name := by
  rcases h with ⟨hplace, -⟩ | hfree
  · simp only [placeWords, List.mem_cons, List.not_mem_nil, or_false] at hplace
    rcases hplace with rfl | rfl | rfl | rfl
    · exact .inr (by decide)
    · exact .inr (by decide)
    · exact .inr (by decide)
    · exact absurd rfl hattempt
  · exact isTypeName_of_free hfree

/-- A path of segments that can be read begins an expression of that name. -/
theorem Path.IsLong.beginsName {path : Path} (h : path.IsLong)
    (hsegments : ∀ segment ∈ path.segments, segment.IsRead false) (rest : List Token) :
    BeginsName (path.node.tokens ++ rest) := by
  rw [Path.tokens_node, List.append_assoc]
  cases h with
  | rooted first others => exact .path (.colons _)
  | several leading first second others =>
    cases leading with
    | true => exact .path (.colons _)
    | false =>
      rw [intercalate_segments, List.append_assoc]
      cases hsegments first List.mem_cons_self with
      | @name name hname =>
        by_cases hattempt : name = "try"
        · subst hattempt
          exact .attempt _
        · exact .path (.name (isTypeName_of_isSound hname hattempt) rfl)
      | @arguments name hname colons hcolons inner =>
        refine .path (.name (isTypeName_of_free hname) ?_)
        rw [Option.toList_some, List.flatMap_singleton, tokens_argumentNode]
        cases colons with
        | true => rfl
        | false => rfl

/-- A segment is read in an expression if its arguments are not those of a type and are read. -/
theorem Segment.IsRead.readIn {sorts : Sorts} {segment : Segment} (h : segment.IsRead false)
    (hstyle : segment.isTypeStyle = false)
    (harguments : ∀ arguments, segment.arguments = some arguments → arguments.ReadIn sorts) :
    Segment.ReadIn sorts true segment := by
  cases h with
  | name hname => exact Segment.readIn_name hname
  | @arguments name hname colons hcolons inner =>
    rw [isTypeStyle_arguments, Bool.not_eq_false'] at hstyle
    subst hstyle
    refine Segment.readIn_arguments hname (harguments _ rfl) fun rest => ?_
    rw [tokens_argumentNode]
    rfl

/-- Arguments are read where they stand behind a name, and are written alike, as soon as the sorts
are deep enough for arguments so large. -/
def Node.ReadBack (arguments : Node) : Prop :=
  ∀ depth, 8 * sizeList arguments.tokens ≤ depth → arguments.ReadIn (Sorts.deepened depth .none)

/-- The arguments of the segment, if it has some, are read back. -/
def Segment.ReadBack (segment : Segment) : Prop :=
  ∀ arguments, segment.arguments = some arguments → arguments.ReadBack

/-- The arguments of the segment, if it has some, are made of names. -/
def Segment.IsNamed (segment : Segment) : Prop :=
  ∀ arguments, segment.arguments = some arguments →
    ∃ named : NameArguments, named.IsNamed ∧ arguments = named.node

/-- The arguments of the segment, if it has some, are told apart down to their tokens and written as
they stand. -/
def Segment.IsFaithful (segment : Segment) : Prop :=
  ∀ arguments, segment.arguments = some arguments → arguments.isFaithful = true

/-- Arguments that are made of names are read back. -/
theorem Segment.IsNamed.readBack {segment : Segment} (h : segment.IsNamed) : segment.ReadBack := by
  intro arguments harguments depth hdepth
  obtain ⟨named, hnamed, rfl⟩ := h arguments harguments
  exact hnamed.readIn (by omega)

/-- Where a path is resolved, its segments keep their arguments. -/
theorem Path.exists_arguments_resolve {path : Path} {target : String} {segment : Segment}
    (hsegment : segment ∈ (path.resolve target).segments) {arguments : Node}
    (harguments : segment.arguments = some arguments) :
    ∃ original ∈ path.segments, original.arguments = some arguments := by
  unfold Path.resolve at hsegment
  split at hsegment
  · exact ⟨segment, hsegment, harguments⟩
  · split at hsegment
    · rename_i only hsegments
      rcases List.mem_cons.mp hsegment with rfl | hsegment
      · contradiction
      · exact ⟨segment, hsegments ▸ hsegment, harguments⟩
    · rename_i first others hmany hsegments
      rw [hsegments]
      split at hsegment
      · rcases List.mem_cons.mp hsegment with rfl | hsegment
        · exact ⟨first, List.mem_cons_self, harguments⟩
        · exact ⟨segment, List.mem_cons_of_mem _ hsegment, harguments⟩
      · exact ⟨segment, hsegments ▸ hsegment, harguments⟩
    · exact ⟨segment, hsegment, harguments⟩

/-- Faithful arguments of a path that is read are read back when it is resolved. -/
theorem Path.readBack_resolve {text target : String} {path : Path} (h : readPath? text = some path)
    {segment : Segment} (hsegment : segment ∈ (path.resolve target).segments)
    (hfaithful : segment.IsFaithful) : segment.ReadBack := by
  intro arguments harguments depth hdepth
  obtain ⟨original, horiginal, hsame⟩ := Path.exists_arguments_resolve hsegment harguments
  exact readIn_of_readPath? h horiginal hsame (hfaithful arguments harguments) hdepth

/-! ### The call -/

namespace Path

/-- The call of the function of that path, as tokens. -/
def callTokens (path : Path) (arguments : List (List Token)) : List Token :=
  path.node.tokens ++ [parens (List.intercalate (phrase ",") arguments)]

/-- The call is an expression: a call whose function is a path of the same segments, and whose
arguments are the given ones. -/
def ReadsAsCall (path : Path) (arguments : List (List Token)) : Prop :=
  ∃ callee nodes,
    readTokens? Sorts.expression (path.callTokens arguments) = some (callNode callee nodes) ∧
      callee.leading = path.leading ∧
      callee.segments.map Segment.tokens = path.segments.map Segment.tokens ∧
      nodes.map Node.leaves = arguments

variable {path : Path} {arguments : List (List Token)}

/-- A path that is read as the function of its call has no arguments as in a type. -/
theorem ReadsAsCall.isTypeStyle_eq (h : path.ReadsAsCall arguments) (hlong : path.IsLong)
    (hread : ∀ segment ∈ path.segments, segment.IsRead false) :
    ∀ segment ∈ path.segments, segment.isTypeStyle = false := by
  obtain ⟨callee, nodes, hcall, -, hsegments, -⟩ := h
  have hcallee := isTypeStyle_of_readTokens? (hlong.beginsName hread _) hcall
  have hstyles : callee.segments.map Segment.isTypeStyle =
      path.segments.map Segment.isTypeStyle := by
    have hmap := congrArg (List.map fun tokens => isOp "<" tokens.tail) hsegments
    rwa [List.map_map, List.map_map] at hmap
  rw [← List.forall_mem_map (f := Segment.isTypeStyle) (P := (· = false)), hstyles] at hcallee
  exact List.forall_mem_map.mp hcallee

/-- Arguments of a segment are no larger than the call of the path. -/
theorem sizeList_le_callTokens {segment : Segment} (hsegment : segment ∈ path.segments)
    {given : Node} (hgiven : segment.arguments = some given) (arguments : List (List Token)) :
    sizeList given.tokens ≤ sizeList (path.callTokens arguments) := by
  have htokens : segment.tokens = .word segment.name :: given.tokens := by
    rw [Segment.tokens, hgiven, Option.toList_some, List.flatMap_singleton]
  have hpart := sizeList_le_intercalate (phrase "::")
    (List.mem_map_of_mem (f := Segment.tokens) hsegment)
  rw [htokens, sizeList] at hpart
  rw [callTokens, Path.tokens_node, sizeList_append, sizeList_append]
  omega

/-- A path without arguments as in a type is read as the function of its call, if the arguments of
its segments are read back and those of the call are read. -/
theorem readsAsCall_of_readBack (hlong : path.IsLong)
    (hread : ∀ segment ∈ path.segments, segment.IsRead false)
    (hstyle : ∀ segment ∈ path.segments, segment.isTypeStyle = false)
    (hback : ∀ segment ∈ path.segments, segment.ReadBack)
    (parts : List (List Token × Node))
    (hparts : ∀ sorts : Sorts, ∀ part ∈ parts,
      ReadAs sorts.deeper.deeper.deeper.deeper.expression part.1 part.2)
    (hleaves : ∀ part ∈ parts, part.2.leaves = part.1) :
    path.ReadsAsCall (parts.map Prod.fst) := by
  let depth := 8 * sizeList (path.callTokens (parts.map Prod.fst)) + 11
  have hsegments : ∀ segment ∈ path.segments,
      Segment.ReadIn (Sorts.deepened (depth + 4) .none) true segment := by
    intro segment hsegment
    refine (hread segment hsegment).readIn (hstyle segment hsegment) fun given hgiven =>
      hback segment hsegment given hgiven _ ?_
    have hsize := sizeList_le_callTokens hsegment hgiven (parts.map Prod.fst)
    omega
  have hends : EndsPath [parens (List.intercalate (phrase ",") (parts.map Prod.fst))] := ⟨rfl, rfl⟩
  obtain ⟨callee, hcallee, hleading, hsame⟩ :=
    pathWhere_tokens hends hlong.segments_ne_nil hsegments
  have hdeep : Sorts.deepened (depth + 4) .none =
      (Sorts.deepened depth .none).deeper.deeper.deeper.deeper := by
    simp only [Sorts.deepened_succ]
  have hoperand := operandWhere_call (hlong.beginsName hread _) hcallee
    (hdeep ▸ hparts (Sorts.deepened depth .none)) (.nil true)
  have hexpression : Sorts.expression (Sorts.for (path.callTokens (parts.map Prod.fst)))
      (path.callTokens (parts.map Prod.fst)) =
        .ok ⟨callNode callee (parts.map Prod.snd), [], none⟩ := by
    rw [Sorts.for, Sorts.deepened_succ]
    exact expressionWhere_of_operand hoperand rfl (.nil true)
  refine ⟨callee, parts.map Prod.snd, ?_, hleading, map_tokens_of_again hsame, ?_⟩
  · rw [readTokens?, readTokens, all, hexpression]
    rfl
  · rw [List.map_map]
    exact List.map_congr_left hleaves

end Path

end Grammar

/-! ### The call that is generated -/

/-- The call stands in the code as an expression: it is all of it, or a variable is set to it. -/
inductive CallStandsIn (call : List Token) : List Token → Prop
  | whole : CallStandsIn call call
  | binding (rest : List Token) :
    CallStandsIn call (phrase "let mut value =" ++ call ++ phrase ";" ++ rest)

/-- The call of a function stands in the code that calls it. -/
theorem BuildCode.callStandsIn (path : Grammar.Path) (reads : List SlotExpression)
    (assigned : List FieldSetting) :
    CallStandsIn (path.callTokens (reads.map SlotExpression.tokens))
      (BuildCode.call path.node.tokens reads assigned).tokens := by
  cases assigned with
  | nil => exact .whole
  | cons setting others =>
    rw [BuildCode.tokens, List.isEmpty_cons, if_neg Bool.false_ne_true, List.append_assoc]
    exact .binding _

/-- What is read of a member, as a tree. -/
def MemberDraft.readNode (draft : MemberDraft) : Node :=
  if draft.isRequired then takenNode draft.name else callNode clonePath [ownSlotNode draft.name]

namespace MemberDraft

variable {draft : MemberDraft}

/-- What is read of a member is an expression. -/
theorem readAs_read (hname : Word.isIdentifier draft.name = true) (sorts : Sorts) :
    ReadAs sorts.deeper.deeper.deeper.deeper.expression draft.read.tokens draft.readNode := by
  unfold read readNode
  split
  · exact readAs_taken hname
  · exact readAs_cloneOf (readAs_ownSlot hname)

/-- The tree of what is read of a member has its tokens. -/
theorem leaves_readNode : draft.readNode.leaves = draft.read.tokens := by
  unfold read readNode
  split
  · exact leaves_takenNode draft.name
  · exact leaves_cloneNode _

end MemberDraft

namespace Draft

variable {draft : Draft} {target : Target}

/-- The arguments of a finished description have identifiers as their names. -/
theorem isIdentifier_of_mem_arguments (hfinish : draft.finish = .ok target) :
    ∀ argument ∈ draft.arguments, Word.isIdentifier argument.name = true := by
  obtain ⟨arguments, fields, hfinished⟩ := finished_of_finish hfinish
  intro argument hargument
  have hname : argument.name ∈ target.members.toList.map Member.name := by
    rw [hfinished.map_name_members]
    exact List.mem_map_of_mem (List.mem_append_left _ hargument)
  obtain ⟨member, hmember, hsame⟩ := List.mem_map.mp hname
  rw [← hsame]
  exact (lex?_of_isIdentifierText (finish_accepted hfinish member hmember).isIdentifierText_name).2

/-- The constructor of a finished description can be read, and its target has an identifier as its
name. -/
theorem readPath?_of_finish (hfinish : draft.finish = .ok target) {text : String}
    (hconstructor : draft.constructor = some text) :
    Word.isIdentifier draft.target = true ∧ ∃ path, readPath? text = some path := by
  obtain ⟨construction, members, fixed, hheader, -⟩ := parts_of_finish hfinish
  obtain ⟨htarget, -⟩ := isIdentifierText_of_checkHeader hheader
  obtain ⟨-, -, -, -, -, hconstruction⟩ := checkHeader_eq_ok.mp hheader
  refine ⟨(lex?_of_isIdentifierText htarget).2, ?_⟩
  unfold Draft.construction at hconstruction
  rw [hconstructor] at hconstruction
  simp only at hconstruction
  split at hconstruction
  · rename_i path hpath
    exact ⟨path, hpath⟩
  · contradiction

end Draft

section Call

variable {draft : Draft} {target : Target} {text : String} {cancelled : Bool}
  {generated : Generated}

/-- The designated function is called with what is read of the arguments. -/
theorem callStandsIn_of_generate (hfinish : draft.finish = .ok target)
    (hconstructor : draft.constructor = some text)
    (hgenerate : generate target cancelled = .ok generated) {path : Grammar.Path}
    (hpath : constructorPath draft.target text = .ok path) :
    CallStandsIn (path.callTokens (draft.arguments.map fun argument => argument.read.tokens))
      generated.code.build.tokens := by
  have hstands := BuildCode.callStandsIn path (draft.arguments.map MemberDraft.read)
    (draft.ownFields.map FieldDraft.setting)
  rw [List.map_map] at hstands
  rw [(Generated.code_realizes hfinish hgenerate).build, Draft.buildCode, hconstructor]
  simp only [constructorTokens, hpath]
  exact hstands

/-- **The call of the constructor.** Whatever path designates the constructor of a finished
description, its call with what is read of the arguments stands in the generated code as an
expression. If the grammar of expressions reads it as the call of that path with those arguments,
then no segment has an angle right behind its name. The converse holds as well, where the arguments
of segments are made of names, are faithful or are read back in another way. -/
theorem constructorCall_readsAsCall (hfinish : draft.finish = .ok target)
    (hconstructor : draft.constructor = some text)
    (hgenerate : generate target cancelled = .ok generated) :
    ∃ path : Grammar.Path, constructorPath draft.target text = .ok path ∧
      generated.code.WrittenIn generated.builderType.tokens generated.factory.tokens ∧
      CallStandsIn (path.callTokens (draft.arguments.map fun argument => argument.read.tokens))
        generated.code.build.tokens ∧
      (path.ReadsAsCall (draft.arguments.map fun argument => argument.read.tokens) →
        ∀ segment ∈ path.segments, segment.isTypeStyle = false) ∧
      ((∀ segment ∈ path.segments, segment.IsNamed ∨ segment.IsFaithful ∨ segment.ReadBack) →
        (∀ segment ∈ path.segments, segment.isTypeStyle = false) →
        path.ReadsAsCall (draft.arguments.map fun argument => argument.read.tokens)) := by
  obtain ⟨htarget, path, hpath⟩ := Draft.readPath?_of_finish hfinish hconstructor
  have hlong : (path.resolve draft.target).IsLong :=
    Grammar.Path.isLong_resolve (segments_ne_nil_of_readPath? hpath)
  have hread := Grammar.Path.isRead_resolve htarget (isRead_of_readPath? hpath)
  have hresolved : constructorPath draft.target text = .ok (path.resolve draft.target) := by
    rw [constructorPath, hpath]
  refine ⟨path.resolve draft.target, hresolved, Generated.code_writtenIn_of_generate hgenerate,
    callStandsIn_of_generate hfinish hconstructor hgenerate hresolved,
    fun hcall => hcall.isTypeStyle_eq hlong hread, fun hnamed hstyle => ?_⟩
  have hback : ∀ segment ∈ (path.resolve draft.target).segments, segment.ReadBack :=
    fun segment hsegment => (hnamed segment hsegment).elim Segment.IsNamed.readBack fun hothers =>
      hothers.elim (fun hfaithful => Path.readBack_resolve hpath hsegment hfaithful) id
  have hnames := Draft.isIdentifier_of_mem_arguments hfinish
  have hcall := Grammar.Path.readsAsCall_of_readBack hlong hread hstyle hback
    (draft.arguments.map fun argument => (argument.read.tokens, argument.readNode))
    (fun sorts => List.forall_mem_map.mpr fun argument hargument =>
      MemberDraft.readAs_read (hnames argument hargument) sorts)
    (List.forall_mem_map.mpr fun argument _ => MemberDraft.leaves_readNode)
  rw [List.map_map] at hcall
  exact hcall

end Call

/-- A target with the given constructor, which has one argument that has to be supplied and one that
has not. -/
def makeDraft (path : String) : Draft where
  target := "Order"
  constructor := some path
  arguments := [⟨"id", "u64", .required⟩, ⟨"code", "u32", .provided⟩]

/-- The members that are described. -/
def makeMembers : MemberList where
  toList := [⟨"id", "Id", ⟨"u64"⟩, true, 0, .provided, .argument⟩,
    ⟨"code", "Code", ⟨"u32"⟩, false, 1, .provided, .argument⟩]
  sorted := by simp

/-- The target that is described. -/
def makeTarget (path : String) : Target where
  name := "Order"
  visibility := ""
  construction := .function path
  members := makeMembers
  fixed := []
  settings := {}

theorem reads_makeDraft (path : String) :
    (makeDraft path).arguments.map (fun argument => argument.read.tokens) =
      [(SlotExpression.taken "id").tokens, (SlotExpression.copy "code").tokens] := rfl

/-- A function of the order with a name as its argument, as it is written in an expression. -/
def makePath (argument : String) : Grammar.Path :=
  ⟨false, [⟨"Order", none⟩, ⟨"make", some (argumentNode true
    [.branch .pathType [(Grammar.Path.mk false [⟨argument, none⟩]).node]])⟩]⟩

/-- The words and the kinds of a path of two names, the second of which has a name as its
argument. -/
def outline (path : Grammar.Path) : Option (List String × List Kind) :=
  match path with
  | ⟨false, [⟨first, none⟩, ⟨second, some (.construct whole [] [.operator colons,
      .operator opening, .construct type [] [.construct inner [] [.construct only [] [.word last]]],
      .operator closing])⟩]⟩ =>
    some ([first, second, colons, opening, last, closing], [whole, type, inner, only])
  | _ => none

theorem eq_makePath_of_outline {path : Grammar.Path} {argument : String}
    (h : outline path = some (["Order", "make", "::", "<", argument, ">"],
      [.genericArguments, .pathType, .path, .segment])) : path = makePath argument := by
  unfold outline at h
  split at h
  · simp only [Option.some.injEq, Prod.mk.injEq, List.cons.injEq, and_true] at h
    obtain ⟨⟨rfl, rfl, rfl, rfl, rfl, rfl⟩, rfl, rfl, rfl, rfl⟩ := h
    rfl
  · contradiction

/-- The arguments of the function are made of names. -/
theorem isNamed_makePath {argument : String} (hargument : Word.isIdentifier argument = true) :
    ∀ segment ∈ (makePath argument).segments, segment.IsNamed := by
  have hnamed : NameArguments.IsNamed
      ⟨true, [], [.branch .pathType [(Grammar.Path.mk false [⟨argument, none⟩]).node]]⟩ := by
    refine List.forall_mem_singleton.mpr (.inr ?_)
    exact .path false [(argument, none)] (List.cons_ne_nil _ _)
      (List.forall_mem_singleton.mpr (.inl hargument))
      (List.forall_mem_singleton.mpr fun _ => rfl) nofun
  refine List.forall_mem_cons.mpr ⟨nofun, List.forall_mem_singleton.mpr fun arguments h => ?_⟩
  exact ⟨_, hnamed, (Option.some.inj h).symm⟩

/-- With two colons in front of its arguments, the function is called with both arguments. -/
theorem constructorCall_readsAsCall_colons :
    ∃ (generated : Generated) (path : Grammar.Path),
      (makeDraft "make::<u8>").finish = .ok (makeTarget "make::<u8>") ∧
      generate (makeTarget "make::<u8>") = .ok generated ∧
      constructorPath "Order" "make::<u8>" = .ok path ∧
      (∃ segment ∈ path.segments, segment.arguments ≠ none) ∧
      path.ReadsAsCall
        [(SlotExpression.taken "id").tokens, (SlotExpression.copy "code").tokens] := by
  have hfinish : (makeDraft "make::<u8>").finish = .ok (makeTarget "make::<u8>") :=
    Draft.finish_of_parts makeMembers (by decide +kernel) (by decide +kernel) rfl
  obtain ⟨generated, hgenerate⟩ : ∃ generated, generate (makeTarget "make::<u8>") = .ok generated :=
    exists_generate_eq_ok.mpr (by decide +kernel)
  have hshape : (constructorPath "Order" "make::<u8>").toOption.map outline =
      some (some (["Order", "make", "::", "<", "u8", ">"],
        [.genericArguments, .pathType, .path, .segment])) := by decide +kernel
  obtain ⟨path, hpath, -, -, -, hcall⟩ := constructorCall_readsAsCall hfinish rfl hgenerate
  have htext : constructorPath "Order" "make::<u8>" = .ok path := hpath
  rw [htext] at hshape
  obtain rfl := eq_makePath_of_outline (Option.some.inj hshape)
  rw [reads_makeDraft] at hcall
  refine ⟨generated, _, hfinish, hgenerate, htext, ?_, hcall ?_ ?_⟩
  · exact ⟨_, List.mem_cons_of_mem _ List.mem_cons_self, nofun⟩
  · exact fun segment hsegment => .inl (isNamed_makePath (by decide) segment hsegment)
  · exact List.forall_mem_cons.mpr ⟨rfl, List.forall_mem_singleton.mpr
      (Segment.isTypeStyle_arguments "make" true _)⟩

/-- Without them, the code holds a call that is no expression. -/
theorem constructorCall_refused :
    ∃ (generated : Generated) (path : Grammar.Path),
      (makeDraft "make<u8>").finish = .ok (makeTarget "make<u8>") ∧
      generate (makeTarget "make<u8>") = .ok generated ∧
      constructorPath "Order" "make<u8>" = .ok path ∧
      CallStandsIn (path.callTokens
          [(SlotExpression.taken "id").tokens, (SlotExpression.copy "code").tokens])
        generated.code.build.tokens ∧
      readTokens? Sorts.expression (path.callTokens
        [(SlotExpression.taken "id").tokens, (SlotExpression.copy "code").tokens]) = none := by
  have hfinish : (makeDraft "make<u8>").finish = .ok (makeTarget "make<u8>") :=
    Draft.finish_of_parts makeMembers (by decide +kernel) (by decide +kernel) rfl
  obtain ⟨generated, hgenerate⟩ : ∃ generated, generate (makeTarget "make<u8>") = .ok generated :=
    exists_generate_eq_ok.mpr (by decide +kernel)
  obtain ⟨path, hread⟩ := (Draft.readPath?_of_finish hfinish rfl).2
  have hpath : constructorPath "Order" "make<u8>" = .ok (path.resolve "Order") := by
    rw [constructorPath, hread]
  have hrefused : (readTokens? Sorts.expression (constructorTokens "Order" "make<u8>" ++
      [parens (List.intercalate (phrase ",")
        [(SlotExpression.taken "id").tokens, (SlotExpression.copy "code").tokens])])).isNone =
      true := by decide +kernel
  rw [constructorTokens, hpath] at hrefused
  exact ⟨generated, _, hfinish, hgenerate, hpath,
    callStandsIn_of_generate hfinish rfl hgenerate hpath, Option.isNone_iff_eq_none.mp hrefused⟩

end Typestate
