import Typestate.Proofs.Code.Slots

/-!
# Names that generated items bind

The type of a member is written into items that bind names of their own: each has a parameter for
the stage, and in each `Self` is the builder. The items are read off the tokens of the builder, with
what they bind and the types that stand in them. What is bound is nowhere compared with the
identifiers of a type, so a type keeps its meaning only as long as it mentions neither name.
-/

namespace Typestate

namespace Token

mutual

/-- The identifiers in a token, however deep they stand in groups. A raw identifier is the same as
the plain one. -/
def identifiers : Token → List String
  | .word text => [Word.unraw text]
  | .mark _ _ => []
  | .literal _ => []
  | .group _ body => listIdentifiers body

/-- The identifiers in tokens. The name of a lifetime is none. -/
def listIdentifiers : List Token → List String
  | [] => []
  | .mark '\'' _ :: .word _ :: rest => listIdentifiers rest
  | token :: rest => token.identifiers ++ listIdentifiers rest

end

/-- The identifiers before a mark and from it on. What follows an apostrophe is then no word. -/
theorem listIdentifiers_append_mark (tokens : List Token) (char : Char) (spacing : Spacing)
    (rest : List Token) :
    listIdentifiers (tokens ++ .mark char spacing :: rest) =
      listIdentifiers tokens ++ listIdentifiers (.mark char spacing :: rest) := by
  induction tokens using listIdentifiers.induct with
  | motive_1 => exact True
  | case1 | case2 | case3 | case4 => trivial
  | case5 =>
    rw [List.nil_append, listIdentifiers, List.nil_append]
  | case6 mark name tokens ih =>
    rw [List.cons_append, List.cons_append, listIdentifiers, ih, listIdentifiers]
  | case7 token tokens hlifetime _ ih =>
    have hbefore : listIdentifiers (token :: tokens) =
        token.identifiers ++ listIdentifiers tokens := by
      rw [listIdentifiers]
      exact hlifetime
    have hwhole : listIdentifiers (token :: (tokens ++ .mark char spacing :: rest)) =
        token.identifiers ++ listIdentifiers (tokens ++ .mark char spacing :: rest) := by
      rw [listIdentifiers]
      intro mark name others hmark hothers
      cases tokens with
      | nil => exact Token.noConfusion (List.cons.inj hothers).1
      | cons second tokens =>
        obtain ⟨rfl, -⟩ := List.cons.inj hothers
        exact hlifetime mark name tokens hmark rfl
    rw [List.cons_append, hwhole, hbefore, ih, List.append_assoc]

end Token

open Token

/-! ### Items -/

/-- An item or a function: what stands before its braces and in them. -/
structure CodeItem where
  head : List Token
  body : List Token

/-- The items in tokens. What follows the last braces belongs to none. -/
def readCodeItems : List Token → List CodeItem
  | [] => []
  | .group .brace body :: rest => ⟨[], body⟩ :: readCodeItems rest
  | token :: rest =>
    match readCodeItems rest with
    | [] => []
    | item :: items => ⟨token :: item.head, item.body⟩ :: items

namespace CodeItem

/-- The parameter that follows a keyword, with a name between the two or none. -/
def parameters (keyword : String) (item : CodeItem) : List String :=
  match afterWord keyword item.head with
  | .mark '<' _ :: .word name :: _ => [name]
  | .word _ :: .mark '<' _ :: .word name :: _ => [name]
  | _ => []

/-- What a struct or an implementation binds in itself. -/
def bound (keyword : String) (item : CodeItem) : List String := "Self" :: item.parameters keyword

/-- The arguments of a function. -/
def arguments? (function : CodeItem) : Option (List Token) :=
  match (afterWord "fn" function.head).find? (Token.isGroup .parenthesis) with
  | some (.group _ arguments) => some arguments
  | _ => none

end CodeItem

/-- The type of the value that is taken beside the builder, if one is. -/
def valueType? : List Token → Option (List Token)
  | .mark '&' _ :: .word "self" :: .mark ',' _ :: .word "value" :: .mark ':' _ :: type => some type
  | _ => none

/-- A function of an implementation: the names that are bound around what it takes, and the type of
the value that it takes, if it takes one. -/
structure FunctionScope where
  bound : List String
  value : Option (List Token)

/-- The functions of an implementation. -/
def CodeItem.functions (implementation : CodeItem) : List FunctionScope :=
  (readCodeItems implementation.body).map fun function =>
    ⟨implementation.bound "impl" ++ function.parameters "fn", function.arguments?.bind valueType?⟩

/-- A type as it stands in the code, and the names that are bound around it. -/
structure TypePlace where
  bound : List String
  type : List Token

/-- The type mentions a name that is bound around it. -/
def TypePlace.Captures (place : TypePlace) : Prop :=
  ∃ name ∈ listIdentifiers place.type, name ∈ place.bound

/-- The place of the type that a function takes a value of. -/
def FunctionScope.place? (function : FunctionScope) : Option TypePlace :=
  function.value.map fun type => ⟨function.bound, type⟩

/-- The places of the types of slots, in the struct that declares them. -/
def CodeItem.slotPlaces (struct : CodeItem) (slots : List (String × List Token)) : List TypePlace :=
  slots.map fun slot => ⟨struct.bound "struct", slot.2⟩

/-! ### The items of a builder -/

/-- No token is a group in braces. -/
def isBraceless (tokens : List Token) : Bool := tokens.all fun token => !token.isGroup .brace

/-- Tokens without braces before an item belong to its head. -/
theorem readCodeItems_append {tokens rest : List Token} (h : isBraceless tokens = true)
    {item : CodeItem} {items : List CodeItem} (hrest : readCodeItems rest = item :: items) :
    readCodeItems (tokens ++ rest) = ⟨tokens ++ item.head, item.body⟩ :: items := by
  induction tokens with
  | nil => exact hrest
  | cons token tokens ih =>
    obtain ⟨hhere, hothers⟩ := Bool.and_eq_true_iff.mp h
    rw [List.cons_append, readCodeItems, ih hothers]
    · rfl
    · rintro inner rfl
      contradiction

theorem isBraceless_append (first second : List Token) :
    isBraceless (first ++ second) = (isBraceless first && isBraceless second) := List.all_append

/-- Tokens without braces before braces are the head of one item. -/
theorem readCodeItems_item {tokens : List Token} (h : isBraceless tokens = true)
    (body rest : List Token) :
    readCodeItems (tokens ++ ([braces body] ++ rest)) = ⟨tokens, body⟩ :: readCodeItems rest := by
  have hbody : readCodeItems ([braces body] ++ rest) = ⟨[], body⟩ :: readCodeItems rest := rfl
  rw [readCodeItems_append h hbody, List.append_nil]

/-- The method of a slot takes a value of its type, in an implementation that binds the stage. -/
theorem Slot.functions_methodTokens (naming : Naming) (slot : Slot) (rest : List Token) :
    (readCodeItems (slot.methodTokens naming ++ rest)).flatMap CodeItem.functions =
      ⟨["Self", "__Stage"], some slot.type.tokens⟩ ::
        (readCodeItems rest).flatMap CodeItem.functions := by
  rfl

namespace BuilderType

variable (item : BuilderType)

/-- The struct comes first. It declares the slots, and it binds the stage. -/
theorem readCodeItems_structTokens
    (hword : ∀ token ∈ item.naming.visibility, Grammar.isWord "struct" [token] = false)
    (hbraceless : isBraceless item.naming.visibility = true) (rest : List Token) :
    ∃ struct, readCodeItems (item.structTokens ++ rest) = struct :: readCodeItems rest ∧
      struct.body = listing (item.declaredSlots ++ [(stageSlot, stageType)]) ∧
      struct.bound "struct" = ["Self", "__Stage"] := by
  let summary := doc ("Staged builder for `" ++ item.naming.target ++
    "`. Every method takes `&self` and returns a new value.")
  let declaration := phrase "struct" ++ [.word item.naming.builder] ++
    phrase "< __Stage =" ++ [.word item.naming.stagesModule] ++ phrase "::" ++ [.word item.root] ++
    phrase ">"
  let body := listing (item.declaredSlots ++ [(stageSlot, stageType)])
  have hsummary : isBraceless summary = true := rfl
  have hdeclaration : isBraceless declaration = true := rfl
  have hitems := readCodeItems_append hsummary
    (readCodeItems_append hbraceless (readCodeItems_item hdeclaration body rest))
  have htokens : item.structTokens ++ rest =
      summary ++ (item.naming.visibility ++ (declaration ++ ([braces body] ++ rest))) := by
    simp only [body, listing_declaredSlots, structTokens, List.append_assoc]
    rfl
  refine ⟨_, (congrArg readCodeItems htokens).trans hitems, rfl, ?_⟩
  rw [CodeItem.bound, CodeItem.parameters, afterWord_doc, afterWord_append hword]
  rfl

/-- An implementation for the builder is one item. -/
theorem functions_implementation (bound : String) {implemented : List Token}
    (h : isBraceless implemented = true) (body rest : List Token) :
    (readCodeItems (item.implementation bound implemented ++ ([braces body] ++ rest))).flatMap
        CodeItem.functions =
      CodeItem.functions ⟨item.implementation bound implemented, body⟩ ++
        (readCodeItems rest).flatMap CodeItem.functions := by
  have hbraceless : isBraceless (item.implementation bound implemented) = true := by
    rw [implementation, isBraceless_append, isBraceless_append, isBraceless_append, h]
    rfl
  rw [readCodeItems_item hbraceless, List.flatMap_cons]

/-- The functions that copy a builder take no value, and one of them has a parameter of its own. -/
theorem functions_copyTokens (rest : List Token) :
    (readCodeItems (item.copyTokens ++ rest)).flatMap CodeItem.functions =
      [⟨["Self", "__Stage", "__Next"], none⟩, ⟨["Self", "__Stage"], none⟩] ++
        (readCodeItems rest).flatMap CodeItem.functions := by
  rw [copyTokens]
  simp only [List.append_assoc]
  rw [item.functions_implementation _ rfl, item.functions_implementation _ rfl]
  rfl

/-- The methods of slots take a value of the type of each. -/
theorem functions_slots (slots : List Slot) (rest : List Token) :
    (readCodeItems (slots.flatMap (Slot.methodTokens item.naming) ++ rest)).flatMap
        CodeItem.functions =
      slots.map (fun slot => ⟨["Self", "__Stage"], some slot.type.tokens⟩) ++
        (readCodeItems rest).flatMap CodeItem.functions := by
  induction slots with
  | nil => rfl
  | cons slot slots ih =>
    rw [List.flatMap_cons, List.append_assoc, Slot.functions_methodTokens, ih]
    rfl

/-- The method that builds the value takes none. -/
theorem functions_build (summary : String) :
    (readCodeItems (item.implementation Naming.canBuildTrait [] ++ [braces <|
      doc summary ++
      phrase "#" ++ [brackets (phrase "must_use")] ++
      phrase "pub fn build" ++ [parens (phrase "& self")] ++ phrase "->" ++
      [.word item.naming.target, braces item.buildTokens]])).flatMap CodeItem.functions =
        [⟨["Self", "__Stage"], none⟩] := by
  rw [← List.append_nil [braces _], item.functions_implementation _ rfl]
  rfl

/-- The items of a builder are the struct and implementations, whose functions take values of the
types of the slots and no others. -/
theorem readCodeItems_tokens
    (hword : ∀ token ∈ item.naming.visibility, Grammar.isWord "struct" [token] = false)
    (hbraceless : isBraceless item.naming.visibility = true) :
    ∃ struct implementations, readCodeItems item.tokens = struct :: implementations ∧
      struct.body = listing (item.declaredSlots ++ [(stageSlot, stageType)]) ∧
      struct.bound "struct" = ["Self", "__Stage"] ∧
      implementations.flatMap CodeItem.functions =
        [⟨["Self", "__Stage", "__Next"], none⟩, ⟨["Self", "__Stage"], none⟩] ++
          item.slots.map (fun slot => ⟨["Self", "__Stage"], some slot.type.tokens⟩) ++
          [⟨["Self", "__Stage"], none⟩] := by
  rw [tokens, List.append_assoc, List.append_assoc, List.append_assoc]
  obtain ⟨struct, hitems, hbody, hbound⟩ := item.readCodeItems_structTokens hword hbraceless
    (item.copyTokens ++ (item.slots.flatMap (Slot.methodTokens item.naming) ++ _))
  refine ⟨struct, _, hitems, hbody, hbound, ?_⟩
  rw [functions_copyTokens, functions_slots, functions_build, List.append_assoc]

end BuilderType

/-! ### Types of members -/

/-- The identifiers of an option are its own and those of its type. -/
theorem listIdentifiers_option (type : List Token) :
    listIdentifiers (phrase ":: core :: option :: Option <" ++ type ++ phrase ">") =
      ["core", "option", "Option"] ++ listIdentifiers type := by
  have hphrase : phrase ":: core :: option :: Option <" =
      [.mark ':' .joint, .mark ':' .alone, .word "core", .mark ':' .joint, .mark ':' .alone,
        .word "option", .mark ':' .joint, .mark ':' .alone, .word "Option", .mark '<' .alone] := rfl
  have hplain : Word.unraw "core" = "core" ∧ Word.unraw "option" = "option" ∧
      Word.unraw "Option" = "Option" := by decide
  have hclosed : listIdentifiers (type ++ phrase ">") = listIdentifiers type ++ [] :=
    listIdentifiers_append_mark type '>' .alone []
  rw [List.append_assoc, hphrase]
  simp [listIdentifiers, identifiers, hclosed, hplain]

/-- A slot has the identifiers of the type of its member, beside those of an option. -/
theorem mem_identifiers_declared (member : Member) {name : String}
    (h : name ∉ ["core", "option", "Option"]) :
    name ∈ listIdentifiers member.slotCode.declared ↔
      name ∈ listIdentifiers member.type.tokens := by
  rw [Member.slotCode, apply_ite SlotCode.declared]
  split
  · rw [Member.optionSlot, listIdentifiers_option, List.mem_append]
    exact or_iff_right h
  · rfl

/-- The type of the member mentions neither of the names that every item of a builder binds. -/
def Member.AvoidsBuilder (member : Member) : Prop :=
  "Self" ∉ listIdentifiers member.type.tokens ∧ "__Stage" ∉ listIdentifiers member.type.tokens

instance (member : Member) : Decidable member.AvoidsBuilder := inferInstanceAs (Decidable (_ ∧ _))

/-- Where `Self` and the stage are bound, a type is captured if it mentions one of them. -/
theorem TypePlace.not_captures_iff {type : List Token} :
    ¬ (TypePlace.mk ["Self", "__Stage"] type).Captures ↔
      "Self" ∉ listIdentifiers type ∧ "__Stage" ∉ listIdentifiers type := by
  simp only [Captures, List.mem_cons, List.not_mem_nil, or_false, not_exists, not_and, not_or]
  constructor
  · intro h
    exact ⟨fun hself => (h "Self" hself).1 rfl, fun hstage => (h "__Stage" hstage).2 rfl⟩
  · rintro ⟨hself, hstage⟩ name hname
    exact ⟨fun hsame => hself (hsame ▸ hname), fun hsame => hstage (hsame ▸ hname)⟩

/-- The types of members in the items of a builder. The struct declares the slots, and there is one
function for each member that takes a value of its type. In all these places the same two names are
bound; the one function with a parameter of its own takes no value. -/
structure BuilderPlaces (members : MemberList) (struct : CodeItem)
    (implementations : List CodeItem) : Prop where
  struct_body : struct.body = listing
    (members.toList.map (fun member => (member.name, member.slotCode.declared)) ++
      [(stageSlot, stageType)])
  struct_bound : struct.bound "struct" = ["Self", "__Stage"]
  functions : implementations.flatMap CodeItem.functions =
    [⟨["Self", "__Stage", "__Next"], none⟩, ⟨["Self", "__Stage"], none⟩] ++
      members.toList.map (fun member => ⟨["Self", "__Stage"], some member.type.tokens⟩) ++
      [⟨["Self", "__Stage"], none⟩]

/-- What is generated has the types of members in its struct and in its implementations. -/
theorem Generated.places {target : Target} {cancelled : Bool} {generated : Generated}
    (hgenerate : generate target cancelled = .ok generated) :
    ∃ struct implementations,
      readCodeItems generated.builderType.tokens = struct :: implementations ∧
      BuilderPlaces target.members struct implementations := by
  have hdeclared : generated.builderType.declaredSlots = _ := Generated.code_declared hgenerate
  obtain ⟨body, -, -, -, hbuilder, -, -⟩ := generate_eq_ok hgenerate
  have hnaming : generated.builderType.naming = .ofTarget target := by rw [hbuilder]
  have hslots : generated.builderType.slots = target.members.toList.map .ofMember := by
    rw [hbuilder]
  have hword : ∀ token ∈ (Naming.ofTarget target).visibility,
      Grammar.isWord "struct" [token] = false := isWord_visibility_ofTarget target (by decide)
  have hbraceless : isBraceless (Naming.ofTarget target).visibility = true :=
    List.all_eq_true.mpr (forall_visibility_ofTarget target rfl fun _ => rfl)
  rw [← hnaming] at hword hbraceless
  obtain ⟨struct, implementations, hitems, hbody, hbound, hfunctions⟩ :=
    generated.builderType.readCodeItems_tokens hword hbraceless
  refine ⟨struct, implementations, hitems, hdeclared ▸ hbody, hbound, ?_⟩
  rw [hfunctions, hslots, List.map_map]
  rfl

/-- All places of types of members: in the struct and in the functions. -/
def typePlaces (members : MemberList) (struct : CodeItem) (implementations : List CodeItem) :
    List TypePlace :=
  struct.slotPlaces
      (members.toList.map fun member => (member.name, member.slotCode.declared)) ++
    (implementations.flatMap CodeItem.functions).filterMap FunctionScope.place?

/-- The places of the types of members, each with the two names that are bound there. -/
theorem BuilderPlaces.typePlaces_eq {members : MemberList} {struct : CodeItem}
    {implementations : List CodeItem} (h : BuilderPlaces members struct implementations) :
    typePlaces members struct implementations =
      members.toList.map (fun member => ⟨["Self", "__Stage"], member.slotCode.declared⟩) ++
        members.toList.map fun member => ⟨["Self", "__Stage"], member.type.tokens⟩ := by
  have hplaces : (members.toList.map fun member =>
      FunctionScope.mk ["Self", "__Stage"] (some member.type.tokens)).filterMap
        FunctionScope.place? =
          members.toList.map fun member => ⟨["Self", "__Stage"], member.type.tokens⟩ := by
    rw [List.filterMap_map]
    exact congrFun List.filterMap_eq_map members.toList
  rw [typePlaces, CodeItem.slotPlaces, h.struct_bound, h.functions, List.map_map,
    List.filterMap_append, List.filterMap_append, hplaces]
  exact congrArg _ (List.append_nil _)

/-- A slot and a value of a member keep their meaning if the member avoids what is bound. -/
theorem BuilderPlaces.not_captures_iff {members : MemberList} {struct : CodeItem}
    {implementations : List CodeItem} (h : BuilderPlaces members struct implementations) :
    (∀ place ∈ typePlaces members struct implementations, ¬ place.Captures) ↔
      ∀ member ∈ members.toList, member.AvoidsBuilder := by
  rw [h.typePlaces_eq, List.forall_mem_append, List.forall_mem_map, List.forall_mem_map]
  have hslot : ∀ member : Member,
      ¬ (TypePlace.mk ["Self", "__Stage"] member.slotCode.declared).Captures ↔
        member.AvoidsBuilder := by
    intro member
    rw [TypePlace.not_captures_iff, mem_identifiers_declared member (by decide),
      mem_identifiers_declared member (by decide), Member.AvoidsBuilder]
  have hvalue : ∀ member : Member,
      ¬ (TypePlace.mk ["Self", "__Stage"] member.type.tokens).Captures ↔ member.AvoidsBuilder :=
    fun member => TypePlace.not_captures_iff
  simp only [hslot, hvalue, and_self]

/-- A member that mentions a bound name has it captured where a function takes its value. -/
theorem BuilderPlaces.exists_captured {members : MemberList} {struct : CodeItem}
    {implementations : List CodeItem} (h : BuilderPlaces members struct implementations)
    {member : Member} (hmember : member ∈ members.toList) {name : String}
    (hname : name ∈ listIdentifiers member.type.tokens) (hbound : name ∈ ["Self", "__Stage"]) :
    ∃ place ∈ typePlaces members struct implementations,
      name ∈ listIdentifiers place.type ∧ name ∈ place.bound := by
  refine ⟨⟨["Self", "__Stage"], member.type.tokens⟩, ?_, hname, hbound⟩
  rw [h.typePlaces_eq]
  exact List.mem_append_right _ (List.mem_map.mpr ⟨member, hmember, rfl⟩)

/-- **Captured types.** The struct of the builder declares the slots, and exactly one function for
each member takes a value of its type. Around each of these types `Self` and the stage are bound, so
the types keep their meaning exactly if none of them mentions either, at any depth. The parameter of
the function that copies to another stage is never bound around one of them. -/
theorem generate_captures {target : Target} {cancelled : Bool} {generated : Generated}
    (hgenerate : generate target cancelled = .ok generated) :
    ∃ struct implementations,
      readCodeItems generated.builderType.tokens = struct :: implementations ∧
      BuilderPlaces target.members struct implementations ∧
      ((∀ place ∈ typePlaces target.members struct implementations, ¬ place.Captures) ↔
        ∀ member ∈ target.members.toList, member.AvoidsBuilder) := by
  obtain ⟨struct, implementations, hitems, hplaces⟩ := Generated.places hgenerate
  exact ⟨struct, implementations, hitems, hplaces, hplaces.not_captures_iff⟩

/-- A list of nodes, with the type of its link. -/
def nodeDraft (type : String) : Draft where
  target := "Node"
  fields := [⟨⟨"next", type, .required⟩, "next"⟩]

/-- The member that is described, with its type in the layout of tokens. -/
def nodeMembers (type : String) : MemberList where
  toList := [⟨"next", "Next", ⟨type⟩, true, 0, .provided, .field "next"⟩]
  sorted := by simp

/-- The target that is described. -/
def nodeTarget (type : String) : Target where
  name := "Node"
  visibility := ""
  construction := .literal
  members := nodeMembers type
  fixed := []
  settings := {}

/-- The type of the link that names the target is kept. -/
theorem generate_captures_nodeTarget :
    ∃ generated struct implementations,
      (nodeDraft "Option<Box<Node>>").finish = .ok (nodeTarget "Option < Box < Node > >") ∧
      generate (nodeTarget "Option < Box < Node > >") = .ok generated ∧
      readCodeItems generated.builderType.tokens = struct :: implementations ∧
      BuilderPlaces (nodeMembers "Option < Box < Node > >") struct implementations ∧
      ∀ place ∈ typePlaces (nodeMembers "Option < Box < Node > >") struct implementations,
        ¬ place.Captures := by
  have hfinish : (nodeDraft "Option<Box<Node>>").finish =
      .ok (nodeTarget "Option < Box < Node > >") :=
    Draft.finish_of_parts (nodeMembers "Option < Box < Node > >") (by decide +kernel)
      (by decide +kernel) rfl
  obtain ⟨generated, hgenerate⟩ :
      ∃ generated, generate (nodeTarget "Option < Box < Node > >") = .ok generated :=
    exists_generate_eq_ok.mpr (by decide +kernel)
  obtain ⟨struct, implementations, hitems, hplaces, hcaptures⟩ := generate_captures hgenerate
  have havoids : ∀ member ∈ (nodeMembers "Option < Box < Node > >").toList,
      member.AvoidsBuilder := by decide +kernel
  exact ⟨generated, struct, implementations, hfinish, hgenerate, hitems, hplaces,
    hcaptures.mpr havoids⟩

/-- The type of the link that says `Self` is accepted, and it stands where `Self` is the builder. -/
theorem captures_nodeTarget :
    ∃ generated struct implementations,
      (nodeDraft "Option<Box<Self>>").finish = .ok (nodeTarget "Option < Box < Self > >") ∧
      generate (nodeTarget "Option < Box < Self > >") = .ok generated ∧
      readCodeItems generated.builderType.tokens = struct :: implementations ∧
      BuilderPlaces (nodeMembers "Option < Box < Self > >") struct implementations ∧
      ∃ place ∈ typePlaces (nodeMembers "Option < Box < Self > >") struct implementations,
        "Self" ∈ listIdentifiers place.type ∧ "Self" ∈ place.bound := by
  have hfinish : (nodeDraft "Option<Box<Self>>").finish =
      .ok (nodeTarget "Option < Box < Self > >") :=
    Draft.finish_of_parts (nodeMembers "Option < Box < Self > >") (by decide +kernel)
      (by decide +kernel) rfl
  obtain ⟨generated, hgenerate⟩ :
      ∃ generated, generate (nodeTarget "Option < Box < Self > >") = .ok generated :=
    exists_generate_eq_ok.mpr (by decide +kernel)
  obtain ⟨struct, implementations, hitems, hplaces⟩ := Generated.places hgenerate
  have hself : ∀ member ∈ (nodeMembers "Option < Box < Self > >").toList,
      "Self" ∈ listIdentifiers member.type.tokens := by decide +kernel
  exact ⟨generated, struct, implementations, hfinish, hgenerate, hitems, hplaces,
    hplaces.exists_captured List.mem_cons_self (hself _ List.mem_cons_self) List.mem_cons_self⟩

end Typestate
