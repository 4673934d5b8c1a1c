import Typestate.Proofs.Code.BuilderCode
import Typestate.Proofs.Grammar.FieldReference
import Typestate.Proofs.Lattice.Closed
import Typestate.Proofs.Target.Finishing

/-!
# Slots of members

A member has a slot of its own name, and its slot is dealt with at five places: the struct declares
it, the factory fills it, a copy takes it over, one method sets it, and building the value reads it.
All of them take the member in the same way, as one that begins empty or as one that begins with its
default. What the method that builds the value reads is found by the name of the slot, so it is the
slot of the member as long as names differ.
-/

namespace Typestate

open Token

/-- How the slot of a member is dealt with. -/
structure SlotCode where
  /-- The type of the slot. -/
  declared : List Token
  /-- What the factory puts into it. -/
  seeded : SlotExpression
  /-- What supplying the member puts into it. -/
  stored : SlotExpression
  /-- What is read of it when the value is built. -/
  read : SlotExpression

namespace Member

/-- A slot that is empty until the member is supplied. -/
def optionSlot (member : Member) : SlotCode where
  declared := phrase ":: core :: option :: Option <" ++ member.type.tokens ++ phrase ">"
  seeded := .nothing
  stored := .supplied
  read := .taken member.name

/-- A slot that holds the default of the member until it is supplied. -/
def plainSlot (member : Member) : SlotCode where
  declared := member.type.tokens
  seeded := .expression member.default.tokens
  stored := .value
  read := .copy member.name

/-- How the slot of the member is dealt with. -/
def slotCode (member : Member) : SlotCode :=
  if member.mandatory then member.optionSlot else member.plainSlot

end Member

/-- At each place the slots are those of the members, in the order of their indexes, and the slot of
a member is dealt with at all places alike. -/
structure BuilderCode.Agrees (code : BuilderCode) (members : MemberList) : Prop where
  ascending : members.toList.Pairwise fun first second => first.index < second.index
  declared : code.declared = members.toList.map fun member =>
    (member.name, member.slotCode.declared)
  copied : code.copied = members.toList.map fun member => (member.name, .copy member.name)
  seeded : code.seeded = members.toList.map fun member => (member.name, member.slotCode.seeded)
  supplied : code.supplies.map (fun method => (method.name, method.slot, method.stored)) =
    members.toList.map fun member => ("add_" ++ member.name, member.name, member.slotCode.stored)
  /-- Each member is read when the value is built. -/
  read : ∀ member ∈ members.toList, member.slotCode.read ∈ code.build.expressions
  /-- Nothing but members is read then. -/
  read_only : ∀ expression ∈ code.build.expressions,
    (∃ member ∈ members.toList, expression = member.slotCode.read) ∨
      ∃ tokens, expression = .expression tokens
  nodup_slots : (members.toList.map Member.name ++ [stageSlot]).Nodup
  nodup_methods : (["restage", "clone"] ++ members.toList.map (fun member => "add_" ++ member.name) ++
    ["build"]).Nodup

theorem BuilderCode.Agrees.nodup_names {code : BuilderCode} {members : MemberList}
    (h : code.Agrees members) : (members.toList.map Member.name).Nodup :=
  (List.nodup_append.mp h.nodup_slots).1

/-! ### Names -/

/-- What is looked for by a key that nothing else has is found. -/
theorem find?_key {A : Type} {key : A → String} {items : List A} (hnodup : (items.map key).Nodup)
    {item : A} (hitem : item ∈ items) :
    items.find? (fun other => key other == key item) = some item := by
  cases hfound : items.find? fun other => key other == key item with
  | none => exact absurd (List.find?_eq_none.mp hfound item hitem) (by simp)
  | some other =>
    have hkey : key other = key item := by simpa only [beq_iff_eq] using List.find?_some hfound
    rw [List.inj_on_of_nodup_map hnodup (List.mem_of_find?_eq_some hfound) hitem hkey]

namespace MemberList

variable {members : MemberList}

theorem Distinct.nodup_names (h : members.Distinct) : (members.toList.map Member.name).Nodup :=
  List.pairwise_map.mpr (h.imp Member.Differs.name)

/-- No accepted member has the name of the slot that carries the stage. -/
theorem nodup_slots (h : members.Distinct)
    (haccepted : ∀ member ∈ members.toList, member.Accepted) :
    (members.toList.map Member.name ++ [stageSlot]).Nodup := by
  refine List.nodup_append.mpr
    ⟨h.nodup_names, List.nodup_singleton _, fun name hname other hother => ?_⟩
  rw [List.mem_singleton.mp hother]
  obtain ⟨member, hmember, rfl⟩ := List.mem_map.mp hname
  obtain ⟨name, type, fallback, index, origin, hmake⟩ := haccepted member hmember
  obtain ⟨hfault, readType, readDefault, -, -, rfl⟩ := Member.make_eq_ok.mp hmake
  have hreserved : nameFault? stageSlot ≠ none := by decide +kernel
  intro hsame
  exact hreserved (hsame ▸ hfault)

/-- The methods that supply members differ from each other and from those of every builder. -/
theorem nodup_methods (h : members.Distinct) :
    (["restage", "clone"] ++ members.toList.map (fun member => "add_" ++ member.name) ++
      ["build"]).Nodup := by
  have hinjective : Function.Injective ("add_" ++ · : String → String) :=
    fun _ _ => (String.append_right_inj _).mp
  have hadd : (members.toList.map fun member => "add_" ++ member.name).Nodup := by
    have hnames := h.nodup_names.map hinjective
    rwa [List.map_map] at hnames
  have hhead : ∀ name ∈ members.toList.map (fun member => "add_" ++ member.name),
      name.toList.head? = some 'a' := by
    intro name hname
    obtain ⟨member, -, rfl⟩ := List.mem_map.mp hname
    rw [String.toList_append]
    rfl
  refine List.nodup_append.mpr ⟨List.nodup_append.mpr ⟨by decide, hadd, ?_⟩,
    List.nodup_singleton _, ?_⟩
  · intro fixed hfixed name hname hsame
    have hfirst : ∀ fixed ∈ ["restage", "clone"], fixed.toList.head? ≠ some 'a' := by decide
    exact hfirst fixed hfixed (hsame ▸ hhead name hname)
  · intro name hname last hlast hsame
    rw [List.mem_singleton.mp hlast] at hsame
    rcases List.mem_append.mp hname with hfixed | hname
    · exact absurd (hsame ▸ hfixed) (by decide)
    · have hfirst := hhead name hname
      rw [hsame] at hfirst
      exact absurd hfirst (by decide)

/-- A member that ends up in a field is one of the members with its reference. -/
theorem mem_fields {member : Member} {reference : String} :
    (member, reference) ∈ members.fields ↔
      member ∈ members.toList ∧ member.origin = .field reference := by
  rw [fields, List.mem_filterMap]
  constructor
  · rintro ⟨other, hother, hfound⟩
    split at hfound
    · rename_i found horigin
      obtain ⟨rfl, rfl⟩ := Prod.mk.inj (Option.some.inj hfound)
      exact ⟨hother, horigin⟩
    · contradiction
  · rintro ⟨hmember, horigin⟩
    refine ⟨member, hmember, ?_⟩
    rw [horigin]

/-- A member is an argument, or it ends up in a field. -/
theorem mem_arguments_or_fields {member : Member} (hmember : member ∈ members.toList) :
    member ∈ members.arguments ∨ ∃ reference, (member, reference) ∈ members.fields := by
  cases horigin : member.origin with
  | argument => exact Or.inl (List.mem_filter.mpr ⟨hmember, by rw [horigin]; rfl⟩)
  | field reference => exact Or.inr ⟨reference, mem_fields.mpr ⟨hmember, horigin⟩⟩

end MemberList

/-! ### The code of slots -/

section SlotOfMember

variable (member : Member)

theorem declaredType_ofMember :
    (Slot.ofMember member).declaredType = member.slotCode.declared := by
  rw [Slot.declaredType, Member.slotCode, apply_ite SlotCode.declared]
  rfl

theorem storedExpression_ofMember :
    (Slot.ofMember member).storedExpression = member.slotCode.stored := by
  rw [Slot.storedExpression, Member.slotCode, apply_ite SlotCode.stored]
  rfl

theorem readExpression_ofMember :
    (Slot.ofMember member).readExpression = member.slotCode.read := by
  rw [Slot.readExpression, Member.slotCode, apply_ite SlotCode.read]
  rfl

theorem seedExpression_ofMember :
    Factory.seedExpression (.ofMember member) = member.slotCode.seeded := by
  rw [Seed.ofMember, Member.slotCode, apply_ite SlotCode.seeded, apply_ite Factory.seedExpression]
  rfl

end SlotOfMember

/-- The slot that is found by the name of a member is the slot of the member. -/
theorem readExpression_of_mem {members : MemberList} (h : members.Distinct) {item : BuilderType}
    (hslots : item.slots = members.toList.map .ofMember) {member : Member}
    (hmember : member ∈ members.toList) :
    item.readExpression member.name = member.slotCode.read := by
  have hfind : members.toList.find? (fun other => other.name == member.name) = some member :=
    find?_key h.nodup_names hmember
  have hslot : item.slots.find? (fun slot => slot.name == member.name) =
      some (.ofMember member) := by
    rw [hslots, List.find?_map]
    exact congrArg (Option.map Slot.ofMember) hfind
  rw [BuilderType.readExpression, hslot]
  exact readExpression_ofMember member

/-! ### The code of building -/

/-- The function that is called to make a value, as tokens. -/
def constructorTokens (target path : String) : List Token :=
  match constructorPath target path with
  | .ok found => found.node.tokens
  | .error _ => Token.diagnostic refusal

theorem fieldTokens_of_fieldOf {member reference : String} {node : Grammar.Node}
    (h : fieldOf member reference = .ok node) : fieldTokens reference = node.tokens := by
  rw [fieldOf] at h
  rw [fieldTokens]
  cases hfound : Grammar.readFieldReference? reference with
  | none =>
    rw [hfound] at h
    contradiction
  | some found =>
    rw [hfound] at h
    obtain rfl : found = node := Except.ok.inj h
    rfl

/-- The fields that are set from slots. -/
def MemberList.settings (members : MemberList) : List FieldSetting :=
  members.fields.map fun entry => ⟨fieldTokens entry.2, entry.1.slotCode.read⟩

/-- The fields that get their defaults. -/
def Target.fixedSettings (target : Target) : List FieldSetting :=
  target.fixed.map fun field => ⟨fieldTokens field.reference, .expression field.default.tokens⟩

/-- How a value of the target is made, from the slots of its members. -/
def Target.buildCode (target : Target) : BuildCode :=
  match target.construction with
  | .literal => .literal target.name (target.members.settings ++ target.fixedSettings)
  | .function path =>
    .call (constructorTokens target.name path)
      (target.members.arguments.map fun member => member.slotCode.read) target.members.settings

section Generated

variable {target : Target} {cancelled : Bool} {generated : Generated}

/-- The fields that are set from slots are those of the members. -/
theorem map_assignments {members : MemberList} (h : members.Distinct) {item : BuilderType}
    (hslots : item.slots = members.toList.map .ofMember) {assigned : List Assignment}
    (hassigned : BuildBody.assignments members = .ok assigned) :
    assigned.map
        (fun entry => FieldSetting.mk entry.field.tokens (item.readExpression entry.slot)) =
      members.settings := by
  have hread : members.settings = members.fields.map fun entry =>
      ⟨fieldTokens entry.2, item.readExpression entry.1.name⟩ := by
    refine List.map_congr_left fun entry hentry => ?_
    rw [readExpression_of_mem h hslots (MemberList.mem_fields.mp hentry).1]
  rw [hread]
  refine map_of_mapM_eq_ok (fun entry assignment hentry => ?_) hassigned
  obtain ⟨node, hnode, hresult⟩ := bind_eq_ok.mp hentry
  rw [← Except.ok.inj hresult, fieldTokens_of_fieldOf hnode]

/-- The method that builds the value makes it from the slots of the members. -/
theorem buildCode_of_generate (hgenerate : generate target cancelled = .ok generated) :
    generated.code.build = target.buildCode := by
  obtain ⟨body, hlattice, -, -, hbuilder, -, hbody⟩ := generate_eq_ok hgenerate
  obtain ⟨h, -⟩ := Lattice.build_eq_ok.mp hlattice
  have hslots : generated.builderType.slots = target.members.toList.map .ofMember := by
    rw [hbuilder]
  have hname : generated.builderType.naming.target = target.name := by
    rw [hbuilder]
    rfl
  have hitem : generated.builderType.body = body := by
    rw [hbuilder]
  obtain ⟨assigned, hassigned, hbody⟩ := bind_eq_ok.mp hbody
  have hsettings := map_assignments h hslots (mapError_eq_ok.mp hassigned)
  rw [Generated.code, Target.buildCode, BuilderType.buildCode, hitem, hname]
  cases hconstruction : target.construction with
  | literal =>
    rw [hconstruction] at hbody
    obtain ⟨fixed, hfixed, hbody⟩ := bind_eq_ok.mp hbody
    have hvalues : fixed.map (fun entry => FieldSetting.mk entry.field.tokens
        (.expression entry.value.tokens)) = target.fixedSettings := by
      refine map_of_mapM_eq_ok (fun field value hvalue => ?_) (mapError_eq_ok.mp hfixed)
      obtain ⟨node, hnode, hresult⟩ := bind_eq_ok.mp hvalue
      rw [← Except.ok.inj hresult, fieldTokens_of_fieldOf hnode]
    rw [← Except.ok.inj hbody]
    simp only [hsettings, hvalues]
  | function path =>
    rw [hconstruction] at hbody
    obtain ⟨found, hfound, hbody⟩ := bind_eq_ok.mp hbody
    have htokens : constructorTokens target.name path = found.node.tokens := by
      rw [constructorTokens, mapError_eq_ok.mp hfound]
    have harguments : (target.members.arguments.map Member.name).map
        generated.builderType.readExpression =
          target.members.arguments.map fun member => member.slotCode.read := by
      rw [List.map_map]
      exact List.map_congr_left fun member hmember =>
        readExpression_of_mem h hslots (List.mem_of_mem_filter hmember)
    rw [← Except.ok.inj hbody]
    simp only [hsettings, harguments, htokens]

/-- A value is made from the slots of members and from defaults of fixed fields only. -/
theorem Target.mem_expressions {expression : SlotExpression} :
    expression ∈ target.buildCode.expressions →
      (∃ member ∈ target.members.toList, expression = member.slotCode.read) ∨
        ∃ tokens, expression = .expression tokens := by
  have hsettings : ∀ setting ∈ target.members.settings,
      ∃ member ∈ target.members.toList, setting.value = member.slotCode.read := by
    intro setting hsetting
    obtain ⟨entry, hentry, rfl⟩ := List.mem_map.mp hsetting
    exact ⟨entry.1, (MemberList.mem_fields.mp hentry).1, rfl⟩
  intro hexpression
  unfold Target.buildCode at hexpression
  cases hconstruction : target.construction with
  | literal =>
    rw [hconstruction] at hexpression
    obtain ⟨setting, hsetting, rfl⟩ := List.mem_map.mp hexpression
    rcases List.mem_append.mp hsetting with hset | hfixed
    · exact Or.inl (hsettings setting hset)
    · obtain ⟨field, -, rfl⟩ := List.mem_map.mp hfixed
      exact Or.inr ⟨_, rfl⟩
  | function path =>
    rw [hconstruction] at hexpression
    rcases List.mem_append.mp hexpression with hargument | hset
    · obtain ⟨member, hmember, rfl⟩ := List.mem_map.mp hargument
      exact Or.inl ⟨member, List.mem_of_mem_filter hmember, rfl⟩
    · obtain ⟨setting, hsetting, rfl⟩ := List.mem_map.mp hset
      exact Or.inl (hsettings setting hsetting)

/-- Every member is used when a value of a finished target is made. -/
theorem Target.read_mem_expressions {draft : Draft} (hfinish : draft.finish = .ok target)
    {member : Member} (hmember : member ∈ target.members.toList) :
    member.slotCode.read ∈ target.buildCode.expressions := by
  obtain ⟨arguments, fields, hfinished⟩ := Draft.finished_of_finish hfinish
  have hsettings : ∀ reference, (member, reference) ∈ target.members.fields →
      member.slotCode.read ∈ target.members.settings.map FieldSetting.value := by
    intro reference hfield
    rw [MemberList.settings, List.map_map]
    exact List.mem_map.mpr ⟨_, hfield, rfl⟩
  unfold Target.buildCode
  cases hconstruction : target.construction with
  | literal =>
    have hnone : target.members.arguments = [] := by
      have harguments := hfinished.arguments_eq
      rw [(hfinished.no_arguments hconstruction).2] at harguments
      rw [hfinished.arguments_members, Except.ok.inj harguments]
    have hfield := MemberList.mem_arguments_or_fields hmember
    rw [hnone] at hfield
    obtain ⟨reference, hfield⟩ := hfield.resolve_left List.not_mem_nil
    change _ ∈ (_ ++ _ : List FieldSetting).map FieldSetting.value
    rw [List.map_append]
    exact List.mem_append_left _ (hsettings reference hfield)
  | function path =>
    rcases MemberList.mem_arguments_or_fields hmember with hargument | ⟨reference, hfield⟩
    · exact List.mem_append_left _ (List.mem_map_of_mem hargument)
    · exact List.mem_append_right _ (hsettings reference hfield)

/-- The struct declares the slots of the members. -/
theorem Generated.code_declared (hgenerate : generate target cancelled = .ok generated) :
    generated.code.declared =
      target.members.toList.map fun member => (member.name, member.slotCode.declared) := by
  obtain ⟨body, -, -, -, hbuilder, -, -⟩ := generate_eq_ok hgenerate
  rw [Generated.code, BuilderType.declaredSlots, hbuilder, List.map_map]
  exact List.map_congr_left fun member _ =>
    congrArg (Prod.mk member.name) (declaredType_ofMember member)

/-- What is generated for a finished target deals with the slot of each member in the same way at
all places. -/
theorem Generated.code_agrees {draft : Draft} (hfinish : draft.finish = .ok target)
    (hgenerate : generate target cancelled = .ok generated) :
    generated.code.Agrees target.members := by
  obtain ⟨body, hlattice, -, -, hbuilder, hfactory, -⟩ := generate_eq_ok hgenerate
  obtain ⟨h, -⟩ := Lattice.build_eq_ok.mp hlattice
  have hslots : generated.builderType.slots = target.members.toList.map .ofMember := by
    rw [hbuilder]
  have hseeds : generated.factory.seeds =
      target.members.toList.map fun member => (member.name, .ofMember member) := by
    rw [hfactory]
    rfl
  have hbuild := buildCode_of_generate hgenerate
  refine
    { ascending := h.ascending
      declared := Generated.code_declared hgenerate
      copied := ?_
      seeded := ?_
      supplied := ?_
      read := fun member hmember => ?_
      read_only := fun expression hexpression => ?_
      nodup_slots := MemberList.nodup_slots h (Draft.finish_accepted hfinish)
      nodup_methods := MemberList.nodup_methods h }
  · rw [Generated.code, BuilderType.copiedSlots, hslots, List.map_map]
    rfl
  · rw [Generated.code, Factory.seededSlots, hseeds, List.map_map]
    exact List.map_congr_left fun member _ =>
      congrArg (Prod.mk member.name) (seedExpression_ofMember member)
  · rw [Generated.code, BuilderType.supplyMethods, hslots, List.map_map, List.map_map]
    exact List.map_congr_left fun member _ =>
      congrArg (fun stored => ("add_" ++ member.name, member.name, stored))
        (storedExpression_ofMember member)
  · rw [hbuild]
    exact Target.read_mem_expressions hfinish hmember
  · rw [hbuild] at hexpression
    exact Target.mem_expressions hexpression

end Generated

end Typestate
