import Mathlib.Data.List.Basic
import Typestate.Proofs.Code.Generated

/-!
# Finishing a description

A description that is finished keeps its arguments and fields in the order in which they were given:
they are numbered one after another, arguments first, so sorting them by their numbers moves none.
Fields that an argument stands for are left out.
-/

namespace Typestate

/-- The member has to be supplied. -/
def MemberDraft.isRequired (draft : MemberDraft) : Bool := draft.fallback = .required

/-- A member made as described has the name, the number and the origin that it is given. -/
theorem Member.of_make_eq_ok {draft : MemberDraft} {index : ℕ} {origin : Origin} {member : Member}
    (h : Member.make draft.name draft.type draft.fallback index origin = .ok member) :
    member.name = draft.name ∧ member.mandatory = draft.isRequired ∧ member.index = index ∧
      member.origin = origin := by
  obtain ⟨-, readType, readDefault, -, -, rfl⟩ := Member.make_eq_ok.mp h
  exact ⟨rfl, rfl, rfl, rfl⟩

/-- The field that the value of the member ends up in, if it ends up in one. -/
def Member.reference? (member : Member) : Option String :=
  match member.origin with
  | .field reference => some reference
  | .argument => none

/-- What is taken of the members that end up in fields, as a list with holes for the others. -/
theorem MemberList.map_fields (members : MemberList) {C : Type} (whole : Member × String → C) :
    members.fields.map whole =
      (members.toList.map fun member => member.reference?.map (whole ⟨member, ·⟩)).filterMap id := by
  rw [MemberList.fields, List.map_filterMap, List.filterMap_map]
  refine List.filterMap_congr fun member _ => ?_
  rw [Function.comp_apply, id_eq, Member.reference?]
  cases member.origin with
  | argument => rfl
  | field reference => rfl

namespace Draft

variable {draft : Draft} {target : Target}

/-- Numbered members are made of their drafts, in the same order. -/
theorem map_of_number_eq_ok {A C : Type} {make : A → ℕ → Except MemberError Member}
    {whole : Member → C} {part : A → C}
    (hmake : ∀ a index member, make a index = .ok member → whole member = part a)
    {first : ℕ} {drafts : List A} {members : List Member}
    (hnumber : number make first drafts = .ok members) : members.map whole = drafts.map part := by
  have hparts := (forall₂_of_number hnumber).imp fun entry member => hmake _ _ member
  calc
    members.map whole = (drafts.zipIdx first).map (part ∘ Prod.fst) := map_eq_of_forall₂ hparts
    _ = drafts.map part := by rw [← List.map_map, List.zipIdx_map_fst]

/-- Numbers are given one after another. -/
theorem map_index_of_number_eq_ok {A : Type} {make : A → ℕ → Except MemberError Member}
    (hmake : ∀ a index member, make a index = .ok member → member.index = index)
    {first : ℕ} {drafts : List A} {members : List Member}
    (hnumber : number make first drafts = .ok members) :
    members.map Member.index = List.range' first drafts.length := by
  have hindexes := (forall₂_of_number hnumber).imp fun entry member => hmake _ _ member
  rw [map_eq_of_forall₂ hindexes, List.zipIdx_map_snd]

theorem argumentMember_eq_ok {argument : MemberDraft} {index : ℕ} {member : Member}
    (h : argumentMember argument index = .ok member) :
    member.name = argument.name ∧ member.mandatory = argument.isRequired ∧
      member.index = index ∧ member.origin = .argument :=
  Member.of_make_eq_ok h

/-- The origin in a field has a reference that can be read. -/
theorem isSome_of_ofField {member reference : String} {origin : Origin}
    (h : Origin.ofField member reference = .ok origin) :
    (Grammar.readFieldReference? reference).isSome = true := by
  unfold Origin.ofField at h
  split at h
  · rename_i hfound
    rw [hfound]
    rfl
  · contradiction

theorem fieldMember_eq_ok {field : FieldDraft} {index : ℕ} {member : Member}
    (h : fieldMember field index = .ok member) :
    member.name = field.member.name ∧ member.mandatory = field.member.isRequired ∧
      member.index = index ∧ member.origin = .field field.reference := by
  obtain ⟨origin, horigin, hmake⟩ := bind_eq_ok.mp h
  unfold Origin.ofField at horigin
  split at horigin
  · rw [Except.ok.inj horigin]
    exact Member.of_make_eq_ok hmake
  · contradiction

/-- A field that is left alone is made of its reference and of its default, if it has one. -/
theorem fixedField_eq_ok {described : FixedDraft} {field : FixedField}
    (h : fixedField described = .ok field) :
    (Grammar.readFieldReference? described.reference).isSome = true ∧
      (described.default = none ∧ field = ⟨described.reference, .provided⟩ ∨
        ∃ text default, described.default = some text ∧
          DefaultText.read described.reference text = .ok default ∧
          field = ⟨described.reference, default⟩) := by
  obtain ⟨origin, horigin, hfield⟩ := bind_eq_ok.mp h
  refine ⟨isSome_of_ofField horigin, ?_⟩
  cases hdefault : described.default with
  | none =>
    rw [hdefault] at hfield
    exact .inl ⟨rfl, (Except.ok.inj hfield).symm⟩
  | some text =>
    rw [hdefault] at hfield
    obtain ⟨default, hread, hfield⟩ := bind_eq_ok.mp hfield
    exact .inr ⟨text, default, rfl, hread, (Except.ok.inj hfield).symm⟩

/-- What the header of a description says about how values are made. -/
theorem construction_of_checkHeader {construction : Construction}
    (h : draft.checkHeader = .ok construction) : draft.construction = .ok construction :=
  (checkHeader_eq_ok.mp h).2.2.2.2.2

/-- A designated constructor is called. -/
theorem construction_of_constructor {construction : Construction} {path : String}
    (h : draft.construction = .ok construction) (hpath : draft.constructor = some path) :
    construction = .function path := by
  unfold Draft.construction at h
  rw [hpath] at h
  simp only at h
  split at h
  · exact (Except.ok.inj h).symm
  · contradiction

/-- Without a constructor there are no arguments, and fields are named. -/
theorem construction_of_no_constructor {construction : Construction}
    (h : draft.construction = .ok construction) (hnone : draft.constructor = none) :
    draft.arguments = [] ∧ construction = .literal := by
  unfold Draft.construction at h
  rw [hnone] at h
  simp only at h
  split at h
  · rename_i hempty
    exact ⟨List.isEmpty_iff.mp hempty, (Except.ok.inj h).symm⟩
  · contradiction

/-- Without arguments no field is left out. -/
theorem ownFields_of_no_arguments (h : draft.arguments = []) : draft.ownFields = draft.fields := by
  rw [ownFields]
  refine List.filter_eq_self.mpr fun field _ => ?_
  rw [isShadowed, h]
  rfl

/-- What a finished description consists of. -/
structure Finished (draft : Draft) (target : Target) (arguments fields : List Member) : Prop where
  arguments_eq : number argumentMember 0 draft.arguments = .ok arguments
  fields_eq : number fieldMember draft.arguments.length draft.ownFields = .ok fields
  fixed_eq : draft.fixed.mapM fixedField = .ok target.fixed
  name : target.name = draft.target
  construction : draft.construction = .ok target.construction
  toList_members : target.members.toList = arguments ++ fields

namespace Finished

variable {arguments fields : List Member}

/-- Facts about the arguments, taken from their drafts. -/
theorem map_arguments (h : draft.Finished target arguments fields) {C : Type} {whole : Member → C}
    {part : MemberDraft → C}
    (hmake : ∀ argument index member, argumentMember argument index = .ok member →
      whole member = part argument) :
    arguments.map whole = draft.arguments.map part :=
  map_of_number_eq_ok hmake h.arguments_eq

/-- Facts about the fields, taken from their drafts. -/
theorem map_fields (h : draft.Finished target arguments fields) {C : Type} {whole : Member → C}
    {part : FieldDraft → C}
    (hmake : ∀ field index member, fieldMember field index = .ok member →
      whole member = part field) :
    fields.map whole = draft.ownFields.map part :=
  map_of_number_eq_ok hmake h.fields_eq

/-- The arguments of the constructor are the members that the arguments describe. -/
theorem arguments_members (h : draft.Finished target arguments fields) :
    target.members.arguments = arguments := by
  have horigin : arguments.map Member.origin = draft.arguments.map fun _ => .argument :=
    h.map_arguments fun _ _ _ hmake => (argumentMember_eq_ok hmake).2.2.2
  have hfields : fields.map Member.origin =
      draft.ownFields.map fun field => .field field.reference :=
    h.map_fields fun _ _ _ hmake => (fieldMember_eq_ok hmake).2.2.2
  have hall : ∀ member ∈ arguments, member.origin.isArgument = true := by
    intro member hmember
    obtain ⟨argument, -, hsame⟩ := List.mem_map.mp (horigin ▸ List.mem_map_of_mem hmember)
    rw [← hsame]
    rfl
  have hnone : ∀ member ∈ fields, ¬ member.origin.isArgument = true := by
    intro member hmember
    obtain ⟨field, -, hsame⟩ := List.mem_map.mp (hfields ▸ List.mem_map_of_mem hmember)
    rw [← hsame]
    exact Bool.false_ne_true
  rw [MemberList.arguments, h.toList_members, List.filter_append, List.filter_eq_self.mpr hall,
    List.filter_eq_nil_iff.mpr hnone, List.append_nil]

/-- Facts about the fields that are set, taken from their drafts, in the same order. -/
theorem map_fields_members (h : draft.Finished target arguments fields) {C : Type}
    {whole : Member × String → C} {part : FieldDraft → C}
    (hmake : ∀ field index member, fieldMember field index = .ok member →
      whole (member, field.reference) = part field) :
    target.members.fields.map whole = draft.ownFields.map part := by
  have hnone : arguments.map (fun member => member.reference?.map (whole ⟨member, ·⟩)) =
      draft.arguments.map fun _ => none := by
    refine h.map_arguments fun argument index member hargument => ?_
    rw [Member.reference?, (argumentMember_eq_ok hargument).2.2.2]
    rfl
  have hsome : fields.map (fun member => member.reference?.map (whole ⟨member, ·⟩)) =
      draft.ownFields.map fun field => some (part field) := by
    refine h.map_fields fun field index member hfield => ?_
    rw [Member.reference?, (fieldMember_eq_ok hfield).2.2.2]
    exact congrArg some (hmake field index member hfield)
  rw [MemberList.map_fields, h.toList_members, List.map_append, hnone, hsome, List.filterMap_append,
    List.filterMap_map, List.filterMap_map]
  simp

/-- The references of the own fields and of the fixed ones can be read. -/
theorem isSome_reference (h : draft.Finished target arguments fields) :
    (∀ field ∈ draft.ownFields, (Grammar.readFieldReference? field.reference).isSome = true) ∧
      ∀ field ∈ draft.fixed, (Grammar.readFieldReference? field.reference).isSome = true := by
  have hown : fields.map (fun _ => true) = draft.ownFields.map fun field =>
      (Grammar.readFieldReference? field.reference).isSome := by
    refine h.map_fields fun field index member hmake => ?_
    obtain ⟨origin, horigin, -⟩ := bind_eq_ok.mp hmake
    exact (isSome_of_ofField horigin).symm
  have hfixed : target.fixed.map (fun _ => true) = draft.fixed.map fun field =>
      (Grammar.readFieldReference? field.reference).isSome := by
    exact map_of_mapM_eq_ok (fun field value hmake => (fixedField_eq_ok hmake).1.symm) h.fixed_eq
  constructor
  · intro field hfield
    obtain ⟨member, -, hsame⟩ := List.mem_map.mp (hown ▸ List.mem_map_of_mem hfield)
    exact hsame.symm
  · intro field hfield
    obtain ⟨value, -, hsame⟩ := List.mem_map.mp (hfixed ▸ List.mem_map_of_mem hfield)
    exact hsame.symm

/-- Values are named field by field only if there are no arguments. -/
theorem no_arguments (h : draft.Finished target arguments fields)
    (hliteral : target.construction = .literal) :
    draft.constructor = none ∧ draft.arguments = [] := by
  have hconstruction := h.construction
  rw [hliteral] at hconstruction
  cases hpath : draft.constructor with
  | some path =>
    exact absurd (construction_of_constructor hconstruction hpath) Construction.noConfusion
  | none => exact ⟨rfl, (construction_of_no_constructor hconstruction hpath).1⟩

end Finished

/-- The members of a description are numbered from zero, arguments first. -/
theorem map_index_members {arguments fields : List Member}
    (harguments : number argumentMember 0 draft.arguments = .ok arguments)
    (hfields : number fieldMember draft.arguments.length draft.ownFields = .ok fields) :
    (arguments ++ fields).map Member.index =
      List.range' 0 (draft.arguments.length + draft.ownFields.length) := by
  have hcount := map_index_of_number_eq_ok
    (fun _ _ _ hmake => (argumentMember_eq_ok hmake).2.2.1) harguments
  have hrest := map_index_of_number_eq_ok
    (fun _ _ _ hmake => (fieldMember_eq_ok hmake).2.2.1) hfields
  rw [List.map_append, hcount, hrest, ← List.range'_append_1, Nat.zero_add]

/-- A description that is finished consists of its arguments and its own fields. -/
theorem finished_of_finish (h : draft.finish = .ok target) :
    ∃ arguments fields, draft.Finished target arguments fields := by
  obtain ⟨construction, members, fixed, hheader, hmembers, hfixed, rfl⟩ := parts_of_finish h
  obtain ⟨arguments, harguments, hmembers⟩ := bind_eq_ok.mp hmembers
  obtain ⟨fields, hfields, hmembers⟩ := bind_eq_ok.mp hmembers
  rw [← Except.ok.inj hmembers]
  refine ⟨arguments, fields, harguments, hfields, hfixed, rfl, construction_of_checkHeader hheader,
    ?_⟩
  have hsorted : ((arguments ++ fields).map Member.index).Pairwise (· < ·) :=
    map_index_members harguments hfields ▸ List.pairwise_lt_range'
  refine List.mergeSort_of_pairwise ((List.pairwise_map.mp hsorted).imp fun hless => ?_)
  exact decide_eq_true (Nat.le_of_lt hless)

end Draft

end Typestate
