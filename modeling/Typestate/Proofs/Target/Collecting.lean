import Typestate.Proofs.Code.Building

/-!
# What a finished description holds

The calls that describe a target come in any order. Finished, its members are those of the arguments
and then those of the fields that no argument stands for, each numbered by its place; the fields that
are left alone stand in the order of their calls, and of visibilities, constructors and settings the
last one counts. A field that an argument stands for is not looked at, wherever it is added.
-/

namespace Typestate

/-- The member that a description becomes at a place among the others. -/
structure MemberDraft.Becomes (draft : MemberDraft) (origin : Origin) (index : ℕ)
    (member : Member) : Prop where
  name : member.name = draft.name
  displayName : member.displayName = Typestate.displayName draft.name
  type : (Grammar.readType? draft.type).map Grammar.Node.render = some member.type.text
  mandatory : member.mandatory = draft.isRequired
  index : member.index = index
  default : member.default.ReadOf draft.fallback.text?
  origin : member.origin = origin

/-- A field that is left alone keeps its reference, and its default is read of the given one. -/
structure FixedDraft.Becomes (draft : FixedDraft) (field : FixedField) : Prop where
  reference : field.reference = draft.reference
  default : field.default.ReadOf draft.default

/-- The text of a type that is read is that of the type. -/
theorem TypeText.render_of_read {member text : String} {type : TypeText}
    (h : read member text = .ok type) :
    (Grammar.readType? text).map Grammar.Node.render = some type.text := by
  unfold read at h
  split at h
  · rename_i node hnode
    rw [← Except.ok.inj h, hnode, Option.map_some]
  · contradiction

/-- A member that is made of a description is what the description becomes. -/
theorem MemberDraft.becomes_of_make {draft : MemberDraft} {index : ℕ} {origin : Origin}
    {member : Member}
    (h : Member.make draft.name draft.type draft.fallback index origin = .ok member) :
    draft.Becomes origin index member := by
  obtain ⟨-, type, default, htype, hdefault, rfl⟩ := Member.make_eq_ok.mp h
  exact ⟨rfl, rfl, TypeText.render_of_read htype, rfl, rfl, DefaultText.readOf_of_resolve hdefault,
    rfl⟩

namespace Draft

variable {draft : Draft} {target : Target}

/-- Arguments and fields as members, each with where its value ends up, arguments first. -/
def described (arguments : List MemberDraft) (fields : List FieldDraft) :
    List (MemberDraft × Origin) :=
  arguments.map (fun argument => (argument, .argument)) ++
    fields.map fun field => (field.member, .field field.reference)

theorem becomes_of_fieldMember {field : FieldDraft} {index : ℕ} {member : Member}
    (h : fieldMember field index = .ok member) :
    field.member.Becomes (.field field.reference) index member := by
  obtain ⟨origin, horigin, hmake⟩ := bind_eq_ok.mp h
  have hbecomes := MemberDraft.becomes_of_make hmake
  rwa [← hbecomes.origin, (fieldMember_eq_ok h).2.2.2] at hbecomes

namespace Finished

variable {arguments fields : List Member}

/-- The members of a finished target are the described ones, each at its place. -/
theorem forall₂_members (h : draft.Finished target arguments fields) :
    List.Forall₂ (fun entry member => entry.1.1.Becomes entry.1.2 entry.2 member)
      (described draft.arguments draft.ownFields).zipIdx target.members.toList := by
  have harguments := (forall₂_of_number h.arguments_eq).imp fun entry member hmake =>
    MemberDraft.becomes_of_make hmake
  have hfields := (forall₂_of_number h.fields_eq).imp fun entry member hmake =>
    becomes_of_fieldMember hmake
  rw [h.toList_members, described, List.zipIdx_append, List.zipIdx_map, List.zipIdx_map,
    List.length_map, Nat.zero_add]
  exact List.rel_append (List.forall₂_map_left_iff.mpr harguments)
    (List.forall₂_map_left_iff.mpr hfields)

/-- The members of a finished target are those of the description, one after another. -/
theorem forall₂_memberDrafts (h : draft.Finished target arguments fields) :
    List.Forall₂ (fun described member => ∃ origin index, described.Becomes origin index member)
      draft.memberDrafts target.members.toList := by
  have hdrafts : draft.memberDrafts =
      (described draft.arguments draft.ownFields).zipIdx.map fun entry => entry.1.1 := by
    have hfirst := congrArg (List.map Prod.fst)
      (List.zipIdx_map_fst 0 (described draft.arguments draft.ownFields))
    rw [List.map_map] at hfirst
    refine Eq.trans ?_ hfirst.symm
    rw [described, memberDrafts, List.map_append, List.map_map, List.map_map]
    exact congrArg (· ++ _) (List.map_id _).symm
  rw [hdrafts, List.forall₂_map_left_iff]
  exact h.forall₂_members.imp fun entry member hbecomes => ⟨_, _, hbecomes⟩

/-- The fixed fields of a finished target are the described ones, in the same order. -/
theorem forall₂_fixed (h : draft.Finished target arguments fields) :
    List.Forall₂ FixedDraft.Becomes draft.fixed target.fixed := by
  refine (forall₂_of_mapM_eq_ok h.fixed_eq).imp fun described field hfield => ?_
  obtain ⟨-, ⟨hnone, rfl⟩ | ⟨text, default, hsome, hread, rfl⟩⟩ := fixedField_eq_ok hfield
  · exact ⟨rfl, hnone ▸ rfl⟩
  · exact ⟨rfl, hsome ▸ DefaultText.readOf_of_read hread⟩

/-- A constructor is called if one is designated, and otherwise fields are named. -/
theorem construction_eq (h : draft.Finished target arguments fields) :
    target.construction = (draft.constructor.map Construction.function).getD .literal := by
  cases hpath : draft.constructor with
  | some path => exact construction_of_constructor h.construction hpath
  | none => exact (construction_of_no_constructor h.construction hpath).2

end Finished

/-- The visibility and the settings of a finished target are the described ones. -/
theorem header_of_finish (h : draft.finish = .ok target) :
    target.visibility = draft.visibility ∧ target.settings = draft.settings := by
  obtain ⟨construction, members, fixed, -, -, -, rfl⟩ := parts_of_finish h
  exact ⟨rfl, rfl⟩

/-- The fields that an argument stands for may as well not be described. -/
theorem finish_withOwnFields (draft : Draft) :
    { draft with fields := draft.ownFields }.finish = draft.finish := by
  have hown : { draft with fields := draft.ownFields }.ownFields = draft.ownFields := by
    change draft.ownFields.filter (fun field => !draft.isShadowed field) = draft.ownFields
    rw [ownFields, List.filter_filter]
    simp
  have hmembers : { draft with fields := draft.ownFields }.members = draft.members := by
    unfold members
    rw [hown]
  unfold finish
  rw [hmembers]
  rfl

/-! ### Calls -/

namespace Call

/-- The visibility, if the call says one. -/
def visibility? : Call → Option String
  | withVisibility text => some text
  | _ => none

/-- The settings, if the call says them. -/
def settings? : Call → Option Settings
  | withSettings settings => some settings
  | _ => none

/-- The visibility that is said last; without any there is none. -/
def visibility (calls : List Call) : String := (calls.filterMap visibility?).getLast?.getD ""

/-- The settings that are said last; without any they are the usual ones. -/
def settings (calls : List Call) : Settings := (calls.filterMap settings?).getLast?.getD {}

/-- The call adds a field of the name of an argument. -/
def isShadowed (arguments : List MemberDraft) : Call → Bool
  | addField field => arguments.any fun argument => argument.name == field.member.name
  | _ => false

/-- The calls without those that add a field of the name of an argument. -/
def withoutShadowed (calls : List Call) : List Call :=
  calls.filter fun call => !call.isShadowed (arguments calls)

/-- What calls say beside fields is said without the fields that arguments stand for, too. -/
theorem filterMap_withoutShadowed {A : Type} {part? : Call → Option A}
    (hfield : ∀ field, part? (addField field) = none) (calls : List Call) :
    (withoutShadowed calls).filterMap part? = calls.filterMap part? := by
  rw [withoutShadowed, List.filterMap_filter]
  refine List.filterMap_congr fun call _ => ?_
  cases call with
  | addField field => simp [hfield]
  | _ => simp [isShadowed]

/-- The fields that are left are those that no argument stands for. -/
theorem fields_withoutShadowed (calls : List Call) :
    fields (withoutShadowed calls) = ownFields calls := by
  rw [fields, withoutShadowed, List.filterMap_filter, ownFields, fields, List.filter_filterMap]
  refine List.filterMap_congr fun call _ => ?_
  cases call with
  | addField field => simp [isShadowed, field?, Option.filter_some]
  | _ => simp [isShadowed, field?]

end Call

section Calls

variable {name : String} {calls : List Call}

/-- A part that some calls replace is what the last of them says. -/
theorem foldl_apply_eq_last {A : Type} (part : Draft → A) {said? : Call → Option A}
    (hstep : ∀ draft call, part (Call.apply draft call) = (said? call).getD (part draft))
    (draft : Draft) :
    part (calls.foldl Call.apply draft) = (calls.filterMap said?).getLast?.getD (part draft) := by
  induction calls using List.reverseRecOn with
  | nil => rfl
  | append_singleton calls call ih =>
    rw [List.foldl_append, List.foldl_cons, List.foldl_nil, hstep, ih, List.filterMap_append]
    cases hsaid : said? call with
    | none => simp [hsaid]
    | some a => simp [hsaid]

/-- Of several visibilities the last one counts. -/
theorem visibility_ofCalls : (ofCalls name calls).visibility = Call.visibility calls :=
  foldl_apply_eq_last Draft.visibility (fun draft call => by cases call <;> rfl) _

/-- Of several settings the last ones count. -/
theorem settings_ofCalls : (ofCalls name calls).settings = Call.settings calls :=
  foldl_apply_eq_last Draft.settings (fun draft call => by cases call <;> rfl) _

/-- What the calls describe, part by part. -/
theorem ofCalls_eq :
    ofCalls name calls =
      { target := name
        visibility := Call.visibility calls
        constructor := Call.constructor calls
        arguments := Call.arguments calls
        fields := Call.fields calls
        fixed := Call.fixed calls
        settings := Call.settings calls } := by
  have hparts : ofCalls name calls =
      ⟨(ofCalls name calls).target, (ofCalls name calls).visibility,
        (ofCalls name calls).constructor, (ofCalls name calls).arguments,
        (ofCalls name calls).fields, (ofCalls name calls).fixed, (ofCalls name calls).settings⟩ :=
    rfl
  rw [hparts, target_ofCalls, visibility_ofCalls, constructor_ofCalls, arguments_ofCalls,
    fields_ofCalls, fixed_ofCalls, settings_ofCalls]

/-- The fields that arguments stand for may as well not be added. -/
theorem finish_withoutShadowed :
    (ofCalls name (Call.withoutShadowed calls)).finish = (ofCalls name calls).finish := by
  have hvisibility : Call.visibility (Call.withoutShadowed calls) = Call.visibility calls := by
    rw [Call.visibility, Call.filterMap_withoutShadowed fun _ => rfl, Call.visibility]
  have hsettings : Call.settings (Call.withoutShadowed calls) = Call.settings calls := by
    rw [Call.settings, Call.filterMap_withoutShadowed fun _ => rfl, Call.settings]
  have hconstructor : Call.constructor (Call.withoutShadowed calls) = Call.constructor calls := by
    rw [Call.constructor, Call.filterMap_withoutShadowed fun _ => rfl, Call.constructor]
  have harguments : Call.arguments (Call.withoutShadowed calls) = Call.arguments calls :=
    Call.filterMap_withoutShadowed (fun _ => rfl) calls
  have hfixed : Call.fixed (Call.withoutShadowed calls) = Call.fixed calls :=
    Call.filterMap_withoutShadowed (fun _ => rfl) calls
  have hown : ofCalls name (Call.withoutShadowed calls) =
      { ofCalls name calls with fields := (ofCalls name calls).ownFields } := by
    rw [ownFields_ofCalls, ofCalls_eq, ofCalls_eq, hvisibility, hsettings, hconstructor, harguments,
      hfixed, Call.fields_withoutShadowed]
  rw [hown, finish_withOwnFields]

/-- Calls that differ only in fields that arguments stand for describe the same. -/
theorem finish_congr_shadowed {others : List Call}
    (h : Call.withoutShadowed others = Call.withoutShadowed calls) :
    (ofCalls name others).finish = (ofCalls name calls).finish := by
  rw [← finish_withoutShadowed, h, finish_withoutShadowed]

end Calls

namespace Call

/-- The target is made up of what the calls say: arguments in the order of their calls and then the
fields that no argument stands for in the order of theirs, each indexed by its place. -/
structure Collected (name : String) (calls : List Call) (target : Target) : Prop where
  name : target.name = name
  visibility : target.visibility = visibility calls
  construction : target.construction =
    ((constructor calls).map Construction.function).getD .literal
  settings : target.settings = settings calls
  members : List.Forall₂ (fun entry member => entry.1.1.Becomes entry.1.2 entry.2 member)
    (described (arguments calls) (ownFields calls)).zipIdx target.members.toList
  fixed : List.Forall₂ FixedDraft.Becomes (fixed calls) target.fixed

end Call

/-- **Collecting.** A description that is finished holds what its calls say: the arguments in the
order of their calls, then the fields that no argument stands for in the order of theirs, the place
of each being its index; the fields that are left alone in the order of their calls; and of
visibilities, constructors and settings the last one. Whether it is finished, and as what, does not
change with any fields that are added or left out by the name of an argument. -/
theorem finish_collects (name : String) (calls : List Call) :
    (∀ target, (ofCalls name calls).finish = .ok target → Call.Collected name calls target) ∧
      ∀ others, Call.withoutShadowed others = Call.withoutShadowed calls →
        (ofCalls name others).finish = (ofCalls name calls).finish := by
  refine ⟨fun target hfinish => ?_, fun others => finish_congr_shadowed⟩
  obtain ⟨arguments, fields, hfinished⟩ := finished_of_finish hfinish
  obtain ⟨hvisibility, hsettings⟩ := header_of_finish hfinish
  have hmembers := hfinished.forall₂_members
  have hfixed := hfinished.forall₂_fixed
  have hconstruction := hfinished.construction_eq
  have hname := hfinished.name
  rw [ownFields_ofCalls] at hmembers
  rw [ofCalls_eq] at hvisibility hsettings hmembers hfixed hconstruction hname
  exact ⟨hname, hvisibility, hconstruction, hsettings, hmembers, hfixed⟩

/-- Calls for a ticket in which other fields have the names of arguments, one before and one after
them, with nothing in them that could be read. -/
def garbledTicketCalls : List Call :=
  [.addField ⟨⟨"code", "<", .expression ""⟩, "!"⟩, .withVisibility "", .withConstructor "open",
    .addField ⟨⟨"note", "String", .provided⟩, "note"⟩,
    .addArgument ⟨"id", "u64", .required⟩,
    .addFixed ⟨"stamp", none⟩,
    .addArgument ⟨"code", "u32", .provided⟩,
    .addField ⟨⟨"id", "", .required⟩, "0u8"⟩]

theorem finish_collects_ticketCalls :
    (ofCalls "Ticket" ticketCalls).finish = .ok ticketTarget ∧
      Call.Collected "Ticket" ticketCalls ticketTarget ∧
      Call.withoutShadowed garbledTicketCalls = Call.withoutShadowed ticketCalls ∧
      (ofCalls "Ticket" garbledTicketCalls).finish = .ok ticketTarget := by
  obtain ⟨hcollected, hothers⟩ := finish_collects "Ticket" ticketCalls
  have hsame : Call.withoutShadowed garbledTicketCalls = Call.withoutShadowed ticketCalls := rfl
  exact ⟨finish_ticketCalls, hcollected ticketTarget finish_ticketCalls, hsame,
    (hothers garbledTicketCalls hsame).trans finish_ticketCalls⟩

end Draft

end Typestate
