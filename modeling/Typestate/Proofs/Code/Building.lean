import Typestate.Proofs.Code.Slots
import Typestate.Proofs.Member.Default

/-!
# Building what is described

A target is described by calls in any order: what is its constructor, what are the arguments of the
constructor, which members end up in fields, which fields are left alone. The method that builds the
value reads the slots of the arguments in the order of their calls, sets the other fields in the
order of theirs, and does not lose one on the way through the numbers and the sorted list of
members.
-/

namespace Typestate

open Token

/-- What is read of the slot of a member when the value is built. -/
def MemberDraft.read (draft : MemberDraft) : SlotExpression :=
  if draft.isRequired then .taken draft.name else .copy draft.name

/-- The field that a member ends up in gets what is read of the slot of the member. -/
def FieldDraft.setting (draft : FieldDraft) : FieldSetting :=
  ⟨fieldTokens draft.reference, draft.member.read⟩

/-- The default of a field that the builder leaves alone, as tokens: what is given for it, or the
default that its type provides. -/
def FixedDraft.defaultTokens (draft : FixedDraft) : List Token :=
  match draft.default with
  | none => DefaultText.provided.tokens
  | some text =>
    match DefaultText.read draft.reference text with
    | .ok default => default.tokens
    | .error _ => Token.diagnostic refusal

/-- A field that the builder leaves alone gets its default. -/
def FixedDraft.setting (draft : FixedDraft) : FieldSetting :=
  ⟨fieldTokens draft.reference, .expression draft.defaultTokens⟩

/-- The fields that are set, in the order in which they are. -/
def BuildCode.settings : BuildCode → List FieldSetting
  | .literal _ fields => fields
  | .call _ _ assigned => assigned

/-- The code sets the field, whichever way its name is written. -/
def BuildCode.Sets (build : BuildCode) (field : FieldName) : Prop :=
  ∃ setting ∈ build.settings, ∃ written : FieldName,
    setting.field = written.tokens ∧ written.plain = field.plain

namespace Draft

/-- The members of a description, arguments first. -/
def memberDrafts (draft : Draft) : List MemberDraft :=
  draft.arguments ++ draft.ownFields.map FieldDraft.member

/-- How a value of the described target is made. -/
def buildCode (draft : Draft) : BuildCode :=
  match draft.constructor with
  | some path =>
    .call (constructorTokens draft.target path) (draft.arguments.map MemberDraft.read)
      (draft.ownFields.map FieldDraft.setting)
  | none =>
    .literal draft.target
      (draft.ownFields.map FieldDraft.setting ++ draft.fixed.map FixedDraft.setting)

variable {draft : Draft} {target : Target}

/-- What is read of a member depends on its name and on whether it has to be supplied. -/
theorem read_slotCode {member : Member} {described : MemberDraft}
    (hname : member.name = described.name) (hmandatory : member.mandatory = described.isRequired) :
    member.slotCode.read = described.read := by
  rw [Member.slotCode, MemberDraft.read, hmandatory, ← hname, apply_ite SlotCode.read]
  rfl

/-- The fields that are left alone get their described defaults. -/
theorem fixedSettings_eq (hfixed : draft.fixed.mapM fixedField = .ok target.fixed) :
    target.fixedSettings = draft.fixed.map FixedDraft.setting := by
  refine map_of_mapM_eq_ok (fun described field hfield => ?_) hfixed
  rw [FixedDraft.setting, FixedDraft.defaultTokens]
  obtain ⟨-, ⟨hnone, rfl⟩ | ⟨text, default, hsome, hread, rfl⟩⟩ := fixedField_eq_ok hfield
  · simp only [hnone]
  · simp only [hsome, hread]

namespace Finished

variable {arguments fields : List Member}

/-- The slots of a finished description are those of its members, arguments first. -/
theorem map_name_members (h : draft.Finished target arguments fields) :
    target.members.toList.map Member.name = draft.memberDrafts.map MemberDraft.name := by
  have harguments : arguments.map Member.name = draft.arguments.map MemberDraft.name :=
    h.map_arguments fun _ _ _ hmake => (argumentMember_eq_ok hmake).1
  have hfields : fields.map Member.name = draft.ownFields.map fun field => field.member.name :=
    h.map_fields fun _ _ _ hmake => (fieldMember_eq_ok hmake).1
  rw [h.toList_members, List.map_append, harguments, hfields, memberDrafts, List.map_append,
    List.map_map]
  rfl

/-- The default of a field that is left alone is the one that is given for it. -/
theorem isDefault_fixed (h : draft.Finished target arguments fields) :
    ∀ fixed ∈ draft.fixed, IsDefault fixed.defaultTokens fixed.default := by
  have hall := forall₂_of_mapM_eq_ok h.fixed_eq
  refine ((List.forall₂_and_left _ _).mp (hall.imp fun fixed field hfield => ⟨?_, hfield⟩)).1
  rw [FixedDraft.defaultTokens]
  obtain ⟨-, ⟨hnone, -⟩ | ⟨text, default, hsome, hread, -⟩⟩ := fixedField_eq_ok hfield
  · rw [hnone]
    exact DefaultText.tokens_provided
  · rw [hsome]
    simp only [hread]
    exact (DefaultText.readOf_of_read hread).isDefault

/-- A value of a finished description is made as described. -/
theorem buildCode_eq (h : draft.Finished target arguments fields) :
    target.buildCode = draft.buildCode := by
  have harguments : target.members.arguments.map (fun member => member.slotCode.read) =
      draft.arguments.map MemberDraft.read := by
    rw [h.arguments_members]
    refine h.map_arguments fun argument index member hmake => ?_
    obtain ⟨hname, hmandatory, -⟩ := argumentMember_eq_ok hmake
    exact read_slotCode hname hmandatory
  have hsettings : target.members.settings = draft.ownFields.map FieldDraft.setting := by
    refine h.map_fields_members fun field index member hmake => ?_
    obtain ⟨hname, hmandatory, -⟩ := fieldMember_eq_ok hmake
    rw [FieldDraft.setting, read_slotCode hname hmandatory]
  have hfixed := fixedSettings_eq h.fixed_eq
  rw [Target.buildCode, buildCode, h.name]
  cases hpath : draft.constructor with
  | some path =>
    rw [construction_of_constructor h.construction hpath]
    simp only [harguments, hsettings]
  | none =>
    rw [(construction_of_no_constructor h.construction hpath).2]
    simp only [hsettings, hfixed]

end Finished

end Draft

/-- The code has a slot for each described member, which the method of the member sets, and makes
the value as described. -/
structure BuilderCode.Realizes (code : BuilderCode) (draft : Draft) : Prop where
  declared : code.declared.map Prod.fst = draft.memberDrafts.map MemberDraft.name
  supplied : code.supplies.map (fun method => (method.name, method.slot)) =
    draft.memberDrafts.map fun member => ("add_" ++ member.name, member.name)
  nodup : (draft.memberDrafts.map MemberDraft.name).Nodup
  build : code.build = draft.buildCode

/-- What is generated for a finished description is the described code. -/
theorem Generated.code_realizes {draft : Draft} {target : Target} {cancelled : Bool}
    {generated : Generated} (hfinish : draft.finish = .ok target)
    (hgenerate : generate target cancelled = .ok generated) : generated.code.Realizes draft := by
  obtain ⟨arguments, fields, hfinished⟩ := Draft.finished_of_finish hfinish
  have hnames := hfinished.map_name_members
  have hagrees := Generated.code_agrees hfinish hgenerate
  refine ⟨?_, ?_, ?_, ?_⟩
  · rw [hagrees.declared, List.map_map, ← hnames]
    rfl
  · have hmethods := congrArg (List.map fun method : String × String × SlotExpression =>
      (method.1, method.2.1)) hagrees.supplied
    rw [List.map_map, List.map_map] at hmethods
    have hpairs := congrArg (List.map fun name => ("add_" ++ name, name)) hnames
    rw [List.map_map, List.map_map] at hpairs
    exact hmethods.trans hpairs
  · rw [← hnames]
    exact hagrees.nodup_names
  · rw [buildCode_of_generate hgenerate, hfinished.buildCode_eq]

/-! ### Calls -/

namespace Draft

/-- One thing that is said about a target. -/
inductive Call where
  | withVisibility (text : String)
  | withConstructor (path : String)
  | withSettings (settings : Settings)
  | addArgument (argument : MemberDraft)
  | addField (field : FieldDraft)
  | addFixed (field : FixedDraft)

namespace Call

/-- The description after the call. -/
def apply (draft : Draft) : Call → Draft
  | withVisibility text => draft.withVisibility text
  | withConstructor path => draft.withConstructor path
  | withSettings settings => draft.withSettings settings
  | addArgument argument => draft.addArgument argument
  | addField field => draft.addField field
  | addFixed field => draft.addFixed field

/-- The path of the constructor, if the call designates one. -/
def path? : Call → Option String
  | withConstructor path => some path
  | _ => none

/-- The argument, if the call adds one. -/
def argument? : Call → Option MemberDraft
  | addArgument argument => some argument
  | _ => none

/-- The member that ends up in a field, if the call adds one. -/
def field? : Call → Option FieldDraft
  | addField field => some field
  | _ => none

/-- The field that is left alone, if the call adds one. -/
def fixed? : Call → Option FixedDraft
  | addFixed field => some field
  | _ => none

/-- The constructor that is designated last, if one is. -/
def constructor (calls : List Call) : Option String := (calls.filterMap path?).getLast?

/-- The added arguments, in the order of the calls. -/
def arguments (calls : List Call) : List MemberDraft := calls.filterMap argument?

/-- The added members that end up in fields, in the order of the calls. -/
def fields (calls : List Call) : List FieldDraft := calls.filterMap field?

/-- The added members that end up in fields and have the name of no added argument. -/
def ownFields (calls : List Call) : List FieldDraft :=
  (fields calls).filter fun field =>
    ∀ argument ∈ arguments calls, argument.name ≠ field.member.name

/-- The added fields that are left alone, in the order of the calls. -/
def fixed (calls : List Call) : List FixedDraft := calls.filterMap fixed?

end Call

/-- The description that consists of the calls for a target of the given name. -/
def ofCalls (name : String) (calls : List Call) : Draft :=
  calls.foldl Call.apply { target := name }

section Calls

variable {name : String} {calls : List Call}

/-- A part to which some calls add at the end consists of what they add. -/
theorem foldl_apply_eq_append {A : Type} (part : Draft → List A) {added? : Call → Option A}
    (hstep : ∀ draft call, part (Call.apply draft call) = part draft ++ (added? call).toList)
    (draft : Draft) :
    part (calls.foldl Call.apply draft) = part draft ++ calls.filterMap added? := by
  induction calls generalizing draft with
  | nil => exact (List.append_nil _).symm
  | cons call rest ih =>
    rw [List.foldl_cons, ih, hstep, List.append_assoc, List.filterMap_cons]
    cases added? call with
    | none => rfl
    | some a => rfl

theorem arguments_ofCalls : (ofCalls name calls).arguments = Call.arguments calls := by
  refine foldl_apply_eq_append Draft.arguments (fun draft call => ?_) _
  cases call with
  | addArgument argument => rfl
  | _ => exact (List.append_nil _).symm

theorem fields_ofCalls : (ofCalls name calls).fields = Call.fields calls := by
  refine foldl_apply_eq_append Draft.fields (fun draft call => ?_) _
  cases call with
  | addField field => rfl
  | _ => exact (List.append_nil _).symm

theorem fixed_ofCalls : (ofCalls name calls).fixed = Call.fixed calls := by
  refine foldl_apply_eq_append Draft.fixed (fun draft call => ?_) _
  cases call with
  | addFixed field => rfl
  | _ => exact (List.append_nil _).symm

theorem target_ofCalls : (ofCalls name calls).target = name := by
  induction calls using List.reverseRecOn with
  | nil => rfl
  | append_singleton calls call ih =>
    rw [ofCalls, List.foldl_append, List.foldl_cons, List.foldl_nil]
    cases call <;> exact ih

/-- Of several constructors the last one counts. -/
theorem constructor_ofCalls : (ofCalls name calls).constructor = Call.constructor calls := by
  induction calls using List.reverseRecOn with
  | nil => rfl
  | append_singleton calls call ih =>
    rw [ofCalls, List.foldl_append, List.foldl_cons, List.foldl_nil, Call.constructor,
      List.filterMap_append]
    cases call with
    | withConstructor path => exact List.getLast?_concat.symm
    | _ => exact ih.trans (congrArg List.getLast? (List.append_nil _).symm)

theorem ownFields_ofCalls : (ofCalls name calls).ownFields = Call.ownFields calls := by
  rw [Draft.ownFields, fields_ofCalls, Call.ownFields]
  refine List.filter_congr fun field _ => ?_
  rw [isShadowed, arguments_ofCalls, Bool.eq_iff_iff]
  simp

/-- How a value is made, by what is said in the calls. -/
theorem buildCode_ofCalls :
    (ofCalls name calls).buildCode =
      match Call.constructor calls with
      | some path =>
        .call (constructorTokens name path) ((Call.arguments calls).map MemberDraft.read)
          ((Call.ownFields calls).map FieldDraft.setting)
      | none =>
        .literal name ((Call.ownFields calls).map FieldDraft.setting ++
          (Call.fixed calls).map FixedDraft.setting) := by
  rw [buildCode, target_ofCalls, constructor_ofCalls, arguments_ofCalls, ownFields_ofCalls,
    fixed_ofCalls]

end Calls

end Draft

/-- A field is set that the references name, and no other one. -/
theorem BuildCode.sets_iff {build : BuildCode} {fields : List FieldDraft}
    (hread : ∀ field ∈ fields, (Grammar.readFieldReference? field.reference).isSome = true)
    (hsettings : build.settings = fields.map FieldDraft.setting) {name : FieldName} :
    build.Sets name ↔ ∃ field ∈ fields,
      (FieldName.read? field.reference).map FieldName.plain = some name.plain := by
  rw [Sets, hsettings]
  constructor
  · rintro ⟨setting, hsetting, written, htokens, hplain⟩
    obtain ⟨field, hfield, rfl⟩ := List.mem_map.mp hsetting
    obtain ⟨found, hfound, hfoundTokens⟩ := FieldName.exists_read?_eq_some (hread field hfield)
    obtain rfl : found = written :=
      FieldName.tokens_injective (hfoundTokens.symm.trans htokens)
    exact ⟨field, hfield, by rw [hfound, Option.map_some, hplain]⟩
  · rintro ⟨field, hfield, hplain⟩
    obtain ⟨found, hfound, htokens⟩ := FieldName.exists_read?_eq_some (hread field hfield)
    rw [hfound, Option.map_some] at hplain
    exact ⟨field.setting, List.mem_map_of_mem hfield, found, htokens, Option.some.inj hplain⟩

/-- **Building.** Nothing is lost, doubled or exchanged between the calls that describe a target and
the code that builds its value. There is one slot for each argument and for each member that ends up
in a field and has the name of no argument, set by the method of its name. A designated constructor
is called with the slots of the arguments in the order of their calls, after which the fields are
set in the order of theirs, if there are any; a field that is left alone is set then only if a member
ends up in it besides. Without a constructor the value lists the fields in the order of their calls,
and then those that are left alone, each with the default that is given for it or with that of its
type. -/
theorem generate_build {name : String} {calls : List Draft.Call} {target : Target}
    {cancelled : Bool} {generated : Generated}
    (hfinish : (Draft.ofCalls name calls).finish = .ok target)
    (hgenerate : generate target cancelled = .ok generated) :
    ∃ code : BuilderCode,
      code.WrittenIn generated.builderType.tokens generated.factory.tokens ∧
      code.Realizes (Draft.ofCalls name calls) ∧
      (∀ path, Draft.Call.constructor calls = some path →
        code.build = .call (constructorTokens name path)
          ((Draft.Call.arguments calls).map MemberDraft.read)
          ((Draft.Call.ownFields calls).map FieldDraft.setting) ∧
        (Draft.Call.ownFields calls = [] → code.build.tokens =
          constructorTokens name path ++ [parens <| List.intercalate (phrase ",") <|
            (Draft.Call.arguments calls).map fun argument => argument.read.tokens]) ∧
        ((∀ fixed ∈ Draft.Call.fixed calls, ∀ field, FieldName.read? fixed.reference = some field →
            ¬ code.build.Sets field) ↔
          ∀ fixed ∈ Draft.Call.fixed calls, ∀ own ∈ Draft.Call.ownFields calls,
            (FieldName.read? fixed.reference).map FieldName.plain ≠
              (FieldName.read? own.reference).map FieldName.plain)) ∧
      (Draft.Call.constructor calls = none →
        Draft.Call.arguments calls = [] ∧
        code.build = .literal name ((Draft.Call.fields calls).map FieldDraft.setting ++
          (Draft.Call.fixed calls).map FixedDraft.setting) ∧
        ∀ fixed ∈ Draft.Call.fixed calls, IsDefault fixed.defaultTokens fixed.default) := by
  have hrealizes := Generated.code_realizes hfinish hgenerate
  obtain ⟨arguments, fields, hfinished⟩ := Draft.finished_of_finish hfinish
  refine ⟨generated.code, Generated.code_writtenIn_of_generate hgenerate, hrealizes,
    fun path hpath => ?_, fun hnone => ?_⟩
  · have hbuild : generated.code.build = .call (constructorTokens name path)
        ((Draft.Call.arguments calls).map MemberDraft.read)
        ((Draft.Call.ownFields calls).map FieldDraft.setting) := by
      rw [hrealizes.build, Draft.buildCode_ofCalls, hpath]
    refine ⟨hbuild, fun hempty => ?_, ?_⟩
    · rw [hbuild, hempty, BuildCode.tokens, List.map_map]
      rfl
    · obtain ⟨hown, hfixed⟩ := hfinished.isSome_reference
      rw [Draft.ownFields_ofCalls] at hown
      rw [Draft.fixed_ofCalls] at hfixed
      refine forall₂_congr fun fixed hmem => ?_
      obtain ⟨field, hfield, -⟩ := FieldName.exists_read?_eq_some (hfixed fixed hmem)
      have hsets : generated.code.build.Sets field ↔ _ :=
        BuildCode.sets_iff hown (by rw [hbuild, BuildCode.settings])
      rw [hfield]
      constructor
      · intro hnone own hmem hsame
        exact hnone field rfl (hsets.mpr ⟨own, hmem, hsame.symm⟩)
      · intro hnone found hfound hset
        obtain rfl := Option.some.inj hfound
        obtain ⟨own, hmem, hsame⟩ := hsets.mp hset
        exact hnone own hmem hsame.symm
  · have hconstructor : (Draft.ofCalls name calls).constructor = none :=
      Draft.constructor_ofCalls.trans hnone
    obtain ⟨hempty, -⟩ := Draft.construction_of_no_constructor hfinished.construction hconstructor
    refine ⟨Draft.arguments_ofCalls.symm.trans hempty, ?_, fun fixed hmem => ?_⟩
    · rw [hrealizes.build, Draft.buildCode_ofCalls, hnone, ← Draft.ownFields_ofCalls,
        Draft.ownFields_of_no_arguments hempty, Draft.fields_ofCalls]
    · exact hfinished.isDefault_fixed fixed (Draft.fixed_ofCalls ▸ hmem)

/-- Calls for a target with a constructor: an argument that has to be supplied and one that has not,
a field of its own, a field that an argument stands for, and a field that is left alone. -/
def ticketCalls : List Draft.Call :=
  [.withVisibility "", .withConstructor "open",
    .addField ⟨⟨"note", "String", .provided⟩, "note"⟩,
    .addArgument ⟨"id", "u64", .required⟩,
    .addField ⟨⟨"id", "u64", .required⟩, "shown"⟩,
    .addFixed ⟨"stamp", none⟩,
    .addArgument ⟨"code", "u32", .provided⟩]

/-- The members that the calls describe. -/
def ticketMembers : MemberList where
  toList :=
    [⟨"id", "Id", ⟨"u64"⟩, true, 0, .provided, .argument⟩,
      ⟨"code", "Code", ⟨"u32"⟩, false, 1, .provided, .argument⟩,
      ⟨"note", "Note", ⟨"String"⟩, false, 2, .provided, .field "note"⟩]
  sorted := by simp

/-- The target that the calls describe. -/
def ticketTarget : Target where
  name := "Ticket"
  visibility := ""
  construction := .function "open"
  members := ticketMembers
  fixed := [⟨"stamp", .provided⟩]
  settings := {}

theorem finish_ticketCalls : (Draft.ofCalls "Ticket" ticketCalls).finish = .ok ticketTarget :=
  Draft.finish_of_parts ticketMembers (by decide +kernel) (by decide +kernel)
    (by decide +kernel)

theorem exists_generate_ticketTarget : ∃ generated, generate ticketTarget = .ok generated :=
  exists_generate_eq_ok.mpr (by decide +kernel)

/-- Calls for a target that is a literal: a field between two that are left alone, one of which has a
default of its own. -/
def labelCalls : List Draft.Call :=
  [.addFixed ⟨"stamp", some "7"⟩, .addField ⟨⟨"text", "String", .required⟩, "text"⟩,
    .addFixed ⟨"seal", none⟩]

/-- The member that the calls describe. -/
def labelMembers : MemberList where
  toList := [⟨"text", "Text", ⟨"String"⟩, true, 0, .provided, .field "text"⟩]
  sorted := by simp

/-- The target that the calls describe. -/
def labelTarget : Target where
  name := "Label"
  visibility := ""
  construction := .literal
  members := labelMembers
  fixed := [⟨"stamp", ⟨"7", false⟩⟩, ⟨"seal", .provided⟩]
  settings := {}

theorem finish_labelCalls : (Draft.ofCalls "Label" labelCalls).finish = .ok labelTarget :=
  Draft.finish_of_parts labelMembers (by decide +kernel) (by decide +kernel)
    (by decide +kernel)

/-- The constructor gets both arguments in the order of their calls, and the one field that is not
an argument is set, but not the one that is left alone. The literal holds the field first, then the
given default and last the default of a type. -/
theorem generate_build_ticketCalls :
    (∃ (generated : Generated) (code : BuilderCode),
      (Draft.ofCalls "Ticket" ticketCalls).finish = .ok ticketTarget ∧
      generate ticketTarget = .ok generated ∧
      code.WrittenIn generated.builderType.tokens generated.factory.tokens ∧
      code.build = .call (constructorTokens "Ticket" "open") [.taken "id", .copy "code"]
        [⟨[.word "note"], .copy "note"⟩] ∧
      ¬ code.build.Sets (.named "stamp")) ∧
    ∃ (generated : Generated) (code : BuilderCode),
      (Draft.ofCalls "Label" labelCalls).finish = .ok labelTarget ∧
      generate labelTarget = .ok generated ∧
      code.WrittenIn generated.builderType.tokens generated.factory.tokens ∧
      code.build = .literal "Label" [⟨[.word "text"], .taken "text"⟩,
        ⟨[.word "stamp"], .expression [.literal "7"]⟩,
        ⟨[.word "seal"], .expression providedTokens⟩] := by
  have hfield : ∀ name ∈ ["note", "text", "stamp", "seal"], fieldTokens name = [.word name] := by
    have hnames : ∀ name ∈ ["note", "text", "stamp", "seal"], isIdentifierText name = true := by
      decide +kernel
    exact fun name hname => fieldTokens_of_isIdentifierText (hnames name hname)
  constructor
  · obtain ⟨generated, hgenerate⟩ := exists_generate_ticketTarget
    obtain ⟨code, hwritten, -, hcall, -⟩ := generate_build finish_ticketCalls hgenerate
    obtain ⟨hbuild, -, hsets⟩ := hcall "open" rfl
    refine ⟨generated, code, finish_ticketCalls, hgenerate, hwritten, hbuild.trans ?_, ?_⟩
    · rw [← hfield "note" (by simp)]
      rfl
    · exact hsets.mpr (by decide +kernel) ⟨"stamp", none⟩ (by decide) _ (by decide +kernel)
  · obtain ⟨generated, hgenerate⟩ : ∃ generated, generate labelTarget = .ok generated :=
      exists_generate_eq_ok.mpr (by decide +kernel)
    obtain ⟨code, hwritten, -, -, hliteral⟩ := generate_build finish_labelCalls hgenerate
    obtain ⟨-, hbuild, hdefaults⟩ := hliteral rfl
    refine ⟨generated, code, finish_labelCalls, hgenerate, hwritten, hbuild.trans ?_⟩
    have hstamp : (FixedDraft.mk "stamp" (some "7")).defaultTokens = [.literal "7"] := by
      obtain ⟨node, hnode, -, htokens⟩ := hdefaults ⟨"stamp", some "7"⟩ (by decide)
      have hagain : (Grammar.readExpression? "7").bind (fun node =>
          (Grammar.readExpression? node.render).map Grammar.Node.tokens) =
            some [.literal "7"] := by decide +kernel
      rw [hnode, Option.bind_some] at hagain
      obtain ⟨again, hread, hliteral⟩ := Option.map_eq_some_iff.mp hagain
      rw [htokens again hread, hliteral]
    have hseal : (FixedDraft.mk "seal" none).defaultTokens = providedTokens :=
      hdefaults ⟨"seal", none⟩ (by decide)
    rw [← hstamp, ← hseal, ← hfield "text" (by simp), ← hfield "stamp" (by simp),
      ← hfield "seal" (by simp)]
    rfl

/-- Calls for a target with a constructor: a member that ends up in a field, and the same field as
one that is left alone. -/
def sealCalls : List Draft.Call :=
  [.withConstructor "new", .addField ⟨⟨"mark", "u64", .required⟩, "seal"⟩, .addFixed ⟨"seal", none⟩]

/-- The member that the calls describe. -/
def sealMembers : MemberList where
  toList := [⟨"mark", "Mark", ⟨"u64"⟩, true, 0, .provided, .field "seal"⟩]
  sorted := by simp

/-- The target that the calls describe. -/
def sealTarget : Target where
  name := "Letter"
  visibility := ""
  construction := .function "new"
  members := sealMembers
  fixed := [⟨"seal", .provided⟩]
  settings := {}

/-- A field may be left alone and set: nothing is refused, and the method that builds the value sets
the field to the member that ends up in it. -/
theorem sets_sealCalls :
    ∃ generated : Generated,
      (Draft.ofCalls "Letter" sealCalls).finish = .ok sealTarget ∧
      generate sealTarget = .ok generated ∧
      generated.code.WrittenIn generated.builderType.tokens generated.factory.tokens ∧
      Draft.Call.fixed sealCalls = [⟨"seal", none⟩] ∧
      FieldName.read? "seal" = some (.named "seal") ∧
      generated.code.build.settings = [⟨(FieldName.named "seal").tokens, .taken "mark"⟩] ∧
      generated.code.build.Sets (.named "seal") := by
  have hfinish : (Draft.ofCalls "Letter" sealCalls).finish = .ok sealTarget :=
    Draft.finish_of_parts sealMembers (by decide +kernel) (by decide +kernel) (by decide +kernel)
  obtain ⟨generated, hgenerate⟩ : ∃ generated, generate sealTarget = .ok generated :=
    exists_generate_eq_ok.mpr (by decide +kernel)
  have hseal : fieldTokens "seal" = (FieldName.named "seal").tokens :=
    fieldTokens_of_isIdentifierText (by decide +kernel)
  have hsettings : generated.code.build.settings =
      [⟨(FieldName.named "seal").tokens, .taken "mark"⟩] := by
    rw [(Generated.code_realizes hfinish hgenerate).build, ← hseal]
    rfl
  refine ⟨generated, hfinish, hgenerate, Generated.code_writtenIn_of_generate hgenerate, rfl,
    by decide +kernel, hsettings, ?_⟩
  exact ⟨_, hsettings ▸ List.mem_singleton_self _, .named "seal", rfl, rfl⟩

end Typestate
