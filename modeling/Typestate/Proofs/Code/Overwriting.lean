import Typestate.Proofs.Code.Building

/-!
# Fields that are set

A reference to a field is a text of its own beside the name of the member, and only names are
compared when the lattice is built. What keeps a field from being set twice when the value is built
is therefore that the references differ as fields: two identifiers, or two numbers whatever their
base. Members that end up in fields of their own names cannot meet in one field.
-/

namespace Typestate

open Token

/-! ### Setting fields one after another -/

/-- A field and what it is set to. -/
abbrev FieldValue := FieldName × SlotExpression

/-- The setting as it is written. -/
def FieldValue.setting (entry : FieldValue) : FieldSetting := ⟨entry.1.tokens, entry.2⟩

/-- What the fields hold when they have been set one after another. -/
def held (entries : List FieldValue) : FieldName → Option SlotExpression :=
  entries.foldl (fun fields entry => Function.update fields entry.1 (some entry.2)) fun _ => none

/-- The field that is set last holds what it is set to; the others hold what they held. -/
theorem held_append_singleton (entries : List FieldValue) (entry : FieldValue) :
    held (entries ++ [entry]) = Function.update (held entries) entry.1 (some entry.2) := by
  rw [held, List.foldl_append]
  rfl

/-- If no field is set twice, each holds what it is set to. -/
theorem held_of_nodup {entries : List FieldValue} (h : (entries.map Prod.fst).Nodup) :
    ∀ entry ∈ entries, held entries entry.1 = some entry.2 := by
  induction entries using List.reverseRecOn with
  | nil => exact fun entry hentry => absurd hentry List.not_mem_nil
  | append_singleton entries last ih =>
    rw [List.map_append, List.map_singleton, List.nodup_append] at h
    obtain ⟨hentries, -, hdiffers⟩ := h
    intro entry hentry
    rw [held_append_singleton]
    rcases List.mem_append.mp hentry with hbefore | hlast
    · have hother : entry.1 ≠ last.1 :=
        hdiffers entry.1 (List.mem_map_of_mem hbefore) last.1 (List.mem_singleton_self _)
      rw [Function.update_of_ne hother]
      exact ih hentries entry hbefore
    · rw [List.mem_singleton.mp hlast, Function.update_self]

/-! ### The fields of a description -/

namespace Draft

/-- The references to the fields that are set: those of the own fields, and those of the fields that
are left alone if the value is a literal. -/
def Call.references (calls : List Call) : List String :=
  (ownFields calls).map FieldDraft.reference ++
    if (constructor calls).isSome then [] else (fixed calls).map FixedDraft.reference

variable {name : String} {calls : List Call} {target : Target}

/-- The fields that are set are written as they are referred to. -/
theorem map_field_settings :
    (ofCalls name calls).buildCode.settings.map FieldSetting.field =
      (Call.references calls).map fieldTokens := by
  rw [buildCode_ofCalls, Call.references]
  cases Call.constructor calls with
  | some path =>
    simp only [BuildCode.settings, List.map_map, Option.isSome_some, if_true, List.append_nil]
    rfl
  | none =>
    simp only [BuildCode.settings, List.map_append, List.map_map, Option.isSome_none,
      Bool.false_eq_true, if_false]
    rfl

/-- The references of a finished description can be read. -/
theorem isSome_of_mem_references (hfinish : (ofCalls name calls).finish = .ok target) :
    ∀ reference ∈ Call.references calls,
      (Grammar.readFieldReference? reference).isSome = true := by
  obtain ⟨arguments, fields, hfinished⟩ := finished_of_finish hfinish
  obtain ⟨hown, hfixed⟩ := hfinished.isSome_reference
  rw [ownFields_ofCalls] at hown
  rw [fixed_ofCalls] at hfixed
  intro reference hreference
  rcases List.mem_append.mp hreference with hset | hleft
  · obtain ⟨field, hfield, rfl⟩ := List.mem_map.mp hset
    exact hown field hfield
  · split at hleft
    · exact absurd hleft List.not_mem_nil
    · obtain ⟨field, hfield, rfl⟩ := List.mem_map.mp hleft
      exact hfixed field hfield

/-- The names of the own fields are identifiers. -/
theorem isIdentifierText_of_mem_ownFields (hfinish : (ofCalls name calls).finish = .ok target) :
    ∀ field ∈ Call.ownFields calls, isIdentifierText field.member.name = true := by
  obtain ⟨arguments, fields, hfinished⟩ := finished_of_finish hfinish
  intro field hfield
  have hname : field.member.name ∈ target.members.toList.map Member.name := by
    rw [hfinished.map_name_members, memberDrafts, ownFields_ofCalls]
    exact List.mem_map_of_mem (List.mem_append_right _ (List.mem_map_of_mem hfield))
  obtain ⟨member, hmember, hsame⟩ := List.mem_map.mp hname
  rw [← hsame]
  exact (finish_accepted hfinish member hmember).isIdentifierText_name

/-- The references name different fields if the own fields have the names of their members, and
those that are left alone in a literal have other names. -/
theorem nodup_references (hfinish : (ofCalls name calls).finish = .ok target)
    (hnames : ((ofCalls name calls).memberDrafts.map MemberDraft.name).Nodup)
    (hown : ∀ field ∈ Call.ownFields calls, field.reference = field.member.name)
    (hfixed : Call.constructor calls = none →
      ((Call.fixed calls).map fun field => FieldName.read? field.reference).Nodup ∧
      ∀ field ∈ Call.fixed calls, ∀ own ∈ Call.ownFields calls,
        FieldName.read? field.reference ≠ some (.named own.member.name)) :
    ((Call.references calls).map FieldName.read?).Nodup := by
  have hread : ((Call.ownFields calls).map FieldDraft.reference).map FieldName.read? =
      (Call.ownFields calls).map fun field => some (.named field.member.name) := by
    rw [List.map_map]
    refine List.map_congr_left fun field hfield => ?_
    rw [Function.comp_apply, hown field hfield]
    exact FieldName.read?_of_isIdentifierText
      (isIdentifierText_of_mem_ownFields hfinish field hfield)
  have hdistinct : ((Call.ownFields calls).map fun field =>
      some (FieldName.named field.member.name)).Nodup := by
    rw [memberDrafts, ownFields_ofCalls, List.map_append, List.map_map] at hnames
    have hinjective : Function.Injective fun name => some (FieldName.named name) :=
      fun _ _ hsame => FieldName.named.inj (Option.some.inj hsame)
    have hmapped := (List.nodup_append.mp hnames).2.1.map hinjective
    rwa [List.map_map] at hmapped
  rw [Call.references, List.map_append, hread]
  cases hconstructor : Call.constructor calls with
  | some path => simpa using hdistinct
  | none =>
    obtain ⟨hleft, hothers⟩ := hfixed hconstructor
    rw [Option.isSome_none, if_neg Bool.false_ne_true, List.map_map]
    refine List.nodup_append.mpr ⟨hdistinct, hleft, fun first hfirst second hsecond hsame => ?_⟩
    obtain ⟨own, hmem, rfl⟩ := List.mem_map.mp hfirst
    obtain ⟨field, hfield, rfl⟩ := List.mem_map.mp hsecond
    exact hothers field hfield own hmem hsame.symm

end Draft

/-- Settings whose references can be read are settings of fields. -/
theorem exists_entries {settings : List FieldSetting} {references : List String}
    (hwritten : settings.map FieldSetting.field = references.map fieldTokens)
    (hread : ∀ reference ∈ references, (Grammar.readFieldReference? reference).isSome = true) :
    ∃ entries : List FieldValue, settings = entries.map FieldValue.setting ∧
      references.map FieldName.read? = (entries.map Prod.fst).map some := by
  induction references generalizing settings with
  | nil =>
    obtain rfl := List.map_eq_nil_iff.mp hwritten
    exact ⟨[], rfl, rfl⟩
  | cons reference references ih =>
    obtain ⟨hhere, hothers⟩ := List.forall_mem_cons.mp hread
    obtain ⟨setting, rest, rfl, hfield, hrest⟩ := List.map_eq_cons_iff.mp hwritten
    obtain ⟨entries, rfl, hnames⟩ := ih hrest hothers
    obtain ⟨field, hname, htokens⟩ := FieldName.exists_read?_eq_some hhere
    refine ⟨(field, setting.value) :: entries, ?_, ?_⟩
    · rw [List.map_cons, FieldValue.setting, ← htokens, ← hfield]
    · rw [List.map_cons, hname, hnames]
      rfl

/-- Calls for a tuple of two numbers, with the reference that is given for the second. -/
def spanCalls (second : String) : List Draft.Call :=
  [.withConstructor "new", .addField ⟨⟨"first", "u64", .required⟩, "0"⟩,
    .addField ⟨⟨"last", "u64", .required⟩, second⟩]

/-- The members that the calls describe. -/
def spanMembers (second : String) : MemberList where
  toList :=
    [⟨"first", "First", ⟨"u64"⟩, true, 0, .provided, .field "0"⟩,
      ⟨"last", "Last", ⟨"u64"⟩, true, 1, .provided, .field second⟩]
  sorted := by simp

/-- The target that the calls describe. -/
def spanTarget (second : String) : Target where
  name := "Span"
  visibility := ""
  construction := .function "new"
  members := spanMembers second
  fixed := []
  settings := {}

/-- The references of the two members. -/
def spanEntries (second : ℕ) : List FieldValue :=
  [(.position 0, .taken "first"), (.position second, .taken "last")]

/-- Both members are set by position, whatever the number is written like. -/
theorem settings_spanCalls {second : String} {position : ℕ}
    (hread : FieldName.read? second = some (.position position))
    (h : (Grammar.readFieldReference? second).isSome = true) :
    (Draft.ofCalls "Span" (spanCalls second)).buildCode.settings =
      (spanEntries position).map FieldValue.setting := by
  have hfirst : fieldTokens "0" = (FieldName.position 0).tokens :=
    FieldName.fieldTokens_of_read? (by decide +kernel) (by decide +kernel)
  have hlast := FieldName.fieldTokens_of_read? hread h
  change [FieldSetting.mk (fieldTokens "0") (.taken "first"),
    FieldSetting.mk (fieldTokens second) (.taken "last")] = _
  rw [hfirst, hlast]
  rfl

end Typestate
