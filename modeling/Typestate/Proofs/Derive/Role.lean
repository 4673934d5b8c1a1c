import Typestate.Proofs.Code.Building
import Typestate.Proofs.Derive.Declared
import Typestate.Proofs.Grammar.FieldNames
import Typestate.Proofs.Token.Words

/-!
# Roles of fields

Each field of a struct plays one role in its builder: it is an argument of the constructor, it is
left alone, it is a member, or it is dropped because an argument has the name of its member. Options
that would give a field two roles are refused. So the generated code accounts for every declared
field, by its own name or by its place among all fields.
-/

namespace Typestate.Derive

open Grammar Token

/-- What a field of a struct is in its builder. -/
inductive Role where
  /-- An argument of the constructor. -/
  | argument
  /-- A field that the builder leaves alone. -/
  | fixed
  /-- A member that ends up in the field. -/
  | member
  /-- Nothing, as an argument stands for it. -/
  | dropped
  deriving DecidableEq

namespace StructField

/-- What is said about the target by the field. -/
def call (field : StructField) : Draft.Call :=
  if field.options.skip then .addFixed ⟨field.reference, field.fixedDefault⟩
  else if field.options.argument then .addArgument field.draft
  else .addField ⟨field.draft, field.reference⟩

/-- The field as it is referred to: by its name as it is declared, or by its position among all
fields. -/
def tokens (field : StructField) : List Token :=
  match field.name with
  | some name => [.word name]
  | none => [.literal (toString field.position)]

/-- The field gets what is read of the slot of its member. -/
def setting (field : StructField) : FieldSetting := ⟨field.tokens, field.draft.read⟩

/-- The field is left alone and gets its default. -/
def fixedSetting (field : StructField) : FieldSetting :=
  ⟨field.tokens, .expression (FixedDraft.defaultTokens ⟨field.reference, field.fixedDefault⟩)⟩

theorem addTo_eq_apply (draft : Draft) (field : StructField) :
    field.addTo draft = Draft.Call.apply draft field.call := by
  unfold addTo call
  split
  · rfl
  · split
    · rfl
    · rfl

/-- A field whose options go together is not left alone and an argument at once. -/
theorem not_skip_and_argument {hasConstructor : Bool} {field : StructField}
    (h : field.conflicts hasConstructor = []) :
    ¬ (field.options.skip = true ∧ field.options.argument = true) := by
  intro ⟨hskip, hargument⟩
  rw [conflicts, hskip, hargument] at h
  exact absurd (List.append_eq_nil_iff.mp h).1 (List.cons_ne_nil _ _)

/-- If a field can be referred to and its name is a word, it is referred to as such. -/
theorem fieldTokens_reference {field : StructField}
    (hword : ∀ name, field.name = some name → Token.lex? name = some [.word name])
    (h : (readFieldReference? field.reference).isSome = true) :
    fieldTokens field.reference = field.tokens := by
  unfold reference at h ⊢
  unfold tokens
  cases hname : field.name with
  | none =>
    rw [hname] at h
    exact fieldTokens_toString h
  | some name =>
    rw [hname] at h
    exact fieldTokens_of_lex? (hword name hname) h

end StructField

namespace Struct

/-- Some argument has the name. -/
def HasArgument (struct : Struct) (name : String) : Prop :=
  ∃ other ∈ struct.fields, other.options.argument = true ∧ other.memberName = name

instance (struct : Struct) (name : String) : Decidable (struct.HasArgument name) :=
  inferInstanceAs
    (Decidable (∃ other ∈ struct.fields, other.options.argument = true ∧ other.memberName = name))

/-- The field plays the role, by the options that ask for it. -/
def Plays (struct : Struct) (field : StructField) : Role → Prop
  | .argument => field.options.argument = true
  | .fixed => field.options.skip = true
  | .member =>
    (field.options.argument = false ∧ field.options.skip = false) ∧
      ¬ struct.HasArgument field.memberName
  | .dropped =>
    (field.options.argument = false ∧ field.options.skip = false) ∧
      struct.HasArgument field.memberName

instance (struct : Struct) (field : StructField) : (role : Role) →
    Decidable (struct.Plays field role)
  | .argument => inferInstanceAs (Decidable (field.options.argument = true))
  | .fixed => inferInstanceAs (Decidable (field.options.skip = true))
  | .member => inferInstanceAs (Decidable (_ ∧ ¬ struct.HasArgument field.memberName))
  | .dropped => inferInstanceAs (Decidable (_ ∧ struct.HasArgument field.memberName))

/-- The fields that play the role, in the order of their declaration. -/
def playing (struct : Struct) (role : Role) : List StructField :=
  struct.fields.filter fun field => struct.Plays field role

/-- The role of a field whose options go together. -/
def roleOf (struct : Struct) (field : StructField) : Role :=
  if field.options.argument then .argument
  else if field.options.skip then .fixed
  else if struct.HasArgument field.memberName then .dropped
  else .member

variable {struct : Struct}

/-- Options that go together ask for no other role. -/
theorem plays_iff (h : struct.conflicts = []) {field : StructField} (hfield : field ∈ struct.fields)
    (role : Role) : struct.Plays field role ↔ role = struct.roleOf field := by
  have hboth := StructField.not_skip_and_argument (List.flatMap_eq_nil_iff.mp h field hfield)
  unfold roleOf
  cases role <;> simp only [Plays] <;> split_ifs <;> simp_all

theorem existsUnique_plays (h : struct.conflicts = []) {field : StructField}
    (hfield : field ∈ struct.fields) : ∃! role, struct.Plays field role :=
  ⟨struct.roleOf field, (plays_iff h hfield _).mpr rfl,
    fun role hrole => (plays_iff h hfield role).mp hrole⟩

/-! ### What is said about the target -/

/-- What the struct itself says about the target. -/
def header (struct : Struct) : List Draft.Call :=
  [.withVisibility struct.visibility, .withSettings struct.settings] ++
    struct.options.constructor.toList.map .withConstructor

/-- What is said about the target, first by the struct and then by its fields. -/
def calls (struct : Struct) : List Draft.Call :=
  struct.header ++ struct.fields.map StructField.call

theorem draft_eq_ofCalls (struct : Struct) :
    struct.draft = .ofCalls struct.name struct.calls := by
  have hheader : struct.header.foldl Draft.Call.apply { target := struct.name } =
      { target := struct.name
        visibility := struct.visibility
        constructor := struct.options.constructor
        settings := struct.settings } := by
    rw [header]
    cases struct.options.constructor with
    | none => rfl
    | some path => rfl
  rw [draft, Draft.ofCalls, calls, List.foldl_append, hheader, List.foldl_map]
  congr 1
  funext draft field
  exact field.addTo_eq_apply draft

/-- What some of the calls add is what the fields add that make these calls. -/
theorem filterMap_calls {A : Type} {added? : Draft.Call → Option A} {part : StructField → A}
    {adds : StructField → Bool} (hheader : struct.header.filterMap added? = [])
    (hfield : ∀ field ∈ struct.fields,
      added? field.call = if adds field then some (part field) else none) :
    struct.calls.filterMap added? = (struct.fields.filter adds).map part := by
  rw [calls, List.filterMap_append, hheader, List.nil_append, List.filterMap_map]
  revert hfield
  induction struct.fields with
  | nil => exact fun _ => rfl
  | cons field rest ih =>
    intro hfield
    obtain ⟨hfirst, hrest⟩ := List.forall_mem_cons.mp hfield
    rw [List.filterMap_cons, List.filter_cons, Function.comp_apply, hfirst, ih hrest]
    cases adds field with
    | true => rfl
    | false => rfl

theorem constructor_calls (struct : Struct) :
    Draft.Call.constructor struct.calls = struct.options.constructor := by
  have hfields : (struct.fields.map StructField.call).filterMap Draft.Call.path? = [] := by
    refine List.filterMap_eq_nil_iff.mpr fun call hcall => ?_
    obtain ⟨field, -, rfl⟩ := List.mem_map.mp hcall
    unfold StructField.call
    split
    · rfl
    · split
      · rfl
      · rfl
  rw [Draft.Call.constructor, calls, List.filterMap_append, hfields, List.append_nil, header]
  cases struct.options.constructor with
  | none => rfl
  | some path => rfl

/-- The arguments are the fields that play this role. -/
theorem arguments_calls (h : struct.conflicts = []) :
    Draft.Call.arguments struct.calls = (struct.playing .argument).map StructField.draft := by
  refine filterMap_calls ?_ fun field hfield => ?_
  · rw [header]
    cases struct.options.constructor <;> rfl
  · have hboth := StructField.not_skip_and_argument (List.flatMap_eq_nil_iff.mp h field hfield)
    unfold StructField.call
    split_ifs <;> simp_all [Draft.Call.argument?, Plays]

/-- The fields that are left alone are those that play this role. -/
theorem fixed_calls (struct : Struct) :
    Draft.Call.fixed struct.calls =
      (struct.playing .fixed).map fun field => ⟨field.reference, field.fixedDefault⟩ := by
  refine filterMap_calls ?_ fun field hfield => ?_
  · rw [header]
    cases struct.options.constructor <;> rfl
  · unfold StructField.call
    split_ifs <;> simp_all [Draft.Call.fixed?, Plays]

/-- All other fields describe members. -/
theorem fields_calls (struct : Struct) :
    Draft.Call.fields struct.calls =
      (struct.fields.filter fun field => !field.options.skip && !field.options.argument).map
        fun field => ⟨field.draft, field.reference⟩ := by
  refine filterMap_calls ?_ fun field hfield => ?_
  · rw [header]
    cases struct.options.constructor <;> rfl
  · unfold StructField.call
    split_ifs <;> simp_all [Draft.Call.field?]

/-- No argument has the name exactly if the names of all arguments are others. -/
theorem not_hasArgument_iff {name : String} :
    ¬ struct.HasArgument name ↔
      ∀ argument ∈ (struct.playing .argument).map StructField.draft, argument.name ≠ name := by
  rw [List.forall_mem_map]
  constructor
  · intro hnone field hfield hname
    obtain ⟨hmember, hargument⟩ := List.mem_filter.mp hfield
    exact hnone ⟨field, hmember, of_decide_eq_true hargument, hname⟩
  · intro hnone ⟨field, hmember, hargument, hname⟩
    exact hnone field (List.mem_filter.mpr ⟨hmember, decide_eq_true hargument⟩) hname

/-- The members that are not dropped are the fields that play this role. -/
theorem ownFields_calls (h : struct.conflicts = []) :
    Draft.Call.ownFields struct.calls =
      (struct.playing .member).map fun field => ⟨field.draft, field.reference⟩ := by
  rw [Draft.Call.ownFields, fields_calls, arguments_calls h, List.filter_map, List.filter_filter]
  congr 1
  refine List.filter_congr fun field hfield => ?_
  rw [Bool.eq_iff_iff, decide_eq_true_eq, Plays, not_hasArgument_iff]
  simp only [Function.comp_apply, Bool.and_eq_true, decide_eq_true_eq, Bool.not_eq_true']
  exact and_comm.trans (and_congr_left' and_comm)

end Struct

/-! ### Reading a struct -/

/-- The struct that tokens declare, if they declare one without parameters whose options are in
order. -/
def readStruct? (tokens : List Token) : Option Struct := do
  let declaration ← readDeclaration? tokens
  match declaration.shape with
  | .struct fields =>
    if declaration.generics.isEmpty then (readStruct declaration fields).toOption else none
  | _ => none

theorem readStruct?_eq_some {tokens : List Token} {struct : Struct} :
    readStruct? tokens = some struct ↔
      ∃ declaration fields, readDeclaration? tokens = some declaration ∧
        declaration.shape = .struct fields ∧ declaration.generics = [] ∧
        readStruct declaration fields = .ok struct := by
  rw [readStruct?, Option.bind_eq_bind, Option.bind_eq_some_iff]
  constructor
  · intro ⟨declaration, hdeclaration, hread⟩
    split at hread
    · rename_i fields hshape
      split at hread
      · rename_i hgenerics
        exact ⟨declaration, fields, hdeclaration, hshape, List.isEmpty_iff.mp hgenerics,
          toOption_eq_some.mp hread⟩
      · contradiction
    · contradiction
  · intro ⟨declaration, fields, hdeclaration, hshape, hgenerics, hread⟩
    refine ⟨declaration, hdeclaration, ?_⟩
    simp only [hshape, hgenerics]
    exact toOption_eq_some.mpr hread

/-- A struct turns into items exactly if its description is finished and they are generated for the
target. -/
theorem expandStruct_eq_generated {struct : Struct} {items : Generated} :
    expandStruct struct = .generated items ↔
      ∃ target, struct.draft.finish = .ok target ∧ generate target = .ok items := by
  unfold expandStruct
  rw [← bind_eq_ok]
  cases struct.draft.finish >>= fun target => generate target with
  | ok found => rw [Expansion.generated.injEq, Except.ok.injEq]
  | error error => exact iff_of_false (fun h => nomatch h) (fun h => nomatch h)

/-- Tokens turn into items exactly if they declare a struct that does. -/
theorem expandTokens?_eq_generated {tokens : List Token} {items : Generated} :
    expandTokens? tokens = some (.generated items) ↔
      ∃ struct, readStruct? tokens = some struct ∧ expandStruct struct = .generated items := by
  simp only [readStruct?_eq_some]
  rw [expandTokens?, Option.map_eq_some_iff]
  constructor
  · intro ⟨declaration, hdeclaration, hexpand⟩
    unfold expand at hexpand
    split at hexpand
    · contradiction
    · contradiction
    · rename_i fields hshape
      split at hexpand
      · contradiction
      · rename_i hgenerics
        split at hexpand
        · rename_i struct hread
          have hempty : declaration.generics = [] := by simpa using hgenerics
          exact ⟨struct, ⟨declaration, fields, hdeclaration, hshape, hempty, hread⟩, hexpand⟩
        · contradiction
  · intro ⟨struct, ⟨declaration, fields, hdeclaration, hshape, hgenerics, hread⟩, hexpand⟩
    refine ⟨declaration, hdeclaration, ?_⟩
    simp only [expand, hshape, hgenerics, hread]
    exact hexpand

/-! ### What the code does with the fields -/

/-- The code accounts for every field of the struct. -/
structure Struct.AccountedBy (struct : Struct) (code : BuilderCode) : Prop where
  /-- No field plays two roles, and none plays no role. -/
  role : ∀ field ∈ struct.fields, ∃! role, struct.Plays field role
  /-- Arguments and members have slots, each of its own name. -/
  slots : code.declared.map Prod.fst =
    (struct.playing .argument ++ struct.playing .member).map StructField.memberName
  nodup : ((struct.playing .argument ++ struct.playing .member).map StructField.memberName).Nodup
  /-- A constructor is called with the arguments, and the members are set. -/
  call : ∀ path, struct.options.constructor = some path →
    code.build = .call (constructorTokens struct.name path)
      ((struct.playing .argument).map fun field => field.draft.read)
      ((struct.playing .member).map StructField.setting)
  /-- Without a constructor all fields are named, those that are left alone last. -/
  literal : struct.options.constructor = none →
    code.build = .literal struct.name
      ((struct.fields.filter fun field => !field.options.skip).map StructField.setting ++
        (struct.fields.filter fun field => field.options.skip).map StructField.fixedSetting)
  /-- A field that is left alone in this way gets the default that is given for it. -/
  defaults : struct.options.constructor = none → ∀ field ∈ struct.playing .fixed,
    IsDefault (FixedDraft.defaultTokens ⟨field.reference, field.fixedDefault⟩) field.fixedDefault
  /-- These are all fields, each of them once. -/
  perm : ((struct.fields.filter fun field => !field.options.skip) ++
    struct.fields.filter fun field => field.options.skip).Perm struct.fields

namespace Struct

variable {struct : Struct}

/-- Without arguments all fields that are not left alone are members. -/
theorem playing_member_of_no_argument (h : struct.playing .argument = []) :
    struct.playing .member = struct.fields.filter fun field => !field.options.skip := by
  have hnone : ∀ field ∈ struct.fields, field.options.argument = false := by
    intro field hfield
    have hplays := List.filter_eq_nil_iff.mp h field hfield
    exact Bool.eq_false_iff.mpr fun hargument => hplays (decide_eq_true hargument)
  have hfree : ∀ name, ¬ struct.HasArgument name := by
    intro name ⟨other, hother, hargument, hname⟩
    exact absurd ((hnone other hother).symm.trans hargument) Bool.false_ne_true
  refine List.filter_congr fun field hfield => ?_
  rw [Bool.eq_iff_iff, decide_eq_true_eq, Plays, Bool.not_eq_true']
  exact ⟨fun hplays => hplays.1.2, fun hskip => ⟨⟨hnone field hfield, hskip⟩, hfree _⟩⟩

/-- The slots are those of the arguments and of the members. -/
theorem map_name_memberDrafts (h : struct.conflicts = []) :
    struct.draft.memberDrafts.map MemberDraft.name =
      (struct.playing .argument ++ struct.playing .member).map StructField.memberName := by
  rw [draft_eq_ofCalls, Draft.memberDrafts, Draft.arguments_ofCalls, Draft.ownFields_ofCalls,
    arguments_calls h, ownFields_calls h, List.map_append, List.map_append, List.map_map,
    List.map_map, List.map_map]
  rfl

/-- The fields that members end up in, and those that are left alone, can be referred to. -/
theorem isSome_reference (h : struct.conflicts = []) {target : Target}
    (hfinish : struct.draft.finish = .ok target) {field : StructField}
    (hfield : field ∈ struct.playing .member ∨ field ∈ struct.playing .fixed) :
    (readFieldReference? field.reference).isSome = true := by
  obtain ⟨arguments, fields, hfinished⟩ := Draft.finished_of_finish hfinish
  obtain ⟨hown, hfixed⟩ := hfinished.isSome_reference
  rw [draft_eq_ofCalls, Draft.ownFields_ofCalls, ownFields_calls h] at hown
  rw [draft_eq_ofCalls, Draft.fixed_ofCalls, fixed_calls] at hfixed
  rcases hfield with hmember | hskip
  · exact hown ⟨field.draft, field.reference⟩ (List.mem_map.mpr ⟨field, hmember, rfl⟩)
  · exact hfixed ⟨field.reference, field.fixedDefault⟩ (List.mem_map.mpr ⟨field, hskip, rfl⟩)

/-- How a value of the struct is made, by the roles of its fields. -/
theorem buildCode_draft (h : struct.conflicts = []) {target : Target}
    (hfinish : struct.draft.finish = .ok target)
    (hwords : ∀ field ∈ struct.fields, ∀ name, field.name = some name →
      Token.lex? name = some [.word name]) :
    struct.draft.buildCode =
      match struct.options.constructor with
      | some path =>
        .call (constructorTokens struct.name path)
          ((struct.playing .argument).map fun field => field.draft.read)
          ((struct.playing .member).map StructField.setting)
      | none =>
        .literal struct.name ((struct.playing .member).map StructField.setting ++
          (struct.playing .fixed).map StructField.fixedSetting) := by
  have hreference : ∀ field ∈ struct.fields,
      field ∈ struct.playing .member ∨ field ∈ struct.playing .fixed →
        fieldTokens field.reference = field.tokens := fun field hfield hplaying =>
    StructField.fieldTokens_reference (hwords field hfield) (isSome_reference h hfinish hplaying)
  have hmembers : (struct.playing .member).map (fun field =>
      FieldDraft.setting ⟨field.draft, field.reference⟩) =
        (struct.playing .member).map StructField.setting := by
    refine List.map_congr_left fun field hplaying => ?_
    rw [FieldDraft.setting, StructField.setting,
      hreference field (List.mem_of_mem_filter hplaying) (.inl hplaying)]
  have hfixed : (struct.playing .fixed).map (fun field =>
      FixedDraft.setting ⟨field.reference, field.fixedDefault⟩) =
        (struct.playing .fixed).map StructField.fixedSetting := by
    refine List.map_congr_left fun field hplaying => ?_
    rw [FixedDraft.setting, StructField.fixedSetting,
      hreference field (List.mem_of_mem_filter hplaying) (.inr hplaying)]
  rw [draft_eq_ofCalls, Draft.buildCode_ofCalls, constructor_calls, arguments_calls h,
    ownFields_calls h, fixed_calls, List.map_map, List.map_map, List.map_map, ← hmembers, ← hfixed]
  rfl

/-- The code of a finished struct accounts for its fields. -/
theorem accountedBy_of_generate {target : Target} {items : Generated}
    (h : struct.conflicts = []) (hfinish : struct.draft.finish = .ok target)
    (hgenerate : generate target = .ok items)
    (hwords : ∀ field ∈ struct.fields, ∀ name, field.name = some name →
      Token.lex? name = some [.word name]) : struct.AccountedBy items.code := by
  have hrealizes := Generated.code_realizes hfinish hgenerate
  have hbuild := hrealizes.build.trans (buildCode_draft h hfinish hwords)
  refine
    { role := fun field hfield => existsUnique_plays h hfield
      slots := hrealizes.declared.trans (map_name_memberDrafts h)
      nodup := map_name_memberDrafts h ▸ hrealizes.nodup
      call := fun path hpath => ?_
      literal := fun hnone => ?_
      defaults := fun _ field hfield => ?_
      perm := List.perm_append_comm.trans (List.filter_append_perm _ _) }
  · rw [hbuild, hpath]
  · have hempty : struct.playing .argument = [] := by
      obtain ⟨arguments, fields, hfinished⟩ := Draft.finished_of_finish hfinish
      have hconstructor : struct.draft.constructor = none := by
        rw [draft_eq_ofCalls, Draft.constructor_ofCalls, constructor_calls, hnone]
      obtain ⟨harguments, -⟩ :=
        Draft.construction_of_no_constructor hfinished.construction hconstructor
      rw [draft_eq_ofCalls, Draft.arguments_ofCalls, arguments_calls h] at harguments
      exact List.map_eq_nil_iff.mp harguments
    have hfixed : struct.playing .fixed = struct.fields.filter fun field => field.options.skip :=
      List.filter_congr fun field _ => Bool.decide_eq_true
    rw [hbuild, hnone, playing_member_of_no_argument hempty, hfixed]
  · obtain ⟨arguments, fields, hfinished⟩ := Draft.finished_of_finish hfinish
    have hfixed := hfinished.isDefault_fixed
    rw [draft_eq_ofCalls, Draft.fixed_ofCalls, fixed_calls, List.forall_mem_map] at hfixed
    exact hfixed field hfield

end Struct

/-- The names of the fields of a struct that is read of a text are words. -/
theorem lex?_name_of_readStruct {source : String} {tokens : List Token} {declaration : Declaration}
    {fields : Fields} {struct : Struct} (hlex : Token.lex? source = some tokens)
    (hdeclaration : readDeclaration? tokens = some declaration)
    (hshape : declaration.shape = .struct fields)
    (hread : readStruct declaration fields = .ok struct) :
    ∀ field ∈ struct.fields, ∀ name, field.name = some name →
      Token.lex? name = some [.word name] := by
  intro field hfield name hname
  have hnames : fields.toList.map Field.name = struct.fields.map StructField.name :=
    map_eq_of_forall₂ ((declaredBy_of_readStruct hread).1.fields.imp fun _ _ h => h.name.symm)
  have hmem : some name ∈ fields.toList.map Field.name := by
    rw [hnames, ← hname]
    exact List.mem_map_of_mem hfield
  obtain ⟨declared, hdeclared, hsame⟩ := List.mem_map.mp hmem
  obtain ⟨body, hbody, hword⟩ :=
    word_mem_of_readDeclaration? hdeclaration hshape hdeclared hsame
  exact Token.wordsApart_of_lex? hlex _ hbody name (.group hword .word)

/-- **Roles.** If the struct of a source turns into items, each of its declared fields plays exactly
one role in their code, which names the fields by their names or by their positions. The options
that decide the roles, and the names of members, are those that the attributes give. -/
theorem expand_accounts {source : String} {tokens : List Token} {items : Generated}
    (hlex : Token.lex? source = some tokens)
    (hexpand : expandTokens? tokens = some (.generated items)) :
    ∃ (declaration : Declaration) (fields : Fields) (struct : Struct) (code : BuilderCode),
      readDeclaration? tokens = some declaration ∧ declaration.shape = .struct fields ∧
      declaration.generics = [] ∧ readStruct declaration fields = .ok struct ∧
      struct.DeclaredBy declaration fields.toList ∧
      code.WrittenIn items.builderType.tokens items.factory.tokens ∧ struct.AccountedBy code := by
  obtain ⟨struct, hstruct, hitems⟩ := expandTokens?_eq_generated.mp hexpand
  obtain ⟨declaration, fields, hdeclaration, hshape, hgenerics, hread⟩ :=
    readStruct?_eq_some.mp hstruct
  obtain ⟨target, hfinish, hgenerate⟩ := expandStruct_eq_generated.mp hitems
  obtain ⟨hdeclared, hconflicts⟩ := declaredBy_of_readStruct hread
  have hwords := lex?_name_of_readStruct hlex hdeclaration hshape hread
  exact ⟨declaration, fields, struct, items.code, hdeclaration, hshape, hgenerics, hread, hdeclared,
    Generated.code_writtenIn_of_generate hgenerate,
    Struct.accountedBy_of_generate hconflicts hfinish hgenerate hwords⟩

/-- A struct with a constructor: an argument, a field that the argument stands for, a field whose
member has another name, a field with a raw name, and a field that the builder leaves alone. -/
def badgeSource : String :=
  "#[builder(constructor = \"open\")] struct Badge \x7b #[builder(arg)] id: u64, " ++
    "#[builder(name = \"id\")] shown: u64, #[builder(name = note)] memo: u8, r#text: u16, " ++
    "#[builder(skip)] stamp: u32 \x7d"

/-- The struct that is declared. -/
def badgeStruct : Struct where
  name := "Badge"
  visibility := ""
  options := { constructor := some "open" }
  fields :=
    [⟨0, some "id", "u64", { argument := true }⟩, ⟨1, some "shown", "u64", { name := some "id" }⟩,
      ⟨2, some "memo", "u8", { name := some "note" }⟩, ⟨3, some "r#text", "u16", {}⟩,
      ⟨4, some "stamp", "u32", { skip := true }⟩]

/-- The members that the struct describes. -/
def badgeMembers : MemberList where
  toList :=
    [⟨"id", "Id", ⟨"u64"⟩, true, 0, .provided, .argument⟩,
      ⟨"note", "Note", ⟨"u8"⟩, true, 1, .provided, .field "memo"⟩,
      ⟨"text", "Text", ⟨"u16"⟩, true, 2, .provided, .field "r#text"⟩]
  sorted := by simp

/-- The target that the struct describes. -/
def badgeTarget : Target where
  name := "Badge"
  visibility := ""
  construction := .function "open"
  members := badgeMembers
  fixed := [⟨"stamp", .provided⟩]
  settings := {}

theorem finish_badgeStruct : badgeStruct.draft.finish = .ok badgeTarget :=
  Draft.finish_of_parts badgeMembers (by decide +kernel) (by decide +kernel) (by decide +kernel)

/-- A tuple whose first field the builder leaves alone with a default of its own. -/
def pairSource : String := "struct Pair(#[builder(skip, default = \"7\")] u8, u16);"

/-- The struct that is declared. -/
def pairStruct : Struct where
  name := "Pair"
  visibility := ""
  options := {}
  fields :=
    [⟨0, none, "u8", { default := some (.expression "7"), skip := true }⟩, ⟨1, none, "u16", {}⟩]

/-- The members that the struct describes. -/
def pairMembers : MemberList where
  toList := [⟨"field_1", "Field1", ⟨"u16"⟩, true, 0, .provided, .field "1"⟩]
  sorted := by simp

/-- The target that the struct describes. -/
def pairTarget : Target where
  name := "Pair"
  visibility := ""
  construction := .literal
  members := pairMembers
  fixed := [⟨"0", ⟨"7", false⟩⟩]
  settings := {}

theorem finish_pairStruct : pairStruct.draft.finish = .ok pairTarget :=
  Draft.finish_of_parts pairMembers (by decide +kernel) (by decide +kernel) (by decide +kernel)

/-- The struct of a source turns into items if its target does. -/
theorem exists_expandTokens? {source : String} {struct : Struct} {target : Target}
    (hread : (Token.lex? source).bind readStruct? = some struct)
    (hfinish : struct.draft.finish = .ok target) (hgenerable : target.isGenerable = true) :
    ∃ tokens items, Token.lex? source = some tokens ∧ readStruct? tokens = some struct ∧
      expandTokens? tokens = some (.generated items) := by
  obtain ⟨tokens, hlex, hstruct⟩ := Option.bind_eq_some_iff.mp hread
  obtain ⟨items, hgenerate⟩ := exists_generate_eq_ok.mpr hgenerable
  exact ⟨tokens, items, hlex, hstruct, expandTokens?_eq_generated.mpr
    ⟨struct, hstruct, expandStruct_eq_generated.mpr ⟨target, hfinish, hgenerate⟩⟩⟩

/-- The constructor of the first struct gets the argument, and two fields are set afterwards, whose
members are called otherwise. In the second the member ends up in the field of the second position,
although it is the only member, and the other field gets the given default. -/
theorem expand_accounts_badgeSource :
    (∃ (tokens : List Token) (items : Generated) (code : BuilderCode),
      Token.lex? badgeSource = some tokens ∧
      expandTokens? tokens = some (.generated items) ∧
      code.WrittenIn items.builderType.tokens items.factory.tokens ∧
      code.declared.map Prod.fst = ["id", "note", "text"] ∧
      code.build = .call (phrase "Badge :: open") [.taken "id"]
        [⟨[.word "memo"], .taken "note"⟩, ⟨[.word "r#text"], .taken "text"⟩]) ∧
    ∃ (tokens : List Token) (items : Generated) (code : BuilderCode),
      Token.lex? pairSource = some tokens ∧
      expandTokens? tokens = some (.generated items) ∧
      code.WrittenIn items.builderType.tokens items.factory.tokens ∧
      code.build = .literal "Pair" [⟨[.literal "1"], .taken "field_1"⟩,
        ⟨[.literal "0"], .expression [.literal "7"]⟩] := by
  have hbadge : (Token.lex? badgeSource).bind readStruct? = some badgeStruct := by decide +kernel
  have hpair : (Token.lex? pairSource).bind readStruct? = some pairStruct := by decide +kernel
  constructor
  · obtain ⟨tokens, items, hlex, hstruct, hexpand⟩ :=
      exists_expandTokens? hbadge finish_badgeStruct (by decide +kernel)
    obtain ⟨declaration, fields, struct, code, hdeclaration, hshape, hgenerics, hread, -,
      hwritten, haccounted⟩ := expand_accounts hlex hexpand
    have hfound : readStruct? tokens = some struct :=
      readStruct?_eq_some.mpr ⟨declaration, fields, hdeclaration, hshape, hgenerics, hread⟩
    obtain rfl : struct = badgeStruct := Option.some.inj (hfound.symm.trans hstruct)
    have hpath : constructorTokens "Badge" "open" = phrase "Badge :: open" := by decide +kernel
    refine ⟨tokens, items, code, hlex, hexpand, hwritten, haccounted.slots.trans (by decide),
      (haccounted.call "open" rfl).trans ?_⟩
    rw [show badgeStruct.name = "Badge" from rfl, hpath]
    rfl
  · obtain ⟨tokens, items, hlex, hstruct, hexpand⟩ :=
      exists_expandTokens? hpair finish_pairStruct (by decide +kernel)
    obtain ⟨declaration, fields, struct, code, hdeclaration, hshape, hgenerics, hread, -,
      hwritten, haccounted⟩ := expand_accounts hlex hexpand
    have hfound : readStruct? tokens = some struct :=
      readStruct?_eq_some.mpr ⟨declaration, fields, hdeclaration, hshape, hgenerics, hread⟩
    obtain rfl : struct = pairStruct := Option.some.inj (hfound.symm.trans hstruct)
    have hseven : FixedDraft.defaultTokens ⟨"0", some "7"⟩ = [.literal "7"] := by decide +kernel
    refine ⟨tokens, items, code, hlex, hexpand, hwritten, (haccounted.literal rfl).trans ?_⟩
    rw [← hseven]
    rfl

end Typestate.Derive
