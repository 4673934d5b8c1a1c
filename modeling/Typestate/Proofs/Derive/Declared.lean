import Typestate.Derive.Expansion
import Typestate.Proofs.Member.Accepted

/-!
# Declared options

The options of a struct and of its fields are what the attributes say. An entry of a list of options
is taken over by the rule of its name, which leaves all other options as they are, and a second entry
of the name is a fault. So if there are no faults, an option has the value of its entry, and the
usual value if it has no entry.
-/

namespace Typestate.Derive

open Grammar Token

/-! ### What attributes give -/

/-- The attributes give the option: an entry of its name stands in one of their lists of options. -/
def Gives (attributes : List Meta) (name : String) (body : MetaBody) : Prop :=
  ∃ content ∈ attributes, content.path = ⟨false, ["builder"]⟩ ∧
    ∃ delimiter tokens found, content.body = .list delimiter tokens ∧
      entries tokens = .ok found ∧ .named name body ∈ found

/-- The value is the one that the attributes give for the option, or the usual one if they give
none. -/
structure IsDeclared {A : Type} (attributes : List Meta) (name : String)
    (parse : MetaBody → Except Fault A) (usual value : A) : Prop where
  given : ∀ body, Gives attributes name body → parse body = .ok value
  omitted : (∀ body, ¬ Gives attributes name body) → value = usual

/-- The options of a field are those that its attributes give. -/
structure FieldOptions.DeclaredBy (options : FieldOptions) (attributes : List Meta) : Prop where
  default : IsDeclared attributes "default" (fun body => some <$> defaultOption body) none
    options.default
  argument : IsDeclared attributes "arg" flagOption false options.argument
  name : IsDeclared attributes "name" (fun body => some <$> nameOption body) none options.name
  skip : IsDeclared attributes "skip" flagOption false options.skip

/-- The options of a struct are those that its attributes give. -/
structure TargetOptions.DeclaredBy (options : TargetOptions) (attributes : List Meta) : Prop where
  constructor : IsDeclared attributes "constructor" (fun body => some <$> textOption body) none
    options.constructor
  factory : IsDeclared attributes "factory" (fun body => some <$> nameOption body) none
    options.factory
  name : IsDeclared attributes "name" (fun body => some <$> nameOption body) none options.name
  stages : IsDeclared attributes "stages" (fun body => some <$> nameOption body) none
    options.stages
  stageLimit : IsDeclared attributes "stage_limit" (fun body => some <$> countOption body) none
    options.stageLimit

/-! ### Reading entries -/

section Reading

variable {Options A : Type} {rules : List (OptionRule Options)} {name : String}
  {parse : MetaBody → Except Fault A} {get : Options → A} {start : Options}

/-- One option among all: the rule of its name sets it, and the other rules leave it as it is. -/
def IsOption (rules : List (OptionRule Options)) (name : String)
    (parse : MetaBody → Except Fault A) (get : Options → A) : Prop :=
  ∀ rule ∈ rules, ∀ body options taken, rule.take body options = .ok taken →
    if rule.name = name then parse body = .ok (get taken) else get taken = get options

/-- What has been read of an option is what the entries say that have been taken over. -/
structure Reading.Holds (reading : Reading Options) (name : String)
    (parse : MetaBody → Except Fault A) (get : Options → A) (start : Options)
    (found : List Entry) : Prop where
  given : ∀ body, .named name body ∈ found → parse body = .ok (get reading.options)
  omitted : (∀ body, .named name body ∉ found) → get reading.options = get start
  noted : name ∈ reading.given ↔ ∃ body, .named name body ∈ found

namespace Reading

variable {reading : Reading Options} {found : List Entry}

@[simp] theorem faults_addFault (reading : Reading Options) (fault : Fault) :
    (reading.addFault fault).faults ≠ [] := by
  simp [addFault]

/-- **Inversion.** An entry without a fault is named, is the first of its name, and is taken over by
the rule of its name. -/
theorem add_inversion {entry : Entry} (h : (reading.add rules entry).faults = []) :
    ∃ other body, entry = .named other body ∧ other ∉ reading.given ∧
      ∃ rule ∈ rules, rule.name = other ∧
        ∃ options, rule.take body reading.options = .ok options ∧
          reading.add rules entry = ⟨options, other :: reading.given, reading.faults⟩ := by
  cases entry with
  | literal => exact absurd h (faults_addFault _ _)
  | named other body =>
    refine ⟨other, body, rfl, ?_⟩
    simp only [add] at h ⊢
    cases hrule : rules.find? fun rule => rule.name == other with
    | none =>
      rw [hrule] at h
      exact absurd h (faults_addFault _ _)
    | some rule =>
      rw [hrule] at h
      dsimp only at h ⊢
      cases hgiven : reading.given.contains other with
      | true =>
        rw [if_pos hgiven] at h
        exact absurd h (faults_addFault _ _)
      | false =>
        rw [hgiven, if_neg Bool.false_ne_true] at h
        rw [if_neg Bool.false_ne_true]
        refine ⟨fun hmem => ?_, rule, List.mem_of_find?_eq_some hrule,
          by simpa using List.find?_some hrule, ?_⟩
        · rw [List.contains_iff_mem.mpr hmem] at hgiven
          contradiction
        · cases htake : rule.take body reading.options with
          | ok options => exact ⟨options, rfl, rfl⟩
          | error fault =>
            rw [htake] at h
            exact absurd h (faults_addFault _ _)

/-- Faults are not forgotten. -/
theorem faults_of_add {entry : Entry} (h : (reading.add rules entry).faults = []) :
    reading.faults = [] := by
  obtain ⟨_, _, -, -, _, -, -, _, -, hadd⟩ := add_inversion h
  rwa [hadd] at h

/-- **Step.** Taking over an entry without a fault adds what it says. -/
theorem Holds.add (hoption : IsOption rules name parse get)
    (h : reading.Holds name parse get start found) {entry : Entry}
    (hfaults : (reading.add rules entry).faults = []) :
    (reading.add rules entry).Holds name parse get start (found ++ [entry]) := by
  obtain ⟨other, body, rfl, hnew, rule, hrule, hname, options, htake, hadd⟩ :=
    add_inversion hfaults
  have hset := hoption rule hrule body _ _ htake
  rw [hadd]
  by_cases hsame : other = name
  · subst hsame
    rw [if_pos hname] at hset
    have hlast : .named other body ∈ found ++ [.named other body] := by simp
    refine ⟨fun given hgiven => ?_, fun homitted => absurd hlast (homitted body),
      iff_of_true List.mem_cons_self ⟨body, hlast⟩⟩
    rcases List.mem_append.mp hgiven with hbefore | hthis
    · exact absurd (h.noted.mpr ⟨given, hbefore⟩) hnew
    · obtain rfl : given = body := by simpa using hthis
      exact hset
  · rw [if_neg (hname ▸ hsame)] at hset
    have hentries : ∀ given, .named name given ∈ found ++ [.named other body] ↔
        .named name given ∈ found := by
      simp [Ne.symm hsame]
    refine ⟨fun given hgiven => ?_, fun homitted => ?_, ?_⟩
    · rw [hset]
      exact h.given given ((hentries given).mp hgiven)
    · rw [hset]
      exact h.omitted fun given hgiven => homitted given ((hentries given).mpr hgiven)
    · rw [List.mem_cons, or_iff_right (Ne.symm hsame), h.noted]
      exact exists_congr fun given => (hentries given).symm

/-- Faults of some entries are not forgotten by the others. -/
theorem faults_of_foldl {A : Type} {step : Reading Options → A → Reading Options} {items : List A}
    (hstep : ∀ reading item, (step reading item).faults = [] → reading.faults = [])
    (h : (items.foldl step reading).faults = []) : reading.faults = [] := by
  induction items generalizing reading with
  | nil => exact h
  | cons item rest ih => exact hstep _ _ (ih h)

/-- **Run.** Taking over entries one after another adds what they say. -/
theorem Holds.foldl (hoption : IsOption rules name parse get)
    (h : reading.Holds name parse get start found) {more : List Entry}
    (hfaults : (more.foldl (Reading.add rules) reading).faults = []) :
    (more.foldl (Reading.add rules) reading).Holds name parse get start (found ++ more) := by
  induction more generalizing reading found with
  | nil => rwa [List.append_nil]
  | cons entry rest ih =>
    have hfirst : (reading.add rules entry).faults = [] :=
      faults_of_foldl (fun _ _ => faults_of_add) hfaults
    rw [← List.singleton_append, ← List.append_assoc]
    exact ih (h.add hoption hfirst) hfaults

/-- The entries of an attribute, if it is a list that can be read. -/
def entriesOf (content : Meta) : List Entry :=
  match content.body with
  | .list _ tokens => (entries tokens).toOption.getD []
  | _ => []

/-- The entries of an attribute without faults are taken over one after another. -/
theorem addAttribute_eq {content : Meta}
    (hfaults : (reading.addAttribute rules content).faults = []) :
    reading.addAttribute rules content = (entriesOf content).foldl (add rules) reading := by
  unfold addAttribute at hfaults ⊢
  unfold entriesOf
  cases hbody : content.body with
  | word => rfl
  | value node =>
    rw [hbody] at hfaults
    exact absurd hfaults (faults_addFault _ _)
  | list delimiter tokens =>
    rw [hbody] at hfaults
    dsimp only at hfaults ⊢
    cases hentries : entries tokens with
    | ok found => rfl
    | error fault =>
      rw [hentries] at hfaults
      exact absurd hfaults (faults_addFault _ _)

theorem faults_of_addAttribute {content : Meta}
    (hfaults : (reading.addAttribute rules content).faults = []) : reading.faults = [] := by
  rw [addAttribute_eq hfaults] at hfaults
  exact faults_of_foldl (fun _ _ => faults_of_add) hfaults

/-- Attributes without faults add what their entries say. -/
theorem Holds.addAttributes (hoption : IsOption rules name parse get)
    (h : reading.Holds name parse get start found) {attributes : List Meta}
    (hfaults : (attributes.foldl (addAttribute rules) reading).faults = []) :
    (attributes.foldl (addAttribute rules) reading).Holds name parse get start
      (found ++ attributes.flatMap entriesOf) := by
  induction attributes generalizing reading found with
  | nil => rwa [List.flatMap_nil, List.append_nil]
  | cons content rest ih =>
    have hfirst : (reading.addAttribute rules content).faults = [] :=
      faults_of_foldl (fun _ _ => faults_of_addAttribute) hfaults
    rw [List.flatMap_cons, ← List.append_assoc]
    refine ih ?_ hfaults
    have hentries := addAttribute_eq hfirst
    rw [hentries]
    exact h.foldl hoption (hentries ▸ hfirst)

/-- An entry among those of the attributes gives an option. -/
theorem mem_entriesOf {attributes : List Meta} {body : MetaBody} :
    .named name body ∈ (attributes.filter fun content => content.path == ⟨false, ["builder"]⟩).flatMap
      entriesOf ↔ Gives attributes name body := by
  simp only [List.mem_flatMap, List.mem_filter, beq_iff_eq, Gives, and_assoc]
  refine exists_congr fun content => and_congr_right fun _ => and_congr_right fun _ => ?_
  unfold entriesOf
  cases content.body with
  | word => simp
  | value node => simp
  | list delimiter tokens =>
    cases hentries : entries tokens with
    | ok found => simp [Except.toOption, hentries]
    | error fault => simp [Except.toOption, hentries]

end Reading

/-- What is read without faults of an option is what the attributes give. -/
theorem IsDeclared.of_faults (hoption : IsOption rules name parse get) {attributes : List Meta}
    (hfaults : (Reading.ofAttributes rules start attributes).faults = []) :
    IsDeclared attributes name parse (get start)
      (get (Reading.ofAttributes rules start attributes).options) := by
  have hstart : (Reading.mk start [] []).Holds name parse get start [] :=
    ⟨by simp, fun _ => rfl, by simp⟩
  have hall := hstart.addAttributes hoption hfaults
  rw [List.nil_append] at hall
  exact ⟨fun body hgives => hall.given body (Reading.mem_entriesOf.mpr hgives),
    fun hnone => hall.omitted fun body hmem => hnone body (Reading.mem_entriesOf.mp hmem)⟩

end Reading

/-! ### The options there are -/

/-- What is taken over is what has been read. -/
theorem forall_taken {Options A : Type} {read : Except Fault A} {set : A → Options}
    {P : Options → Prop} :
    (∀ taken, set <$> read = .ok taken → P taken) ↔ ∀ value, read = .ok value → P (set value) := by
  cases read with
  | error fault => simp [Functor.map, Except.map]
  | ok value => simp [Functor.map, Except.map]

/-- The options of a field that are read without faults are those that its attributes give. -/
theorem FieldOptions.DeclaredBy.of_faults {attributes : List Meta}
    (h : (Reading.ofAttributes fieldRules {} attributes).faults = []) :
    (Reading.ofAttributes fieldRules {} attributes).options.DeclaredBy attributes := by
  have hdefault : IsOption fieldRules "default" (fun body => some <$> defaultOption body)
      FieldOptions.default := by
    simp +contextual [IsOption, fieldRules, forall_taken]
  have hargument : IsOption fieldRules "arg" flagOption FieldOptions.argument := by
    simp +contextual [IsOption, fieldRules, forall_taken]
  have hname : IsOption fieldRules "name" (fun body => some <$> nameOption body)
      FieldOptions.name := by
    simp +contextual [IsOption, fieldRules, forall_taken]
  have hskip : IsOption fieldRules "skip" flagOption FieldOptions.skip := by
    simp +contextual [IsOption, fieldRules, forall_taken]
  exact ⟨.of_faults hdefault h, .of_faults hargument h, .of_faults hname h, .of_faults hskip h⟩

/-- The options of a struct that are read without faults are those that its attributes give. -/
theorem TargetOptions.DeclaredBy.of_faults {attributes : List Meta}
    (h : (Reading.ofAttributes targetRules {} attributes).faults = []) :
    (Reading.ofAttributes targetRules {} attributes).options.DeclaredBy attributes := by
  have hconstructor : IsOption targetRules "constructor" (fun body => some <$> textOption body)
      TargetOptions.constructor := by
    simp +contextual [IsOption, targetRules, forall_taken]
  have hfactory : IsOption targetRules "factory" (fun body => some <$> nameOption body)
      TargetOptions.factory := by
    simp +contextual [IsOption, targetRules, forall_taken]
  have hname : IsOption targetRules "name" (fun body => some <$> nameOption body)
      TargetOptions.name := by
    simp +contextual [IsOption, targetRules, forall_taken]
  have hstages : IsOption targetRules "stages" (fun body => some <$> nameOption body)
      TargetOptions.stages := by
    simp +contextual [IsOption, targetRules, forall_taken]
  have hlimit : IsOption targetRules "stage_limit" (fun body => some <$> countOption body)
      TargetOptions.stageLimit := by
    simp +contextual [IsOption, targetRules, forall_taken]
  exact ⟨.of_faults hconstructor h, .of_faults hfactory h, .of_faults hname h,
    .of_faults hstages h, .of_faults hlimit h⟩

/-! ### Structs and their fields -/

/-- The field is read of a declared one. Its member has the name that is given for it, or else that
of the field without the sign of being raw, or else one made of the position. -/
structure StructField.DeclaredBy (field : StructField) (declared : Field) : Prop where
  name : field.name = declared.name
  type : field.type = declared.type.render
  options : field.options.DeclaredBy declared.attributes
  memberName : IsDeclared declared.attributes "name" nameOption
    (match declared.name with
      | some name => Word.unraw name
      | none => "field_" ++ toString field.position)
    field.memberName

/-- The struct is read of a declaration with its fields, whose positions count all of them. -/
structure Struct.DeclaredBy (struct : Struct) (declaration : Declaration)
    (fields : List Field) : Prop where
  name : struct.name = declaration.name
  visibility : struct.visibility = render (declaration.visibility.flatMap Node.tokens)
  options : struct.options.DeclaredBy declaration.attributes
  positions : struct.fields.map StructField.position = List.range fields.length
  fields : List.Forall₂ StructField.DeclaredBy struct.fields fields

/-- The name of the member follows the option for it. -/
theorem StructField.declaredBy_of_options {field : StructField} {declared : Field}
    (hname : field.name = declared.name) (htype : field.type = declared.type.render)
    (hoptions : field.options.DeclaredBy declared.attributes) : field.DeclaredBy declared := by
  refine ⟨hname, htype, hoptions, fun body hgives => ?_, fun hnone => ?_⟩
  · have hgiven := hoptions.name.given body hgives
    cases hread : nameOption body with
    | error fault =>
      rw [hread] at hgiven
      contradiction
    | ok name =>
      rw [hread] at hgiven
      rw [memberName, ← Except.ok.inj hgiven]
  · rw [memberName, hoptions.name.omitted hnone, hname]
    cases declared.name with
    | some name => rfl
    | none => rfl

/-- Fields that are read without faults are declared in the same order, and their positions count all
of them. -/
theorem declaredBy_of_readFields {first : ℕ} {fields : List Field}
    (h : (readFields first fields).2 = []) :
    (readFields first fields).1.map StructField.position = List.range' first fields.length ∧
      List.Forall₂ StructField.DeclaredBy (readFields first fields).1 fields := by
  induction fields generalizing first with
  | nil => exact ⟨rfl, .nil⟩
  | cons field rest ih =>
    rw [readFields] at h ⊢
    obtain ⟨hfirst, hrest⟩ := List.append_eq_nil_iff.mp h
    obtain ⟨hpositions, hfields⟩ := ih hrest
    refine ⟨?_, .cons ?_ hfields⟩
    · rw [List.map_cons, hpositions, List.length_cons, List.range'_succ]
    · exact StructField.declaredBy_of_options rfl rfl (.of_faults hfirst)

/-- A struct that is read is as it is declared, and its options go together. -/
theorem declaredBy_of_readStruct {declaration : Declaration} {fields : Fields} {struct : Struct}
    (h : readStruct declaration fields = .ok struct) :
    struct.DeclaredBy declaration fields.toList ∧ struct.conflicts = [] := by
  unfold readStruct at h
  simp only at h
  split at h
  · rename_i hfaults
    obtain ⟨htarget, hrest⟩ := List.append_eq_nil_iff.mp hfaults
    obtain ⟨hpositions, hfields⟩ := declaredBy_of_readFields hrest
    split at h
    · rename_i hconflicts
      rw [← Except.ok.inj h]
      exact ⟨⟨rfl, rfl, .of_faults htarget, hpositions.trans List.range_eq_range'.symm,
        hfields⟩, List.isEmpty_iff.mp hconflicts⟩
    · contradiction
  · contradiction

end Typestate.Derive
