import Typestate.Proofs.Target.Collecting

/-!
# The order of the checks

Finishing a description is a list of checks, one after another: the names and texts of the target,
then each argument, then each field that no argument stands for, then each field that is left alone.
The description is finished if all of them pass, and the first one that fails says what is answered.
Nothing after it is looked at, and neither is a field that an argument stands for.
-/

namespace Typestate

/-- Something that is looked at when a description is finished. -/
inductive Draft.Check where
  | identifier (role : NameRole) (name : String)
  | visibility (text : String)
  | constructor (path : String)
  /-- There are arguments for a constructor, but no constructor: this never passes. -/
  | undesignated (target : String)
  | memberName (name : String)
  | type (member text : String)
  | default (member text : String)
  | reference (member text : String)

open Draft (Check)

namespace Draft.Check

/-- What is wrong, if the check does not pass. -/
def fault? : Check → Option Error
  | identifier role name =>
    if isIdentifierText name then none else some (.target (.invalidName role name))
  | visibility text =>
    if (Grammar.readVisibility? text).isSome then none
    else some (.target (.malformedVisibility text))
  | constructor path =>
    if (Grammar.readPath? path).isSome then none else some (.target (.malformedConstructor path))
  | undesignated target => some (.target (.unresolvedConstructor target .undesignated))
  | memberName name => (nameFault? name).map fun fault => .member (.invalidName name fault)
  | type member text =>
    if (Grammar.readType? text).isSome then none else some (.member (.malformedType member text))
  | default member text =>
    if Unicode.isBlankText text then some (.member (.malformedDefault member text .blank))
    else if (Grammar.readExpression? text).isSome then none
    else some (.member (.malformedDefault member text .unreadable))
  | reference member text =>
    if (Grammar.readFieldReference? text).isSome then none
    else some (.member (.malformedField member text))

/-- What is wrong at the first check that does not pass. -/
def firstFault? (checks : List Check) : Option Error := checks.findSome? fault?

/-- The checks before the members are looked at. Without a constructor there may be no argument. -/
def header (target : String) (settings : Settings) (text : String) (path : Option String)
    (arguments : List MemberDraft) : List Check :=
  [identifier .target target, identifier .factory settings.factory] ++
    settings.builderName.toList.map (identifier .builder) ++
    settings.stagesModule.toList.map (identifier .stagesModule) ++
    [visibility text] ++
    match path with
    | some path => [constructor path]
    | none => if arguments = [] then [] else [undesignated target]

end Draft.Check

/-- The name of a member is checked first, then its type, then its default if it has one. -/
def MemberDraft.checks (draft : MemberDraft) : List Check :=
  [.memberName draft.name, .type draft.name draft.type] ++
    draft.fallback.text?.toList.map (.default draft.name)

/-- The reference of a field is checked before its member. -/
def FieldDraft.checks (draft : FieldDraft) : List Check :=
  .reference draft.member.name draft.reference :: draft.member.checks

/-- The reference of a field that is left alone is checked before its default. Errors are about the
field itself. -/
def FixedDraft.checks (draft : FixedDraft) : List Check :=
  .reference draft.reference draft.reference ::
    draft.default.toList.map (.default draft.reference)

/-- The checks of a description, in their order. -/
def Draft.Call.checks (name : String) (calls : List Call) : List Check :=
  Check.header name (settings calls) (visibility calls) (constructor calls) (arguments calls) ++
    (arguments calls).flatMap MemberDraft.checks ++
    (ownFields calls).flatMap FieldDraft.checks ++
    (fixed calls).flatMap FixedDraft.checks

/-! ### Computations that make checks -/

/-- The computation makes these checks in their order: it succeeds if all of them pass, and fails
with what is wrong at the first that does not. -/
structure Draft.Check.Governs {E A : Type} (rename : E → Error) (checks : List Check)
    (computation : Except E A) : Prop where
  pass : firstFault? checks = none → ∃ a, computation = .ok a
  fail : ∀ error, firstFault? checks = some error →
    ∃ fault, computation = .error fault ∧ rename fault = error

namespace Draft.Check

variable {E A B : Type} {rename : E → Error} {checks first second : List Check}

theorem firstFault?_cons (check : Check) (rest : List Check) :
    firstFault? (check :: rest) = check.fault?.or (firstFault? rest) := by
  rw [firstFault?, List.findSome?_cons, firstFault?]
  cases check.fault? <;> rfl

theorem firstFault?_append :
    firstFault? (first ++ second) = (firstFault? first).or (firstFault? second) :=
  List.findSome?_append

/-- What succeeds makes no checks. -/
theorem governs_ok (a : A) : Governs rename [] (.ok a) where
  pass := fun _ => ⟨a, rfl⟩
  fail := fun _ h => nomatch h

/-- A check comes before others if its fault is what the computation fails with. -/
theorem governs_cons {check : Check} {computation : Except E A}
    (hpass : check.fault? = none → Governs rename second computation)
    (hfail : ∀ error, check.fault? = some error →
      ∃ fault, computation = .error fault ∧ rename fault = error) :
    Governs rename (check :: second) computation := by
  constructor
  · intro h
    rw [firstFault?_cons, Option.or_eq_none_iff] at h
    exact (hpass h.1).pass h.2
  · intro error h
    rw [firstFault?_cons, Option.or_eq_some_iff] at h
    rcases h with h | ⟨hnone, h⟩
    · exact hfail error h
    · exact (hpass hnone).fail error h

/-- Checks are made one after another by computations that are. -/
theorem Governs.bind {computation : Except E A} {next : A → Except E B}
    (hfirst : Governs rename first computation) (hsecond : ∀ a, Governs rename second (next a)) :
    Governs rename (first ++ second) (computation >>= next) := by
  constructor
  · intro h
    rw [firstFault?_append, Option.or_eq_none_iff] at h
    obtain ⟨a, rfl⟩ := hfirst.pass h.1
    exact (hsecond a).pass h.2
  · intro error h
    rw [firstFault?_append, Option.or_eq_some_iff] at h
    rcases h with h | ⟨hnone, h⟩
    · obtain ⟨fault, rfl, hfault⟩ := hfirst.fail error h
      exact ⟨fault, rfl, hfault⟩
    · obtain ⟨a, rfl⟩ := hfirst.pass hnone
      exact (hsecond a).fail error h

/-- What is done with a result makes no more checks. -/
theorem Governs.bind_ok {computation : Except E A} (h : Governs rename first computation)
    (f : A → B) : Governs rename first (computation >>= fun a => .ok (f a)) := by
  simpa using h.bind fun a => governs_ok (f a)

/-- Errors of one kind are errors of any kind. -/
theorem Governs.mapError {computation : Except E A} (h : Governs rename first computation) :
    Governs id first (Except.mapError rename computation) := by
  constructor
  · intro hnone
    obtain ⟨a, rfl⟩ := h.pass hnone
    exact ⟨a, rfl⟩
  · intro error herror
    obtain ⟨fault, rfl, rfl⟩ := h.fail error herror
    exact ⟨_, rfl, rfl⟩

/-- Members that are numbered make the checks of each in turn. -/
theorem governs_number {make : A → ℕ → Except MemberError Member} {checks : A → List Check}
    (hmake : ∀ draft index, Governs .member (checks draft) (make draft index)) (drafts : List A)
    (start : ℕ) : Governs .member (drafts.flatMap checks) (number make start drafts) := by
  induction drafts generalizing start with
  | nil => exact governs_ok []
  | cons draft rest ih =>
    rw [List.flatMap_cons, number]
    exact (hmake draft start).bind fun member => (ih (start + 1)).bind_ok (member :: ·)

/-- Drafts that are looked at one after another make the checks of each in turn. -/
theorem governs_mapM {make : A → Except E B} {checks : A → List Check}
    (hmake : ∀ draft, Governs rename (checks draft) (make draft)) (drafts : List A) :
    Governs rename (drafts.flatMap checks) (drafts.mapM make) := by
  induction drafts with
  | nil => exact governs_ok []
  | cons draft rest ih =>
    rw [List.flatMap_cons, List.mapM_cons]
    exact (hmake draft).bind fun result => ih.bind_ok (result :: ·)

/-! ### The checks of a description -/

/-- A computation that makes one check. -/
theorem governs_single {check : Check} {computation : Except E A}
    (h : match check.fault? with
      | none => ∃ a, computation = .ok a
      | some error => ∃ fault, computation = .error fault ∧ rename fault = error) :
    Governs rename [check] computation := by
  refine governs_cons (fun hnone => ?_) fun error herror => ?_
  · rw [hnone] at h
    obtain ⟨a, rfl⟩ := h
    exact governs_ok a
  · rw [herror] at h
    exact h

theorem governs_checkName (role : NameRole) (name : String) :
    Governs .target [.identifier role name] (checkName role name) := by
  apply governs_single
  cases h : isIdentifierText name <;> simp [checkName, fault?, h]

/-- A name that is not given is not checked. -/
theorem governs_checkName? (role : NameRole) (name? : Option String) :
    Governs .target (name?.toList.map (.identifier role)) (checkName? role name?) := by
  cases name? with
  | none => exact governs_ok ()
  | some name => exact governs_checkName role name

theorem governs_checkVisibility (text : String) :
    Governs .target [.visibility text] (checkVisibility text) := by
  apply governs_single
  cases h : Grammar.readVisibility? text <;> simp [checkVisibility, fault?, h]

theorem governs_readType (member text : String) :
    Governs .member [.type member text] (TypeText.read member text) := by
  apply governs_single
  cases h : Grammar.readType? text <;> simp [TypeText.read, fault?, h]

theorem governs_readDefault (member text : String) :
    Governs .member [.default member text] (DefaultText.read member text) := by
  apply governs_single
  cases hblank : Unicode.isBlankText text
  · cases h : Grammar.readExpression? text <;> simp [DefaultText.read, fault?, hblank, h]
  · simp [DefaultText.read, fault?, hblank]

theorem governs_ofField (member reference : String) :
    Governs .member [.reference member reference] (Origin.ofField member reference) := by
  apply governs_single
  cases h : Grammar.readFieldReference? reference <;> simp [Origin.ofField, fault?, h]

/-- A default is checked only if it is given. -/
theorem governs_resolve (member : String) (fallback : Fallback) :
    Governs .member (fallback.text?.toList.map (.default member)) (fallback.resolve member) := by
  cases fallback with
  | required => exact governs_ok _
  | provided => exact governs_ok _
  | expression text => exact governs_readDefault member text

theorem governs_make (draft : MemberDraft) (index : ℕ) (origin : Origin) :
    Governs .member draft.checks
      (Member.make draft.name draft.type draft.fallback index origin) := by
  rw [MemberDraft.checks, List.cons_append, List.cons_append, List.nil_append]
  unfold Member.make
  refine governs_cons (fun hnone => ?_) fun error herror => ?_
  · rw [fault?, Option.map_eq_none_iff] at hnone
    rw [hnone]
    exact (governs_readType draft.name draft.type).bind fun type =>
      (governs_resolve draft.name draft.fallback).bind_ok _
  · obtain ⟨fault, hfault, rfl⟩ := Option.map_eq_some_iff.mp herror
    rw [hfault]
    exact ⟨_, rfl, rfl⟩

theorem governs_fieldMember (field : FieldDraft) (index : ℕ) :
    Governs .member field.checks (fieldMember field index) :=
  (governs_ofField field.member.name field.reference).bind fun origin =>
    governs_make field.member index origin

theorem governs_fixedField (field : FixedDraft) :
    Governs .member field.checks (fixedField field) := by
  refine (governs_ofField field.reference field.reference).bind fun _ => ?_
  cases field.default with
  | none => exact governs_ok _
  | some text => exact (governs_readDefault field.reference text).bind_ok _

/-- Arguments ask for a constructor. -/
theorem governs_construction (draft : Draft) :
    Governs .target
      (match draft.constructor with
        | some path => [.constructor path]
        | none => if draft.arguments = [] then [] else [.undesignated draft.target])
      draft.construction := by
  unfold construction
  cases draft.constructor with
  | some path =>
    apply governs_single
    cases h : Grammar.readPath? path <;> simp [fault?, h]
  | none =>
    by_cases hempty : draft.arguments = []
    · simpa [hempty] using governs_ok Construction.literal
    · have h : Governs .target [.undesignated draft.target]
          (.error (.unresolvedConstructor draft.target .undesignated) :
            Except TargetError Construction) := governs_single ⟨_, rfl, rfl⟩
      simpa [hempty] using h

theorem governs_checkHeader (draft : Draft) :
    Governs .target
      (header draft.target draft.settings draft.visibility draft.constructor draft.arguments)
      draft.checkHeader := by
  rw [checkHeader]
  have h := (governs_checkName .target draft.target).bind fun _ =>
    (governs_checkName .factory draft.settings.factory).bind fun _ =>
    (governs_checkName? .builder draft.settings.builderName).bind fun _ =>
    (governs_checkName? .stagesModule draft.settings.stagesModule).bind fun _ =>
    (governs_checkVisibility draft.visibility).bind fun _ => governs_construction draft
  simpa [header] using h

/-- Finishing a description makes the checks of its parts, one part after another. -/
theorem governs_finish (draft : Draft) :
    Governs id
      (header draft.target draft.settings draft.visibility draft.constructor draft.arguments ++
        draft.arguments.flatMap MemberDraft.checks ++
        draft.ownFields.flatMap FieldDraft.checks ++ draft.fixed.flatMap FixedDraft.checks)
      draft.finish := by
  have hmembers : Governs .member
      (draft.arguments.flatMap MemberDraft.checks ++ draft.ownFields.flatMap FieldDraft.checks)
      draft.members :=
    (governs_number (fun argument index => governs_make argument index .argument) _ 0).bind
      fun arguments => (governs_number governs_fieldMember _ _).bind_ok _
  have h := (governs_checkHeader draft).mapError.bind fun construction =>
    hmembers.mapError.bind fun members =>
    (governs_mapM governs_fixedField draft.fixed).mapError.bind_ok fun fixed =>
      Target.mk draft.target draft.visibility construction (.ofList members) fixed draft.settings
  rw [List.append_assoc] at h
  rwa [List.append_assoc, List.append_assoc]

/-- The calls for a target make its checks. -/
theorem governs_ofCalls (name : String) (calls : List Call) :
    Governs id (Call.checks name calls) (ofCalls name calls).finish := by
  have h := governs_finish (ofCalls name calls)
  rwa [target_ofCalls, settings_ofCalls, visibility_ofCalls, constructor_ofCalls,
    arguments_ofCalls, ownFields_ofCalls, fixed_ofCalls] at h

/-- A computation succeeds if all its checks pass. -/
theorem Governs.eq_ok_iff {computation : Except Error A} (h : Governs id checks computation) :
    (∃ a, computation = .ok a) ↔ ∀ check ∈ checks, check.fault? = none := by
  rw [← List.findSome?_eq_none_iff]
  constructor
  · intro ⟨a, ha⟩
    by_contra hsome
    obtain ⟨error, herror⟩ := Option.ne_none_iff_exists'.mp hsome
    obtain ⟨fault, hfault, -⟩ := h.fail error herror
    cases ha.symm.trans hfault
  · exact h.pass

/-- A computation fails with what is wrong at the first check that does not pass. -/
theorem Governs.eq_error_iff {computation : Except Error A} (h : Governs id checks computation)
    (error : Error) :
    computation = .error error ↔
      ∃ before check after, checks = before ++ check :: after ∧ check.fault? = some error ∧
        ∀ earlier ∈ before, earlier.fault? = none := by
  rw [← List.findSome?_eq_some_iff]
  constructor
  · intro herror
    cases hfirst : firstFault? checks with
    | none =>
      obtain ⟨a, ha⟩ := h.pass hfirst
      cases ha.symm.trans herror
    | some fault =>
      obtain ⟨same, hsame, rfl⟩ := h.fail fault hfirst
      rw [Except.error.inj (herror.symm.trans hsame)]
      exact hfirst
  · intro hfirst
    obtain ⟨same, hsame, rfl⟩ := h.fail error hfirst
    exact hsame

/-- Computations that make the same checks up to one that does not pass fail in the same way. -/
theorem Governs.congr_prefix {computation other : Except Error A} {before after rest : List Check}
    {check : Check} (h : Governs id (before ++ check :: after) computation)
    (hother : Governs id (before ++ check :: rest) other) (hcheck : check.fault? ≠ none) :
    other = computation := by
  obtain ⟨error, herror⟩ := Option.ne_none_iff_exists'.mp hcheck
  have hcut : ∀ checks, firstFault? (before ++ check :: checks) = (firstFault? before).or error := by
    intro checks
    rw [firstFault?_append, firstFault?_cons, herror, Option.some_or]
  obtain ⟨first, hfirst⟩ : ∃ first, (firstFault? before).or error = some first := by
    cases firstFault? before <;> simp
  obtain ⟨fault, rfl, hfault⟩ := h.fail first ((hcut after).trans hfirst)
  obtain ⟨fault', rfl, hfault'⟩ := hother.fail first ((hcut rest).trans hfirst)
  rw [id_eq] at hfault hfault'
  rw [hfault, hfault']

end Draft.Check

namespace Draft

open Check

/-- **The first fault.** A description is finished if all its checks pass, and otherwise the first
check that does not pass says what is wrong. What comes after that check does not change the answer,
and neither do fields that an argument stands for, whatever is wrong with them. -/
theorem finish_first_fault (name : String) (calls : List Call) :
    ((∃ target, (ofCalls name calls).finish = .ok target) ↔
        ∀ check ∈ Call.checks name calls, check.fault? = none) ∧
      (∀ error, (ofCalls name calls).finish = .error error ↔
        ∃ before check after, Call.checks name calls = before ++ check :: after ∧
          check.fault? = some error ∧ ∀ earlier ∈ before, earlier.fault? = none) ∧
      (∀ otherName others before check after rest,
        Call.checks name calls = before ++ check :: after → check.fault? ≠ none →
          Call.checks otherName others = before ++ check :: rest →
            (ofCalls otherName others).finish = (ofCalls name calls).finish) ∧
      ∀ others, Call.withoutShadowed others = Call.withoutShadowed calls →
        (ofCalls name others).finish = (ofCalls name calls).finish := by
  have hgoverns := governs_ofCalls name calls
  refine ⟨hgoverns.eq_ok_iff, hgoverns.eq_error_iff, ?_, fun others => finish_congr_shadowed⟩
  intro otherName others before check after rest hchecks hcheck hother
  have hgovernsOther := governs_ofCalls otherName others
  rw [hchecks] at hgoverns
  rw [hother] at hgovernsOther
  exact hgoverns.congr_prefix hgovernsOther hcheck

/-- Calls for an order with several faults: the field that is left alone has neither a name nor an
index, an argument stands for a field of which nothing can be read, and neither the reference nor the
name nor the type of the other field is in order. -/
def faultyOrderCalls : List Call :=
  [.addFixed ⟨"7x", some ""⟩,
    .addField ⟨⟨"id", "<", .required⟩, "!"⟩,
    .withConstructor "new",
    .addField ⟨⟨"fn", "<", .expression ""⟩, "0u8"⟩,
    .addArgument ⟨"id", "u64", .required⟩]

/-- The same calls without the faults that come after the first one. -/
def mendedOrderCalls : List Call :=
  [.addField ⟨⟨"id", "<", .required⟩, "!"⟩,
    .withConstructor "new",
    .addField ⟨⟨"fn", "u8", .required⟩, "0u8"⟩,
    .addArgument ⟨"id", "u64", .required⟩]

theorem finish_first_fault_orderCalls :
    ∃ before check after rest,
      Call.checks "Order" faultyOrderCalls = before ++ check :: after ∧
        Call.checks "Order" mendedOrderCalls = before ++ check :: rest ∧
        check.fault? = some (.member (.malformedField "fn" "0u8")) ∧
        (ofCalls "Order" faultyOrderCalls).finish =
          .error (.member (.malformedField "fn" "0u8")) ∧
        (ofCalls "Order" mendedOrderCalls).finish = (ofCalls "Order" faultyOrderCalls).finish ∧
        (ofCalls "Order" (Call.withoutShadowed faultyOrderCalls)).finish =
          (ofCalls "Order" faultyOrderCalls).finish := by
  obtain ⟨-, herror, hlater, hshadowed⟩ := finish_first_fault "Order" faultyOrderCalls
  let before : List Check :=
    [.identifier .target "Order", .identifier .factory "builder", .visibility "",
      .constructor "new", .memberName "id", .type "id" "u64"]
  have hbefore : ∀ check ∈ before, check.fault? = none := by decide +kernel
  have hcheck : (Check.reference "fn" "0u8").fault? =
      some (.member (.malformedField "fn" "0u8")) := by decide +kernel
  refine ⟨before, .reference "fn" "0u8", _, _, rfl, rfl, hcheck, ?_, ?_, hshadowed _ rfl⟩
  · exact (herror _).mpr ⟨before, _, _, rfl, hcheck, hbefore⟩
  · exact hlater "Order" mendedOrderCalls before _ _ _ rfl (by simp [hcheck]) rfl

end Draft

end Typestate
