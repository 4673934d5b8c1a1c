import Mathlib.Control.Monad.Basic
import Mathlib.Data.List.Forall2
import Typestate.Target.Draft

/-!
# Accepted members

The members of a target are made one after another from its description, so each of them has passed
the checks of a member, and its name in upper camel case is that of its name.
-/

namespace Typestate

/-- What two computations give that both succeed. -/
theorem bind_eq_ok {E A B : Type} {first : Except E A} {next : A → Except E B} {b : B} :
    (first >>= next) = .ok b ↔ ∃ a, first = .ok a ∧ next a = .ok b := by
  cases first with
  | error error => simp [bind, Except.bind]
  | ok a => simp [bind, Except.bind]

/-- Putting an error differently does not change what succeeds. -/
theorem mapError_eq_ok {D E A : Type} {rename : D → E} {computation : Except D A} {a : A} :
    Except.mapError rename computation = .ok a ↔ computation = .ok a := by
  cases computation with
  | error error =>
    constructor
    · intro h
      contradiction
    · intro h
      contradiction
  | ok found =>
    change Except.ok found = .ok a ↔ _
    rw [Except.ok.injEq, Except.ok.injEq]

/-- Results of computations that all succeed belong to their drafts. -/
theorem forall₂_of_mapM_eq_ok {E A B : Type} {make : A → Except E B} {drafts : List A}
    {results : List B} (h : drafts.mapM make = .ok results) :
    List.Forall₂ (fun draft result => make draft = .ok result) drafts results := by
  induction drafts generalizing results with
  | nil =>
    rw [← Except.ok.inj h]
    exact .nil
  | cons draft rest ih =>
    rw [List.mapM_cons] at h
    obtain ⟨result, hfirst, hothers⟩ := bind_eq_ok.mp h
    obtain ⟨others, hrest, hcons⟩ := bind_eq_ok.mp hothers
    rw [← Except.ok.inj hcons]
    exact .cons hfirst (ih hrest)

/-- What results have in common with their drafts one by one, they have as lists. -/
theorem map_eq_of_forall₂ {A B C : Type} {whole : B → C} {part : A → C} {drafts : List A}
    {results : List B} (h : List.Forall₂ (fun draft result => whole result = part draft) drafts
      results) : results.map whole = drafts.map part := by
  rw [← List.forall₂_eq_eq_eq, List.forall₂_map_left_iff, List.forall₂_map_right_iff]
  exact h.flip

/-- Sorting a list that is in order changes nothing. -/
theorem MemberList.ofList_toList (members : MemberList) : .ofList members.toList = members := by
  have hsame : members.toList.mergeSort (fun first second => first.index ≤ second.index) =
      members.toList := by
    refine List.mergeSort_of_pairwise (members.sorted.imp fun hle => ?_)
    simpa using hle
  cases members
  simp only [MemberList.ofList, MemberList.mk.injEq]
  exact hsame

/-- The member is one that is made without a fault. -/
def Member.Accepted (member : Member) : Prop :=
  ∃ name type fallback index origin, Member.make name type fallback index origin = .ok member

/-- What a member is made of. -/
theorem Member.make_eq_ok {name type : String} {fallback : Fallback} {index : Nat} {origin : Origin}
    {member : Member} :
    Member.make name type fallback index origin = .ok member ↔
      nameFault? name = none ∧ ∃ readType readDefault, TypeText.read name type = .ok readType ∧
        fallback.resolve name = .ok readDefault ∧
        member = ⟨name, Typestate.displayName name, readType, fallback = .required, index,
          readDefault, origin⟩ := by
  unfold Member.make
  cases nameFault? name with
  | some fault => simp [throw, throwThe, MonadExceptOf.throw]
  | none =>
    cases TypeText.read name type with
    | error error => simp [bind, Except.bind]
    | ok readType =>
      cases fallback.resolve name with
      | error error => simp [bind, Except.bind]
      | ok readDefault => simp [bind, Except.bind, pure, Except.pure, eq_comm]

/-- The name of an accepted member is an identifier. -/
theorem Member.Accepted.isIdentifierText_name {member : Member} (h : member.Accepted) :
    isIdentifierText member.name = true := by
  obtain ⟨name, type, fallback, index, origin, hmake⟩ := h
  obtain ⟨hfault, readType, readDefault, -, -, rfl⟩ := Member.make_eq_ok.mp hmake
  change isIdentifierText name = true
  unfold nameFault? at hfault
  split at hfault
  · contradiction
  · split at hfault
    · contradiction
    · rename_i hidentifier
      simpa using hidentifier

/-- The name in upper camel case of an accepted member is that of its name. -/
theorem Member.Accepted.displayName_eq {member : Member} (h : member.Accepted) :
    member.displayName = Typestate.displayName member.name := by
  obtain ⟨name, type, fallback, index, origin, hmake⟩ := h
  obtain ⟨-, readType, readDefault, -, -, rfl⟩ := Member.make_eq_ok.mp hmake
  rfl

/-- A required member is accepted if its name and its type can be read. -/
theorem Member.accepted_of_required {name type text : String} {index : Nat} {origin : Origin}
    (hname : nameFault? name = none)
    (htype : (Grammar.readType? type).map Grammar.Node.render = some text) :
    (Member.mk name (Typestate.displayName name) ⟨text⟩ true index .provided origin).Accepted := by
  obtain ⟨node, hnode, hrender⟩ := Option.map_eq_some_iff.mp htype
  refine ⟨name, type, .required, index, origin, Member.make_eq_ok.mpr
    ⟨hname, ⟨text⟩, .provided, ?_, rfl, rfl⟩⟩
  rw [TypeText.read, hnode, ← hrender]

namespace Draft

/-- Numbered members belong to their drafts, each with its number. -/
theorem forall₂_of_number {A : Type} {make : A → ℕ → Except MemberError Member} {first : ℕ}
    {drafts : List A} {members : List Member} (h : number make first drafts = .ok members) :
    List.Forall₂ (fun entry member => make entry.1 entry.2 = .ok member) (drafts.zipIdx first)
      members := by
  induction drafts generalizing first members with
  | nil =>
    rw [← Except.ok.inj h]
    exact .nil
  | cons a rest ih =>
    obtain ⟨member, hfirst, hothers⟩ := bind_eq_ok.mp h
    obtain ⟨others, hrest, hcons⟩ := bind_eq_ok.mp hothers
    rw [← Except.ok.inj hcons, List.zipIdx_cons]
    exact .cons hfirst (ih hrest)

/-- Members that are numbered one after another are accepted if each of them is. -/
theorem number_accepted {A : Type} {make : A → Nat → Except MemberError Member}
    (hmake : ∀ draft index member, make draft index = .ok member → member.Accepted)
    {first : Nat} {drafts : List A} {members : List Member}
    (hnumber : number make first drafts = .ok members) : ∀ member ∈ members, member.Accepted := by
  have haccepted := (forall₂_of_number hnumber).flip.imp fun member entry hmember =>
    And.intro (hmake entry.1 entry.2 member hmember) hmember
  exact (List.forall₂_and_left _ _).mp haccepted |>.1

/-- The members of a description are accepted ones. -/
theorem members_accepted {draft : Draft} {members : List Member}
    (h : draft.members = .ok members) : ∀ member ∈ members, member.Accepted := by
  obtain ⟨arguments, harguments, hrest⟩ := bind_eq_ok.mp h
  obtain ⟨fields, hfields, hmembers⟩ := bind_eq_ok.mp hrest
  rw [← Except.ok.inj hmembers]
  refine List.forall_mem_append.mpr ⟨number_accepted ?_ harguments, number_accepted ?_ hfields⟩
  · intro argument index member hmake
    exact ⟨_, _, _, _, _, hmake⟩
  · intro field index member hmake
    obtain ⟨origin, -, hmake⟩ := bind_eq_ok.mp hmake
    exact ⟨_, _, _, _, _, hmake⟩

/-- A description is finished if its parts are in order one by one. -/
theorem finish_of_parts {draft : Draft} {construction : Construction} (members : MemberList)
    {fixed : List FixedField} (hheader : Error.ofTarget draft.checkHeader = .ok construction)
    (hmembers : Error.ofMember draft.members = .ok members.toList)
    (hfixed : Error.ofMember (draft.fixed.mapM fixedField) = .ok fixed) :
    draft.finish = .ok
      { name := draft.target
        visibility := draft.visibility
        construction := construction
        members := members
        fixed := fixed
        settings := draft.settings } := by
  refine bind_eq_ok.mpr ⟨_, hheader, bind_eq_ok.mpr ⟨_, hmembers, bind_eq_ok.mpr ⟨_, hfixed, ?_⟩⟩⟩
  rw [MemberList.ofList_toList]
  rfl

/-- The parts of a description that is finished are in order one by one. -/
theorem parts_of_finish {draft : Draft} {target : Target} (h : draft.finish = .ok target) :
    ∃ construction members fixed, draft.checkHeader = .ok construction ∧
      draft.members = .ok members ∧ draft.fixed.mapM fixedField = .ok fixed ∧
      target =
        { name := draft.target
          visibility := draft.visibility
          construction := construction
          members := .ofList members
          fixed := fixed
          settings := draft.settings } := by
  obtain ⟨construction, hheader, h⟩ := bind_eq_ok.mp h
  obtain ⟨members, hmembers, h⟩ := bind_eq_ok.mp h
  obtain ⟨fixed, hfixed, h⟩ := bind_eq_ok.mp h
  exact ⟨construction, members, fixed, mapError_eq_ok.mp hheader, mapError_eq_ok.mp hmembers,
    mapError_eq_ok.mp hfixed, (Except.ok.inj h).symm⟩

/-- The header of a description is in order if all it says is. -/
theorem checkHeader_eq_ok {draft : Draft} {construction : Construction} :
    draft.checkHeader = .ok construction ↔
      checkName .target draft.target = .ok () ∧ checkName .factory draft.settings.factory = .ok () ∧
        checkName? .builder draft.settings.builderName = .ok () ∧
        checkName? .stagesModule draft.settings.stagesModule = .ok () ∧
        checkVisibility draft.visibility = .ok () ∧ draft.construction = .ok construction := by
  simp only [checkHeader, bind_eq_ok, Unique.exists_iff, PUnit.default_eq_unit]

/-- The members of a target are accepted ones. -/
theorem finish_accepted {draft : Draft} {target : Target} (h : draft.finish = .ok target) :
    ∀ member ∈ target.members.toList, member.Accepted := by
  obtain ⟨construction, members, fixed, -, hmembers, -, rfl⟩ := parts_of_finish h
  intro member hmember
  apply members_accepted hmembers member
  exact List.mem_mergeSort.mp hmember

end Draft

end Typestate
