import Typestate.Proofs.Code.Generated

/-!
# What the artifacts depend on

Each artifact says only what it is about. The stages module knows the members by their names, their
indexes and whether they have to be supplied; the builder also knows their types and where their
values end up, and the factory the defaults of those that may be left out. Two targets that agree on
this have the same artifact, whatever else they say.
-/

namespace Typestate

/-! ### Agreement -/

/-- The members are alike for the stages of a builder. -/
structure Member.SameOutline (first second : Member) : Prop where
  name : first.name = second.name
  index : first.index = second.index
  mandatory : first.mandatory = second.mandatory

/-- The members are alike for the stages, also in their names in upper camel case. -/
structure Member.SameDisplay (first second : Member) : Prop extends SameOutline first second where
  displayName : first.displayName = second.displayName

/-- The members are alike for the slots of a builder. -/
structure Member.SameSlot (first second : Member) : Prop extends SameOutline first second where
  type : first.type = second.type
  origin : first.origin = second.origin

/-- The members are alike for the factory, which asks for the default of a member only if it may be
left out. -/
structure Member.SameSeed (first second : Member) : Prop extends SameOutline first second where
  default : first.mandatory = false → first.default = second.default

namespace Target

/-- The targets agree on what the stages module says. -/
structure AgreeOnStages (first second : Target) : Prop where
  name : first.name = second.name
  visibility : first.visibility = second.visibility
  stagesModule : first.stagesModule = second.stagesModule
  members : List.Forall₂ Member.SameOutline first.members.toList second.members.toList

/-- The targets agree on what the builder says. Fields that are left alone are mentioned only where
the value is made without a constructor. -/
structure AgreeOnBuilder (first second : Target) : Prop where
  name : first.name = second.name
  visibility : first.visibility = second.visibility
  stagesModule : first.stagesModule = second.stagesModule
  builderName : first.builderName = second.builderName
  members : List.Forall₂ Member.SameSlot first.members.toList second.members.toList
  construction : first.construction = second.construction
  fixed : first.construction = .literal → first.fixed = second.fixed

/-- The targets agree on what the factory says. -/
structure AgreeOnFactory (first second : Target) : Prop where
  name : first.name = second.name
  visibility : first.visibility = second.visibility
  stagesModule : first.stagesModule = second.stagesModule
  builderName : first.builderName = second.builderName
  factory : first.settings.factory = second.settings.factory
  members : List.Forall₂ Member.SameSeed first.members.toList second.members.toList

variable {first second : Target}

theorem AgreeOnBuilder.agreeOnStages (h : first.AgreeOnBuilder second) :
    first.AgreeOnStages second :=
  ⟨h.name, h.visibility, h.stagesModule, h.members.imp fun _ _ same => same.toSameOutline⟩

theorem AgreeOnFactory.agreeOnStages (h : first.AgreeOnFactory second) :
    first.AgreeOnStages second :=
  ⟨h.name, h.visibility, h.stagesModule, h.members.imp fun _ _ same => same.toSameOutline⟩

end Target

/-! ### Lists of members -/

section Alike

variable {alike : Member → Member → Prop} {first second : List Member}
  (h : List.Forall₂ alike first second)
include h

/-- What members that are alike have in common, they have as lists. -/
theorem map_eq_of_alike {A : Type} {f : Member → A}
    (hf : ∀ {one other : Member}, alike one other → f one = f other) :
    first.map f = second.map f := by
  have hmap : second.map f = first.map f :=
    map_eq_of_forall₂ (h.imp fun _ _ hboth => (hf hboth).symm)
  exact hmap.symm

/-- Members that are alike in what they are chosen for have the chosen ones in common. -/
theorem map_filter_eq_of_alike {A : Type} {p : Member → Bool} {f : Member → A}
    (hp : ∀ {one other : Member}, alike one other → p one = p other)
    (hf : ∀ {one other : Member}, alike one other → f one = f other) :
    (first.filter p).map f = (second.filter p).map f := by
  have hpairs : ∀ members : List Member, (members.filter p).map f =
      ((members.map fun member => (p member, f member)).filter Prod.fst).map Prod.snd := by
    intro members
    rw [List.filter_map, List.map_map]
    rfl
  rw [hpairs, hpairs, map_eq_of_alike h fun hboth => Prod.ext (hp hboth) (hf hboth)]

/-- What is made of some of the members, it is made of those that are alike. -/
theorem filterMap_eq_of_alike {A : Type} {f : Member → Option A}
    (hf : ∀ {one other : Member}, alike one other → f one = f other) :
    first.filterMap f = second.filterMap f := by
  have hmap := congrArg (List.filterMap id) (map_eq_of_alike h hf)
  rwa [List.filterMap_map, List.filterMap_map, Function.id_comp] at hmap

/-- Accepted members with the same names have the same names in upper camel case. -/
theorem forall₂_and_displayName_eq
    (hname : ∀ {one other : Member}, alike one other → one.name = other.name)
    (hfirst : ∀ member ∈ first, member.Accepted) (hsecond : ∀ member ∈ second, member.Accepted) :
    List.Forall₂ (fun one other => alike one other ∧ one.displayName = other.displayName) first
      second := by
  have hleft := (List.forall₂_and_left _ _).mpr ⟨hfirst, h⟩
  have hboth := (List.forall₂_and_left _ _).mpr ⟨hsecond, hleft.flip⟩
  refine hboth.flip.imp fun one other ⟨hother, hone, same⟩ => ⟨same, ?_⟩
  rw [hone.displayName_eq, hother.displayName_eq, hname same]

end Alike

/-- What is said of the member of an index is said of a member of the list with that index. -/
theorem MemberList.Distinct.map_get?_eq_some {members : MemberList} (h : members.Distinct)
    {A : Type} {f : Member → A} {index : ℕ} {a : A} :
    (members.get? index).map f = some a ↔
      (index, a) ∈ members.toList.map fun member => (member.index, f member) := by
  rw [Option.map_eq_some_iff, List.mem_map]
  refine exists_congr fun member => ?_
  rw [h.get?_eq_some, Prod.mk.injEq, and_assoc]

/-- Two lists of members that are alike for the stages, each of which has a lattice. -/
structure MemberList.Match (first second : MemberList) : Prop where
  first_distinct : first.Distinct
  second_distinct : second.Distinct
  alike : List.Forall₂ Member.SameDisplay first.toList second.toList

namespace MemberList.Match

variable {first second : MemberList} (h : first.Match second)
include h

/-- The members of an index are alike. -/
theorem map_get?_eq {A : Type} {f : Member → A}
    (hf : ∀ {one other : Member}, one.SameDisplay other → f one = f other) (index : ℕ) :
    (first.get? index).map f = (second.get? index).map f := by
  refine Option.ext fun a => ?_
  rw [h.first_distinct.map_get?_eq_some, h.second_distinct.map_get?_eq_some,
    map_eq_of_alike h.alike fun same => Prod.ext same.index (hf same)]

/-- The members of a set are alike. -/
theorem map_members_eq {A : Type} {f : Member → A}
    (hf : ∀ {one other : Member}, one.SameDisplay other → f one = f other) (supplied : IndexSet) :
    (supplied.members first).map f = (supplied.members second).map f := by
  rw [IndexSet.members, IndexSet.members, List.map_filterMap, List.map_filterMap,
    funext (h.map_get?_eq hf)]

/-- The marker of a stage is the same. -/
theorem marker_eq (key : StageKey) : Naming.marker key first = Naming.marker key second := by
  cases key with
  | complete => rfl
  | after supplied =>
    rw [Naming.marker, Naming.marker, h.map_members_eq fun same => same.displayName]

/-- The members have the same indexes, mandatory ones and others. -/
theorem roster_eq : first.roster h.first_distinct = second.roster h.second_distinct := by
  have hmandatory : first.mandatoryIndexes = second.mandatoryIndexes :=
    map_filter_eq_of_alike h.alike (fun same => same.mandatory) fun same => same.index
  have hoptional : first.optionalIndexes = second.optionalIndexes :=
    map_filter_eq_of_alike h.alike (fun same => by rw [same.mandatory]) fun same => same.index
  simp only [roster, hmandatory, hoptional]

/-- The search for stages finds the same. -/
theorem lattice_stages_eq :
    (first.lattice h.first_distinct).stages = (second.lattice h.second_distinct).stages := by
  rw [lattice_stages, lattice_stages, h.roster_eq]

/-- A builder begins in the same stage. -/
theorem lattice_root_eq :
    (first.lattice h.first_distinct).root = (second.lattice h.second_distinct).root := by
  rw [lattice, lattice, h.roster_eq]

/-- A step out of a stage is the same. -/
theorem transition?_eq (edge : Edge) :
    StageMarker.transition? first edge = StageMarker.transition? second edge := by
  rw [StageMarker.transition?, StageMarker.transition?, h.marker_eq]
  refine h.map_get?_eq (fun same => ?_) edge.member
  rw [Naming.memberTrait, Naming.memberTrait, same.displayName]

/-- The marker type of a stage is the same. -/
theorem ofStage_eq (stage : Stage) : StageMarker.ofStage first stage = .ofStage second stage := by
  rw [StageMarker.ofStage, StageMarker.ofStage, h.marker_eq, h.map_members_eq fun same => same.name,
    funext h.transition?_eq]

end MemberList.Match

/-- The fields that are set from slots are the same. -/
theorem assignments_eq_of_alike {first second : MemberList}
    (h : List.Forall₂ Member.SameSlot first.toList second.toList) :
    BuildBody.assignments first = BuildBody.assignments second := by
  have hnames : first.fields.map (fun field => (field.1.name, field.2)) =
      second.fields.map fun field => (field.1.name, field.2) := by
    rw [MemberList.fields, MemberList.fields, List.map_filterMap, List.map_filterMap]
    refine filterMap_eq_of_alike h fun {one other} same => ?_
    rw [same.origin]
    cases other.origin with
    | argument => rfl
    | field reference => exact congrArg (fun name => some (name, reference)) same.name
  have hread := congrArg (List.mapM fun field : String × String => do
    return Assignment.mk (← fieldOf field.1 field.2) field.1) hnames
  rwa [List.mapM_map, List.mapM_map] at hread

/-! ### Items -/

/-- The names with another one for the factory. -/
def Naming.withFactory (naming : Naming) (factory : String) : Naming :=
  { naming with factory := factory }

/-- The code of a builder does not say how the factory is called. -/
theorem BuilderType.tokens_withFactory (naming : Naming) (factory root : String)
    (slots : List Slot) (body : BuildBody) :
    BuilderType.tokens ⟨naming.withFactory factory, root, slots, body⟩ =
      BuilderType.tokens ⟨naming, root, slots, body⟩ := rfl

namespace Target

variable {first second : Target}

/-- The members of targets that agree match if they are accepted and differ from each other. -/
theorem AgreeOnStages.match_members (h : first.AgreeOnStages second)
    (hfirst : ∀ member ∈ first.members.toList, member.Accepted)
    (hsecond : ∀ member ∈ second.members.toList, member.Accepted)
    (hone : first.members.Distinct) (hother : second.members.Distinct) :
    first.members.Match second.members where
  first_distinct := hone
  second_distinct := hother
  alike := by
    refine (forall₂_and_displayName_eq h.members (fun same => same.name) hfirst hsecond).imp ?_
    exact fun _ _ ⟨same, hdisplay⟩ => ⟨same, hdisplay⟩

/-- The module of the stages is the same. -/
theorem AgreeOnStages.stageModule_eq (h : first.AgreeOnStages second)
    (hmembers : first.members.Match second.members) :
    StageModule.ofLattice first (.ofTarget first) (first.members.lattice hmembers.first_distinct) =
      .ofLattice second (.ofTarget second)
        (second.members.lattice hmembers.second_distinct) := by
  have htraits : first.members.toList.map MemberTrait.ofMember =
      second.members.toList.map MemberTrait.ofMember := by
    refine map_eq_of_alike hmembers.alike fun same => ?_
    rw [MemberTrait.ofMember, MemberTrait.ofMember, Naming.memberTrait, Naming.memberTrait,
      same.displayName, same.name]
  have hmarkers : (first.members.lattice hmembers.first_distinct).stages.map
        (StageMarker.ofStage first.members) =
      (second.members.lattice hmembers.second_distinct).stages.map
        (StageMarker.ofStage second.members) := by
    rw [hmembers.lattice_stages_eq, funext hmembers.ofStage_eq]
  simp only [StageModule.ofLattice, Naming.ofTarget, MemberList.lattice] at hmarkers ⊢
  rw [htraits, hmarkers, h.name, h.visibility, h.stagesModule]

/-- The value is built in the same way. -/
theorem AgreeOnBuilder.body_eq (h : first.AgreeOnBuilder second) :
    BuildBody.ofTarget first = BuildBody.ofTarget second := by
  have harguments : first.members.arguments.map Member.name =
      second.members.arguments.map Member.name :=
    map_filter_eq_of_alike h.members (fun same => by rw [same.origin]) fun same => same.name
  rw [BuildBody.ofTarget, BuildBody.ofTarget, assignments_eq_of_alike h.members, harguments,
    ← h.construction, h.name]
  cases hconstruction : first.construction with
  | literal => rw [h.fixed hconstruction]
  | function path => rfl

/-- The slots of the builder are the same. -/
theorem AgreeOnBuilder.slots_eq (h : first.AgreeOnBuilder second)
    (hfirst : ∀ member ∈ first.members.toList, member.Accepted)
    (hsecond : ∀ member ∈ second.members.toList, member.Accepted) :
    first.members.toList.map Slot.ofMember = second.members.toList.map Slot.ofMember := by
  have hmembers :=
    forall₂_and_displayName_eq h.members (fun same => same.name) hfirst hsecond
  refine map_eq_of_alike hmembers fun ⟨same, hdisplay⟩ => ?_
  rw [Slot.ofMember, Slot.ofMember, Naming.method, Naming.method, Naming.memberTrait,
    Naming.memberTrait, same.name, same.type, same.mandatory, hdisplay]

/-- The names of the items are the same but for the factory. -/
theorem AgreeOnBuilder.naming_eq (h : first.AgreeOnBuilder second) :
    Naming.ofTarget first = (Naming.ofTarget second).withFactory first.settings.factory := by
  rw [Naming.withFactory, Naming.ofTarget, Naming.ofTarget, h.name, h.visibility, h.builderName,
    h.stagesModule]

/-- The names of the items are the same. -/
theorem AgreeOnFactory.naming_eq (h : first.AgreeOnFactory second) :
    Naming.ofTarget first = Naming.ofTarget second := by
  rw [Naming.ofTarget, Naming.ofTarget, h.name, h.visibility, h.builderName, h.stagesModule,
    h.factory]

/-- What the slots hold from the start is the same. -/
theorem AgreeOnFactory.seeds_eq (h : first.AgreeOnFactory second) :
    first.members.toList.map (fun member => (member.name, Seed.ofMember member)) =
      second.members.toList.map fun member => (member.name, Seed.ofMember member) := by
  refine map_eq_of_alike h.members fun {one other} same => ?_
  rw [Seed.ofMember, Seed.ofMember, same.name, same.mandatory]
  cases hmandatory : other.mandatory with
  | true => rfl
  | false => rw [same.default (same.mandatory.trans hmandatory)]

end Target

/-! ### Artifacts -/

/-- The three artifacts, each known by what it holds. -/
theorem Generated.artifact?_eq (generated : Generated) (kind : ArtifactKind) :
    generated.artifact? kind = some
      { target := generated.target.name
        kind := kind
        tokens := match kind with
          | .interfaces => generated.stageModule.tokens
          | .builder => generated.builderType.tokens
          | .factory => generated.factory.tokens } := by
  cases kind <;> rfl

/-- Each artifact depends on nothing but what it is about: targets that agree on that have the same
artifact, which is there for both. -/
theorem artifacts_eq_of_agree {firstDraft secondDraft : Draft} {first second : Target}
    (hfirst : firstDraft.finish = .ok first) (hsecond : secondDraft.finish = .ok second)
    {firstCancelled secondCancelled : Bool} {one other : Generated}
    (hone : generate first firstCancelled = .ok one)
    (hother : generate second secondCancelled = .ok other) :
    (first.AgreeOnStages second → ∃ artifact, one.artifact? .interfaces = some artifact ∧
      other.artifact? .interfaces = some artifact) ∧
    (first.AgreeOnBuilder second → ∃ artifact, one.artifact? .builder = some artifact ∧
      other.artifact? .builder = some artifact) ∧
    (first.AgreeOnFactory second → ∃ artifact, one.artifact? .factory = some artifact ∧
      other.artifact? .factory = some artifact) := by
  have hfirstAccepted := Draft.finish_accepted hfirst
  have hsecondAccepted := Draft.finish_accepted hsecond
  obtain ⟨oneBody, honeLattice, honeTarget, honeStages, honeBuilder, honeFactory, honeBody⟩ :=
    generate_eq_ok hone
  obtain ⟨otherBody, hotherLattice, hotherTarget, hotherStages, hotherBuilder, hotherFactory,
    hotherBody⟩ := generate_eq_ok hother
  obtain ⟨honeDistinct, -, -, honeLattice⟩ := Lattice.build_eq_ok.mp honeLattice
  obtain ⟨hotherDistinct, -, -, hotherLattice⟩ := Lattice.build_eq_ok.mp hotherLattice
  -- The builder and the factory both name the stage in which a builder begins.
  have hroot : first.AgreeOnStages second →
      Naming.marker one.lattice.root one.lattice.members =
        Naming.marker other.lattice.root other.lattice.members := by
    intro h
    have hmembers := h.match_members hfirstAccepted hsecondAccepted honeDistinct hotherDistinct
    rw [honeLattice, hotherLattice, hmembers.lattice_root_eq]
    exact hmembers.marker_eq _
  refine ⟨?interfaces, ?builder, ?factory⟩
  case interfaces =>
    intro h
    have hmembers := h.match_members hfirstAccepted hsecondAccepted honeDistinct hotherDistinct
    have htokens : one.stageModule.tokens = other.stageModule.tokens := by
      rw [honeStages, hotherStages, honeLattice, hotherLattice, h.stageModule_eq hmembers]
    refine ⟨_, Generated.artifact?_eq .., ?_⟩
    simp only [Generated.artifact?_eq, honeTarget, hotherTarget, h.name, htokens]
  case builder =>
    intro h
    have hbody : oneBody = otherBody :=
      Except.ok.inj (honeBody.symm.trans (h.body_eq.trans hotherBody))
    have htokens : one.builderType.tokens = other.builderType.tokens := by
      rw [honeBuilder, hotherBuilder, hbody, h.naming_eq, hroot h.agreeOnStages,
        h.slots_eq hfirstAccepted hsecondAccepted, BuilderType.tokens_withFactory]
    refine ⟨_, Generated.artifact?_eq .., ?_⟩
    simp only [Generated.artifact?_eq, honeTarget, hotherTarget, h.name, htokens]
  case factory =>
    intro h
    have htokens : one.factory.tokens = other.factory.tokens := by
      rw [honeFactory, hotherFactory, Factory.ofLattice, Factory.ofLattice, h.naming_eq, h.seeds_eq,
        hroot h.agreeOnStages]
    refine ⟨_, Generated.artifact?_eq .., ?_⟩
    simp only [Generated.artifact?_eq, honeTarget, hotherTarget, h.name, htokens]

/-! ### Two orders -/

/-- An order with a number and a note, made by a constructor that sets a channel by itself. The
number of stages and the value of the channel make no difference to what is generated. -/
def orderDraft (channel : String) (limit : ℕ) : Draft where
  target := "Order"
  constructor := some "make"
  arguments := [⟨"id", "u64", .required⟩]
  fields := [⟨⟨"note", "String", .provided⟩, "note"⟩]
  fixed := [⟨"channel", some channel⟩]
  settings := { stageLimit := limit }

/-- The members of an order. -/
def orderMembers : MemberList where
  toList := [⟨"id", "Id", ⟨"u64"⟩, true, 0, .provided, .argument⟩,
    ⟨"note", "Note", ⟨"String"⟩, false, 1, .provided, .field "note"⟩]
  sorted := by simp

/-- The target that is described. -/
def orderTarget (channel : String) (limit : ℕ) : Target where
  name := "Order"
  visibility := ""
  construction := .function "make"
  members := orderMembers
  fixed := [⟨"channel", ⟨channel, false⟩⟩]
  settings := { stageLimit := limit }

/-- Two orders that differ in the limit and in a field left to the constructor have the same
artifacts. -/
theorem artifacts_orderTarget :
    ∃ one other,
      (orderDraft "1" 8).finish = .ok (orderTarget "1" 8) ∧
      (orderDraft "2" 9).finish = .ok (orderTarget "2" 9) ∧
      generate (orderTarget "1" 8) = .ok one ∧ generate (orderTarget "2" 9) = .ok other ∧
      orderTarget "1" 8 ≠ orderTarget "2" 9 ∧
      (∃ artifact, one.artifact? .interfaces = some artifact ∧
        other.artifact? .interfaces = some artifact) ∧
      (∃ artifact, one.artifact? .builder = some artifact ∧
        other.artifact? .builder = some artifact) ∧
      ∃ artifact, one.artifact? .factory = some artifact ∧
        other.artifact? .factory = some artifact := by
  have hfirst : (orderDraft "1" 8).finish = .ok (orderTarget "1" 8) :=
    Draft.finish_of_parts orderMembers (by decide +kernel) (by decide +kernel) (by decide +kernel)
  have hsecond : (orderDraft "2" 9).finish = .ok (orderTarget "2" 9) :=
    Draft.finish_of_parts orderMembers (by decide +kernel) (by decide +kernel) (by decide +kernel)
  obtain ⟨one, hone⟩ : ∃ generated, generate (orderTarget "1" 8) = .ok generated :=
    exists_generate_eq_ok.mpr (by decide +kernel)
  obtain ⟨other, hother⟩ : ∃ generated, generate (orderTarget "2" 9) = .ok generated :=
    exists_generate_eq_ok.mpr (by decide +kernel)
  have hdifferent : orderTarget "1" 8 ≠ orderTarget "2" 9 := by
    intro hsame
    exact absurd (congrArg (fun target => target.settings.stageLimit) hsame) (by decide)
  obtain ⟨hinterfaces, hbuilder, hfactory⟩ := artifacts_eq_of_agree hfirst hsecond hone hother
  refine ⟨one, other, hfirst, hsecond, hone, hother, hdifferent, hinterfaces ?_, hbuilder ?_,
    hfactory ?_⟩
  · exact ⟨rfl, rfl, by decide +kernel, List.forall₂_same.mpr fun _ _ => ⟨rfl, rfl, rfl⟩⟩
  · exact ⟨rfl, rfl, by decide +kernel, by decide +kernel,
      List.forall₂_same.mpr fun _ _ => ⟨⟨rfl, rfl, rfl⟩, rfl, rfl⟩, rfl,
      fun hliteral => absurd hliteral (by decide)⟩
  · exact ⟨rfl, rfl, by decide +kernel, by decide +kernel, rfl,
      List.forall₂_same.mpr fun _ _ => ⟨⟨rfl, rfl, rfl⟩, fun _ => rfl⟩⟩

end Typestate
