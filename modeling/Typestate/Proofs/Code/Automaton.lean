import Typestate.Proofs.Code.Clash
import Typestate.Proofs.Code.Generated

/-!
# The automaton of the generated items

Which stages a builder can pass through is decided by the generated types alone: a method is there
if the marker of the stage has the trait of the member, and the associated type of the trait is the
next stage. Read off the code by words, this is an automaton over traits. It accepts the same
sequences of members as the lattice, and its states are the markers of the stages that the lattice
reaches, as long as markers tell stages apart.
-/

namespace Typestate

/-- The automaton that the generated items are. -/
structure Automaton where
  /-- The stage in the type that the factory returns. -/
  start : String
  /-- The stage that stands for the parameter of the builder if none is given. -/
  default : String
  /-- The types of the stages module. -/
  states : List String
  /-- The types in which a value can be built. -/
  building : List String
  /-- The steps from a type, by a trait, to a type. -/
  steps : List (String × String × String)

namespace Automaton

/-- The automaton of a module of items. -/
def ofItems (start default : String) (items : List ModuleItem) : Automaton where
  start := start
  default := default
  states := items.filterMap ModuleItem.type?
  building := items.filterMap (ModuleItem.implementing? Naming.canBuildTrait)
  steps := items.filterMap ModuleItem.step?

/-- The automaton that three artifacts are, if the factory and the builder name stages of the
module. -/
def read? (interfaces builder factory : List Token) : Option Automaton := do
  let (name, items) ← readModule? interfaces
  let (factoryModule, start) ← factoryStage? factory
  let (builderModule, default) ← defaultStage? builder
  if factoryModule = name ∧ builderModule = name then return ofItems start default items else none

/-- By the given traits, one after another, the automaton gets from one state to another. -/
inductive Follows (automaton : Automaton) : String → List String → String → Prop where
  | nil (state : String) : Follows automaton state [] state
  | cons {state memberTrait next last : String} {rest : List String}
    (hstep : (state, memberTrait, next) ∈ automaton.steps)
    (hrest : Follows automaton next rest last) :
    Follows automaton state (memberTrait :: rest) last

/-- The traits of the given members lead from the start to a state. -/
def Reaches (automaton : Automaton) (path : List Member) (state : String) : Prop :=
  automaton.Follows automaton.start (path.map Naming.memberTrait) state

variable {automaton : Automaton}

theorem follows_nil {state last : String} : automaton.Follows state [] last ↔ last = state := by
  constructor
  · intro h
    cases h
    rfl
  · intro hsame
    subst hsame
    exact .nil last

/-- A last step comes after the others. -/
theorem follows_concat {state last memberTrait : String} {path : List String} :
    automaton.Follows state (path ++ [memberTrait]) last ↔
      ∃ next, automaton.Follows state path next ∧ (next, memberTrait, last) ∈ automaton.steps := by
  induction path generalizing state with
  | nil =>
    constructor
    · intro h
      cases h with
      | cons hstep hrest =>
        rw [follows_nil.mp hrest]
        exact ⟨state, .nil state, hstep⟩
    · intro ⟨next, hnext, hstep⟩
      rw [follows_nil.mp hnext] at hstep
      exact .cons hstep (.nil last)
  | cons first path ih =>
    constructor
    · intro h
      cases h with
      | cons hstep hrest =>
        obtain ⟨next, hpath, hlast⟩ := ih.mp hrest
        exact ⟨next, .cons hstep hpath, hlast⟩
    · intro ⟨next, hpath, hlast⟩
      cases hpath with
      | cons hstep hrest => exact .cons hstep (ih.mpr ⟨next, hrest, hlast⟩)

end Automaton

/-! ### The automaton of a lattice -/

namespace StageModule

/-- The steps are those out of the markers. -/
theorem steps_eq (item : StageModule) :
    item.items.filterMap ModuleItem.step? =
      item.markers.flatMap fun marker => marker.transitions.map fun step =>
        (marker.name, step.1, step.2) := by
  have hmarker : ∀ marker : StageMarker, marker.items.filterMap ModuleItem.step? =
      marker.transitions.map fun step => (marker.name, step.1, step.2) := by
    intro marker
    have hsteps : marker.transitions.filterMap (fun step =>
        (ModuleItem.ofTransition marker.name step).step?) =
          marker.transitions.map fun step => (marker.name, step.1, step.2) :=
      congrFun List.filterMap_eq_map _
    rw [StageMarker.filterMap_items, hsteps]
    split
    · rfl
    · rfl
  have htraits : item.traits.filterMap (fun memberTrait =>
      (ModuleItem.trait memberTrait.name).step?) = [] :=
    List.filterMap_eq_nil_iff.mpr fun _ _ => rfl
  rw [filterMap_items, List.flatMap_congr fun marker _ => hmarker marker, htraits]
  rfl

/-- The types are the complete marker and the markers of the stages. -/
theorem types_eq (item : StageModule) :
    item.items.filterMap ModuleItem.type? =
      Naming.completeMarker :: item.markers.map StageMarker.name := by
  have hmarker : ∀ marker : StageMarker,
      marker.items.filterMap ModuleItem.type? = [marker.name] := fun marker =>
    marker.filterMap_items_of_type rfl fun _ _ => rfl
  have htraits : item.traits.filterMap (fun memberTrait =>
      (ModuleItem.trait memberTrait.name).type?) = [] :=
    List.filterMap_eq_nil_iff.mpr fun _ _ => rfl
  rw [filterMap_items, List.flatMap_congr fun marker _ => hmarker marker, htraits,
    ← List.map_eq_flatMap]
  rfl

/-- A value can be built at the complete marker and at those markers that say so, if no step is by
the trait for building. -/
theorem building_eq (item : StageModule)
    (hsteps : ∀ marker ∈ item.markers, ∀ step ∈ marker.transitions,
      step.1 ≠ Naming.canBuildTrait) :
    item.items.filterMap (ModuleItem.implementing? Naming.canBuildTrait) =
      Naming.completeMarker ::
        item.markers.flatMap fun marker => if marker.canBuild then [marker.name] else [] := by
  have hmarker : ∀ marker ∈ item.markers,
      marker.items.filterMap (ModuleItem.implementing? Naming.canBuildTrait) =
        if marker.canBuild then [marker.name] else [] := by
    intro marker hmarker
    have hnone : marker.transitions.filterMap (fun step =>
        (ModuleItem.ofTransition marker.name step).implementing? Naming.canBuildTrait) = [] :=
      List.filterMap_eq_nil_iff.mpr fun step hstep => if_neg (hsteps marker hmarker step hstep)
    rw [StageMarker.filterMap_items, hnone, List.append_nil]
    split
    · rfl
    · rfl
  have htraits : item.traits.filterMap (fun memberTrait =>
      (ModuleItem.trait memberTrait.name).implementing? Naming.canBuildTrait) = [] :=
    List.filterMap_eq_nil_iff.mpr fun _ _ => rfl
  rw [filterMap_items, List.flatMap_congr hmarker, htraits]
  rfl

variable {members : MemberList} {h : members.Distinct} {target : Target} {naming : Naming}

/-- The markers of the module are those of the enumerated sets. -/
theorem mem_markers {marker : StageMarker} :
    marker ∈ (ofLattice target naming (members.lattice h)).markers ↔
      ∃ supplied ∈ (members.roster h).sets,
        .ofStage members ((members.roster h).stage supplied) = marker := by
  have hmarkers : (ofLattice target naming (members.lattice h)).markers =
      (members.roster h).sets.map fun supplied =>
        .ofStage members ((members.roster h).stage supplied) := by
    rw [ofLattice, MemberList.lattice_stages, List.map_map]
    rfl
  rw [hmarkers, List.mem_map]

/-- The steps of the automaton are those of the lattice, none lost and none added. -/
theorem mem_steps {state memberTrait next : String} :
    (state, memberTrait, next) ∈
        (ofLattice target naming (members.lattice h)).items.filterMap ModuleItem.step? ↔
      ∃ supplied ∈ (members.roster h).sets, ∃ member ∈ members.toList,
        member.index ∈ (members.roster h).offered supplied ∧
          state = Naming.marker (.after supplied) members ∧
          memberTrait = Naming.memberTrait member ∧
          next = Naming.marker ((members.roster h).key (supplied.insert member.index)) members := by
  rw [steps_eq, List.mem_flatMap]
  constructor
  · intro ⟨marker, hmarker, hstep⟩
    obtain ⟨supplied, hsupplied, rfl⟩ := mem_markers.mp hmarker
    obtain ⟨transition, htransition, hparts⟩ := List.mem_map.mp hstep
    obtain ⟨edge, hedge, hfound⟩ := List.mem_filterMap.mp htransition
    obtain ⟨index, hindex, rfl⟩ := List.mem_map.mp hedge
    obtain ⟨member, hget, rfl⟩ := Option.map_eq_some_iff.mp hfound
    obtain ⟨hmember, rfl⟩ := h.get?_eq_some.mp hget
    obtain ⟨rfl, hrest⟩ := Prod.mk.inj hparts
    obtain ⟨rfl, rfl⟩ := Prod.mk.inj hrest
    exact ⟨supplied, hsupplied, member, hmember, hindex, rfl, rfl, rfl⟩
  · intro ⟨supplied, hsupplied, member, hmember, hindex, hstate, htrait, hnext⟩
    refine ⟨_, mem_markers.mpr ⟨supplied, hsupplied, rfl⟩,
      List.mem_map.mpr ⟨(memberTrait, next), List.mem_filterMap.mpr
        ⟨(members.roster h).step supplied member.index, List.mem_map_of_mem hindex, ?_⟩, ?_⟩⟩
    · rw [StageMarker.transition?, Roster.step, h.get?_eq_some.mpr ⟨hmember, rfl⟩, htrait, hnext]
      rfl
    · rw [hstate]
      rfl

/-- Every step of the lattice is a step of the automaton, by the trait of its member. -/
theorem step_mem_steps {edge : Edge} (hedge : edge ∈ (members.lattice h).edges) :
    ∃ member ∈ members.toList, member.index = edge.member ∧
      (Naming.marker edge.source members, Naming.memberTrait member,
        Naming.marker edge.target members) ∈
          (ofLattice target naming (members.lattice h)).items.filterMap ModuleItem.step? := by
  rw [Lattice.edges, MemberList.lattice_stages, List.mem_flatMap] at hedge
  obtain ⟨stage, hstage, hedge⟩ := hedge
  obtain ⟨supplied, hsupplied, rfl⟩ := List.mem_map.mp hstage
  obtain ⟨index, hoffered, rfl⟩ := List.mem_map.mp hedge
  have hindex : index ∈ (members.roster h).members :=
    List.mem_append.mpr ((Roster.mem_offered.mp hoffered).2.imp_right And.left)
  obtain ⟨member, hmember, rfl⟩ := MemberList.mem_indexes.mp hindex
  exact ⟨member, hmember, rfl,
    mem_steps.mpr ⟨supplied, hsupplied, member, hmember, hoffered, rfl, rfl, rfl⟩⟩

/-- A value can be built at the complete marker and at the markers of the stages in which no
mandatory member is left. -/
theorem mem_building {state : String} :
    state ∈ (ofLattice target naming (members.lattice h)).items.filterMap
        (ModuleItem.implementing? Naming.canBuildTrait) ↔
      state = Naming.completeMarker ∨
        ∃ supplied ∈ (members.roster h).sets,
          (∀ index ∈ members.mandatoryIndexes, index ∈ supplied) ∧
            state = Naming.marker (.after supplied) members := by
  have hcan : ∀ supplied, (StageMarker.ofStage members ((members.roster h).stage supplied)).canBuild
      = true ↔ ∀ index ∈ members.mandatoryIndexes, index ∈ supplied := fun supplied =>
    List.isEmpty_iff.trans Roster.left_eq_nil
  rw [building_eq, List.mem_cons, List.mem_flatMap]
  · refine or_congr_right ⟨fun ⟨marker, hmarker, hstate⟩ => ?_,
      fun ⟨supplied, hsupplied, hall, hstate⟩ => ?_⟩
    · obtain ⟨supplied, hsupplied, rfl⟩ := mem_markers.mp hmarker
      split at hstate
      · rename_i hbuild
        exact ⟨supplied, hsupplied, (hcan supplied).mp hbuild, List.mem_singleton.mp hstate⟩
      · exact absurd hstate List.not_mem_nil
    · refine ⟨_, mem_markers.mpr ⟨supplied, hsupplied, rfl⟩, ?_⟩
      rw [if_pos ((hcan supplied).mpr hall), hstate]
      exact List.mem_singleton_self _
  · intro marker hmarker step hstep
    obtain ⟨supplied, -, rfl⟩ := mem_markers.mp hmarker
    obtain ⟨edge, -, hfound⟩ := List.mem_filterMap.mp hstep
    obtain ⟨member, -, rfl⟩ := Option.map_eq_some_iff.mp hfound
    intro hsame
    have hhead : Naming.canBuildTrait.toList.head? = some 'A' :=
      hsame ▸ Naming.head_memberTrait member
    exact absurd hhead (by decide)

/-- The types of the module are the complete marker and the markers of the stages. -/
theorem mem_types {state : String} :
    state ∈ (ofLattice target naming (members.lattice h)).items.filterMap ModuleItem.type? ↔
      state = Naming.completeMarker ∨
        ∃ supplied ∈ (members.roster h).sets,
          state = Naming.marker (.after supplied) members := by
  rw [types_eq, List.mem_cons, List.mem_map]
  refine or_congr_right ⟨fun ⟨marker, hmarker, hname⟩ => ?_,
    fun ⟨supplied, hsupplied, hstate⟩ => ?_⟩
  · obtain ⟨supplied, hsupplied, rfl⟩ := mem_markers.mp hmarker
    exact ⟨supplied, hsupplied, hname.symm⟩
  · exact ⟨_, mem_markers.mpr ⟨supplied, hsupplied, rfl⟩, hstate.symm⟩

/-- **Step.** From the marker of what has been supplied, the trait of a member leads on exactly if
the member is offered, and to the marker of the stage with the member. -/
theorem step_marker (hnone : ∀ member ∈ members.toList, '_' ∉ member.displayName.toList)
    {path : List ℕ} (hpath : members.Admits path) {member : Member}
    (hmember : member ∈ members.toList) {next : String} :
    (Naming.marker ((members.roster h).key (.ofList path)) members,
        Naming.memberTrait member, next) ∈
        (ofLattice target naming (members.lattice h)).items.filterMap ModuleItem.step? ↔
      member.index ∈ (members.roster h).offered (.ofList path) ∧
        next =
          Naming.marker ((members.roster h).key (.ofList (path ++ [member.index]))) members := by
  rw [mem_steps, IndexSet.ofList_concat]
  rcases hpath.key_eq with ⟨hall, hkey⟩ | ⟨hin, hkey⟩
  · rw [hkey]
    refine iff_of_false ?_ fun hoffered => MemberList.not_mem_offered hall hoffered.1
    intro hfound
    obtain ⟨supplied, -, -, -, -, hstate, -⟩ := hfound
    exact Naming.marker_ne_complete supplied hstate.symm
  · rw [hkey]
    constructor
    -- The step found is one of a marker and a trait that read the same, so it is this one.
    · intro ⟨supplied, hsupplied, other, hother, hoffered, hstate, htrait, hnext⟩
      have hset := Naming.marker_injective h hnone (MemberList.knows_of_mem_sets hin)
        (MemberList.knows_of_mem_sets hsupplied) hstate
      have hsame := (Naming.memberTrait_eq_iff h hmember hother).mp htrait
      rw [hset, hsame]
      exact ⟨hoffered, hnext⟩
    · intro ⟨hoffered, hnext⟩
      exact ⟨_, hin, member, hmember, hoffered, rfl, rfl, hnext⟩

/-- **Run.** The traits of members lead on exactly along admitted paths, and to the marker of what
has been supplied. -/
theorem reaches_iff (hnone : ∀ member ∈ members.toList, '_' ∉ member.displayName.toList)
    {default : String} {path : List Member} (hpath : ∀ member ∈ path, member ∈ members.toList)
    {state : String} :
    (Automaton.ofItems (Naming.marker (members.lattice h).root members) default
        (ofLattice target naming (members.lattice h)).items).Reaches path state ↔
      members.Admits (path.map Member.index) ∧
        state =
          Naming.marker ((members.roster h).key (.ofList (path.map Member.index))) members := by
  induction path using List.reverseRecOn generalizing state with
  | nil =>
    rw [Automaton.Reaches, List.map_nil, List.map_nil, Automaton.follows_nil]
    exact (and_iff_right MemberList.admits_nil).symm
  | append_singleton path member ih =>
    obtain ⟨hbefore, hlast⟩ := List.forall_mem_append.mp hpath
    have hmember := hlast member (List.mem_singleton_self member)
    rw [Automaton.Reaches, List.map_append, List.map_append, List.map_singleton, List.map_singleton,
      Automaton.follows_concat, MemberList.admits_concat (h := h)]
    constructor
    · intro ⟨next, hnext, hstep⟩
      obtain ⟨hadmits, rfl⟩ := (ih hbefore).mp hnext
      obtain ⟨hoffered, hstate⟩ := (step_marker hnone hadmits hmember).mp hstep
      exact ⟨⟨hadmits, hoffered⟩, hstate⟩
    · intro ⟨⟨hadmits, hoffered⟩, hstate⟩
      exact ⟨_, (ih hbefore).mpr ⟨hadmits, rfl⟩,
        (step_marker hnone hadmits hmember).mpr ⟨hoffered, hstate⟩⟩

/-- After an admitted path the marker is one for building exactly if no mandatory member is
missing. -/
theorem marker_mem_building (hnone : ∀ member ∈ members.toList, '_' ∉ member.displayName.toList)
    {path : List ℕ} (hpath : members.Admits path) :
    Naming.marker ((members.roster h).key (.ofList path)) members ∈
        (ofLattice target naming (members.lattice h)).items.filterMap
          (ModuleItem.implementing? Naming.canBuildTrait) ↔
      ∀ index ∈ members.mandatoryIndexes, index ∈ path := by
  rw [mem_building]
  rcases hpath.key_eq with ⟨hall, hkey⟩ | ⟨hin, hkey⟩
  · rw [hkey]
    refine iff_of_true (Or.inl rfl) fun index hindex => IndexSet.mem_ofList.mp (hall index ?_)
    exact List.mem_append_left _ hindex
  · rw [hkey, or_iff_right (Naming.marker_ne_complete _)]
    constructor
    · intro ⟨supplied, hsupplied, hmandatory, hsame⟩
      have hset := Naming.marker_injective h hnone (MemberList.knows_of_mem_sets hin)
        (MemberList.knows_of_mem_sets hsupplied) hsame
      rw [← hset] at hmandatory
      exact fun index hindex => IndexSet.mem_ofList.mp (hmandatory index hindex)
    · intro hmandatory
      exact ⟨_, hin, fun index hindex => IndexSet.mem_ofList.mpr (hmandatory index hindex), rfl⟩

end StageModule

/-! ### The automaton of generated items -/

/-- The automaton that the artifacts are. -/
def Generated.automaton? (generated : Generated) : Option Automaton := do
  let interfaces ← generated.artifact? .interfaces
  let builder ← generated.artifact? .builder
  let factory ← generated.artifact? .factory
  Automaton.read? interfaces.tokens builder.tokens factory.tokens

/-- The automaton does what the lattice does: sequences of members lead on in one exactly if they do
in the other, to the marker of the stage, and the marker allows to build exactly if no mandatory
member is missing. -/
structure Automaton.Refines (automaton : Automaton) (lattice : Lattice) (members : MemberList) :
    Prop where
  default_eq : automaton.default = automaton.start
  reaches_iff : ∀ path : List Member, (∀ member ∈ path, member ∈ members.toList) → ∀ state,
    automaton.Reaches path state ↔
      (lattice.walk (path.map Member.index)).map (fun key => Naming.marker key members) = some state
  building_iff : ∀ path : List Member, (∀ member ∈ path, member ∈ members.toList) → ∀ state,
    automaton.Reaches path state →
      (state ∈ automaton.building ↔
        ∀ member ∈ members.toList, member.mandatory = true → member ∈ path)
  /-- No member is supplied twice. -/
  nodup : ∀ path : List Member, (∀ member ∈ path, member ∈ members.toList) → ∀ state,
    automaton.Reaches path state → path.Nodup
  mem_states : ∀ path : List Member, (∀ member ∈ path, member ∈ members.toList) → ∀ state,
    automaton.Reaches path state → state ∈ automaton.states
  /-- No step of the lattice is lost. -/
  step_of_edge : ∀ edge ∈ lattice.edges, ∃ member ∈ members.toList, member.index = edge.member ∧
    (Naming.marker edge.source members, Naming.memberTrait member,
      Naming.marker edge.target members) ∈ automaton.steps

/-- The automaton that is read off the artifacts of a target is that of its stages module, begun at
the marker of the root. -/
theorem Generated.automaton?_eq {target : Target} {cancelled : Bool} {generated : Generated}
    (hgenerate : generate target cancelled = .ok generated) :
    generated.automaton? =
      some (.ofItems (Naming.marker generated.lattice.root generated.lattice.members)
        (Naming.marker generated.lattice.root generated.lattice.members)
        (StageModule.ofLattice target (.ofTarget target) generated.lattice).items) := by
  obtain ⟨body, -, -, hmodule, hbuilder, hfactory, -⟩ := generate_eq_ok hgenerate
  have hinterfaces := readModule?_tokens generated.stageModule <| by
    rw [hmodule]
    exact isWord_visibility_ofTarget target (by decide)
  have hstart := factoryStage?_tokens generated.factory <| by
    rw [hfactory]
    exact isWord_visibility_ofTarget target (by decide)
  have hdefault := defaultStage?_tokens generated.builderType <| by
    rw [hbuilder]
    exact isWord_visibility_ofTarget target (by decide)
  change Automaton.read? generated.stageModule.tokens generated.builderType.tokens
    generated.factory.tokens = _
  rw [Automaton.read?, hinterfaces, hstart, hdefault, hmodule, hbuilder, hfactory]
  exact if_pos ⟨rfl, rfl⟩

/-- Without low lines in names, the automaton of the stages module does what the lattice does. -/
theorem StageModule.refines {members : MemberList} (h : members.Distinct) (target : Target)
    (naming : Naming) (hnone : ∀ member ∈ members.toList, '_' ∉ member.displayName.toList) :
    (Automaton.ofItems (Naming.marker (members.lattice h).root members)
      (Naming.marker (members.lattice h).root members)
      (ofLattice target naming (members.lattice h)).items).Refines (members.lattice h) members := by
  refine ⟨rfl, fun path hpath state => ?_, fun path hpath state hstate => ?_,
    fun path hpath state hstate => ?_, fun path hpath state hstate => ?_, fun edge hedge => ?_⟩
  · rw [reaches_iff hnone hpath, Option.map_eq_some_iff]
    constructor
    · intro ⟨hadmits, hstate⟩
      exact ⟨_, MemberList.walk_eq_some.mpr ⟨hadmits, rfl⟩, hstate.symm⟩
    · intro ⟨key, hkey, hstate⟩
      obtain ⟨hadmits, rfl⟩ := MemberList.walk_eq_some.mp hkey
      exact ⟨hadmits, hstate.symm⟩
  · obtain ⟨hadmits, rfl⟩ := (reaches_iff hnone hpath).mp hstate
    apply (marker_mem_building hnone hadmits).trans
    rw [MemberList.forall_mandatoryIndexes]
    refine forall₂_congr fun member hmember => imp_congr_right fun _ => ?_
    constructor
    · intro hindex
      obtain ⟨other, hother, hsame⟩ := List.mem_map.mp hindex
      rw [← h.eq_of_index_eq (hpath other hother) hmember hsame]
      exact hother
    · exact List.mem_map_of_mem
  · exact ((reaches_iff hnone hpath).mp hstate).1.nodup.of_map
  · obtain ⟨hadmits, rfl⟩ := (reaches_iff hnone hpath).mp hstate
    apply mem_types.mpr
    rcases hadmits.key_eq with ⟨-, hkey⟩ | ⟨hin, hkey⟩
    · rw [hkey]
      exact Or.inl rfl
    · rw [hkey]
      exact Or.inr ⟨_, hin, rfl⟩
  · exact step_mem_steps hedge

/-- **Refinement.** The generated items of every target whose members have ASCII names are an
automaton that does what the lattice does. -/
theorem generate_refines {draft : Draft} {target : Target} {cancelled : Bool}
    {generated : Generated} (hfinish : draft.finish = .ok target)
    (hgenerate : generate target cancelled = .ok generated)
    (hascii : ∀ member ∈ target.members.toList, ∀ c ∈ member.name.toList, c.toNat < 128) :
    ∃ automaton, generated.automaton? = some automaton ∧
      automaton.Refines generated.lattice target.members := by
  obtain ⟨body, hbuild, -⟩ := generate_eq_ok hgenerate
  obtain ⟨h, -, -, hlattice⟩ := Lattice.build_eq_ok.mp hbuild
  have hnone : ∀ member ∈ target.members.toList, '_' ∉ member.displayName.toList := by
    intro member hmember
    rw [(Draft.finish_accepted hfinish member hmember).displayName_eq]
    exact lowLine_not_mem_displayName (hascii member hmember)
  refine ⟨_, Generated.automaton?_eq hgenerate, ?_⟩
  rw [hlattice]
  exact StageModule.refines h target (.ofTarget target) hnone

/-- A struct with a mandatory member and an optional one, for which a default is given. -/
def accountDraft : Draft where
  target := "Account"
  visibility := "pub(crate)"
  fields :=
    [⟨⟨"user_id", "u64", .required⟩, "user_id"⟩, ⟨⟨"note", "String", .expression "String::new()"⟩, "note"⟩]

/-- The members of the struct. -/
def accountMembers : MemberList where
  toList :=
    [⟨"user_id", "UserId", ⟨"u64"⟩, true, 0, .provided, .field "user_id"⟩,
      ⟨"note", "Note", ⟨"String"⟩, false, 1, ⟨"String :: new ()", false⟩, .field "note"⟩]
  sorted := by simp

/-- The target that the struct is. -/
def accountTarget : Target where
  name := "Account"
  visibility := "pub(crate)"
  construction := .literal
  members := accountMembers
  fixed := []
  settings := {}

theorem finish_accountDraft : accountDraft.finish = .ok accountTarget :=
  Draft.finish_of_parts accountMembers (by decide +kernel) (by decide +kernel) rfl

theorem generate_refines_accountDraft :
    ∃ generated automaton, accountDraft.finish = .ok accountTarget ∧
      generate accountTarget = .ok generated ∧ generated.automaton? = some automaton ∧
        automaton.Refines generated.lattice accountTarget.members := by
  have h : accountMembers.Distinct := by decide
  have hbuild : Lattice.build accountMembers 4096 = .ok (accountMembers.lattice h) := by
    rw [Lattice.build_of_distinct h]
    exact if_pos (by decide +revert)
  have hbody : (BuildBody.ofTarget accountTarget).isOk = true := by decide +kernel
  cases hfound : BuildBody.ofTarget accountTarget with
  | error error =>
    rw [hfound] at hbody
    contradiction
  | ok body =>
    obtain ⟨generated, hgenerate⟩ : ∃ generated, generate accountTarget = .ok generated :=
      ⟨_, bind_eq_ok.mpr ⟨_, mapError_eq_ok.mpr hbuild,
        bind_eq_ok.mpr ⟨_, bind_eq_ok.mpr ⟨body, hfound, rfl⟩, rfl⟩⟩⟩
    have hascii : ∀ member ∈ accountTarget.members.toList, ∀ c ∈ member.name.toList,
        c.toNat < 128 := by
      simp [accountTarget, accountMembers]
    obtain ⟨automaton, hread, hrefines⟩ := generate_refines finish_accountDraft hgenerate hascii
    exact ⟨generated, automaton, finish_accountDraft, hgenerate, hread, hrefines⟩

end Typestate
