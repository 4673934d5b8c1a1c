import Typestate.Proofs.Code.Names
import Typestate.Proofs.Grammar.Visibility
import Typestate.Proofs.Lattice.Refusal
import Typestate.Proofs.Target.Finishing

/-!
# What generating leads to

The texts of a target are read a second time when its items are generated: its visibility, the path
of its constructor, the references to its fields, and the names, which are written as one token
each. All of them have been read when the description was finished, so the only thing that can stand
against a finished target is its lattice: two members may have a name in common, and there may be
too many stages. Several targets are generated each by itself.
-/

namespace Typestate

/-- Computations that succeed one by one succeed one after another. -/
theorem exists_mapM_eq_ok {E A B : Type} {make : A → Except E B} {drafts : List A}
    (hmake : ∀ a ∈ drafts, ∃ b, make a = .ok b) : ∃ results, drafts.mapM make = .ok results := by
  induction drafts with
  | nil => exact ⟨[], rfl⟩
  | cons draft rest ih =>
    obtain ⟨⟨result, hresult⟩, hrest⟩ := List.forall_mem_cons.mp hmake
    obtain ⟨results, hresults⟩ := ih hrest
    refine ⟨result :: results, ?_⟩
    rw [List.mapM_cons]
    exact bind_eq_ok.mpr ⟨result, hresult, bind_eq_ok.mpr ⟨results, hresults, rfl⟩⟩

/-- A reference that can be read is read for any member. -/
theorem exists_fieldOf_eq_ok (member : String) {reference : String}
    (h : (Grammar.readFieldReference? reference).isSome = true) :
    ∃ node, fieldOf member reference = .ok node := by
  obtain ⟨node, hnode⟩ := Option.isSome_iff_exists.mp h
  exact ⟨node, by rw [fieldOf, hnode]⟩

namespace Draft

variable {draft : Draft} {target : Target}

/-- What the header of a description says can be read. -/
theorem readable_of_checkHeader {construction : Construction}
    (h : draft.checkHeader = .ok construction) :
    (Grammar.readVisibility? draft.visibility).isSome = true ∧
      ∀ path, construction = .function path → (Grammar.readPath? path).isSome = true := by
  obtain ⟨-, -, -, -, hvisibility, hconstruction⟩ := checkHeader_eq_ok.mp h
  constructor
  · unfold checkVisibility at hvisibility
    split at hvisibility
    · rename_i hnodes
      rw [hnodes]
      rfl
    · contradiction
  · rintro path rfl
    unfold Draft.construction at hconstruction
    split at hconstruction
    · split at hconstruction
      · rename_i hpath
        obtain rfl := Construction.function.inj (Except.ok.inj hconstruction)
        rw [hpath]
        rfl
      · contradiction
    · split at hconstruction
      · exact Construction.noConfusion (Except.ok.inj hconstruction)
      · contradiction

/-- What a finished target says of its visibility and its constructor can be read again. -/
theorem readable_of_finish (h : draft.finish = .ok target) :
    (Grammar.readVisibility? target.visibility).isSome = true ∧
      ∀ path, target.construction = .function path → (Grammar.readPath? path).isSome = true := by
  obtain ⟨construction, members, fixed, hheader, -, -, rfl⟩ := parts_of_finish h
  exact readable_of_checkHeader hheader

namespace Finished

variable {arguments fields : List Member}

/-- The references of a target are those of the own fields and of the fixed ones. -/
theorem map_references (h : draft.Finished target arguments fields) :
    target.members.fields.map Prod.snd = draft.ownFields.map FieldDraft.reference ∧
      target.fixed.map FixedField.reference = draft.fixed.map FixedDraft.reference := by
  refine ⟨h.map_fields_members fun _ _ _ _ => rfl,
    map_of_mapM_eq_ok (fun described field hfield => ?_) h.fixed_eq⟩
  obtain ⟨-, ⟨-, rfl⟩ | ⟨text, default, -, -, rfl⟩⟩ := fixedField_eq_ok hfield
  · rfl
  · rfl

/-- The members of a finished target are numbered. -/
theorem ascending (h : draft.Finished target arguments fields) :
    target.members.toList.Pairwise fun first second => first.index < second.index := by
  rw [← List.pairwise_map, h.toList_members, map_index_members h.arguments_eq h.fields_eq]
  exact List.pairwise_lt_range'

/-- The members of a finished target differ as soon as their names do. -/
theorem distinct_iff (h : draft.Finished target arguments fields) :
    target.members.Distinct ↔ (target.members.toList.map Member.name).Nodup ∧
      (target.members.toList.map Member.displayName).Nodup := by
  simp only [List.Nodup, List.pairwise_map]
  constructor
  · intro hdistinct
    exact ⟨hdistinct.imp Member.Differs.name, hdistinct.imp Member.Differs.displayName⟩
  · intro ⟨hnames, hdisplays⟩
    exact ((hnames.and hdisplays).and h.ascending).imp fun hall =>
      ⟨hall.1.1, hall.1.2, Nat.ne_of_lt hall.2⟩

end Finished

/-- How a value of a finished target is made is understood. -/
theorem exists_buildBody (hfinish : draft.finish = .ok target) :
    ∃ body, BuildBody.ofTarget target = .ok body := by
  obtain ⟨arguments, fields, hfinished⟩ := finished_of_finish hfinish
  obtain ⟨hown, hfixed⟩ := hfinished.isSome_reference
  obtain ⟨hownReferences, hfixedReferences⟩ := hfinished.map_references
  obtain ⟨-, hpath⟩ := readable_of_finish hfinish
  have hassigned : ∃ assigned, BuildBody.assignments target.members = .ok assigned := by
    refine exists_mapM_eq_ok fun entry hentry => ?_
    obtain ⟨field, hfield, hsame⟩ := List.mem_map.mp
      (hownReferences ▸ List.mem_map_of_mem (f := Prod.snd) hentry)
    obtain ⟨node, hnode⟩ := exists_fieldOf_eq_ok entry.1.name (hown field hfield)
    rw [hsame] at hnode
    exact ⟨_, bind_eq_ok.mpr ⟨node, hnode, rfl⟩⟩
  obtain ⟨assigned, hassigned⟩ := hassigned
  unfold BuildBody.ofTarget
  cases hconstruction : target.construction with
  | literal =>
    have hvalues : ∃ values, (target.fixed.mapM fun field => do
        return FixedValue.mk (← fieldOf field.reference field.reference) field.default) =
          .ok values := by
      refine exists_mapM_eq_ok fun field hmem => ?_
      obtain ⟨described, hdescribed, hsame⟩ := List.mem_map.mp
        (hfixedReferences ▸ List.mem_map_of_mem (f := FixedField.reference) hmem)
      obtain ⟨node, hnode⟩ :=
        exists_fieldOf_eq_ok field.reference (hfixed described hdescribed)
      rw [hsame] at hnode
      exact ⟨_, bind_eq_ok.mpr ⟨node, hnode, rfl⟩⟩
    obtain ⟨values, hvalues⟩ := hvalues
    exact ⟨_, bind_eq_ok.mpr ⟨assigned, mapError_eq_ok.mpr hassigned,
      bind_eq_ok.mpr ⟨values, mapError_eq_ok.mpr hvalues, rfl⟩⟩⟩
  | function text =>
    obtain ⟨path, hread⟩ := Option.isSome_iff_exists.mp (hpath text hconstruction)
    have hresolved : constructorPath target.name text = .ok (path.resolve target.name) := by
      rw [constructorPath, hread]
    exact ⟨_, bind_eq_ok.mpr ⟨assigned, mapError_eq_ok.mpr hassigned,
      bind_eq_ok.mpr ⟨_, mapError_eq_ok.mpr hresolved, rfl⟩⟩⟩

end Draft

/-! ### One target -/

section OneTarget

variable {target : Target} {body : BuildBody} {flag : Option CancelFlag}

/-- If it is understood how a value is made, the lattice decides what is generated. -/
theorem generateUnder_eq (hbody : BuildBody.ofTarget target = .ok body) :
    generateUnder target flag =
      match Lattice.buildUnder target.members target.settings.stageLimit flag with
      | .ok lattice => .ok
          { target := target
            lattice := lattice
            stageModule := .ofLattice target (.ofTarget target) lattice
            builderType :=
              { naming := .ofTarget target
                root := Naming.marker lattice.root lattice.members
                slots := target.members.toList.map .ofMember
                body := body }
            factory := .ofLattice target (.ofTarget target) lattice }
      | .error error => .error (.lattice error) := by
  unfold generateUnder BuilderType.ofLattice
  rw [hbody]
  cases Lattice.buildUnder target.members target.settings.stageLimit flag with
  | ok lattice => rfl
  | error error => rfl

/-- For members that differ, what is generated is decided by the flag and then by the number of
stages. -/
theorem generateUnder_of_distinct (hbody : BuildBody.ofTarget target = .ok body)
    (h : target.members.Distinct) (flag : Option CancelFlag) :
    (CancelFlag.stops flag = true ∧ generateUnder target flag = .error (.lattice .cancelled)) ∨
      (CancelFlag.stops flag = false ∧ target.members.stageCount ≤ target.settings.stageLimit ∧
        ∃ generated, generateUnder target flag = .ok generated) ∨
      (CancelFlag.stops flag = false ∧ target.settings.stageLimit < target.members.stageCount ∧
        generateUnder target flag =
          .error (.lattice (.stageLimitExceeded target.settings.stageLimit))) := by
  rw [generateUnder_eq hbody, Lattice.buildUnder_of_distinct h]
  cases CancelFlag.stops flag with
  | true => exact .inl ⟨rfl, rfl⟩
  | false =>
    by_cases hlimit : target.members.stageCount ≤ target.settings.stageLimit
    · exact .inr (.inl ⟨rfl, hlimit, by simp [hlimit]⟩)
    · exact .inr (.inr ⟨rfl, Nat.lt_of_not_le hlimit, by simp [hlimit]⟩)

/-- Members that do not all differ are refused in the same way under every flag. -/
theorem generateUnder_of_not_distinct (h : ¬ target.members.Distinct) :
    ∃ error first second, (∀ flag, generateUnder target flag = .error (.lattice error)) ∧
      [first, second].Sublist target.members.toList ∧ error.ClashOf first second := by
  obtain ⟨error, first, second, hbuild, hsublist, hclash⟩ :=
    Lattice.buildUnder_of_not_distinct h
  refine ⟨error, first, second, fun flag => ?_, hsublist, hclash⟩
  unfold generateUnder
  rw [hbuild]
  rfl

/-- A flag that is not set changes nothing in what is generated. -/
theorem generateUnder_of_not_stops (h : CancelFlag.stops flag = false) :
    generateUnder target flag = generate target := by
  have hbuild : ∀ limit, Lattice.buildUnder target.members limit flag =
      Lattice.buildUnder target.members limit (CancelFlag.ofBool false) := fun limit =>
    Lattice.buildUnder_of_not_stops h
  unfold generate generateUnder
  rw [hbuild]

/-- Members that do not all differ have no lattice, whether or not the search is called off. If they
differ, a search that is called off says so, even if they are none or have too many stages. -/
theorem generateUnder_of_stops (h : CancelFlag.stops flag = true) :
    generateUnder target flag =
      .error (.lattice ((firstClash? [] target.members.toList).getD .cancelled)) := by
  unfold generateUnder
  rw [Lattice.buildUnder_of_stops h]
  rfl

/-- If anything is generated, no flag that is set is attached. -/
theorem not_stops_of_generateUnder {generated : Generated}
    (h : generateUnder target flag = .ok generated) : CancelFlag.stops flag = false := by
  rw [Bool.eq_false_iff]
  intro hstops
  rw [generateUnder_of_stops hstops] at h
  contradiction

/-- **The gate.** Once a description is finished, only its lattice can stand against it: its items
are generated exactly if no two members share a name or a name in upper camel case and the stages
keep to the limit, and then all their names are spelled like words. Otherwise one of the two is
named, or a flag that is set. The visibility that is written is the one that the target has. -/
theorem generate_after_finish {draft : Draft} (hfinish : draft.finish = .ok target) :
    (∀ flag, CancelFlag.stops flag = false →
      ((∃ generated, generateUnder target flag = .ok generated) ↔
        (target.members.toList.map Member.name).Nodup ∧
          (target.members.toList.map Member.displayName).Nodup ∧
          target.members.stageCount ≤ target.settings.stageLimit)) ∧
    (∀ flag generated, generateUnder target flag = .ok generated →
      ∀ name ∈ generated.names, Word.IsWord name.toList) ∧
    (∀ flag error, generateUnder target flag = .error error →
      (∃ name first second, [first, second].Sublist target.members.toList ∧
        error = .lattice (.duplicateMember name first.name second.name) ∧
        ((first.name = name ∧ second.name = name) ∨
          (first.displayName = name ∧ second.displayName = name))) ∨
      (error = .lattice (.stageLimitExceeded target.settings.stageLimit) ∧
        target.settings.stageLimit < target.members.stageCount) ∨
      (error = .lattice .cancelled ∧ CancelFlag.stops flag = true)) ∧
    ∃ nodes, Grammar.readVisibility? target.visibility = some nodes ∧
      (Naming.ofTarget target).visibility = nodes.flatMap Grammar.Node.tokens ∧
      ((Naming.ofTarget target).visibility = [] ↔ nodes = []) := by
  obtain ⟨arguments, fields, hfinished⟩ := Draft.finished_of_finish hfinish
  obtain ⟨body, hbody⟩ := Draft.exists_buildBody hfinish
  refine ⟨fun flag hflag => ?_, fun flag generated hgenerated => ?_,
    fun flag error herror => ?_, ?_⟩
  · rw [← and_assoc, ← hfinished.distinct_iff]
    by_cases h : target.members.Distinct
    · rcases generateUnder_of_distinct hbody h flag with hset | hok | hlimit
      · exact absurd (hset.1.symm.trans hflag) Bool.noConfusion
      · exact iff_of_true hok.2.2 ⟨h, hok.2.1⟩
      · exact iff_of_false (fun ⟨generated, hgenerated⟩ =>
          nomatch hlimit.2.2.symm.trans hgenerated) fun hboth =>
            Nat.not_le_of_lt hlimit.2.1 hboth.2
    · obtain ⟨error, first, second, herror, -, -⟩ := generateUnder_of_not_distinct h
      exact iff_of_false (fun ⟨generated, hgenerated⟩ =>
        nomatch (herror flag).symm.trans hgenerated) fun hboth => h hboth.1
  · refine Draft.isWord_names hfinish ?_
    rw [← hgenerated]
    exact (generateUnder_of_not_stops (not_stops_of_generateUnder hgenerated)).symm
  · by_cases h : target.members.Distinct
    · rcases generateUnder_of_distinct hbody h flag with hset | hok | hlimit
      · exact .inr (.inr ⟨Except.error.inj (herror.symm.trans hset.2), hset.1⟩)
      · obtain ⟨generated, hgenerated⟩ := hok.2.2
        exact nomatch herror.symm.trans hgenerated
      · exact .inr (.inl ⟨Except.error.inj (herror.symm.trans hlimit.2.2), hlimit.2.1⟩)
    · obtain ⟨found, first, second, hfound, hsublist, hclash⟩ := generateUnder_of_not_distinct h
      obtain rfl := Except.error.inj (herror.symm.trans (hfound flag))
      have hascending : first.index < second.index := by
        have hpair := hfinished.ascending.sublist hsublist
        simpa using hpair
      cases found with
      | duplicateMember name firstName secondName =>
        obtain ⟨rfl, rfl, hshared⟩ := hclash
        exact .inl ⟨name, first, second, hsublist, rfl, hshared⟩
      | duplicateIndex index firstName secondName =>
        obtain ⟨-, -, hfirst, hsecond⟩ := hclash
        omega
      | cancelled => exact hclash.elim
      | stageLimitExceeded limit => exact hclash.elim
  · obtain ⟨nodes, hnodes⟩ := Option.isSome_iff_exists.mp (Draft.readable_of_finish hfinish).1
    have htokens : (Naming.ofTarget target).visibility = nodes.flatMap Grammar.Node.tokens := by
      rw [Naming.ofTarget, hnodes, Option.getD_some]
    exact ⟨nodes, hnodes, htokens, htokens ▸ Grammar.tokens_visibility_eq_nil hnodes⟩

end OneTarget

/-- Two arguments of one name, for a constructor, and a visibility with a scope. -/
def twinDraft : Draft where
  target := "Pair"
  visibility := "pub(crate)"
  constructor := some "new"
  arguments := [⟨"id", "u64", .required⟩, ⟨"id", "u64", .required⟩]

/-- The members that are described. -/
def twinMembers : MemberList where
  toList := [⟨"id", "Id", ⟨"u64"⟩, true, 0, .provided, .argument⟩,
    ⟨"id", "Id", ⟨"u64"⟩, true, 1, .provided, .argument⟩]
  sorted := by simp

/-- The target that is described. Nothing is wrong with its texts. -/
def twinTarget : Target where
  name := "Pair"
  visibility := "pub(crate)"
  construction := .function "new"
  members := twinMembers
  fixed := []
  settings := {}

theorem finish_twinDraft : twinDraft.finish = .ok twinTarget :=
  Draft.finish_of_parts twinMembers (by decide +kernel) (by decide +kernel) rfl

/-- The description of the two arguments is finished, but nothing is generated for the target, and
its visibility would be written. -/
theorem generate_after_finish_twinDraft :
    twinDraft.finish = .ok twinTarget ∧
      (¬ ∃ generated, generateUnder twinTarget none = .ok generated) ∧
      (Naming.ofTarget twinTarget).visibility ≠ [] := by
  obtain ⟨hgenerated, -, -, nodes, hnodes, -, hvisibility⟩ := generate_after_finish finish_twinDraft
  have hnames : ¬ (twinTarget.members.toList.map Member.name).Nodup := by decide
  have hpublic : Grammar.readVisibility? twinTarget.visibility ≠ some [] := by
    have hsome : (Grammar.readVisibility? twinTarget.visibility).map List.length = some 1 := by
      decide +kernel
    intro hempty
    rw [hempty] at hsome
    exact absurd hsome (by decide)
  refine ⟨finish_twinDraft, fun hexists => hnames ((hgenerated none rfl).mp hexists).1, fun h => ?_⟩
  exact hpublic (hvisibility.mp h ▸ hnodes)

/-! ### Several targets -/

/-- **Several targets.** Each target has its answer in its place, which no other target changes.
With a flag that is not set it is what is generated for the target by itself. With a flag that is
set it is the clash of the members that is found for the target by itself, if there is one, and
otherwise that the search has been called off. -/
theorem generateAll_eq (targets : List Target) :
    (∀ flag, (generateAll targets flag).length = targets.length) ∧
    ∀ (place : ℕ) (target : Target), targets[place]? = some target →
      (∀ flag, flag.isSet = false →
        (generateAll targets flag)[place]? = some ((generate target).map Generated.render)) ∧
      ∀ flag, flag.isSet = true →
        (target.members.Distinct →
          (generateAll targets flag)[place]? = some (.error (.lattice .cancelled))) ∧
        (¬ target.members.Distinct → ∃ error first second,
          (generateAll targets flag)[place]? = some (.error (.lattice error)) ∧
          generate target = .error (.lattice error) ∧
          [first, second].Sublist target.members.toList ∧ error.ClashOf first second) := by
  refine ⟨fun flag => List.length_map _, fun place target hplace => ?_⟩
  have hanswer : ∀ flag, (generateAll targets flag)[place]? =
      some ((generateUnder target (some flag)).map Generated.render) := fun flag => by
    rw [generateAll, List.getElem?_map, hplace, Option.map_some]
  refine ⟨fun flag hflag => ?_, fun flag hflag => ⟨fun h => ?_, fun h => ?_⟩⟩
  · rw [hanswer, generateUnder_of_not_stops ((CancelFlag.stops_some flag).trans hflag)]
  · rw [hanswer, generateUnder_of_stops ((CancelFlag.stops_some flag).trans hflag),
      Lattice.firstClash?_toList.mpr h]
    rfl
  · obtain ⟨error, first, second, herror, hsublist, hclash⟩ := generateUnder_of_not_distinct h
    refine ⟨error, first, second, ?_, herror _, hsublist, hclash⟩
    rw [hanswer, herror]
    rfl

/-- A target without members, which may not have a single stage. -/
def unitTarget : Target where
  name := "Unit"
  visibility := ""
  construction := .literal
  members := ⟨[], .nil⟩
  fixed := []
  settings := { stageLimit := 0 }

/-- A flag that is set calls off the target without members, and the target beside it, whose members
clash, does not change that and is refused for its clash. -/
theorem generateAll_eq_unitTarget :
    [twinTarget, unitTarget][1]? = some unitTarget ∧
      (generateAll [twinTarget, unitTarget] ⟨true⟩)[1]? = some (.error (.lattice .cancelled)) ∧
      (generateAll [twinTarget, unitTarget] ⟨false⟩)[1]? =
        some ((generate unitTarget).map Generated.render) ∧
      ∃ error, (generateAll [twinTarget, unitTarget] ⟨true⟩)[0]? = some (.error (.lattice error)) ∧
        error ≠ .cancelled := by
  obtain ⟨-, hall⟩ := generateAll_eq [twinTarget, unitTarget]
  obtain ⟨hunset, hset⟩ := hall 1 unitTarget rfl
  obtain ⟨-, htwin⟩ := hall 0 twinTarget rfl
  have hunit : unitTarget.members.Distinct := List.Pairwise.nil
  have hclash : ¬ twinTarget.members.Distinct := by decide
  obtain ⟨error, first, second, hanswer, -, -, hpair⟩ := (htwin ⟨true⟩ rfl).2 hclash
  refine ⟨rfl, (hset ⟨true⟩ rfl).1 hunit, hunset ⟨false⟩ rfl, error, hanswer, ?_⟩
  rintro rfl
  exact hpair

end Typestate
