import Typestate.Proofs.Code.Generated
import Typestate.Proofs.Code.Marker
import Typestate.Proofs.Grammar.FieldReference
import Typestate.Proofs.Text.Spelling

/-!
# Names of generated items

Names are written as one token each, which has to be spelled like a word. Those that a finished
target has are identifiers; those that are put together begin with a word or a name and go on with
characters of identifiers.
-/

namespace Typestate

open Unicode Word

/-- A text that is an identifier is spelled like a word. -/
theorem isWord_of_isIdentifierText {name : String} (h : isIdentifierText name = true) :
    IsWord name.toList :=
  Token.isWord_of_lex? (lex?_of_isIdentifierText h).1 _ List.mem_cons_self name .word

/-! ### Names of members -/

namespace Member.Accepted

variable {member : Member} (h : member.Accepted)

include h

/-- The name of an accepted member is a plain word. -/
theorem isPlain_name : IsPlain member.name.toList := by
  have hraw : Word.isRaw member.name = false := by
    obtain ⟨name, type, fallback, index, origin, hmake⟩ := h
    obtain ⟨hfault, readType, readDefault, -, -, rfl⟩ := Member.make_eq_ok.mp hmake
    unfold nameFault? at hfault
    split at hfault
    · contradiction
    · rename_i hplain
      exact Bool.eq_false_iff.mpr hplain
  have hword := isWord_of_isIdentifierText h.isIdentifierText_name
  unfold Word.isRaw at hraw
  generalize member.name.toList = chars at hraw hword
  cases hword with
  | plain hstart hrest => exact ⟨_, _, rfl, hstart, hrest⟩
  | raw hstart hrest hnever => contradiction

/-- The name in upper camel case of an accepted member has characters of identifiers. -/
theorem forall_part_displayName : ∀ c ∈ member.displayName.toList, isIdentifierPart c = true := by
  rw [h.displayName_eq]
  exact Text.forall_part_pascalCase h.isPlain_name.forall_part

theorem isWord_method : IsWord (Naming.method member).toList := by
  have hbegin : IsPlain "add_".toList := isPlain_of_length? (by decide)
  rw [Naming.method, String.toList_append]
  exact (hbegin.append h.isPlain_name.forall_part).isWord

theorem isWord_memberTrait : IsWord (Naming.memberTrait member).toList := by
  have hbegin : IsPlain "Add".toList := isPlain_of_length? (by decide)
  rw [Naming.memberTrait, String.toList_append]
  exact (hbegin.append h.forall_part_displayName).isWord

end Member.Accepted

/-- The marker of a stage is spelled like a word. -/
theorem isWord_marker {members : MemberList} (h : members.Distinct)
    (haccepted : ∀ member ∈ members.toList, member.Accepted) (key : StageKey) :
    IsWord (Naming.marker key members).toList := by
  cases key with
  | complete =>
    have hcomplete : IsPlain Naming.completeMarker.toList := isPlain_of_length? (by decide)
    exact hcomplete.isWord
  | after supplied =>
    by_cases hempty : supplied = .empty
    · rw [hempty, Naming.marker_empty]
      exact (isPlain_of_length? (by decide)).isWord
    · have hbegin : IsPlain "Exclude_".toList := isPlain_of_length? (by decide)
      rw [Naming.toList_marker hempty]
      refine (hbegin.append (Text.forall_part_intercalate fun word hword => ?_)).isWord
      obtain ⟨member, hmember, rfl⟩ := List.mem_map.mp hword
      exact (haccepted member (MemberList.mem_of_mem_supplied h hmember)).forall_part_displayName

/-! ### Names of items -/

/-- The names that all items share. -/
def Naming.names (naming : Naming) : List String :=
  [naming.target, naming.builder, naming.stagesModule, naming.factory]

/-- The names in the slot of a member and in its method. -/
def Slot.names (slot : Slot) : List String := [slot.name, slot.method, slot.memberTrait]

/-- The names in a stage as a type. -/
def StageMarker.names (item : StageMarker) : List String :=
  item.name :: item.transitions.flatMap fun step => [step.1, step.2]

/-- The names in what is generated, each of which is written as one token. -/
def Generated.names (generated : Generated) : List String :=
  generated.builderType.naming.names ++ [generated.builderType.root] ++
    generated.builderType.slots.flatMap Slot.names ++
    generated.stageModule.traits.map MemberTrait.name ++
    generated.stageModule.markers.flatMap StageMarker.names

theorem Slot.isWord_names {member : Member} (h : member.Accepted) :
    ∀ name ∈ (Slot.ofMember member).names, IsWord name.toList := by
  intro name hname
  simp only [Slot.names, List.mem_cons, List.not_mem_nil, or_false] at hname
  rcases hname with rfl | rfl | rfl
  · exact h.isPlain_name.isWord
  · exact h.isWord_method
  · exact h.isWord_memberTrait

theorem StageMarker.isWord_names {members : MemberList} (h : members.Distinct)
    (haccepted : ∀ member ∈ members.toList, member.Accepted) (stage : Stage) :
    ∀ name ∈ (StageMarker.ofStage members stage).names, IsWord name.toList := by
  refine List.forall_mem_cons.mpr ⟨isWord_marker h haccepted stage.key, fun name hname => ?_⟩
  obtain ⟨step, hstep, hname⟩ := List.mem_flatMap.mp hname
  obtain ⟨edge, -, hedge⟩ := List.mem_filterMap.mp hstep
  obtain ⟨member, hmember, rfl⟩ := Option.map_eq_some_iff.mp hedge
  simp only [List.mem_cons, List.not_mem_nil, or_false] at hname
  rcases hname with rfl | rfl
  · exact (haccepted member (h.get?_eq_some.mp hmember).1).isWord_memberTrait
  · exact isWord_marker h haccepted edge.target

namespace Draft

variable {draft : Draft} {target : Target}

/-- The names that a description gives are identifiers. -/
theorem isIdentifierText_of_checkHeader {construction : Construction}
    (h : draft.checkHeader = .ok construction) :
    isIdentifierText draft.target = true ∧ isIdentifierText draft.settings.factory = true ∧
      (∀ name, draft.settings.builderName = some name → isIdentifierText name = true) ∧
      ∀ name, draft.settings.stagesModule = some name → isIdentifierText name = true := by
  have hchecked : ∀ {role : NameRole} {name : String} {result : Unit},
      checkName role name = .ok result → isIdentifierText name = true := by
    intro role name result hcheck
    unfold checkName at hcheck
    split at hcheck
    · assumption
    · contradiction
  obtain ⟨htarget, hfactory, hbuilder, hstages, -⟩ := checkHeader_eq_ok.mp h
  refine ⟨hchecked htarget, hchecked hfactory, fun name hname => ?_, fun name hname => ?_⟩
  · rw [hname] at hbuilder
    exact hchecked hbuilder
  · rw [hname] at hstages
    exact hchecked hstages

/-- The names that the items of a finished target share are spelled like words: they are identifiers
that are given, or the name of the target with an ending. -/
theorem isWord_naming (h : draft.finish = .ok target) :
    ∀ name ∈ (Naming.ofTarget target).names, IsWord name.toList := by
  obtain ⟨construction, members, fixed, hheader, -, -, rfl⟩ := parts_of_finish h
  obtain ⟨htarget, hfactory, hbuilder, hstages⟩ := isIdentifierText_of_checkHeader hheader
  have hname : IsWord draft.target.toList := isWord_of_isIdentifierText htarget
  simp only [Naming.names, Naming.ofTarget, List.forall_mem_cons]
  refine ⟨hname, ?_, ?_, isWord_of_isIdentifierText hfactory, fun name hnone =>
    absurd hnone List.not_mem_nil⟩
  · unfold Target.builderName
    cases hsome : draft.settings.builderName with
    | some name => exact isWord_of_isIdentifierText (hbuilder name hsome)
    | none =>
      rw [Option.getD_none, String.toList_append]
      have hending : IsPlain "Builder".toList := isPlain_of_length? (by decide)
      exact hname.isStem.isWord_append hending (by decide)
  · unfold Target.stagesModule
    cases hsome : draft.settings.stagesModule with
    | some name => exact isWord_of_isIdentifierText (hstages name hsome)
    | none =>
      rw [Option.getD_none, String.toList_append]
      have hending : IsPlain "_builder_stages".toList := isPlain_of_length? (by decide)
      exact (Text.isStem_snakeCase hname.isStem).isWord_append hending (by decide)

/-- All names in what is generated for a finished target are spelled like words. -/
theorem isWord_names {generated : Generated} (hfinish : draft.finish = .ok target)
    (hgenerate : generate target = .ok generated) :
    ∀ name ∈ generated.names, IsWord name.toList := by
  have haccepted := finish_accepted hfinish
  obtain ⟨body, hlattice, -, hmodule, hitem, -⟩ := generate_eq_ok hgenerate
  obtain ⟨hdistinct, -, -, hsame⟩ := Lattice.build_eq_ok.mp hlattice
  have hmembers : generated.lattice.members = target.members := by
    rw [hsame]
    rfl
  rw [Generated.names, hitem, hmodule]
  simp only [StageModule.ofLattice, hmembers, List.forall_mem_append]
  refine ⟨⟨⟨⟨isWord_naming hfinish, fun name hname => ?_⟩, fun name hname => ?_⟩,
    fun name hname => ?_⟩, fun name hname => ?_⟩
  · rw [List.mem_singleton.mp hname]
    exact isWord_marker hdistinct haccepted _
  · obtain ⟨slot, hslot, hname⟩ := List.mem_flatMap.mp hname
    obtain ⟨member, hmember, rfl⟩ := List.mem_map.mp hslot
    exact Slot.isWord_names (haccepted member hmember) name hname
  · obtain ⟨trait, htrait, rfl⟩ := List.mem_map.mp hname
    obtain ⟨member, hmember, rfl⟩ := List.mem_map.mp htrait
    exact (haccepted member hmember).isWord_memberTrait
  · obtain ⟨marker, hmarker, hname⟩ := List.mem_flatMap.mp hname
    obtain ⟨stage, -, rfl⟩ := List.mem_map.mp hmarker
    exact StageMarker.isWord_names hdistinct haccepted stage name hname

end Draft

end Typestate
