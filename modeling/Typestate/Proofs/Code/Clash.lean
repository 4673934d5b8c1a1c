import Typestate.Proofs.Code.Marker
import Typestate.Proofs.Code.Reading
import Typestate.Proofs.Member.Accepted

/-!
# Clashes of names in the stages module

Members differ in their names in upper camel case, and still two stages can have one marker: the
names are joined by low lines, and a name that keeps a low line reads like two names. This is the
only way in which names clash. It takes a low line that a cluster holds together with another
character.
-/

namespace Typestate

namespace StageModule

/-- The names that the stages module declares, read off its tokens. -/
def declared (item : StageModule) : List String :=
  (readItems item.body).filterMap ModuleItem.declared?

/-- The names of the traits and types of the stages module. -/
theorem declared_eq (item : StageModule) :
    item.declared = [Naming.stageTrait, Naming.canBuildTrait] ++ item.traits.map MemberTrait.name ++
      [Naming.completeMarker] ++ item.markers.map StageMarker.name := by
  have hmarker : ∀ marker : StageMarker,
      marker.items.filterMap ModuleItem.declared? = [marker.name] := fun marker =>
    marker.filterMap_items_of_type rfl fun _ _ => rfl
  have htraits : item.traits.filterMap (fun memberTrait =>
      (ModuleItem.trait memberTrait.name).declared?) = item.traits.map MemberTrait.name :=
    congrFun List.filterMap_eq_map _
  rw [declared, readItems_body, filterMap_items, List.flatMap_congr fun marker _ => hmarker marker,
    ← List.map_eq_flatMap, htraits]
  rfl

variable {members : MemberList} {limit : ℕ} {flag : Option CancelFlag} {lattice : Lattice}

/-- The traits and the complete marker differ from each other. -/
theorem nodup_fixedNames (h : members.Distinct) :
    ([Naming.stageTrait, Naming.canBuildTrait] ++ members.toList.map Naming.memberTrait ++
      [Naming.completeMarker]).Nodup := by
  have htraits : (members.toList.map Naming.memberTrait).Nodup := by
    refine List.pairwise_map.mpr (List.Pairwise.imp (fun hdiffers hsame => ?_) h)
    exact hdiffers.displayName ((String.append_right_inj _).mp hsame)
  have hhead : ∀ name ∈ members.toList.map Naming.memberTrait, name.toList.head? = some 'A' := by
    intro name hname
    obtain ⟨member, -, rfl⟩ := List.mem_map.mp hname
    exact Naming.head_memberTrait member
  have hfixed : ∀ name ∈ [Naming.stageTrait, Naming.canBuildTrait],
      name.toList.head? ≠ some 'A' ∧ name ≠ Naming.completeMarker := by decide
  refine List.nodup_append.mpr ⟨List.nodup_append.mpr ⟨by decide, htraits, ?_⟩,
    List.nodup_singleton _, ?_⟩
  · intro first hfirst second hsecond hsame
    exact (hfixed first hfirst).1 (hsame ▸ hhead second hsecond)
  · intro first hfirst second hsecond hsame
    rw [List.mem_singleton.mp hsecond] at hsame
    rcases List.mem_append.mp hfirst with hfirst | hfirst
    · exact (hfixed first hfirst).2 hsame
    · have hcomplete := hhead first hfirst
      rw [hsame] at hcomplete
      exact absurd hcomplete (by decide)

/-- The traits and the complete marker begin as no marker of a stage. -/
theorem head_fixedNames (name : String)
    (hname : name ∈ [Naming.stageTrait, Naming.canBuildTrait] ++
      members.toList.map Naming.memberTrait ++ [Naming.completeMarker]) :
    name.toList.head? ∈ [some 'A', some 'C', some 'S'] := by
  have hfixed : ∀ name ∈ [Naming.stageTrait, Naming.canBuildTrait] ++ [Naming.completeMarker],
      name.toList.head? ∈ [some 'A', some 'C', some 'S'] := by decide
  rw [List.append_assoc] at hname
  rcases List.mem_append.mp hname with hname | hname
  · exact hfixed name (List.mem_append_left _ hname)
  · rcases List.mem_append.mp hname with hname | hname
    · obtain ⟨member, -, rfl⟩ := List.mem_map.mp hname
      rw [Naming.head_memberTrait]
      decide
    · exact hfixed name (List.mem_append_right _ hname)

/-- Only markers of stages can clash: the other items begin differently and are named after
different members. -/
theorem declared_nodup_iff_markers (h : members.Distinct) (target : Target) (naming : Naming) :
    (ofLattice target naming (members.lattice h)).declared.Nodup ↔
      ((members.lattice h).stages.map fun stage => Naming.marker stage.key members).Nodup := by
  have hdeclared : (ofLattice target naming (members.lattice h)).declared =
      [Naming.stageTrait, Naming.canBuildTrait] ++ members.toList.map Naming.memberTrait ++
        [Naming.completeMarker] ++
          (members.lattice h).stages.map fun stage => Naming.marker stage.key members := by
    rw [declared_eq]
    simp only [ofLattice, List.map_map]
    rfl
  rw [hdeclared, List.nodup_append]
  refine ⟨fun hnodup => hnodup.2.1, fun hmarkers => ⟨nodup_fixedNames h, hmarkers, ?_⟩⟩
  intro name hname marker hmarker hsame
  obtain ⟨stage, -, rfl⟩ := List.mem_map.mp hmarker
  have hfixed := head_fixedNames name hname
  rw [hsame] at hfixed
  have hapart : ∀ head ∈ [some 'R', some 'E'], head ∉ [some 'A', some 'C', some 'S'] := by decide
  exact hapart _ (Naming.head_marker stage.supplied) hfixed

/-- Stages of the lattice hold members only. -/
theorem knows_of_mem_stages (h : members.Distinct) {stage : Stage}
    (hstage : stage ∈ (members.lattice h).stages) : members.Knows stage.supplied := by
  rw [MemberList.lattice_stages, List.mem_map] at hstage
  obtain ⟨supplied, hsupplied, rfl⟩ := hstage
  exact MemberList.knows_of_mem_sets hsupplied

/-- **Clashes.** The names in the stages module are different exactly if no two stages read the
same, piece by piece between low lines; and they are different if no name of a member has a low line
in a cluster with another character. -/
theorem declared_nodup_iff (hbuild : Lattice.buildUnder members limit flag = .ok lattice)
    (haccepted : ∀ member ∈ members.toList, member.Accepted) (target : Target) (naming : Naming) :
    ((ofLattice target naming lattice).declared.Nodup ↔
      ∀ first ∈ lattice.stages, ∀ second ∈ lattice.stages,
        members.piecesOf Member.displayName first.supplied =
          members.piecesOf Member.displayName second.supplied → first = second) ∧
    ((∀ member ∈ members.toList, ∀ cluster ∈ Unicode.clusters member.name.toList,
      '_' ∈ cluster → cluster = ['_']) → (ofLattice target naming lattice).declared.Nodup) := by
  obtain ⟨h, rfl⟩ := Lattice.of_buildUnder hbuild
  have hsets : ((members.lattice h).stages.map Stage.supplied).Nodup := MemberList.nodup_supplied
  have hiff : (ofLattice target naming (members.lattice h)).declared.Nodup ↔
      ∀ first ∈ (members.lattice h).stages, ∀ second ∈ (members.lattice h).stages,
        members.piecesOf Member.displayName first.supplied =
          members.piecesOf Member.displayName second.supplied → first = second := by
    rw [declared_nodup_iff_markers h, List.nodup_map_iff_inj_on hsets.of_map]
    refine forall₂_congr fun first hfirst => forall₂_congr fun second hsecond => ?_
    rw [Stage.key, Stage.key, Naming.marker_eq_iff h (knows_of_mem_stages h hfirst)
      (knows_of_mem_stages h hsecond)]
  refine ⟨hiff, fun hclusters => hiff.mpr fun first hfirst second hsecond hpieces => ?_⟩
  have hnone : ∀ member ∈ members.toList, '_' ∉ member.displayName.toList := by
    intro member hmember
    rw [(haccepted member hmember).displayName_eq, lowLine_mem_displayName]
    intro hkept
    obtain ⟨cluster, hcluster, hlowLine, hne⟩ := hkept
    exact hne (hclusters member hmember cluster hcluster hlowLine)
  have hsupplied : first.supplied = second.supplied :=
    MemberList.eq_of_piecesOf_eq h (fun hdiffers => hdiffers.displayName) hnone
      (knows_of_mem_stages h hfirst) (knows_of_mem_stages h hsecond) hpieces
  exact List.inj_on_of_nodup_map hsets hfirst hsecond hsupplied

/-- Members that are required and of one type are accepted if their names are in order. -/
theorem accepted_of_names {members : MemberList}
    (hname : ∀ member ∈ members.toList, nameFault? member.name = none ∧
      member = Member.mk member.name (displayName member.name) ⟨"i32"⟩ true member.index .provided
        member.origin) : ∀ member ∈ members.toList, member.Accepted := by
  have htype : (Grammar.readType? "i32").map Grammar.Node.render = some "i32" := by decide +kernel
  intro member hmember
  obtain ⟨hname, hsame⟩ := hname member hmember
  rw [hsame]
  exact Member.accepted_of_required hname htype

/-- A member with a low line in its name, and another one. -/
def plainMembers : MemberList where
  toList :=
    [⟨"user_id", "UserId", ⟨"i32"⟩, true, 0, .provided, .argument⟩,
      ⟨"note", "Note", ⟨"i32"⟩, true, 1, .provided, .argument⟩]
  sorted := by simp

/-- A low line by itself is cut away, so it makes no name clash. -/
theorem declared_nodup_plainMembers :
    ∃ lattice, Lattice.build plainMembers = .ok lattice ∧
      ∀ target naming, (ofLattice target naming lattice).declared.Nodup := by
  have h : plainMembers.Distinct := by decide
  have hbuild : Lattice.build plainMembers = .ok (plainMembers.lattice h) := by
    rw [Lattice.build_of_distinct h]
    exact if_pos (by decide +revert)
  have haccepted : ∀ member ∈ plainMembers.toList, member.Accepted :=
    accepted_of_names (by decide +kernel)
  exact ⟨_, hbuild, fun target naming =>
    (declared_nodup_iff hbuild haccepted target naming).2 (by decide +kernel)⟩

/-- Two members and a third one whose name is theirs joined by a low line. The mark in front of the
low line joins it, so the third name keeps it in upper camel case. -/
def gluedMembers : MemberList where
  toList :=
    [⟨"\u0d4e", "\u0d4e", ⟨"i32"⟩, true, 0, .provided, .argument⟩,
      ⟨"\u6f22", "\u6f22", ⟨"i32"⟩, true, 1, .provided, .argument⟩,
      ⟨"\u0d4e_\u6f22", "\u0d4e_\u6f22", ⟨"i32"⟩, true, 2, .provided, .argument⟩]
  sorted := by simp

/-- Supplying the first two members and supplying the third one lead to different stages of one
name, although the members are accepted and the lattice is built. -/
theorem gluedMembers_clash :
    ∃ lattice, Lattice.build gluedMembers = .ok lattice ∧
      (∀ member ∈ gluedMembers.toList, member.Accepted) ∧
        ∀ target naming, ¬ (ofLattice target naming lattice).declared.Nodup := by
  have h : gluedMembers.Distinct := by decide
  have hbuild : Lattice.build gluedMembers = .ok (gluedMembers.lattice h) := by
    rw [Lattice.build_of_distinct h]
    exact if_pos (by decide +revert)
  refine ⟨_, hbuild, accepted_of_names (by decide +kernel), fun target naming hnodup => ?_⟩
  have hsame : Naming.marker (.after (.ofList [0, 1])) gluedMembers =
      Naming.marker (.after (.ofList [2])) gluedMembers := by decide +kernel
  rw [declared_nodup_iff_markers h, MemberList.lattice_stages, List.map_map] at hnodup
  have hmem : ∀ h : gluedMembers.Distinct, .ofList [0, 1] ∈ (gluedMembers.roster h).sets ∧
      .ofList [2] ∈ (gluedMembers.roster h).sets := by decide
  obtain ⟨hfirst, hsecond⟩ := hmem h
  have hsets : IndexSet.ofList [0, 1] = .ofList [2] :=
    List.inj_on_of_nodup_map hnodup hfirst hsecond hsame
  exact absurd hsets (by decide)

end StageModule

end Typestate
