import Typestate.Proofs.Lattice.Exactness

/-!
# Walks through the lattice

A builder accepts members in any order that supplies none twice and all mandatory ones before the
first optional one. Where it stands then depends on what has been supplied alone, and a value can be
built as soon as no mandatory member is missing.
-/

namespace Typestate

/-- Members may be supplied in the given order. -/
structure MemberList.Admits (members : MemberList) (path : List ℕ) : Prop where
  nodup : path.Nodup
  known : ∀ index ∈ path, ∃ member ∈ members.toList, member.index = index
  /-- Every optional member comes after all mandatory ones. -/
  mandatory_first : ∀ before index later, path = before ++ index :: later →
    index ∈ members.optionalIndexes → ∀ other ∈ members.mandatoryIndexes, other ∈ before

namespace MemberList

variable {members : MemberList} {h : members.Distinct}

theorem admits_nil : members.Admits [] where
  nodup := List.nodup_nil
  known := by simp
  mandatory_first := by simp

/-- One more member may be supplied exactly if it is offered. -/
theorem admits_concat {path : List ℕ} {index : ℕ} :
    members.Admits (path ++ [index]) ↔
      members.Admits path ∧ index ∈ (members.roster h).offered (.ofList path) := by
  rw [Roster.mem_offered, IndexSet.mem_ofList]
  simp only [IndexSet.mem_ofList]
  constructor
  · intro hpath
    obtain ⟨hbefore, -, hout⟩ := List.nodup_append.mp hpath.nodup
    have hnew : index ∉ path := fun hin => hout index hin index (List.mem_singleton_self _) rfl
    refine ⟨⟨hbefore, fun other hother => hpath.known other (List.mem_append_left _ hother),
      fun before other later hparts => hpath.mandatory_first before other (later ++ [index]) ?_⟩,
      hnew, ?_⟩
    · rw [hparts, List.append_assoc, List.cons_append]
    · have hknown := mem_indexes.mpr (hpath.known index (by simp))
      refine (List.mem_append.mp hknown).imp_right fun hoptional => ⟨hoptional, ?_⟩
      exact hpath.mandatory_first path index [] rfl hoptional
  · intro ⟨hpath, hnew, hoffered⟩
    refine ⟨?_, fun other hother => ?_, fun before other later hparts hoptional => ?_⟩
    · refine List.nodup_append.mpr ⟨hpath.nodup, List.nodup_singleton index, ?_⟩
      intro other hother last hlast
      rw [List.mem_singleton.mp hlast]
      exact fun hsame => hnew (hsame ▸ hother)
    · rcases List.mem_append.mp hother with hin | hlast
      · exact hpath.known other hin
      · rw [List.mem_singleton.mp hlast]
        exact mem_indexes.mp (List.mem_append.mpr (hoffered.imp_right And.left))
    -- An optional member inside the path is at its place already; only the last one is new.
    · rcases List.eq_nil_or_concat later with hnil | ⟨later, last, hlater⟩
      · rw [hnil] at hparts
        obtain ⟨hbefore, hlast⟩ := List.append_inj' hparts rfl
        obtain rfl : index = other := by simpa using hlast
        rw [← hbefore]
        refine (hoffered.resolve_left fun hmandatory => ?_).2
        exact h.disjoint_indexes hmandatory hoptional
      · rw [hlater, List.concat_eq_append, ← List.cons_append, ← List.append_assoc] at hparts
        obtain ⟨hbefore, -⟩ := List.append_inj' hparts rfl
        exact hpath.mandatory_first before other later hbefore hoptional

/-- As long as something is left, what has been supplied in an admitted order is enumerated. -/
theorem Admits.mem_sets {path : List ℕ} (hpath : members.Admits path)
    (hleft : ∃ member ∈ (members.roster h).members, member ∉ IndexSet.ofList path) :
    IndexSet.ofList path ∈ (members.roster h).sets := by
  refine Roster.mem_sets_iff.mpr ⟨fun index hindex => ?_, hleft, ?_⟩
  · exact mem_indexes.mpr (hpath.known index (IndexSet.mem_ofList.mp hindex))
  · by_cases hnone : ∀ index ∈ (members.roster h).optional, index ∉ IndexSet.ofList path
    · exact Or.inr hnone
    · push Not at hnone
      obtain ⟨index, hoptional, hindex⟩ := hnone
      obtain ⟨before, later, hparts⟩ := List.append_of_mem (IndexSet.mem_ofList.mp hindex)
      refine Or.inl fun other hother => IndexSet.mem_ofList.mpr ?_
      rw [hparts]
      exact List.mem_append_left _
        (hpath.mandatory_first before index later hparts hoptional other hother)

/-- After an admitted path either nothing is left, or the builder stands in an enumerated stage. -/
theorem Admits.key_eq {path : List ℕ} (hpath : members.Admits path) :
    (∀ index ∈ (members.roster h).members, index ∈ IndexSet.ofList path) ∧
        (members.roster h).key (.ofList path) = .complete ∨
      IndexSet.ofList path ∈ (members.roster h).sets ∧
        (members.roster h).key (.ofList path) = .after (.ofList path) := by
  by_cases hall : ∀ index ∈ (members.roster h).members, index ∈ IndexSet.ofList path
  · exact Or.inl ⟨hall, if_pos hall⟩
  · refine Or.inr ⟨hpath.mem_sets ?_, if_neg hall⟩
    push Not at hall
    exact hall

/-- The step of a member out of an enumerated stage is found exactly if the member is offered. -/
theorem edge?_stage (supplied : IndexSet) (index : ℕ) :
    ((members.roster h).stage supplied).edge? index =
      if index ∈ (members.roster h).offered supplied then
        some ((members.roster h).step supplied index)
      else none := by
  have hfind : ((members.roster h).offered supplied).find? (fun member => member == index) =
      if index ∈ (members.roster h).offered supplied then some index else none := by
    by_cases hin : index ∈ (members.roster h).offered supplied
    · rw [if_pos hin]
      cases hfound :
          ((members.roster h).offered supplied).find? (fun member => member == index) with
      | none => exact absurd (List.find?_eq_none.mp hfound index hin) (by simp)
      | some found =>
        have hsame := List.find?_some hfound
        rw [beq_iff_eq.mp hsame]
    · rw [if_neg hin, List.find?_eq_none]
      intro member hmember hsame
      exact hin (beq_iff_eq.mp hsame ▸ hmember)
  rw [Stage.edge?, Roster.stage, List.find?_map]
  change Option.map _ (List.find? (fun member => member == index) _) = _
  rw [hfind]
  split
  · rfl
  · rfl

/-- Where nothing is left, nothing is offered. -/
theorem not_mem_offered {supplied : IndexSet} {index : ℕ}
    (hall : ∀ member ∈ (members.roster h).members, member ∈ supplied) :
    index ∉ (members.roster h).offered supplied := by
  intro hindex
  obtain ⟨hout, hoffered⟩ := Roster.mem_offered.mp hindex
  exact hout (hall index (List.mem_append.mpr (hoffered.imp_right And.left)))

/-- A builder that has been supplied an admitted path can take a step exactly if the member is
offered. -/
theorem step_key {path : List ℕ} (hpath : members.Admits path) (index : ℕ) :
    (members.lattice h).step ((members.roster h).key (.ofList path)) index =
      if index ∈ (members.roster h).offered (.ofList path) then
        some ((members.roster h).key (.ofList (path ++ [index])))
      else none := by
  rw [IndexSet.ofList_concat]
  rcases hpath.key_eq with ⟨hall, hkey⟩ | ⟨hin, hkey⟩
  · rw [if_neg (not_mem_offered hall), hkey]
    rfl
  · rw [hkey, Lattice.step, lattice_stage?_eq, if_pos hin]
    change Option.bind (Stage.edge? _ index) _ = _
    rw [edge?_stage]
    split
    · rfl
    · rfl

/-- A walk succeeds along admitted paths only, and leads to what has been supplied. -/
theorem walk_eq_some {path : List ℕ} {key : StageKey} :
    (members.lattice h).walk path = some key ↔
      members.Admits path ∧ key = (members.roster h).key (.ofList path) := by
  induction path using List.reverseRecOn generalizing key with
  | nil =>
    change some ((members.roster h).key .empty) = some key ↔ _
    rw [Option.some.injEq, and_iff_right admits_nil, eq_comm]
    rfl
  | append_singleton path index ih =>
    have hconcat : (members.lattice h).walk (path ++ [index]) =
        ((members.lattice h).walk path).bind fun key => (members.lattice h).step key index := by
      simp [Lattice.walk, List.foldlM_append]
    rw [hconcat, Option.bind_eq_some_iff, admits_concat (h := h)]
    constructor
    · intro hwalk
      obtain ⟨before, hbefore, hstep⟩ := hwalk
      obtain ⟨hpath, rfl⟩ := ih.mp hbefore
      rw [step_key hpath] at hstep
      split at hstep
      · rename_i hoffered
        exact ⟨⟨hpath, hoffered⟩, (Option.some.inj hstep).symm⟩
      · contradiction
    · intro hadmits
      obtain ⟨⟨hpath, hoffered⟩, hkey⟩ := hadmits
      refine ⟨_, ih.mpr ⟨hpath, rfl⟩, ?_⟩
      rw [step_key hpath, if_pos hoffered, hkey]

/-- A value can be built after an admitted path exactly if no mandatory member is missing. -/
theorem canBuild_key {path : List ℕ} (hpath : members.Admits path) :
    (members.lattice h).canBuild ((members.roster h).key (.ofList path)) = true ↔
      ∀ index ∈ members.mandatoryIndexes, index ∈ path := by
  rcases hpath.key_eq with ⟨hall, hkey⟩ | ⟨hin, hkey⟩
  · rw [hkey]
    refine iff_of_true rfl fun index hindex => IndexSet.mem_ofList.mp (hall index ?_)
    exact List.mem_append_left _ hindex
  · rw [hkey, Lattice.canBuild, lattice_stage?_eq, if_pos hin, Option.any_some,
      Stage.canBuild, List.isEmpty_iff]
    change Roster.left _ members.mandatoryIndexes = [] ↔ _
    rw [Roster.left_eq_nil]
    simp only [IndexSet.mem_ofList]

/-- The indexes of mandatory members, member by member. -/
theorem forall_mandatoryIndexes {p : ℕ → Prop} :
    (∀ index ∈ members.mandatoryIndexes, p index) ↔
      ∀ member ∈ members.toList, member.mandatory = true → p member.index := by
  rw [mandatoryIndexes, mandatory, List.forall_mem_map, List.forall_mem_filter]

end MemberList

namespace Lattice

variable {members : MemberList} {limit : ℕ} {flag : Option CancelFlag} {lattice : Lattice}

/-- **Walks.** A walk succeeds exactly along the paths that repeat nothing, hold nothing but members
and supply all mandatory members before an optional one. It ends complete if every member has been
supplied and otherwise in the stage of the supplied set, whatever the order, and a value can be
built there exactly if no mandatory member is missing. -/
theorem walk_of_build (hbuild : buildUnder members limit flag = .ok lattice)
    (path : List ℕ) :
    ((lattice.walk path).isSome = true ↔ members.Admits path) ∧
      (∀ key, lattice.walk path = some key →
        key = (if ∀ member ∈ members.toList, member.index ∈ path then .complete
          else .after (.ofList path)) ∧
        (lattice.canBuild key = true ↔
          ∀ member ∈ members.toList, member.mandatory = true → member.index ∈ path)) ∧
      ∀ other, members.Admits path → members.Admits other →
        (∀ index, index ∈ path ↔ index ∈ other) → lattice.walk path = lattice.walk other := by
  obtain ⟨h, rfl⟩ := of_buildUnder hbuild
  refine ⟨?_, fun key hkey => ?_, fun other hpath hother hsame => ?_⟩
  · rw [Option.isSome_iff_exists]
    constructor
    · intro ⟨key, hkey⟩
      exact (MemberList.walk_eq_some.mp hkey).1
    · intro hpath
      exact ⟨_, MemberList.walk_eq_some.mpr ⟨hpath, rfl⟩⟩
  · obtain ⟨hpath, rfl⟩ := MemberList.walk_eq_some.mp hkey
    refine ⟨if_congr ?_ rfl rfl, ?_⟩
    · constructor
      · intro hall member hmember
        exact IndexSet.mem_ofList.mp (hall _ (MemberList.mem_indexes.mpr ⟨member, hmember, rfl⟩))
      · intro hall index hindex
        obtain ⟨member, hmember, rfl⟩ := MemberList.mem_indexes.mp hindex
        exact IndexSet.mem_ofList.mpr (hall member hmember)
    · rw [MemberList.canBuild_key hpath, MemberList.forall_mandatoryIndexes]
  · have hset : IndexSet.ofList path = .ofList other := IndexSet.ofList_congr hsame
    rw [MemberList.walk_eq_some.mpr ⟨hpath, rfl⟩, MemberList.walk_eq_some.mpr ⟨hother, rfl⟩, hset]

/-- With both mandatory members supplied, in descending order, a value can be built. -/
theorem walk_of_build_sparseMembers :
    ∃ lattice, Lattice.build sparseMembers 4 = .ok lattice ∧
      lattice.walk [40, 3] = some (.after (.ofList [3, 40])) ∧
        lattice.canBuild (.after (.ofList [3, 40])) = true := by
  refine ⟨_, build_sparseMembers, ?_⟩
  obtain ⟨hsome, hkey, -⟩ := walk_of_build build_sparseMembers [40, 3]
  have hnone : ∀ index ∈ [40, 3], index ∉ sparseMembers.optionalIndexes := by decide
  have hadmits : sparseMembers.Admits [40, 3] := by
    refine ⟨by decide, by decide, fun before index later hparts hoptional => ?_⟩
    have hindex : index ∈ [40, 3] := hparts ▸ List.mem_append_right _ List.mem_cons_self
    exact absurd hoptional (hnone index hindex)
  obtain ⟨key, hwalk⟩ := Option.isSome_iff_exists.mp (hsome.mpr hadmits)
  obtain ⟨hkey, hcan⟩ := hkey key hwalk
  rw [if_neg (by decide)] at hkey
  have hset : IndexSet.ofList [40, 3] = .ofList [3, 40] := by decide
  rw [hset] at hkey
  subst hkey
  exact ⟨hwalk, hcan.mpr (by decide)⟩

end Lattice

end Typestate
