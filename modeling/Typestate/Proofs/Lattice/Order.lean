import Mathlib.Data.Finset.Powerset
import Mathlib.Data.Finset.Sort
import Mathlib.Data.List.Lex
import Typestate.Proofs.Lattice.Exactness

/-!
# The order of the stages

A set of supplied members is spelled out as a sequence: its mandatory members in ascending order,
and after them its optional ones, wherever their indexes lie. The stages stand in the lexicographic
order of their sequences. Under a set the enumeration lists the sets that go on after its sequence,
by a next member that ascends, and the optional phase goes on after the sequence of all mandatory
members, so both phases keep to the one order.
-/

namespace Typestate

/-- What goes on with a smaller member comes first. -/
theorem lex_of_prefix {base first second : List ℕ} {before after : ℕ} (hless : before < after)
    (hfirst : base ++ [before] <+: first) (hsecond : base ++ [after] <+: second) :
    List.Lex (· < ·) first second := by
  obtain ⟨firstRest, rfl⟩ := hfirst
  obtain ⟨secondRest, rfl⟩ := hsecond
  rw [List.append_assoc, List.append_assoc]
  exact List.Lex.append_left _ (.rel hless) base

/-- What goes on comes after what does not. -/
theorem lex_of_prefix_self {base longer : List ℕ} {member : ℕ} (h : base ++ [member] <+: longer) :
    List.Lex (· < ·) base longer := by
  obtain ⟨rest, rfl⟩ := h
  simpa using List.Lex.append_left (· < ·) (List.Lex.nil (a := member) (l := rest)) base

/-- Part of an ascending list is what is kept of the list by membership in the part. -/
theorem filter_mem_sublist {taken members : List ℕ} (hsub : taken.Sublist members)
    (hascending : members.Pairwise (· < ·)) :
    members.filter (fun member => member ∈ taken) = taken := by
  have hperm : (members.filter fun member => member ∈ taken).Perm taken := by
    refine (List.perm_ext_iff_of_nodup ((hascending.imp Nat.ne_of_lt).filter _)
      ((hascending.sublist hsub).imp Nat.ne_of_lt)).mpr fun member => ?_
    simpa using fun hmember => hsub.subset hmember
  exact hperm.eq_of_pairwise (fun _ _ _ _ hless hmore => absurd hmore (Nat.lt_asymm hless))
    (hascending.filter _) (hascending.sublist hsub)

namespace Phase

/-- As long as a next member is left, the phase is not over. -/
theorem ne_members_of_sublist {phase : Phase} {taken later : List ℕ} {member : ℕ}
    (hsub : (taken ++ member :: later).Sublist phase.members) : taken ≠ phase.members := by
  intro hfull
  have hlength := hsub.length_le
  simp only [hfull, List.length_append, List.length_cons] at hlength
  omega

/-- Before the phase is over, the set itself is listed, then what is listed with the next member and
then what is listed without it. -/
theorem subtree_cons {phase : Phase} {taken later : List ℕ} {member : ℕ}
    (hopen : taken ≠ phase.members) :
    phase.subtree taken (member :: later) =
      phase.set taken ::
        (phase.subtree (taken ++ [member]) later ++ extensions phase.block taken later) := by
  simp [subtree, extensions, block, hopen]

/-- The sequence of a listed set begins with what has been supplied before the phase and in it; it
is all of that as long as the phase is not over, and the sets after the phase are in order. -/
structure Ordered (phase : Phase) (sequence : IndexSet → List ℕ) : Prop where
  ascending : phase.members.Pairwise (· < ·)
  sequence_set : ∀ taken, taken.Sublist phase.members → taken ≠ phase.members →
    sequence (phase.set taken) = phase.base ++ taken
  prefix_after : ∀ supplied ∈ phase.after, phase.base ++ phase.members <+: sequence supplied
  lex_after : (phase.after.map sequence).Pairwise (List.Lex (· < ·))

namespace Ordered

variable {phase : Phase} {sequence : IndexSet → List ℕ}

/-- What is listed after some members of the phase goes on after them. -/
theorem prefix_block (h : phase.Ordered sequence) {taken : List ℕ} {supplied : IndexSet}
    (hsub : taken.Sublist phase.members) (hsupplied : supplied ∈ phase.block taken) :
    phase.base ++ taken <+: sequence supplied := by
  unfold block at hsupplied
  split at hsupplied
  · rename_i hfull
    exact hfull ▸ h.prefix_after supplied hsupplied
  · rename_i hopen
    rw [List.mem_singleton.mp hsupplied, h.sequence_set taken hsub hopen]

/-- All that is listed under some members of the phase goes on after them. -/
theorem prefix_subtree (h : phase.Ordered sequence) {taken later : List ℕ} {supplied : IndexSet}
    (hsub : (taken ++ later).Sublist phase.members)
    (hsupplied : supplied ∈ phase.subtree taken later) :
    phase.base ++ taken <+: sequence supplied := by
  obtain ⟨more, hmore, hsupplied⟩ := mem_subtree.mp hsupplied
  have hlonger := h.prefix_block ((hmore.append_left taken).trans hsub) hsupplied
  rw [← List.append_assoc] at hlonger
  exact (List.prefix_append _ _).trans hlonger

/-- What is listed under some members, but not at them, goes on with a later member. -/
theorem prefix_extensions (h : phase.Ordered sequence) {taken later : List ℕ}
    {supplied : IndexSet} (hsub : (taken ++ later).Sublist phase.members)
    (hsupplied : supplied ∈ extensions phase.block taken later) :
    ∃ member ∈ later, phase.base ++ taken ++ [member] <+: sequence supplied := by
  obtain ⟨more, hmore, hne, hsupplied⟩ := mem_extensions.mp hsupplied
  obtain ⟨member, rest, rfl⟩ := List.exists_cons_of_ne_nil hne
  refine ⟨member, hmore.subset List.mem_cons_self, ?_⟩
  have hlonger := h.prefix_block ((hmore.append_left taken).trans hsub) hsupplied
  exact (List.prefix_append _ rest).trans (by simpa using hlonger)

/-- What is listed under some members is in order: first the set that does not go on, then what goes
on with the next member, then what goes on with a later one. -/
theorem lex_subtree (h : phase.Ordered sequence) {taken later : List ℕ}
    (hsub : (taken ++ later).Sublist phase.members) :
    ((phase.subtree taken later).map sequence).Pairwise (List.Lex (· < ·)) := by
  induction later generalizing taken with
  | nil =>
    rw [subtree, extensions, List.append_nil]
    unfold block
    split
    · exact h.lex_after
    · exact List.pairwise_singleton _ _
  | cons member later ih =>
    have hnext : (taken ++ [member] ++ later).Sublist phase.members := by simpa using hsub
    have hskip : (taken ++ later).Sublist phase.members :=
      ((List.sublist_cons_self member later).append_left taken).trans hsub
    have htaken : taken.Sublist phase.members := (List.sublist_append_left _ _).trans hsub
    have hopen : taken ≠ phase.members := ne_members_of_sublist hsub
    have hfrom : ∀ other ∈ later, member < other :=
      (List.pairwise_cons.mp ((h.ascending.sublist hsub).sublist
        (List.sublist_append_right taken _))).1
    -- What is listed without the next member is in order under the same members.
    have hothers : ((extensions phase.block taken later).map sequence).Pairwise
        (List.Lex (· < ·)) :=
      (ih hskip).sublist ((List.sublist_append_right _ _).map sequence)
    have hwith : ∀ supplied ∈ phase.subtree (taken ++ [member]) later,
        phase.base ++ taken ++ [member] <+: sequence supplied := fun supplied hsupplied => by
      simpa using h.prefix_subtree hnext hsupplied
    rw [subtree_cons hopen, List.map_cons, List.pairwise_cons, List.map_append, List.pairwise_append,
      ← List.map_append, List.forall_mem_map, h.sequence_set taken htaken hopen]
    simp only [List.forall_mem_map]
    refine ⟨fun supplied hsupplied => ?_, ih hnext, hothers, fun first hfirst second hsecond => ?_⟩
    · rcases List.mem_append.mp hsupplied with hsupplied | hsupplied
      · exact lex_of_prefix_self (hwith supplied hsupplied)
      · obtain ⟨other, -, hother⟩ := h.prefix_extensions hskip hsupplied
        exact lex_of_prefix_self hother
    · obtain ⟨other, hother, hafter⟩ := h.prefix_extensions hskip hsecond
      exact lex_of_prefix (hfrom other hother) (hwith first hfirst) hafter

/-- All sets of the phase are in order. -/
theorem lex_sets (h : phase.Ordered sequence) :
    (phase.sets.map sequence).Pairwise (List.Lex (· < ·)) :=
  h.lex_subtree (List.Sublist.refl phase.members)

end Ordered

end Phase

namespace Roster

variable {roster : Roster}

/-- The members of a set, the mandatory ones before the optional ones. -/
def sequence (roster : Roster) (supplied : IndexSet) : List ℕ :=
  roster.mandatory.filter (fun member => member ∈ supplied) ++
    roster.optional.filter fun member => member ∈ supplied

/-- In the optional phase all mandatory members come first. -/
theorem sequence_optional (hoptional : roster.optional.Pairwise (· < ·)) {taken : List ℕ}
    (hsub : taken.Sublist roster.optional) :
    roster.sequence (.ofList (roster.mandatory ++ taken)) = roster.mandatory ++ taken := by
  have hdisjoint := List.disjoint_of_nodup_append roster.nodup
  have hmandatory : roster.mandatory.filter
      (fun member => member ∈ IndexSet.ofList (roster.mandatory ++ taken)) = roster.mandatory := by
    refine List.filter_eq_self.mpr fun member hmember => ?_
    simp [hmember]
  have htaken : roster.optional.filter
      (fun member => member ∈ IndexSet.ofList (roster.mandatory ++ taken)) = taken := by
    rw [← filter_mem_sublist hsub hoptional]
    refine List.filter_congr fun member hmember => ?_
    have hout : member ∉ roster.mandatory := fun hin => hdisjoint hin hmember
    simp [hout, hmember]
  rw [sequence, hmandatory, htaken]

/-- In the mandatory phase there is no optional member. -/
theorem sequence_mandatory (hmandatory : roster.mandatory.Pairwise (· < ·)) {taken : List ℕ}
    (hsub : taken.Sublist roster.mandatory) : roster.sequence (.ofList taken) = taken := by
  have hdisjoint := List.disjoint_of_nodup_append roster.nodup
  have hnone : roster.optional.filter (fun member => member ∈ IndexSet.ofList taken) = [] := by
    refine List.filter_eq_nil_iff.mpr fun member hmember => ?_
    simpa using fun hin => hdisjoint (hsub.subset hin) hmember
  rw [sequence, hnone, List.append_nil]
  simpa using filter_mem_sublist hsub hmandatory

theorem optionalPhase_ordered (hoptional : roster.optional.Pairwise (· < ·)) :
    roster.optionalPhase.Ordered roster.sequence where
  ascending := hoptional
  sequence_set := fun _ hsub _ => sequence_optional hoptional hsub
  prefix_after := fun _ hsupplied => absurd hsupplied List.not_mem_nil
  lex_after := List.Pairwise.nil

theorem mandatoryPhase_ordered (hmandatory : roster.mandatory.Pairwise (· < ·))
    (hoptional : roster.optional.Pairwise (· < ·)) :
    roster.mandatoryPhase.Ordered roster.sequence where
  ascending := hmandatory
  sequence_set := fun _ hsub _ => sequence_mandatory hmandatory hsub
  prefix_after := by
    intro supplied hsupplied
    have hprefix : roster.mandatory ++ [] <+: roster.sequence supplied :=
      (optionalPhase_ordered hoptional).prefix_subtree (List.Sublist.refl _) hsupplied
    simpa [mandatoryPhase] using hprefix
  lex_after := (optionalPhase_ordered hoptional).lex_sets

/-- The enumerated sets are in order. -/
theorem lex_sets (hmandatory : roster.mandatory.Pairwise (· < ·))
    (hoptional : roster.optional.Pairwise (· < ·)) :
    (roster.sets.map roster.sequence).Pairwise (List.Lex (· < ·)) :=
  (mandatoryPhase_ordered hmandatory hoptional).lex_sets

end Roster

namespace MemberList

variable {members : MemberList} {h : members.Distinct}

/-- A set of members as a sequence: its mandatory members in ascending order, and after them its
optional ones in ascending order. -/
def sequence (members : MemberList) (set : Finset ℕ) : List ℕ :=
  (set ∩ members.mandatorySet).sort ++ (set ∩ members.optionalSet).sort

/-- The sets of supplied members after which something is left to supply: the proper subsets of the
mandatory members, and all mandatory members with a proper subset of the optional ones. -/
def stageSets (members : MemberList) : Finset (Finset ℕ) :=
  members.mandatorySet.ssubsets ∪ members.optionalSet.ssubsets.image (members.mandatorySet ∪ ·)

/-- The sequences of the stages in lexicographic order. -/
def sequences (members : MemberList) : List (List ℕ) :=
  (members.stageSets.image members.sequence).sort

/-- What is kept of an ascending list by membership in a set is the common part in order. -/
theorem sort_inter_toFinset {supplied : IndexSet} {indexes : List ℕ}
    (hascending : indexes.Pairwise (· < ·)) :
    (supplied.toFinset ∩ indexes.toFinset).sort =
      indexes.filter fun member => member ∈ supplied := by
  have hset : supplied.toFinset ∩ indexes.toFinset =
      (indexes.filter fun member => member ∈ supplied).toFinset := by
    ext member
    simp [and_comm]
  rw [hset]
  exact (List.toFinset_sort (· ≤ ·) ((hascending.imp Nat.ne_of_lt).filter _)).mpr
    ((hascending.imp Nat.le_of_lt).filter _)

/-- Both ways to spell a set out are one. -/
theorem sequence_toFinset (supplied : IndexSet) :
    members.sequence supplied.toFinset = (members.roster h).sequence supplied := by
  rw [sequence, mandatorySet, optionalSet, sort_inter_toFinset h.ascending_mandatoryIndexes,
    sort_inter_toFinset h.ascending_optionalIndexes]
  rfl

/-- The sets of the stages are those of the members. -/
theorem toFinset_stages :
    ((members.lattice h).stages.map fun stage => stage.supplied.toFinset).toFinset =
      members.stageSets := by
  ext set
  rw [List.mem_toFinset, mem_map_toFinset_stages, stageSets]
  simp [eq_comm]

/-- The sequences of the stages are those of the enumerated sets. -/
theorem map_sequence_eq_sets :
    (members.lattice h).stages.map (fun stage => members.sequence stage.supplied.toFinset) =
      (members.roster h).sets.map (members.roster h).sequence := by
  rw [lattice_stages, List.map_map]
  exact List.map_congr_left fun supplied _ => sequence_toFinset supplied

/-- The sequences of the stages ascend. -/
theorem lex_stages :
    ((members.lattice h).stages.map fun stage =>
      members.sequence stage.supplied.toFinset).Pairwise (List.Lex (· < ·)) := by
  rw [map_sequence_eq_sets]
  exact Roster.lex_sets h.ascending_mandatoryIndexes h.ascending_optionalIndexes

/-- The sequences of the stages are all sequences in their order. -/
theorem map_sequence_stages :
    (members.lattice h).stages.map (fun stage => members.sequence stage.supplied.toFinset) =
      members.sequences := by
  have hset : ((members.lattice h).stages.map fun stage =>
      members.sequence stage.supplied.toFinset).toFinset =
        members.stageSets.image members.sequence := by
    rw [← toFinset_stages (h := h)]
    ext sequence
    simp
  rw [sequences, ← hset]
  refine ((List.toFinset_sort (· ≤ ·) ?_).mpr ?_).symm
  · exact lex_stages.imp fun hless => ne_of_lt hless
  · exact lex_stages.imp fun hless => le_of_lt hless

/-- The sequence of a stage has all its members. -/
theorem ofList_sequence {supplied : IndexSet} (hsupplied : supplied ∈ (members.roster h).sets) :
    .ofList (members.sequence supplied.toFinset) = supplied := by
  rw [sequence_toFinset (h := h), Roster.sequence]
  refine IndexSet.ext fun member => ?_
  have hmembers : member ∈ supplied → member ∈ (members.roster h).members :=
    (Roster.of_mem_sets hsupplied).1 member
  rw [Roster.members, List.mem_append] at hmembers
  simp only [IndexSet.mem_ofList, List.mem_append, List.mem_filter, decide_eq_true_eq]
  tauto

/-- The stages are those of the sequences, in their order. -/
theorem map_supplied_stages :
    (members.lattice h).stages.map Stage.supplied = members.sequences.map IndexSet.ofList := by
  rw [← map_sequence_stages (h := h), List.map_map, lattice_stages, List.map_map, List.map_map]
  exact List.map_congr_left fun supplied hsupplied => (ofList_sequence hsupplied).symm

end MemberList

end Typestate
