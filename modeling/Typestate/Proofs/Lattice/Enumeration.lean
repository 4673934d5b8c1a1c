import Mathlib.Data.List.Nodup
import Mathlib.Data.List.Sublists
import Typestate.Lattice.Search

/-!
# The sets of supplied members, enumerated

A builder passes through two phases: first the mandatory members are supplied, then the optional
ones. Within a phase any set of its members can have been supplied, and the sets are listed in
preorder, each before the sets that extend it by later members. Where a phase is over, the sets of
the next phase stand in its place. The enumeration keeps no memory; that the search with its memory
finds the same sets in the same order is shown elsewhere.
-/

namespace Typestate

/-- The members of a builder, those that have to be supplied and those that may be, none twice. -/
structure Roster where
  mandatory : List ℕ
  optional : List ℕ
  nodup : (mandatory ++ optional).Nodup

/-- A phase of supplying: what has been supplied before it, what is supplied in it, and the sets
that are listed once it is over. -/
structure Phase where
  base : List ℕ
  members : List ℕ
  after : List IndexSet

/-- The members of a list that have not been supplied. -/
def Roster.left (supplied : IndexSet) (members : List ℕ) : List ℕ :=
  members.filter fun member => member ∉ supplied

/-- What stands at a set and then at all its extensions by later members, in preorder. -/
def extensions {A : Type*} (block : List ℕ → List A) (taken : List ℕ) : List ℕ → List A
  | [] => []
  | member :: later =>
    block (taken ++ [member]) ++ extensions block (taken ++ [member]) later ++
      extensions block taken later

/-- Extensions are reached by a nonempty selection of the later members. -/
theorem mem_extensions {A : Type*} {block : List ℕ → List A} {taken later : List ℕ} {a : A} :
    a ∈ extensions block taken later ↔
      ∃ more, more.Sublist later ∧ more ≠ [] ∧ a ∈ block (taken ++ more) := by
  induction later generalizing taken with
  | nil =>
    simp only [extensions, List.not_mem_nil, List.sublist_nil, false_iff, not_exists]
    intro more hmore
    obtain ⟨hnil, hne, -⟩ := hmore
    exact hne hnil
  | cons member later ih =>
    simp only [extensions, List.mem_append, ih, List.append_assoc, List.singleton_append]
    constructor
    · intro hcases
      rcases hcases with h | ⟨more, hsub, -, h⟩ | ⟨more, hsub, hne, h⟩
      · exact ⟨[member], List.singleton_sublist.mpr List.mem_cons_self, List.cons_ne_nil _ _, h⟩
      · exact ⟨member :: more, hsub.cons_cons member, List.cons_ne_nil _ _, h⟩
      · exact ⟨more, hsub.cons member, hne, h⟩
    · intro hfound
      obtain ⟨more, hsub, hne, h⟩ := hfound
      cases hsub with
      | cons _ hsub => exact Or.inr (Or.inr ⟨more, hsub, hne, h⟩)
      | cons_cons _ hsub =>
        rename_i more
        by_cases hmore : more = []
        · subst hmore
          exact Or.inl h
        · exact Or.inr (Or.inl ⟨more, hsub, hmore, h⟩)

namespace Phase

/-- The set of members that have been supplied after some members of the phase. -/
def set (phase : Phase) (taken : List ℕ) : IndexSet := .ofList (phase.base ++ taken)

/-- The members of the phase that are left. -/
def rest (phase : Phase) (taken : List ℕ) : List ℕ :=
  phase.members.filter fun member => member ∉ taken

/-- What is listed after exactly the given members of the phase. -/
def block (phase : Phase) (taken : List ℕ) : List IndexSet :=
  if taken = phase.members then phase.after else [phase.set taken]

/-- A set and all its extensions by later members, in preorder. -/
def subtree (phase : Phase) (taken later : List ℕ) : List IndexSet :=
  phase.block taken ++ extensions phase.block taken later

/-- All sets of the phase and of those after it. -/
def sets (phase : Phase) : List IndexSet := phase.subtree [] phase.members

/-- Supplying one more member of the phase. -/
theorem set_concat (phase : Phase) (taken : List ℕ) (member : ℕ) :
    phase.set (taken ++ [member]) = (phase.set taken).insert member := by
  rw [set, ← List.append_assoc, IndexSet.ofList_concat, set]

/-- The order in which members of the phase are supplied does not matter. -/
theorem set_congr (phase : Phase) {taken other : List ℕ}
    (h : ∀ member, member ∈ taken ↔ member ∈ other) : phase.set taken = phase.set other :=
  IndexSet.ofList_congr fun member => by simp only [List.mem_append, h]

@[simp] theorem mem_set {phase : Phase} {taken : List ℕ} {member : ℕ} :
    member ∈ phase.set taken ↔ member ∈ phase.base ∨ member ∈ taken := by
  rw [set, IndexSet.mem_ofList, List.mem_append]

@[simp] theorem mem_rest {phase : Phase} {taken : List ℕ} {member : ℕ} :
    member ∈ phase.rest taken ↔ member ∈ phase.members ∧ member ∉ taken := by
  simp [rest]

/-- A subtree holds what stands at every selection of the later members. -/
theorem mem_subtree {phase : Phase} {taken later : List ℕ} {supplied : IndexSet} :
    supplied ∈ phase.subtree taken later ↔
      ∃ more, more.Sublist later ∧ supplied ∈ phase.block (taken ++ more) := by
  rw [subtree, List.mem_append, mem_extensions]
  constructor
  · intro hcases
    rcases hcases with h | ⟨more, hsub, -, h⟩
    · exact ⟨[], List.nil_sublist later, by simpa using h⟩
    · exact ⟨more, hsub, h⟩
  · intro hfound
    obtain ⟨more, hsub, h⟩ := hfound
    by_cases hmore : more = []
    · subst hmore
      exact Or.inl (by simpa using h)
    · exact Or.inr ⟨more, hsub, hmore, h⟩

/-- No member of the phase is repeated or has been supplied before, and the sets after the phase
are different sets in which the phase is over. -/
structure WellFormed (phase : Phase) : Prop where
  nodup : (phase.base ++ phase.members).Nodup
  after_nodup : phase.after.Nodup
  mem_after : ∀ supplied ∈ phase.after, ∀ member ∈ phase.members, member ∈ supplied

namespace WellFormed

variable {phase : Phase}

theorem nodup_members (hphase : phase.WellFormed) : phase.members.Nodup :=
  (List.nodup_append.mp hphase.nodup).2.1

theorem not_mem_base (hphase : phase.WellFormed) {member : ℕ} (hmember : member ∈ phase.members) :
    member ∉ phase.base := fun hbase =>
  (List.nodup_append.mp hphase.nodup).2.2 member hbase member hmember rfl

theorem not_mem_later (hphase : phase.WellFormed) {before later : List ℕ}
    (hparts : phase.members = before ++ later) {member : ℕ} (hbefore : member ∈ before) :
    member ∉ later := fun hlater =>
  (List.nodup_append.mp (hparts ▸ hphase.nodup_members)).2.2 member hbefore member hlater rfl

/-- A listed set holds exactly those members of the phase at which it is listed. -/
theorem mem_of_mem_block (hphase : phase.WellFormed) {taken : List ℕ} {supplied : IndexSet}
    (hsupplied : supplied ∈ phase.block taken) {member : ℕ} (hmember : member ∈ phase.members) :
    member ∈ supplied ↔ member ∈ taken := by
  unfold block at hsupplied
  split at hsupplied
  · rename_i hfull
    exact iff_of_true (hphase.mem_after supplied hsupplied member hmember) (hfull ▸ hmember)
  · rw [List.mem_singleton.mp hsupplied, mem_set]
    exact or_iff_right (hphase.not_mem_base hmember)

/-- The members of the phase that are left are those that are not in the set. -/
theorem left_set (hphase : phase.WellFormed) (taken : List ℕ) :
    Roster.left (phase.set taken) phase.members = phase.rest taken := by
  refine List.filter_congr fun member hmember => ?_
  simp only [mem_set, or_iff_right (hphase.not_mem_base hmember)]

/-- Supplying one of the members that are left leaves the others, in their order. -/
theorem rest_concat (hphase : phase.WellFormed) {taken passed later : List ℕ} {member : ℕ}
    (hrest : phase.rest taken = passed ++ member :: later) :
    phase.rest (taken ++ [member]) = passed ++ later := by
  have hnodup : (passed ++ member :: later).Nodup :=
    hrest ▸ hphase.nodup_members.filter _
  have hsplit : phase.rest (taken ++ [member]) =
      (phase.rest taken).filter fun other => other ≠ member := by
    simp only [rest, List.filter_filter, List.mem_append, List.mem_singleton, not_or,
      Bool.decide_and, Bool.and_comm]
  obtain ⟨hnotin, -⟩ := List.nodup_cons.mp (List.nodup_middle.mp hnodup)
  rw [hsplit, hrest, List.filter_append, List.filter_cons_of_neg (by simp), ← List.filter_append]
  refine List.filter_eq_self.mpr fun other hother => decide_eq_true ?_
  intro hsame
  subst hsame
  exact hnotin hother

theorem nodup_block (hphase : phase.WellFormed) (taken : List ℕ) : (phase.block taken).Nodup := by
  unfold block
  split
  · exact hphase.after_nodup
  · exact List.nodup_singleton _

/-- A set that holds a later member is not listed among extensions by members after that one. -/
theorem disjoint_subtree (hphase : phase.WellFormed) {taken later : List ℕ} {member : ℕ}
    (hmember : member ∈ phase.members) (htaken : member ∉ taken) (hlater : member ∉ later) :
    (phase.subtree (taken ++ [member]) later).Disjoint (phase.subtree taken later) := by
  intro supplied hfirst hsecond
  obtain ⟨more, -, hfirst⟩ := mem_subtree.mp hfirst
  obtain ⟨others, hothers, hsecond⟩ := mem_subtree.mp hsecond
  have hin : member ∈ supplied := (hphase.mem_of_mem_block hfirst hmember).mpr (by simp)
  have hout := (hphase.mem_of_mem_block hsecond hmember).mp hin
  rcases List.mem_append.mp hout with h | h
  · exact htaken h
  · exact hlater (hothers.subset h)

/-- No set is listed twice. -/
theorem nodup_subtree (hphase : phase.WellFormed) {taken later : List ℕ}
    (hmembers : ∀ member ∈ later, member ∈ phase.members) (hnodup : (taken ++ later).Nodup) :
    (phase.subtree taken later).Nodup := by
  induction later generalizing taken with
  | nil => simpa [subtree, extensions] using hphase.nodup_block taken
  | cons member later ih =>
    obtain ⟨hmember, hmembers⟩ := List.forall_mem_cons.mp hmembers
    have hwith : (phase.subtree (taken ++ [member]) later).Nodup :=
      ih hmembers (by simpa using hnodup)
    obtain ⟨hnotin, hnodup⟩ := List.nodup_cons.mp (List.nodup_middle.mp hnodup)
    rw [List.mem_append, not_or] at hnotin
    have hwithout : (phase.subtree taken later).Nodup := ih hmembers hnodup
    have hperm : (phase.subtree taken (member :: later)).Perm
        (phase.subtree (taken ++ [member]) later ++ phase.subtree taken later) := by
      simpa only [subtree, extensions, List.append_assoc] using
        List.perm_append_comm_assoc (phase.block taken)
          (phase.subtree (taken ++ [member]) later) (extensions phase.block taken later)
    exact hperm.nodup_iff.mpr <|
      hwith.append hwithout (hphase.disjoint_subtree hmember hnotin.1 hnotin.2)

end WellFormed

end Phase

namespace Roster

/-- All members of a builder. -/
def members (roster : Roster) : List ℕ := roster.mandatory ++ roster.optional

/-- The phase in which optional members are supplied, after all mandatory ones. -/
def optionalPhase (roster : Roster) : Phase := ⟨roster.mandatory, roster.optional, []⟩

/-- The phase in which mandatory members are supplied; the optional ones follow. -/
def mandatoryPhase (roster : Roster) : Phase :=
  ⟨[], roster.mandatory, roster.optionalPhase.sets⟩

/-- The sets of supplied members after which something is left to supply, in preorder. -/
def sets (roster : Roster) : List IndexSet := roster.mandatoryPhase.sets

theorem optionalPhase_wellFormed (roster : Roster) : roster.optionalPhase.WellFormed where
  nodup := roster.nodup
  after_nodup := List.nodup_nil
  mem_after := by
    intro supplied hsupplied
    exact absurd hsupplied List.not_mem_nil

/-- In the optional phase some optional member is left. -/
theorem mem_optionalPhase_sets {roster : Roster} {supplied : IndexSet} :
    supplied ∈ roster.optionalPhase.sets ↔
      ∃ taken, taken.Sublist roster.optional ∧ taken ≠ roster.optional ∧
        supplied = .ofList (roster.mandatory ++ taken) := by
  rw [Phase.sets, Phase.mem_subtree]
  constructor
  · intro hfound
    obtain ⟨taken, hsub, h⟩ := hfound
    by_cases hfull : taken = roster.optional
    · simp [Phase.block, optionalPhase, hfull] at h
    · refine ⟨taken, hsub, hfull, ?_⟩
      simpa [Phase.block, Phase.set, optionalPhase, hfull] using h
  · intro hfound
    obtain ⟨taken, hsub, hfull, rfl⟩ := hfound
    exact ⟨taken, hsub, by simp [Phase.block, Phase.set, optionalPhase, hfull]⟩

theorem mandatoryPhase_wellFormed (roster : Roster) : roster.mandatoryPhase.WellFormed where
  nodup := (List.nodup_append.mp roster.nodup).1
  after_nodup := by
    refine roster.optionalPhase_wellFormed.nodup_subtree (fun _ h => h) ?_
    exact roster.optionalPhase_wellFormed.nodup_members
  mem_after := by
    intro supplied hsupplied member hmember
    obtain ⟨taken, -, -, rfl⟩ := mem_optionalPhase_sets.mp hsupplied
    exact IndexSet.mem_ofList.mpr (List.mem_append_left _ hmember)

/-- The listed sets are those in which a mandatory member is left, and those in which all mandatory
members have been supplied and an optional one is left. -/
theorem mem_sets {roster : Roster} {supplied : IndexSet} :
    supplied ∈ roster.sets ↔
      (∃ taken, taken.Sublist roster.mandatory ∧ taken ≠ roster.mandatory ∧
        supplied = .ofList taken) ∨
      (∃ taken, taken.Sublist roster.optional ∧ taken ≠ roster.optional ∧
        supplied = .ofList (roster.mandatory ++ taken)) := by
  rw [← mem_optionalPhase_sets, sets, Phase.sets, Phase.mem_subtree]
  constructor
  · intro hfound
    obtain ⟨taken, hsub, h⟩ := hfound
    by_cases hfull : taken = roster.mandatory
    · exact Or.inr (by simpa [Phase.block, mandatoryPhase, hfull] using h)
    · refine Or.inl ⟨taken, hsub, hfull, ?_⟩
      simpa [Phase.block, Phase.set, mandatoryPhase, hfull] using h
  · intro hcases
    rcases hcases with ⟨taken, hsub, hfull, rfl⟩ | h
    · exact ⟨taken, hsub, by simp [Phase.block, Phase.set, mandatoryPhase, hfull]⟩
    · exact ⟨roster.mandatory, List.Sublist.refl _, by simpa [Phase.block, mandatoryPhase] using h⟩

/-- No set is listed twice. -/
theorem nodup_sets (roster : Roster) : roster.sets.Nodup :=
  roster.mandatoryPhase_wellFormed.nodup_subtree (fun _ h => h)
    roster.mandatoryPhase_wellFormed.nodup_members

/-- The optional phase begins with the set with which the mandatory one ends. -/
theorem mandatoryPhase_set_members (roster : Roster) :
    roster.mandatoryPhase.set roster.mandatoryPhase.members = roster.optionalPhase.set [] := by
  simp [Phase.set, mandatoryPhase, optionalPhase]

/-- Where a builder stands that has been supplied the given members. -/
def key (roster : Roster) (supplied : IndexSet) : StageKey :=
  if ∀ member ∈ roster.members, member ∈ supplied then .complete else .after supplied

/-- After the optional phase the builder is complete. -/
theorem key_optionalPhase (roster : Roster) :
    roster.key (roster.optionalPhase.set roster.optionalPhase.members) = .complete :=
  if_pos fun _ hmember => IndexSet.mem_ofList.mpr hmember

/-- The members that are offered after some have been supplied. -/
def offered (roster : Roster) (supplied : IndexSet) : List ℕ :=
  if left supplied roster.mandatory = [] then left supplied roster.optional
  else left supplied roster.mandatory

/-- The step that supplies one more member. -/
def step (roster : Roster) (supplied : IndexSet) (member : ℕ) : Edge :=
  ⟨.after supplied, member, roster.key (supplied.insert member)⟩

/-- The stage after the given members have been supplied. -/
def stage (roster : Roster) (supplied : IndexSet) : Stage where
  supplied := supplied
  mandatory := left supplied roster.mandatory
  optional := left supplied roster.optional
  edges := (roster.offered supplied).map (roster.step supplied)

end Roster

end Typestate
