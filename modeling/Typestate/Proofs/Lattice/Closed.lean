import Typestate.Proofs.Lattice.Cancellation
import Typestate.Proofs.Lattice.Traversal
import Typestate.Proofs.Member.Lookup

/-!
# The lattice in closed form

A search that succeeds has noted the stage of each enumerated set once. The place remembered for a
set is then the place of its stage, so looking a stage up by its set is the same as looking for it
among all stages.
-/

namespace Typestate

namespace Search

variable {search : Search}

/-- What is remembered for a set is exactly the place at which the stage of the set stands. -/
def Indexed (search : Search) : Prop :=
  ∀ supplied place, search.places[supplied]? = some place ↔
    (search.stages[place]?).map Stage.supplied = some supplied

theorem indexed_empty : empty.Indexed := by
  intro supplied place
  simp [empty]

/-- A new stage is remembered at its place. -/
theorem Indexed.add (h : search.Indexed) {stage : Stage}
    (hnew : search.knows stage.supplied = false) : (search.add stage).Indexed := by
  intro supplied place
  have habsent : search.places[stage.supplied]? = none :=
    Std.TreeMap.getElem?_eq_none_of_contains_eq_false hnew
  rw [Search.add, Std.TreeMap.getElem?_insert, Array.getElem?_push]
  by_cases hsame : stage.supplied = supplied
  · subst hsame
    rw [if_pos Std.ReflCmp.compare_self]
    by_cases hlast : place = search.stages.size
    · simp [hlast]
    · rw [if_neg hlast, ← h stage.supplied place, habsent]
      simpa using Ne.symm hlast
  · rw [if_neg (mt Std.LawfulEqCmp.compare_eq_iff_eq.mp hsame), h supplied place]
    by_cases hlast : place = search.stages.size
    · simp [hlast, hsame]
    · rw [if_neg hlast]

/-- New stages of different sets are remembered at their places. -/
theorem Indexed.noteAll (h : search.Indexed) {stages : List Stage}
    (hnodup : (stages.map Stage.supplied).Nodup)
    (hnew : ∀ stage ∈ stages, search.knows stage.supplied = false) :
    (search.noteAll stages).Indexed := by
  induction stages generalizing search with
  | nil => exact h
  | cons stage stages ih =>
    obtain ⟨hstage, hnew⟩ := List.forall_mem_cons.mp hnew
    obtain ⟨hnotin, hnodup⟩ := List.nodup_cons.mp hnodup
    refine ih (h.add hstage) hnodup fun other hother => ?_
    rw [← Bool.not_eq_true, knows_add, not_or, Bool.not_eq_true]
    exact ⟨fun hsame => hnotin (hsame ▸ List.mem_map_of_mem hother), hnew other hother⟩

/-- A stage is found by its set exactly if it is among the stages. -/
theorem Indexed.stage?_eq_some (h : search.Indexed) {supplied : IndexSet} {stage : Stage} :
    search.stage? supplied = some stage ↔
      stage ∈ search.stages.toList ∧ stage.supplied = supplied := by
  simp only [stage?, Option.bind_eq_bind, Option.bind_eq_some_iff, h supplied]
  constructor
  · intro hfound
    obtain ⟨place, hplace, hstage⟩ := hfound
    rw [hstage, Option.map_some, Option.some.injEq] at hplace
    exact ⟨(Array.mem_of_getElem? hstage).val, hplace⟩
  · intro hboth
    obtain ⟨hmem, rfl⟩ := hboth
    obtain ⟨place, hplace⟩ := Array.mem_iff_getElem?.mp (Array.mem_toList_iff.mp hmem)
    exact ⟨place, by rw [hplace, Option.map_some], hplace⟩

/-- The stages are those noted before and then the new ones. -/
theorem toList_noteAll (search : Search) (stages : List Stage) :
    (search.noteAll stages).stages.toList = search.stages.toList ++ stages := by
  induction stages generalizing search with
  | nil => simp
  | cons stage stages ih => simp [ih, Search.add]

end Search

/-- The lattice of members that differ from each other, if there is no limit. -/
def MemberList.lattice (members : MemberList) (h : members.Distinct) : Lattice where
  members := members
  found := (members.roster h).note .empty (members.roster h).sets
  root := (members.roster h).key .empty

namespace Lattice

variable {members : MemberList} {limit : ℕ} {cancelled : Bool} {lattice : Lattice}

/-- Members clash nowhere exactly if they differ from each other. -/
theorem firstClash?_toList : firstClash? [] members.toList = none ↔ members.Distinct := by
  rw [firstClash?_eq_none]
  exact and_iff_right fun _ _ _ hother => absurd hother List.not_mem_nil

/-- For members that differ from each other the lattice is built within the limit. -/
theorem build_of_distinct (h : members.Distinct) :
    Lattice.build members limit =
      if (members.roster h).sets.length ≤ limit then .ok (members.lattice h)
      else .error (.stageLimitExceeded limit) := by
  have hvisit := (members.roster h).visit_eq_outcome limit
  rw [Roster.outcome, Search.size_empty, Nat.zero_add] at hvisit
  change Search.visit none limit (members.mandatory.map Member.index)
    (members.optional.map Member.index) .empty .empty = _ at hvisit
  have hflag : CancelFlag.ofBool false = none := rfl
  simp only [Lattice.build, buildUnder, hflag, firstClash?_toList.mpr h]
  rw [hvisit]
  split
  · rfl
  · rfl

/-- A lattice is built exactly if the members differ from each other, the search is not called off
and the enumeration keeps to the limit; then there is only one lattice. -/
theorem build_eq_ok :
    Lattice.build members limit cancelled = .ok lattice ↔
      ∃ h : members.Distinct, cancelled = false ∧ (members.roster h).sets.length ≤ limit ∧
        lattice = members.lattice h := by
  constructor
  · intro hbuild
    have h : members.Distinct := by
      rw [← firstClash?_toList]
      unfold Lattice.build buildUnder at hbuild
      split at hbuild
      · contradiction
      · assumption
    cases cancelled with
    | true =>
      rw [Lattice.build, buildUnder_of_stops (CancelFlag.stops_ofBool true)] at hbuild
      contradiction
    | false =>
      rw [build_of_distinct h] at hbuild
      split at hbuild
      · rename_i hlimit
        exact ⟨h, rfl, hlimit, (Except.ok.inj hbuild).symm⟩
      · contradiction
  · intro hboth
    obtain ⟨h, rfl, hlimit, rfl⟩ := hboth
    rw [build_of_distinct h, if_pos hlimit]

/-- Under whatever flag a lattice is built, it is that of its members. -/
theorem of_buildUnder {flag : Option CancelFlag}
    (hbuild : buildUnder members limit flag = .ok lattice) :
    ∃ h : members.Distinct, lattice = members.lattice h := by
  cases hflag : CancelFlag.stops flag with
  | true =>
    rw [buildUnder_of_stops hflag] at hbuild
    contradiction
  | false =>
    rw [buildUnder_of_not_stops hflag] at hbuild
    obtain ⟨h, -, -, hlattice⟩ := build_eq_ok.mp hbuild
    exact ⟨h, hlattice⟩

end Lattice

/-! ### Looking stages up -/

namespace MemberList

variable {members : MemberList} {h : members.Distinct}

/-- The stages of the lattice are those of the enumerated sets. -/
theorem lattice_stages :
    (members.lattice h).stages = (members.roster h).sets.map (members.roster h).stage := by
  rw [Lattice.stages, lattice, Roster.note, Search.toList_noteAll]
  rfl

/-- No set has two stages. -/
theorem nodup_supplied : ((members.lattice h).stages.map Stage.supplied).Nodup := by
  rw [lattice_stages, Roster.map_supplied]
  exact (members.roster h).nodup_sets

/-- A stage is found by its key exactly if it is among the stages. -/
theorem lattice_stage?_eq_some {supplied : IndexSet} {stage : Stage} :
    (members.lattice h).stage? (.after supplied) = some stage ↔
      stage ∈ (members.lattice h).stages ∧ stage.supplied = supplied := by
  refine Search.Indexed.stage?_eq_some (Search.indexed_empty.noteAll ?_ ?_)
  · rw [Roster.map_supplied]
    exact (members.roster h).nodup_sets
  · exact fun stage _ => Search.knows_empty stage.supplied

/-- The stage that is found after a set is the one of the set, if the set is enumerated. -/
theorem lattice_stage?_eq (supplied : IndexSet) :
    (members.lattice h).stage? (.after supplied) =
      if supplied ∈ (members.roster h).sets then some ((members.roster h).stage supplied)
      else none := by
  by_cases hin : supplied ∈ (members.roster h).sets
  · rw [if_pos hin, lattice_stage?_eq_some, lattice_stages]
    exact ⟨List.mem_map_of_mem hin, rfl⟩
  · rw [if_neg hin, Option.eq_none_iff_forall_ne_some]
    intro stage hstage
    rw [lattice_stage?_eq_some, lattice_stages, List.mem_map] at hstage
    obtain ⟨⟨other, hother, rfl⟩, rfl⟩ := hstage
    exact hin hother

end MemberList

end Typestate
