import Typestate.Proofs.Lattice.Enumeration

/-!
# The search finds the enumeration

The search enters a stage from every stage that lead to it and remembers what it has entered; the
enumeration lists each set once, below the one path that supplies its members in order. The two
agree, and the search fails exactly if the enumeration is longer than the limit.

When a set is entered in its place in the enumeration, the members that have been passed over lead
to sets that are settled: each of them extends a set that stands earlier. The members after the last
one supplied lead to sets that are new. This is the invariant of the search.
-/

namespace Typestate

namespace Search

variable {limit : ℕ} {waiting : Option (List ℕ)} {rest : List ℕ} {supplied : IndexSet}
  {search : Search}

/-- Enter a stage in which the given members of a phase are left; others may be waiting. -/
def enter (limit : ℕ) (waiting : Option (List ℕ)) (rest : List ℕ) (supplied : IndexSet)
    (search : Search) : Except LatticeError (StageKey × Search) :=
  match waiting with
  | some optional => visit none limit rest optional supplied search
  | none => visit none limit [] rest supplied search

/-- A stage that has been entered is not entered again. -/
theorem enter_of_knows (hrest : rest ≠ []) (hknows : search.knows supplied = true) :
    enter limit waiting rest supplied search = .ok (.after supplied, search) := by
  cases waiting <;> simp [enter, visit, hrest, hknows]

/-- A new stage is refused where the limit has been reached. -/
theorem enter_of_full (hrest : rest ≠ []) (hnew : search.knows supplied = false)
    (hfull : limit ≤ search.stages.size) :
    enter limit waiting rest supplied search = .error (.stageLimitExceeded limit) := by
  cases waiting <;> simp [enter, visit, hrest, hnew, hfull]

/-- A new stage is noted, its steps are taken, and then they are noted too. -/
theorem enter_of_new (hrest : rest ≠ []) (hnew : search.knows supplied = false)
    (hroom : search.stages.size < limit) :
    enter limit waiting rest supplied search = (do
      let taken ← takeSteps none limit waiting supplied [] rest <| search.add
        ⟨supplied, if waiting.isSome then rest else [], waiting.getD rest, []⟩
      return (.after supplied, taken.2.setEdges search.stages.size taken.1)) := by
  have hlimit : ¬ limit ≤ search.stages.size := by omega
  cases waiting <;> simp [enter, visit, hrest, hnew, hlimit]

/-- Taking the steps out of a stage is entering the next stage and then taking the others. -/
theorem takeSteps_cons (passed : List ℕ) (member : ℕ) (later : List ℕ) :
    takeSteps none limit waiting supplied passed (member :: later) search = (do
      let entered ← enter limit waiting (passed ++ later) (supplied.insert member) search
      let taken ← takeSteps none limit waiting supplied (passed ++ [member]) later entered.2
      return (⟨.after supplied, member, entered.1⟩ :: taken.1, taken.2)) := by
  cases waiting <;> simp [enter, takeSteps]

/-- Note stages one after another. -/
def noteAll (search : Search) (stages : List Stage) : Search := stages.foldl add search

@[simp] theorem noteAll_nil (search : Search) : search.noteAll [] = search := rfl

@[simp] theorem noteAll_cons (search : Search) (stage : Stage) (stages : List Stage) :
    search.noteAll (stage :: stages) = (search.add stage).noteAll stages := rfl

theorem noteAll_append (search : Search) (first second : List Stage) :
    search.noteAll (first ++ second) = (search.noteAll first).noteAll second :=
  List.foldl_append

@[simp] theorem size_noteAll (search : Search) (stages : List Stage) :
    (search.noteAll stages).stages.size = search.stages.size + stages.length := by
  induction stages generalizing search with
  | nil => rfl
  | cons stage stages ih =>
    rw [noteAll_cons, ih, size_add, List.length_cons]
    omega

/-- Noting stages makes their sets known and no others. -/
@[simp] theorem knows_noteAll (search : Search) (stages : List Stage) (supplied : IndexSet) :
    (search.noteAll stages).knows supplied = true ↔
      supplied ∈ stages.map Stage.supplied ∨ search.knows supplied = true := by
  induction stages generalizing search with
  | nil => simp
  | cons stage stages ih =>
    rw [noteAll_cons, ih, knows_add, List.map_cons, List.mem_cons]
    exact or_left_comm.trans or_assoc.symm

/-- Steps of an earlier stage may be noted before or after new stages. -/
theorem setEdges_noteAll (search : Search) (stages : List Stage) (edges : List Edge) {place : ℕ}
    (hplace : place < search.stages.size) :
    (search.noteAll stages).setEdges place edges =
      (search.setEdges place edges).noteAll stages := by
  induction stages generalizing search with
  | nil => rfl
  | cons stage stages ih =>
    rw [noteAll_cons, ih _ (by rw [size_add]; omega), setEdges_add_of_lt _ _ _ hplace, noteAll_cons]

end Search

namespace Roster

variable {roster : Roster} {search : Search} {limit : ℕ}

/-- The set of supplied members is complete, or its stage has been entered. -/
def Settled (roster : Roster) (search : Search) (supplied : IndexSet) : Prop :=
  (∀ member ∈ roster.members, member ∈ supplied) ∨ search.knows supplied = true

/-- Note the stages of sets one after another. -/
def note (roster : Roster) (search : Search) (sets : List IndexSet) : Search :=
  search.noteAll (sets.map roster.stage)

/-- The answer of a search that finds the given sets: they are noted, unless they are too many. -/
def outcome {A : Type} (roster : Roster) (limit : ℕ) (search : Search) (sets : List IndexSet)
    (value : A) : Except LatticeError (A × Search) :=
  if search.stages.size + sets.length ≤ limit then .ok (value, roster.note search sets)
  else .error (.stageLimitExceeded limit)

@[simp] theorem size_note (search : Search) (sets : List IndexSet) :
    (roster.note search sets).stages.size = search.stages.size + sets.length := by
  rw [note, Search.size_noteAll, List.length_map]

/-- The stages of the enumerated sets are known by these sets. -/
theorem map_supplied (sets : List IndexSet) :
    (sets.map roster.stage).map Stage.supplied = sets := by
  rw [List.map_map]
  exact List.map_id sets

@[simp] theorem knows_note (search : Search) (sets : List IndexSet) (supplied : IndexSet) :
    (roster.note search sets).knows supplied = true ↔
      supplied ∈ sets ∨ search.knows supplied = true := by
  rw [note, Search.knows_noteAll, map_supplied]

theorem note_append (search : Search) (first second : List IndexSet) :
    roster.note search (first ++ second) = roster.note (roster.note search first) second := by
  rw [note, List.map_append, Search.noteAll_append, note, note]

/-- What is settled stays settled. -/
theorem Settled.note {supplied : IndexSet} (h : roster.Settled search supplied)
    (sets : List IndexSet) : roster.Settled (roster.note search sets) supplied :=
  h.imp_right fun hknows => (knows_note search sets supplied).mpr (Or.inr hknows)

/-- A search that goes on after it has found some sets finds those and the others. -/
theorem outcome_bind {A B : Type} {sets more : List IndexSet} {value : A} {result : B}
    {next : A × Search → Except LatticeError (B × Search)}
    (hnext : search.stages.size + sets.length ≤ limit →
      next (value, roster.note search sets) =
        roster.outcome limit (roster.note search sets) more result) :
    (roster.outcome limit search sets value >>= next) =
      roster.outcome limit search (sets ++ more) result := by
  by_cases hroom : search.stages.size + sets.length ≤ limit
  · rw [outcome, if_pos hroom]
    apply (hnext hroom).trans
    simp only [outcome, size_note, note_append, List.length_append, Nat.add_assoc]
  · rw [outcome, if_neg hroom, outcome, if_neg (by rw [List.length_append]; omega)]
    rfl

/-- A stage whose steps are noted after the sets they lead to is the stage noted before them. -/
theorem setEdges_note {supplied : IndexSet} {entered : Stage} {edges : List Edge}
    (hstage : roster.stage supplied = { entered with edges := edges }) (sets : List IndexSet) :
    (roster.note (search.add entered) sets).setEdges search.stages.size edges =
      roster.note search (supplied :: sets) := by
  rw [note, Search.setEdges_noteAll _ _ _ (by rw [Search.size_add]; omega),
    Search.setEdges_add_self, ← hstage, note, List.map_cons, Search.noteAll_cons]

/-- A search whose last answer is put together with others finds the same sets. -/
theorem outcome_map {A B : Type} {sets : List IndexSet} {value : A} (result : A → B) :
    (roster.outcome limit search sets value >>= fun found => .ok (result found.1, found.2)) =
      roster.outcome limit search sets (result value) := by
  unfold outcome
  split <;> rfl

end Roster

namespace Phase

/-- What the search needs to know of a phase: how stages in the phase look, and that it finds the
sets after the phase where the phase is over. -/
structure Traversed (phase : Phase) (roster : Roster) (limit : ℕ) (waiting : Option (List ℕ)) :
    Prop where
  wellFormed : phase.WellFormed
  mem_roster : ∀ member ∈ phase.members, member ∈ roster.members
  stage_eq : ∀ taken, (∀ member ∈ taken, member ∈ phase.members) → phase.rest taken ≠ [] →
    roster.stage (phase.set taken) =
      ⟨phase.set taken, if waiting.isSome then phase.rest taken else [],
        waiting.getD (phase.rest taken), (phase.rest taken).map (roster.step (phase.set taken))⟩
  enter_settled : ∀ search, roster.Settled search (phase.set phase.members) →
    Search.enter limit waiting [] (phase.set phase.members) search =
      .ok (roster.key (phase.set phase.members), search)
  enter_new : ∀ search, search.stages.size ≤ limit →
    (∀ supplied ∈ phase.after, search.knows supplied = false) →
    Search.enter limit waiting [] (phase.set phase.members) search =
      roster.outcome limit search phase.after (roster.key (phase.set phase.members))
  settles : (∀ member ∈ roster.members, member ∈ phase.set phase.members) ∨
    phase.set phase.members ∈ phase.after

/-- The invariant of the search at a set, before some later members: it has room or has reached its
limit, a member that has been passed over leads to settled sets only, and what stands at extensions
by later members is new. -/
structure Ready (phase : Phase) (roster : Roster) (limit : ℕ) (search : Search)
    (taken later : List ℕ) : Prop where
  within : search.stages.size ≤ limit
  settled : ∀ member ∈ phase.members, member ∉ taken → member ∉ later →
    ∀ more, more.Sublist later → roster.Settled search (phase.set (taken ++ member :: more))
  fresh : ∀ supplied ∈ extensions phase.block taken later, search.knows supplied = false

namespace Ready

variable {phase : Phase} {roster : Roster} {limit : ℕ} {search : Search} {taken later : List ℕ}
  {member : ℕ}

/-- The invariant holds where the next member has been supplied. -/
theorem child (h : phase.Ready roster limit search taken (member :: later)) :
    phase.Ready roster limit search (taken ++ [member]) later where
  within := h.within
  settled := by
    intro other hother htaken hlater more hmore
    rw [List.mem_append, List.mem_singleton, not_or] at htaken
    have hskipped : other ∉ member :: later := by
      rw [List.mem_cons, not_or]
      exact ⟨htaken.2, hlater⟩
    have hset : phase.set (taken ++ [member] ++ other :: more) =
        phase.set (taken ++ other :: member :: more) :=
      phase.set_congr fun index => by
        simp only [List.mem_append, List.mem_cons, List.not_mem_nil, or_false]
        grind
    rw [hset]
    exact h.settled other hother htaken.1 hskipped (member :: more) (hmore.cons_cons member)
  fresh := by
    intro supplied hsupplied
    apply h.fresh supplied
    rw [extensions]
    exact List.mem_append_left _ (List.mem_append_right _ hsupplied)

/-- What stands where the next member has been supplied is new. -/
theorem fresh_block (h : phase.Ready roster limit search taken (member :: later)) :
    ∀ supplied ∈ phase.block (taken ++ [member]), search.knows supplied = false := by
  intro supplied hsupplied
  apply h.fresh supplied
  rw [extensions]
  exact List.mem_append_left _ (List.mem_append_left _ hsupplied)

end Ready

namespace Traversed

variable {phase : Phase} {roster : Roster} {limit : ℕ} {waiting : Option (List ℕ)}
  {search : Search}

/-- As long as a member of the phase is left, the builder is not complete. -/
theorem key_eq (h : phase.Traversed roster limit waiting) {taken : List ℕ}
    (hrest : phase.rest taken ≠ []) : roster.key (phase.set taken) = .after (phase.set taken) := by
  obtain ⟨member, hmember⟩ := List.exists_mem_of_ne_nil _ hrest
  obtain ⟨hin, hout⟩ := mem_rest.mp hmember
  refine if_neg fun hall => ?_
  rcases mem_set.mp (hall member (h.mem_roster member hin)) with hbase | htaken
  · exact h.wellFormed.not_mem_base hin hbase
  · exact hout htaken

/-- Entering a settled set changes nothing. -/
theorem enter_of_settled (h : phase.Traversed roster limit waiting) {taken : List ℕ}
    (htaken : ∀ member ∈ taken, member ∈ phase.members)
    (hsettled : roster.Settled search (phase.set taken)) :
    Search.enter limit waiting (phase.rest taken) (phase.set taken) search =
      .ok (roster.key (phase.set taken), search) := by
  by_cases hrest : phase.rest taken = []
  · have hfull : phase.set taken = phase.set phase.members := by
      refine phase.set_congr fun member => ⟨htaken member, fun hmember => ?_⟩
      by_contra hout
      exact List.not_mem_nil (hrest ▸ mem_rest.mpr ⟨hmember, hout⟩)
    rw [hrest, hfull]
    exact h.enter_settled search (hfull ▸ hsettled)
  · have hkey := h.key_eq hrest
    have hknows : search.knows (phase.set taken) = true := by
      refine hsettled.resolve_left fun hall => ?_
      rw [Roster.key, if_pos hall] at hkey
      exact StageKey.noConfusion hkey
    rw [Search.enter_of_knows hrest hknows, hkey]

/-- A set is settled once what stands at it has been noted. -/
theorem settled_note (h : phase.Traversed roster limit waiting) (search : Search)
    (taken : List ℕ) {later more : List ℕ} (hmore : more.Sublist later) :
    roster.Settled (roster.note search (phase.subtree taken later))
      (phase.set (taken ++ more)) := by
  by_cases hfull : taken ++ more = phase.members
  · refine h.settles.imp (fun hall => hfull ▸ hall) fun hafter => ?_
    refine (Roster.knows_note _ _ _).mpr (Or.inl (mem_subtree.mpr ⟨more, hmore, ?_⟩))
    rw [block, if_pos hfull, hfull]
    exact hafter
  · refine Or.inr ((Roster.knows_note _ _ _).mpr (Or.inl (mem_subtree.mpr ⟨more, hmore, ?_⟩)))
    rw [block, if_neg hfull]
    exact List.mem_singleton_self _

/-- The invariant holds for the members after the next one when all that the next one leads to has
been noted. -/
theorem ready_next (h : phase.Traversed roster limit waiting) {taken later : List ℕ} {member : ℕ}
    (hmember : member ∈ phase.members) (htaken : member ∉ taken) (hlater : member ∉ later)
    (hready : phase.Ready roster limit search taken (member :: later))
    (hroom : search.stages.size + (phase.subtree (taken ++ [member]) later).length ≤ limit) :
    phase.Ready roster limit (roster.note search (phase.subtree (taken ++ [member]) later))
      taken later where
  within := by
    rw [Roster.size_note]
    exact hroom
  settled := by
    intro other hother hnot hskipped more hmore
    by_cases heq : other = member
    · subst heq
      have hnoted := h.settled_note search (taken ++ [other]) hmore
      rwa [List.append_assoc, List.singleton_append] at hnoted
    · have hbefore : other ∉ member :: later := by
        rw [List.mem_cons, not_or]
        exact ⟨heq, hskipped⟩
      exact (hready.settled other hother hnot hbefore more (hmore.cons member)).note _
  fresh := by
    intro supplied hsupplied
    have hold : search.knows supplied = false := by
      apply hready.fresh supplied
      rw [extensions]
      exact List.mem_append_right _ hsupplied
    have hnotin : supplied ∉ phase.subtree (taken ++ [member]) later := fun hin =>
      h.wellFormed.disjoint_subtree hmember htaken hlater hin (List.mem_append_right _ hsupplied)
    rw [← Bool.not_eq_true, Roster.knows_note, not_or]
    exact ⟨hnotin, by rw [hold]; exact Bool.false_ne_true⟩

/-- The search enters a set in its place in the enumeration and finds the sets that stand there. -/
def Enters (phase : Phase) (roster : Roster) (limit : ℕ) (waiting : Option (List ℕ))
    (later : List ℕ) : Prop :=
  ∀ taken before search, phase.members = before ++ later → taken.Sublist before →
    phase.Ready roster limit search taken later →
    (∀ supplied ∈ phase.block taken, search.knows supplied = false) →
    Search.enter limit waiting (phase.rest taken) (phase.set taken) search =
      roster.outcome limit search (phase.subtree taken later) (roster.key (phase.set taken))

/-- The steps that supply the later members find what stands at the extensions by them. -/
theorem takeSteps_later (h : phase.Traversed roster limit waiting)
    {taken before passed later : List ℕ}
    (henters : ∀ shorter : List ℕ, shorter.length < later.length →
      Enters phase roster limit waiting shorter)
    (hparts : phase.members = before ++ later) (htaken : taken.Sublist before)
    (hrest : phase.rest taken = passed ++ later)
    (hready : phase.Ready roster limit search taken later) :
    Search.takeSteps none limit waiting (phase.set taken) passed later search =
      roster.outcome limit search (extensions phase.block taken later)
        (later.map (roster.step (phase.set taken))) := by
  induction later generalizing before passed search with
  | nil =>
    rw [Search.takeSteps, Roster.outcome, if_pos (by simpa [extensions] using hready.within)]
    rfl
  | cons member later ih =>
    have hnodup : (before ++ member :: later).Nodup := hparts ▸ h.wellFormed.nodup_members
    have hfresh := (List.nodup_cons.mp (List.nodup_middle.mp hnodup)).1
    rw [List.mem_append, not_or] at hfresh
    have hmember : member ∈ phase.members := hparts ▸ List.mem_append_right _ List.mem_cons_self
    have hnottaken : member ∉ taken := fun hin => hfresh.1 (htaken.subset hin)
    have hsplit : phase.members = (before ++ [member]) ++ later := by
      rw [hparts, List.append_assoc, List.singleton_append]
    have hpassed : phase.rest taken = (passed ++ [member]) ++ later := by
      rw [hrest, List.append_assoc, List.singleton_append]
    have henter : Search.enter limit waiting (passed ++ later) ((phase.set taken).insert member)
        search = roster.outcome limit search (phase.subtree (taken ++ [member]) later)
          (roster.key ((phase.set taken).insert member)) := by
      rw [← h.wellFormed.rest_concat hrest, ← phase.set_concat]
      exact henters later (Nat.lt_succ_self _) _ _ _ hsplit
        (htaken.append (List.Sublist.refl [member])) hready.child hready.fresh_block
    rw [Search.takeSteps_cons, henter, extensions, ← subtree]
    refine Roster.outcome_bind fun hroom => ?_
    -- The search now knows the subtree of the member, so it counts as passed over.
    have hnext := ih (fun shorter hshorter => henters shorter (Nat.lt_succ_of_lt hshorter)) hsplit
      (htaken.trans (List.sublist_append_left before [member])) hpassed
      (h.ready_next hmember hnottaken hfresh.2 hready hroom)
    exact (congrArg (· >>= _) hnext).trans
      (Roster.outcome_map (roster.step (phase.set taken) member :: ·))

/-- The steps that supply members that have been passed over find nothing. -/
theorem takeSteps_skipped (h : phase.Traversed roster limit waiting)
    {taken passed skipped later : List ℕ} (hrest : phase.rest taken = passed ++ (skipped ++ later))
    (htaken : ∀ member ∈ taken, member ∈ phase.members)
    (hskipped : ∀ member ∈ skipped, member ∉ later)
    (hready : phase.Ready roster limit search taken later)
    (hlater : ∀ passed, phase.rest taken = passed ++ later →
      Search.takeSteps none limit waiting (phase.set taken) passed later search =
        roster.outcome limit search (extensions phase.block taken later)
          (later.map (roster.step (phase.set taken)))) :
    Search.takeSteps none limit waiting (phase.set taken) passed (skipped ++ later) search =
      roster.outcome limit search (extensions phase.block taken later)
        ((skipped ++ later).map (roster.step (phase.set taken))) := by
  induction skipped generalizing passed with
  | nil => exact hlater passed hrest
  | cons member skipped ih =>
    rw [List.cons_append] at hrest
    obtain ⟨hmember, hskipped⟩ := List.forall_mem_cons.mp hskipped
    obtain ⟨hin, hnot⟩ : member ∈ phase.members ∧ member ∉ taken := by
      rw [← mem_rest, hrest]
      simp
    have hsettled : roster.Settled search (phase.set (taken ++ [member])) :=
      hready.settled member hin hnot hmember [] (List.nil_sublist later)
    have henter : Search.enter limit waiting (passed ++ (skipped ++ later))
        ((phase.set taken).insert member) search =
          .ok (roster.key ((phase.set taken).insert member), search) := by
      rw [← h.wellFormed.rest_concat hrest, ← phase.set_concat]
      refine h.enter_of_settled (fun other hother => ?_) hsettled
      rcases List.mem_append.mp hother with hother | hother
      · exact htaken other hother
      · exact List.mem_singleton.mp hother ▸ hin
    have hpassed : phase.rest taken = (passed ++ [member]) ++ (skipped ++ later) := by
      rw [hrest, List.append_assoc, List.singleton_append]
    have hothers := ih hpassed hskipped
    rw [List.cons_append, Search.takeSteps_cons, henter]
    exact (congrArg (· >>= _) hothers).trans
      (Roster.outcome_map (roster.step (phase.set taken) member :: ·))

/-- The steps out of a set find what stands at its extensions by later members. -/
theorem takeSteps_rest (h : phase.Traversed roster limit waiting) {taken before later : List ℕ}
    (henters : ∀ shorter : List ℕ, shorter.length < later.length →
      Enters phase roster limit waiting shorter)
    (hparts : phase.members = before ++ later) (htaken : taken.Sublist before)
    (hready : phase.Ready roster limit search taken later) :
    Search.takeSteps none limit waiting (phase.set taken) [] (phase.rest taken) search =
      roster.outcome limit search (extensions phase.block taken later)
        ((phase.rest taken).map (roster.step (phase.set taken))) := by
  have hkept : later.filter (fun member => member ∉ taken) = later :=
    List.filter_eq_self.mpr fun member hmember => decide_eq_true fun hin =>
      h.wellFormed.not_mem_later hparts (htaken.subset hin) hmember
  have hsplit : phase.rest taken = before.filter (fun member => member ∉ taken) ++ later := by
    rw [rest, hparts, List.filter_append, hkept]
  rw [hsplit]
  refine h.takeSteps_skipped hsplit (fun member hmember => ?_) (fun member hmember => ?_) hready
    fun passed hpassed => h.takeSteps_later henters hparts htaken hpassed hready
  · exact hparts ▸ List.mem_append_left _ (htaken.subset hmember)
  · exact h.wellFormed.not_mem_later hparts (List.mem_filter.mp hmember).1

/-- The invariant holds for the steps out of a set once its stage has been noted. -/
theorem ready_add (h : phase.Traversed roster limit waiting) {taken before later : List ℕ}
    {entered : Stage} (hready : phase.Ready roster limit search taken later)
    (hparts : phase.members = before ++ later) (htaken : taken.Sublist before)
    (hblock : phase.block taken = [phase.set taken]) (hentered : entered.supplied = phase.set taken)
    (hroom : search.stages.size < limit) :
    phase.Ready roster limit (search.add entered) taken later where
  within := by
    rw [Search.size_add]
    omega
  settled := fun member hmember hnot hskipped more hmore =>
    (hready.settled member hmember hnot hskipped more hmore).imp_right fun hknows =>
      (Search.knows_add _ _ _).mpr (Or.inr hknows)
  fresh := by
    intro supplied hsupplied
    have hnodup : (phase.subtree taken later).Nodup := by
      refine h.wellFormed.nodup_subtree (fun member hmember => ?_) ?_
      · exact hparts ▸ List.mem_append_right _ hmember
      · exact (htaken.append (List.Sublist.refl later)).nodup
          (hparts ▸ h.wellFormed.nodup_members)
    have hne : supplied ≠ phase.set taken := by
      intro hsame
      subst hsame
      rw [subtree, hblock] at hnodup
      exact (List.nodup_cons.mp hnodup).1 hsupplied
    rw [← Bool.not_eq_true, Search.knows_add, not_or, hentered]
    exact ⟨hne, by rw [hready.fresh supplied hsupplied]; exact Bool.false_ne_true⟩

/-- The phase is over once no member of it is left. -/
theorem enter_full (h : phase.Traversed roster limit waiting) {taken later : List ℕ}
    (htaken : taken.Sublist phase.members) (hlater : ∀ member ∈ later, member ∈ phase.rest taken)
    (hrest : phase.rest taken = []) (hwithin : search.stages.size ≤ limit)
    (hfresh : ∀ supplied ∈ phase.block taken, search.knows supplied = false) :
    Search.enter limit waiting (phase.rest taken) (phase.set taken) search =
      roster.outcome limit search (phase.subtree taken later) (roster.key (phase.set taken)) := by
  have hall : phase.members ⊆ taken := by
    intro member hmember
    by_contra hout
    exact List.not_mem_nil (hrest ▸ mem_rest.mpr ⟨hmember, hout⟩)
  have hfull : taken = phase.members :=
    htaken.eq_of_length_le (h.wellFormed.nodup_members.subperm hall).length_le
  have hnone : later = [] := List.eq_nil_iff_forall_not_mem.mpr fun member hmember =>
    List.not_mem_nil (hrest ▸ hlater member hmember)
  have hblock : phase.block phase.members = phase.after := if_pos rfl
  subst hnone
  rw [hfull, hblock] at hfresh
  rw [hrest, hfull, subtree, extensions, List.append_nil, hblock]
  exact h.enter_new search hwithin hfresh

/-- A set with members left is noted, and then all that its steps lead to. -/
theorem enter_open (h : phase.Traversed roster limit waiting) {taken before later : List ℕ}
    (henters : ∀ shorter : List ℕ, shorter.length < later.length →
      Enters phase roster limit waiting shorter)
    (hparts : phase.members = before ++ later) (htaken : taken.Sublist before)
    (hrest : phase.rest taken ≠ []) (hready : phase.Ready roster limit search taken later)
    (hfresh : ∀ supplied ∈ phase.block taken, search.knows supplied = false) :
    Search.enter limit waiting (phase.rest taken) (phase.set taken) search =
      roster.outcome limit search (phase.subtree taken later) (roster.key (phase.set taken)) := by
  have hmembers : ∀ member ∈ taken, member ∈ phase.members := fun member hmember =>
    hparts ▸ List.mem_append_left _ (htaken.subset hmember)
  have hopen : taken ≠ phase.members := by
    intro hsame
    subst hsame
    exact hrest (List.filter_eq_nil_iff.mpr fun member hmember => by simpa using hmember)
  have hblock : phase.block taken = [phase.set taken] := if_neg hopen
  have hnew : search.knows (phase.set taken) = false :=
    hfresh _ (hblock ▸ List.mem_singleton_self _)
  rw [h.key_eq hrest, subtree, hblock, List.singleton_append]
  by_cases hroom : search.stages.size < limit
  · obtain ⟨entered, hentered⟩ : ∃ entered : Stage, entered =
        ⟨phase.set taken, if waiting.isSome then phase.rest taken else [],
          waiting.getD (phase.rest taken), []⟩ := ⟨_, rfl⟩
    have hstage : roster.stage (phase.set taken) =
        { entered with edges := (phase.rest taken).map (roster.step (phase.set taken)) } := by
      rw [h.stage_eq taken hmembers hrest, hentered]
    have hready : phase.Ready roster limit (search.add entered) taken later :=
      h.ready_add hready hparts htaken hblock (by rw [hentered]) hroom
    have hsteps := h.takeSteps_rest henters hparts htaken hready
    rw [Search.enter_of_new hrest hnew hroom, ← hentered, hsteps]
    simp only [Roster.outcome, Search.size_add, List.length_cons]
    by_cases hfits : search.stages.size + 1 + (extensions phase.block taken later).length ≤ limit
    · rw [if_pos hfits, if_pos (by omega), ← Roster.setEdges_note hstage]
      rfl
    · rw [if_neg hfits, if_neg (by omega)]
      rfl
  · rw [Search.enter_of_full hrest hnew (Nat.le_of_not_lt hroom), Roster.outcome, if_neg]
    rw [List.length_cons]
    omega

/-- The search enters every set in its place in the enumeration. -/
theorem enters (h : phase.Traversed roster limit waiting) (later : List ℕ) :
    Enters phase roster limit waiting later := by
  -- A step supplies one of the later members, and only those after it stay later.
  induction hlength : later.length using Nat.strong_induction_on generalizing later with
  | _ length ih =>
    intro taken before search hparts htaken hready hfresh
    by_cases hrest : phase.rest taken = []
    · refine h.enter_full ?_ (fun member hmember => ?_) hrest hready.within hfresh
      · rw [hparts]
        exact htaken.trans (List.sublist_append_left before later)
      · exact mem_rest.mpr ⟨hparts ▸ List.mem_append_right _ hmember, fun hin =>
          h.wellFormed.not_mem_later hparts (htaken.subset hin) hmember⟩
    · exact h.enter_open (fun shorter hshorter => ih _ (hlength ▸ hshorter) shorter rfl)
        hparts htaken hrest hready hfresh

/-- Entering a phase from its beginning finds all its sets. -/
theorem enter_phase (h : phase.Traversed roster limit waiting)
    (hwithin : search.stages.size ≤ limit)
    (hfresh : ∀ supplied ∈ phase.sets, search.knows supplied = false) :
    Search.enter limit waiting phase.members (phase.set []) search =
      roster.outcome limit search phase.sets (roster.key (phase.set [])) := by
  have hrest : phase.rest [] = phase.members := by simp [rest]
  have hready : phase.Ready roster limit search [] phase.members :=
    { within := hwithin
      settled := fun _ hmember _ hskipped => absurd hmember hskipped
      fresh := fun supplied hsupplied => hfresh supplied (List.mem_append_right _ hsupplied) }
  have henter := h.enters phase.members [] [] search rfl (List.Sublist.refl []) hready
    fun supplied hsupplied => hfresh supplied (List.mem_append_left _ hsupplied)
  rwa [hrest] at henter

end Traversed

end Phase

namespace Roster

variable (roster : Roster) (limit : ℕ)

/-- In the optional phase no mandatory member is left, and nothing comes after the phase. -/
theorem optionalPhase_traversed : roster.optionalPhase.Traversed roster limit none where
  wellFormed := roster.optionalPhase_wellFormed
  mem_roster := fun _ hmember => List.mem_append_right _ hmember
  stage_eq := by
    intro taken htaken hrest
    have hnone : left (roster.optionalPhase.set taken) roster.mandatory = [] :=
      List.filter_eq_nil_iff.mpr fun member hmember hout =>
        of_decide_eq_true hout (Phase.mem_set.mpr (Or.inl hmember))
    have hleft : left (roster.optionalPhase.set taken) roster.optional =
        roster.optionalPhase.rest taken := roster.optionalPhase_wellFormed.left_set taken
    simp [stage, offered, hnone, hleft]
  enter_settled := by
    intro search _
    rw [key_optionalPhase, Search.enter, Search.visit]
    rfl
  enter_new := by
    intro search hwithin _
    rw [key_optionalPhase, Search.enter, Search.visit, outcome]
    exact (if_pos hwithin).symm
  settles := Or.inl fun _ hmember => IndexSet.mem_ofList.mpr hmember

/-- In the mandatory phase all optional members are left, and the optional phase comes after it. -/
theorem mandatoryPhase_traversed :
    roster.mandatoryPhase.Traversed roster limit (some roster.optional) where
  wellFormed := roster.mandatoryPhase_wellFormed
  mem_roster := fun _ hmember => List.mem_append_left _ hmember
  stage_eq := by
    intro taken htaken hrest
    have hleft : left (roster.mandatoryPhase.set taken) roster.mandatory =
        roster.mandatoryPhase.rest taken := roster.mandatoryPhase_wellFormed.left_set taken
    have hall : left (roster.mandatoryPhase.set taken) roster.optional = roster.optional := by
      refine List.filter_eq_self.mpr fun member hmember => decide_eq_true fun hin => ?_
      rcases Phase.mem_set.mp hin with hbase | hin
      · exact List.not_mem_nil hbase
      · exact (List.nodup_append.mp roster.nodup).2.2 member (htaken member hin) member hmember rfl
    simp [stage, offered, hleft, hall, hrest]
  enter_settled := by
    intro search hsettled
    rw [mandatoryPhase_set_members] at hsettled ⊢
    have hrest : roster.optionalPhase.rest [] = roster.optional := by
      simp [Phase.rest, optionalPhase]
    have henter := (roster.optionalPhase_traversed limit).enter_of_settled
      (fun _ h => absurd h List.not_mem_nil) hsettled
    rwa [hrest] at henter
  enter_new := by
    intro search hwithin hfresh
    rw [mandatoryPhase_set_members]
    exact (roster.optionalPhase_traversed limit).enter_phase hwithin hfresh
  settles := by
    rw [mandatoryPhase_set_members]
    by_cases hnone : roster.optional = []
    · refine Or.inl fun member hmember => Phase.mem_set.mpr (Or.inl ?_)
      rwa [members, hnone, List.append_nil] at hmember
    · exact Or.inr (mem_optionalPhase_sets.mpr ⟨[], List.nil_sublist _, Ne.symm hnone, rfl⟩)

/-- The search from the beginning finds exactly the enumerated sets, or fails if they are more than
the limit. -/
theorem visit_eq_outcome :
    Search.visit none limit roster.mandatory roster.optional .empty .empty =
      roster.outcome limit .empty roster.sets (roster.key .empty) :=
  (roster.mandatoryPhase_traversed limit).enter_phase (Nat.zero_le limit)
    fun supplied _ => Search.knows_empty supplied

end Roster

end Typestate
