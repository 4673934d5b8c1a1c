import Typestate.Proofs.Lattice.Limit

/-!
# Why a lattice is refused

Members are compared with those before them, so a clash is between two members of the list and is
named by what they have in common. A clash is found before the search for stages begins; a search
that is called off fails at its first set; only then does the number of stages count.
-/

namespace Typestate

/-- The error names two members, the first of which stands before the second, and what they have in
common. -/
def LatticeError.ClashOf (first second : Member) : LatticeError → Prop
  | .duplicateMember name firstName secondName =>
    firstName = first.name ∧ secondName = second.name ∧
      ((first.name = name ∧ second.name = name) ∨
        (first.displayName = name ∧ second.displayName = name))
  | .duplicateIndex index firstName secondName =>
    firstName = first.name ∧ secondName = second.name ∧ first.index = index ∧ second.index = index
  | .cancelled => False
  | .stageLimitExceeded _ => False

/-- A clash is with a member that stands before. -/
theorem clash?_eq_some {earlier : List Member} {member : Member} {error : LatticeError}
    (h : clash? earlier member = some error) :
    ∃ other ∈ earlier, error.ClashOf other member := by
  unfold clash? at h
  split at h
  · rename_i other hfound
    have hname : other.name = member.name := by simpa using List.find?_some hfound
    rw [← Option.some.inj h]
    exact ⟨other, List.mem_of_find?_eq_some hfound, rfl, rfl, .inl ⟨hname, rfl⟩⟩
  · split at h
    · rename_i other hfound
      have hdisplay : other.displayName = member.displayName := by
        simpa using List.find?_some hfound
      rw [← Option.some.inj h]
      exact ⟨other, List.mem_of_find?_eq_some hfound, rfl, rfl, .inr ⟨hdisplay, rfl⟩⟩
    · split at h
      · rename_i other hfound
        have hindex : other.index = member.index := by simpa using List.find?_some hfound
        rw [← Option.some.inj h]
        exact ⟨other, List.mem_of_find?_eq_some hfound, rfl, rfl, hindex, rfl⟩
      · contradiction

/-- The first clash is that of a member with those before it, which do not clash. -/
theorem firstClash?_eq_some {earlier members : List Member} {error : LatticeError} :
    firstClash? earlier members = some error ↔
      ∃ before member after, members = before ++ member :: after ∧
        firstClash? earlier before = none ∧ clash? (earlier ++ before) member = some error := by
  induction members generalizing earlier with
  | nil => simp [firstClash?]
  | cons head rest ih =>
    rw [firstClash?]
    cases hhead : clash? earlier head with
    | some found =>
      simp only [Option.some.injEq]
      constructor
      · rintro rfl
        exact ⟨[], head, rest, rfl, rfl, by rw [List.append_nil, hhead]⟩
      · rintro ⟨before, member, after, hparts, hbefore, hclash⟩
        cases before with
        | nil =>
          obtain ⟨rfl, rfl⟩ := List.cons.inj hparts
          rw [List.append_nil, hhead] at hclash
          exact Option.some.inj hclash
        | cons first before =>
          obtain ⟨rfl, -⟩ := List.cons.inj hparts
          simp [firstClash?, hhead] at hbefore
    | none =>
      simp only [ih]
      constructor
      · rintro ⟨before, member, after, rfl, hbefore, hclash⟩
        refine ⟨head :: before, member, after, rfl, ?_, ?_⟩
        · simpa [firstClash?, hhead] using hbefore
        · rwa [List.append_assoc, List.singleton_append] at hclash
      · rintro ⟨before, member, after, hparts, hbefore, hclash⟩
        cases before with
        | nil =>
          obtain ⟨rfl, rfl⟩ := List.cons.inj hparts
          rw [List.append_nil, hhead] at hclash
          contradiction
        | cons first before =>
          obtain ⟨rfl, rfl⟩ := List.cons.inj hparts
          refine ⟨before, member, after, rfl, ?_, ?_⟩
          · simpa [firstClash?, hhead] using hbefore
          · rwa [List.append_assoc, List.singleton_append]

namespace MemberList

variable {members : MemberList}

/-- Members that do not all differ have a first clash, which is one of two of them. -/
theorem exists_clash (h : ¬ members.Distinct) :
    ∃ error first second, firstClash? [] members.toList = some error ∧
      [first, second].Sublist members.toList ∧ error.ClashOf first second := by
  cases hfound : firstClash? [] members.toList with
  | none => exact absurd (Lattice.firstClash?_toList.mp hfound) h
  | some error =>
    obtain ⟨before, second, after, hparts, -, hclash⟩ := firstClash?_eq_some.mp hfound
    rw [List.nil_append] at hclash
    obtain ⟨first, hfirst, hclash⟩ := clash?_eq_some hclash
    refine ⟨error, first, second, rfl, ?_, hclash⟩
    rw [hparts]
    exact (List.singleton_sublist.mpr hfirst).append
      (List.singleton_sublist.mpr List.mem_cons_self)

end MemberList

namespace Lattice

variable {members : MemberList} {limit : ℕ} {flag : Option CancelFlag}

/-- Members that do not all differ are refused for a clash of two of them, whatever the limit and
the flag are. -/
theorem buildUnder_of_not_distinct (h : ¬ members.Distinct) :
    ∃ error first second, (∀ limit flag, buildUnder members limit flag = .error error) ∧
      [first, second].Sublist members.toList ∧ error.ClashOf first second := by
  obtain ⟨error, first, second, hfound, hsublist, hclash⟩ := members.exists_clash h
  refine ⟨error, first, second, fun limit flag => ?_, hsublist, hclash⟩
  rw [buildUnder, hfound]

/-- For members that differ the search decides: whether it is called off, and then whether the
stages keep to the limit. -/
theorem buildUnder_of_distinct (h : members.Distinct) :
    buildUnder members limit flag =
      if CancelFlag.stops flag = true then .error .cancelled
      else if members.stageCount ≤ limit then .ok (members.lattice h)
      else .error (.stageLimitExceeded limit) := by
  split
  · rename_i hstops
    rw [buildUnder_of_stops hstops, firstClash?_toList.mpr h]
    rfl
  · rename_i hstops
    rw [buildUnder_of_not_stops (Bool.eq_false_iff.mpr hstops), build_of_distinct h,
      MemberList.length_roster_sets]

end Lattice

end Typestate
