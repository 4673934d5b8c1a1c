import Mathlib.Data.List.Permutation
import Typestate.Error
import Typestate.Proofs.Lattice.Refusal

/-!
# Which clash is reported

Members are compared in the order of their indexes, each with all before it. The one that is reported
is the first that shares something with a member before it. Those before it differ from each other,
so there is only one of them with which it shares its name, and only one with which it shares its
name in upper camel case or its index; that one is named with it.
-/

namespace Typestate

/-- Two members have something in common after which items are named. -/
def Member.Shares (first second : Member) : Prop :=
  first.name = second.name ∨ first.displayName = second.displayName ∨ first.index = second.index

theorem Member.not_differs_iff {first second : Member} :
    ¬ first.Differs second ↔ first.Shares second := by
  rw [Member.differs_iff, Member.Shares]
  tauto

/-- The error says that two members clash. -/
def LatticeError.IsDuplicate : LatticeError → Prop
  | .duplicateMember _ _ _ => True
  | .duplicateIndex _ _ _ => True
  | .cancelled => False
  | .stageLimitExceeded _ => False

/-- What is reported of a member and the only one before it with which it clashes in this way: the
name if it is shared, else the name in upper camel case if that is shared, else the index. -/
inductive LatticeError.Reports (earlier : List Member) (first second : Member) :
    LatticeError → Prop where
  | name (hfirst : earlier.filter (fun other => other.name = second.name) = [first]) :
      Reports earlier first second (.duplicateMember second.name first.name second.name)
  | displayName (hname : ∀ other ∈ earlier, other.name ≠ second.name)
      (hfirst : earlier.filter (fun other => other.displayName = second.displayName) = [first]) :
      Reports earlier first second (.duplicateMember second.displayName first.name second.name)
  | index (hname : ∀ other ∈ earlier, other.name ≠ second.name)
      (hdisplay : ∀ other ∈ earlier, other.displayName ≠ second.displayName)
      (hfirst : earlier.filter (fun other => other.index = second.index) = [first]) :
      Reports earlier first second (.duplicateIndex second.index first.name second.name)

/-- What is kept alone is in the list and passes. -/
theorem of_filter_eq_singleton {A : Type} {keep : A → Bool} {list : List A} {a : A}
    (h : list.filter keep = [a]) : a ∈ list ∧ keep a = true :=
  List.mem_filter.mp (h ▸ List.mem_singleton_self a)

namespace LatticeError

variable {error : LatticeError} {earlier : List Member} {first second : Member}

theorem ClashOf.isDuplicate (h : error.ClashOf first second) : error.IsDuplicate := by
  cases error with
  | duplicateMember name firstName secondName => trivial
  | duplicateIndex index firstName secondName => trivial
  | cancelled => exact h
  | stageLimitExceeded limit => exact h

/-- The two members of a report are the names that the error is about. -/
theorem Reports.members_eq (h : error.Reports earlier first second) :
    error.members = [first.name, second.name] := by
  cases h with
  | name hfirst => rfl
  | displayName hname hfirst => rfl
  | index hname hdisplay hfirst => rfl

/-- The first member of a report stands before the second and shares something with it. -/
theorem Reports.shares (h : error.Reports earlier first second) :
    first ∈ earlier ∧ first.Shares second := by
  cases h with
  | name hfirst => exact (of_filter_eq_singleton hfirst).imp_right fun h => .inl (by simpa using h)
  | displayName hname hfirst =>
    exact (of_filter_eq_singleton hfirst).imp_right fun h => .inr (.inl (by simpa using h))
  | index hname hdisplay hfirst =>
    exact (of_filter_eq_singleton hfirst).imp_right fun h => .inr (.inr (by simpa using h))

end LatticeError

/-- Among members that differ in a key, the one that is found by the key is the only one. -/
theorem filter_eq_of_find? {A : Type} [DecidableEq A] {key : Member → A} {value : A}
    {earlier : List Member} {first : Member}
    (hkey : earlier.Pairwise fun before after => key before ≠ key after)
    (hfind : earlier.find? (fun other => key other == value) = some first) :
    earlier.filter (fun other => key other = value) = [first] := by
  obtain ⟨hvalue, before, after, rfl, hbefore⟩ := List.find?_eq_some_iff_append.mp hfind
  have hsame : key first = value := by simpa using hvalue
  obtain ⟨-, hrest, -⟩ := List.pairwise_append.mp hkey
  obtain ⟨hafter, -⟩ := List.pairwise_cons.mp hrest
  have hnoneBefore : before.filter (fun other => key other = value) = [] :=
    List.filter_eq_nil_iff.mpr fun other hother => by simpa using hbefore other hother
  have hnoneAfter : after.filter (fun other => key other = value) = [] :=
    List.filter_eq_nil_iff.mpr fun other hother => by
      simpa [← hsame] using (hafter other hother).symm
  simp [hnoneBefore, hnoneAfter, hsame]

/-- A member that clashes is reported with the only one before it that it clashes with. -/
theorem reports_of_clash? {earlier : List Member} {second : Member} {error : LatticeError}
    (hdiffers : earlier.Pairwise Member.Differs) (h : clash? earlier second = some error) :
    ∃ first, error.Reports earlier first second := by
  unfold clash? at h
  split at h
  · rename_i first hfind
    obtain rfl := Option.some.inj h
    exact ⟨first, .name (filter_eq_of_find? (hdiffers.imp Member.Differs.name) hfind)⟩
  · rename_i hname
    have hnames : ∀ other ∈ earlier, other.name ≠ second.name := fun other hother => by
      simpa using List.find?_eq_none.mp hname other hother
    split at h
    · rename_i first hfind
      obtain rfl := Option.some.inj h
      exact ⟨first, .displayName hnames
        (filter_eq_of_find? (hdiffers.imp Member.Differs.displayName) hfind)⟩
    · rename_i hdisplay
      have hdisplays : ∀ other ∈ earlier, other.displayName ≠ second.displayName :=
        fun other hother => by simpa using List.find?_eq_none.mp hdisplay other hother
      split at h
      · rename_i first hfind
        obtain rfl := Option.some.inj h
        exact ⟨first, .index hnames hdisplays
          (filter_eq_of_find? (hdiffers.imp Member.Differs.index) hfind)⟩
      · contradiction

namespace MemberList

/-- Members clash as soon as two of them, in whatever order they are given, share something. -/
theorem not_distinct_ofList {list : List Member} :
    ¬ (MemberList.ofList list).Distinct ↔
      ∃ (i j : ℕ) (first second : Member), i ≠ j ∧ list[i]? = some first ∧
        list[j]? = some second ∧ first.Shares second := by
  have hperm : (MemberList.ofList list).toList.Perm list := List.mergeSort_perm _ _
  rw [Distinct, hperm.pairwise_iff (fun h => h.symm), List.pairwise_iff_getElem]
  constructor
  · intro h
    push Not at h
    obtain ⟨i, j, hi, hj, hless, hshares⟩ := h
    exact ⟨i, j, list[i], list[j], Nat.ne_of_lt hless, List.getElem?_eq_getElem hi,
      List.getElem?_eq_getElem hj, Member.not_differs_iff.mp hshares⟩
  · rintro ⟨i, j, first, second, hne, hfirst, hsecond, hshares⟩ hall
    obtain ⟨hi, rfl⟩ := List.getElem?_eq_some_iff.mp hfirst
    obtain ⟨hj, rfl⟩ := List.getElem?_eq_some_iff.mp hsecond
    rw [← Member.not_differs_iff] at hshares
    rcases Nat.lt_or_gt_of_ne hne with hless | hless
    · exact hshares (hall i j hi hj hless)
    · exact hshares (hall j i hj hi hless).symm

end MemberList

namespace Lattice

variable {members : MemberList} {limit : ℕ} {flag : Option CancelFlag} {error : LatticeError}

/-- The clash that is found first is what a lattice is refused for, and no other refusal is one for a
clash. -/
theorem buildUnder_eq_duplicate :
    (error.IsDuplicate ∧ buildUnder members limit flag = .error error) ↔
      firstClash? [] members.toList = some error := by
  constructor
  · rintro ⟨hduplicate, hbuild⟩
    cases hclash : firstClash? [] members.toList with
    | some found =>
      rw [buildUnder, hclash] at hbuild
      exact congrArg some (Except.error.inj hbuild)
    | none =>
      rw [buildUnder_of_distinct (firstClash?_toList.mp hclash)] at hbuild
      split at hbuild
      · obtain rfl := Except.error.inj hbuild
        exact hduplicate.elim
      · split at hbuild
        · contradiction
        · obtain rfl := Except.error.inj hbuild
          exact hduplicate.elim
  · intro hclash
    obtain ⟨before, second, after, -, -, hsecond⟩ := firstClash?_eq_some.mp hclash
    obtain ⟨first, -, hclashOf⟩ := clash?_eq_some hsecond
    exact ⟨hclashOf.isDuplicate, by rw [buildUnder, hclash]⟩

/-- **Duplicates.** A lattice is refused for a clash exactly if two of the given members, at
different places, share a name, a name in upper camel case or an index, whatever the limit and the
flag are. What is reported is the first of the sorted members that shares something with one before
it, with the only one before it that shares the name, else the name in upper camel case, else the
index; these two are the members that the error is about. -/
theorem buildUnder_duplicate (list : List Member) (limit : ℕ) (flag : Option CancelFlag) :
    ((∃ error : LatticeError, error.IsDuplicate ∧
        buildUnder (.ofList list) limit flag = .error error) ↔
      ∃ (i j : ℕ) (first second : Member), i ≠ j ∧ list[i]? = some first ∧
        list[j]? = some second ∧ first.Shares second) ∧
    ∀ error : LatticeError, error.IsDuplicate →
      buildUnder (.ofList list) limit flag = .error error →
        ∃ before first second after,
          (MemberList.ofList list).toList = before ++ second :: after ∧
          before.Pairwise Member.Differs ∧ first ∈ before ∧ first.Shares second ∧
          error.Reports before first second ∧
          (Error.lattice error).members = [first.name, second.name] := by
  constructor
  · rw [← MemberList.not_distinct_ofList, ← firstClash?_toList, ← Ne, Option.ne_none_iff_exists']
    exact exists_congr fun error => buildUnder_eq_duplicate
  · intro error hduplicate hbuild
    have hclash := buildUnder_eq_duplicate.mp ⟨hduplicate, hbuild⟩
    obtain ⟨before, second, after, hparts, hnone, hsecond⟩ := firstClash?_eq_some.mp hclash
    have hdiffers : before.Pairwise Member.Differs := (firstClash?_eq_none.mp hnone).2
    obtain ⟨first, hreports⟩ := reports_of_clash? hdiffers hsecond
    exact ⟨before, first, second, after, hparts, hdiffers, hreports.shares.1, hreports.shares.2,
      hreports, hreports.members_eq⟩

/-- Members out of order: the second one shares its index with the first one and its name in upper
camel case with the third one. -/
def tiedMembers : List Member :=
  [⟨"code", "Code", ⟨"u32"⟩, true, 8, .provided, .argument⟩,
    ⟨"zip__code", "ZipCode", ⟨"u32"⟩, false, 8, .provided, .argument⟩,
    ⟨"zip_code", "ZipCode", ⟨"String"⟩, true, 2, .provided, .argument⟩]

/-- The name in upper camel case goes before the index, and a flag that is set before neither. -/
theorem buildUnder_duplicate_tiedMembers :
    (LatticeError.duplicateMember "ZipCode" "zip_code" "zip__code").IsDuplicate ∧
      buildUnder (.ofList tiedMembers) 0 (some ⟨true⟩) =
        .error (.duplicateMember "ZipCode" "zip_code" "zip__code") ∧
      ∃ before first second after,
        (MemberList.ofList tiedMembers).toList = before ++ second :: after ∧
        before.Pairwise Member.Differs ∧ first ∈ before ∧ first.Shares second ∧
        ["zip_code", "zip__code"] = [first.name, second.name] := by
  have hsorted : (MemberList.ofList tiedMembers).toList =
      [⟨"zip_code", "ZipCode", ⟨"String"⟩, true, 2, .provided, .argument⟩,
        ⟨"code", "Code", ⟨"u32"⟩, true, 8, .provided, .argument⟩,
        ⟨"zip__code", "ZipCode", ⟨"u32"⟩, false, 8, .provided, .argument⟩] := by
    cbv
  have hclash : firstClash? [] (MemberList.ofList tiedMembers).toList =
      some (.duplicateMember "ZipCode" "zip_code" "zip__code") := by
    rw [hsorted]
    decide
  have hrefused : (LatticeError.duplicateMember "ZipCode" "zip_code" "zip__code").IsDuplicate ∧
      buildUnder (.ofList tiedMembers) 0 (some ⟨true⟩) =
        .error (.duplicateMember "ZipCode" "zip_code" "zip__code") :=
    buildUnder_eq_duplicate.mpr hclash
  obtain ⟨hduplicate, hbuild⟩ := hrefused
  obtain ⟨before, first, second, after, hparts, hdiffers, hfirst, hshares, -, hnames⟩ :=
    (buildUnder_duplicate tiedMembers 0 (some ⟨true⟩)).2 _ hduplicate hbuild
  exact ⟨hduplicate, hbuild, before, first, second, after, hparts, hdiffers, hfirst, hshares, hnames⟩

end Lattice

end Typestate
