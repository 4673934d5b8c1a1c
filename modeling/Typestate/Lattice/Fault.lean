import Typestate.Lattice.Stage

/-!
# Faults of a lattice

Why there is no lattice of some members. Generated items are named after members in three ways, so
members must differ in all three: in name, in upper camel case and in index.
-/

namespace Typestate

/-- Why there is no lattice. -/
inductive LatticeError where
  | cancelled
  | duplicateIndex (index : Nat) (first second : String)
  | duplicateMember (name first second : String)
  | stageLimitExceeded (limit : Nat)
  deriving DecidableEq, Repr

namespace LatticeError

/-- The error in words. -/
def message : LatticeError → String
  | .cancelled => "lattice construction cancelled"
  | .duplicateIndex index first second =>
    "duplicate member index " ++ toString index ++ " shared by '" ++ first ++ "' and '" ++ second ++
      "'"
  | .duplicateMember name first second =>
    "duplicate member identifier '" ++ name ++ "' produced by '" ++ first ++ "' and '" ++ second ++
      "'"
  | .stageLimitExceeded limit => "stage limit of " ++ toString limit ++ " exceeded"

/-- The names of the members that the error is about. -/
def members : LatticeError → List String
  | .cancelled => []
  | .duplicateIndex _ first second => [first, second]
  | .duplicateMember _ first second => [first, second]
  | .stageLimitExceeded _ => []

end LatticeError

/-- Two members have nothing in common after which items are named. -/
structure Member.Differs (first second : Member) : Prop where
  name : first.name ≠ second.name
  displayName : first.displayName ≠ second.displayName
  index : first.index ≠ second.index

theorem Member.differs_iff {first second : Member} :
    first.Differs second ↔ first.name ≠ second.name ∧ first.displayName ≠ second.displayName ∧
      first.index ≠ second.index :=
  ⟨fun h => ⟨h.name, h.displayName, h.index⟩, fun ⟨hname, hdisplay, hindex⟩ =>
    ⟨hname, hdisplay, hindex⟩⟩

theorem Member.Differs.symm {first second : Member} (h : first.Differs second) :
    second.Differs first :=
  ⟨h.name.symm, h.displayName.symm, h.index.symm⟩

instance (first second : Member) : Decidable (first.Differs second) :=
  decidable_of_iff _ Member.differs_iff.symm

/-- What a member shares with one of the members before it: the name, else the name in upper camel
case, else the index. -/
def clash? (earlier : List Member) (member : Member) : Option LatticeError :=
  match earlier.find? fun other => other.name == member.name with
  | some other => some (.duplicateMember member.name other.name member.name)
  | none =>
    match earlier.find? fun other => other.displayName == member.displayName with
    | some other => some (.duplicateMember member.displayName other.name member.name)
    | none =>
      match earlier.find? fun other => other.index == member.index with
      | some other => some (.duplicateIndex member.index other.name member.name)
      | none => none

/-- The first clash in a list of members, given the members before it. -/
def firstClash? (earlier : List Member) : List Member → Option LatticeError
  | [] => none
  | member :: rest =>
    match clash? earlier member with
    | some error => some error
    | none => firstClash? (earlier ++ [member]) rest

/-- There is no clash exactly if the member differs from all before it. -/
theorem clash?_eq_none {earlier : List Member} {member : Member} :
    clash? earlier member = none ↔ ∀ other ∈ earlier, other.Differs member := by
  unfold clash?
  constructor
  · intro h other hother
    split at h
    · contradiction
    · rename_i hname
      split at h
      · contradiction
      · rename_i hdisplay
        split at h
        · contradiction
        · rename_i hindex
          rw [List.find?_eq_none] at hname hdisplay hindex
          exact ⟨by simpa using hname other hother, by simpa using hdisplay other hother,
            by simpa using hindex other hother⟩
  · intro h
    have hname : earlier.find? (fun other => other.name == member.name) = none :=
      List.find?_eq_none.mpr fun other hother => by simpa using (h other hother).name
    have hdisplay : earlier.find? (fun other => other.displayName == member.displayName) = none :=
      List.find?_eq_none.mpr fun other hother => by simpa using (h other hother).displayName
    have hindex : earlier.find? (fun other => other.index == member.index) = none :=
      List.find?_eq_none.mpr fun other hother => by simpa using (h other hother).index
    rw [hname, hdisplay, hindex]

/-- There is no clash exactly if each member differs from those before it. -/
theorem firstClash?_eq_none {earlier members : List Member} :
    firstClash? earlier members = none ↔
      (∀ member ∈ members, ∀ other ∈ earlier, other.Differs member) ∧
        members.Pairwise Member.Differs := by
  induction members generalizing earlier with
  | nil => simp [firstClash?]
  | cons member rest ih =>
    have hcons : firstClash? earlier (member :: rest) = none ↔
        clash? earlier member = none ∧ firstClash? (earlier ++ [member]) rest = none := by
      rw [firstClash?]
      cases clash? earlier member <;> simp
    rw [hcons, clash?_eq_none, ih, List.pairwise_cons, List.forall_mem_cons]
    simp only [List.mem_append, List.mem_singleton, or_imp, forall_and, forall_eq]
    constructor
    · intro hboth
      obtain ⟨hmember, ⟨hearlier, hrest⟩, hpairs⟩ := hboth
      exact ⟨⟨hmember, hearlier⟩, hrest, hpairs⟩
    · intro hfound
      obtain ⟨⟨hmember, hearlier⟩, hrest, hpairs⟩ := hfound
      exact ⟨hmember, ⟨hearlier, hrest⟩, hpairs⟩

end Typestate
