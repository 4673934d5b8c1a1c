import Typestate.Generation
import Typestate.Proofs.Lattice.Limit
import Typestate.Proofs.Member.Accepted

/-!
# What is generated for a target

If anything is generated for a target, its lattice has been built and the way in which its value is
made is understood; the three items are then those of this lattice.
-/

namespace Typestate

/-- Results of computations that all succeed, one for each draft. -/
theorem map_of_mapM_eq_ok {E A B C : Type} {make : A → Except E B} {whole : B → C} {part : A → C}
    (hmake : ∀ a b, make a = .ok b → whole b = part a) {drafts : List A} {results : List B}
    (hresults : drafts.mapM make = .ok results) : results.map whole = drafts.map part :=
  map_eq_of_forall₂ ((forall₂_of_mapM_eq_ok hresults).imp hmake)

/-- What is generated for a target. -/
theorem generate_eq_ok {target : Target} {cancelled : Bool} {generated : Generated}
    (hgenerate : generate target cancelled = .ok generated) :
    ∃ body, Lattice.build target.members target.settings.stageLimit cancelled =
        .ok generated.lattice ∧
      generated.target = target ∧
      generated.stageModule = .ofLattice target (.ofTarget target) generated.lattice ∧
      generated.builderType =
        { naming := .ofTarget target
          root := Naming.marker generated.lattice.root generated.lattice.members
          slots := target.members.toList.map .ofMember
          body := body } ∧
      generated.factory = .ofLattice target (.ofTarget target) generated.lattice ∧
      BuildBody.ofTarget target = .ok body := by
  obtain ⟨lattice, hlattice, hrest⟩ := bind_eq_ok.mp hgenerate
  obtain ⟨builderType, hbuilder, hgenerated⟩ := bind_eq_ok.mp hrest
  obtain ⟨body, hbody, hitem⟩ := bind_eq_ok.mp hbuilder
  rw [← Except.ok.inj hgenerated]
  exact ⟨body, mapError_eq_ok.mp hlattice, rfl, rfl, (Except.ok.inj hitem).symm, rfl, hbody⟩

/-- The members of the target differ from each other, their stages keep to the limit, and a value
can be made. -/
def Target.isGenerable (target : Target) : Bool :=
  decide (target.members.Distinct ∧ target.members.stageCount ≤ target.settings.stageLimit) &&
    (BuildBody.ofTarget target).isOk

/-- Something is generated for a target exactly if nothing stands against it. -/
theorem exists_generate_eq_ok {target : Target} :
    (∃ generated, generate target = .ok generated) ↔ target.isGenerable = true := by
  rw [Target.isGenerable, Bool.and_eq_true, decide_eq_true_eq]
  constructor
  · intro ⟨generated, hgenerate⟩
    obtain ⟨body, hlattice, -, -, -, -, hbody⟩ := generate_eq_ok hgenerate
    obtain ⟨h, -, hlimit, -⟩ := Lattice.build_eq_ok.mp hlattice
    rw [MemberList.length_roster_sets] at hlimit
    exact ⟨⟨h, hlimit⟩, by rw [hbody]; rfl⟩
  · intro ⟨⟨h, hlimit⟩, hbody⟩
    have hlattice : Lattice.build target.members target.settings.stageLimit =
        .ok (target.members.lattice h) := by
      rw [Lattice.build_of_distinct h, if_pos (MemberList.length_roster_sets.trans_le hlimit)]
    cases hfound : BuildBody.ofTarget target with
    | error error =>
      rw [hfound] at hbody
      contradiction
    | ok body =>
      exact ⟨_, bind_eq_ok.mpr ⟨_, mapError_eq_ok.mpr hlattice,
        bind_eq_ok.mpr ⟨_, bind_eq_ok.mpr ⟨body, hfound, rfl⟩, rfl⟩⟩⟩

end Typestate
