import Typestate.Proofs.Rereading.Call
import Typestate.Proofs.Rereading.TypeKind

/-!
# Calls of macros in place of types

A macro that is called in place of a type loses the parameters that are bound in front of the call,
so a type of which it is a part may look from before in another way than it did. As a whole text it
is read again all the same.
-/

namespace Typestate.Grammar

open Grammar.Parser Lexer Token

section TypeCall

variable {level : ℕ} {sorts : Sorts} {tokens again rest : List Token} {node : Node} {plus : Bool}
  {parameters : List Node}

/-! ### Where no call is found -/

theorem gives_objectFrom (bound : List Node) :
    Gives (Node.isTypeCall · = false) (objectFrom sorts bound) :=
  .after fun _ => .pure rfl

/-- In parentheses, a type is a part of what is found. -/
theorem not_isTypeCall_of_parenthesized
    (h : (parenthesizedType sorts plus).Reads tokens node rest) : node.isTypeCall = false := by
  rw [parenthesizedType_eq] at h
  obtain ⟨found, mid, hfound, h⟩ := reads_bind.mp h
  cases found with
  | whole found =>
    obtain ⟨body, -, hbody⟩ := reads_inside.mp hfound
    obtain ⟨kind, nodes, rfl, -⟩ := exists_of_whole hbody
    obtain ⟨rfl, -⟩ := reads_pure.mp h
    cases kind <;> rfl
  | bound nodes => exact gives_objectFrom nodes h
  | type found =>
    have h := reads_ahead.mp h
    split at h
    · exact gives_objectFrom _ h
    · obtain ⟨rfl, -⟩ := reads_pure.mp h
      rfl

theorem gives_objectType : Gives (Node.isTypeCall · = false) (objectType sorts plus) :=
  .after fun _ => .after fun _ => .after fun _ => .after fun _ =>
    .choose (.pure rfl) (.keepFrom fun _ => rfl)

/-- A call of a macro begins with a path, and none of its parts are the parameters that are bound in
front. -/
theorem call_of_typeFrom {start : List Token}
    (h : (typeFrom plus start parameters sorts tokens).Reads tokens node rest)
    (hnode : node.isTypeCall = true) :
    beginsPath tokens = true ∧ (∀ start parameters sorts,
      typeFrom plus start parameters sorts tokens = namedType sorts plus parameters) ∧
      (namedType sorts plus parameters).Reads tokens node rest := by
  have hnot : ∀ {parser : Parser Node}, Gives (Node.isTypeCall · = false) parser →
      ¬ parser.Reads tokens node rest := fun hgives hreads =>
    Bool.false_ne_true ((hgives hreads).symm.trans hnode)
  rcases reads_ite.mp h with ⟨-, h⟩ | ⟨hgroup, h⟩
  · exact absurd hnode (Bool.eq_false_iff.mp (not_isTypeCall_of_parenthesized h))
  rcases reads_ite.mp h with ⟨-, h⟩ | ⟨hfunction, h⟩
  · exact absurd h (hnot (not_call_of_other gives_functionType))
  rcases reads_ite.mp h with ⟨-, h⟩ | ⟨hbuiltin, h⟩
  · exact absurd h (hnot (not_call_of_other (gives_builtin start)))
  rcases reads_ite.mp h with ⟨hpath, h⟩ | ⟨-, h⟩
  · refine ⟨hpath, fun start parameters sorts => ?_, h⟩
    rw [typeFrom, if_neg hgroup, if_neg hfunction, if_neg hbuiltin, if_pos hpath]
  · refine absurd h (hnot ?_)
    exact .choose gives_objectType <| .choose (not_call_of_other gives_bracketedType) <|
      .choose (not_call_of_other gives_pointerType) <|
      .choose (not_call_of_other gives_referenceType) <|
      .choose (not_call_of_other gives_neverType) <|
      .choose (not_call_of_other gives_implType) <|
      .choose (not_call_of_other gives_inferredType) <|
      .choose (.after fun _ => .pure rfl) (gives_expected _)

/-! ### Calls by themselves -/

/-- A call of a macro is read again without the parameters that were bound in front. -/
theorem namedType_call_run (hsorts : sorts.Replays)
    (h : (namedType sorts plus parameters).Reads tokens node rest)
      (hnode : node.isTypeCall = true) :
    TypeRun level (fun sorts => namedType sorts plus []) tokens node rest := by
  rw [namedType_eq] at h
  obtain ⟨found, mid, hfound, h⟩ := reads_bind.mp h
  simp only [namedType_eq]
  cases found with
  | qualified found =>
    obtain ⟨rfl, -⟩ := reads_pure.mp h
    contradiction
  | plain found =>
    rcases reads_ite.mp (reads_ahead.mp h) with ⟨hcall, h⟩ | ⟨-, h⟩
    · obtain ⟨hmark, hplain⟩ := Bool.and_eq_true_iff.mp hcall
      obtain ⟨body, last, hbody, hpure⟩ := reads_bind.mp h
      obtain ⟨rfl, rfl⟩ := reads_pure.mp hpure
      have hpath : Run level (fun sorts => anyPath sorts false) (Same typeEnds mid)
          (SamePattern tokens) tokens (.plain found) mid found.node.leaves :=
        anyPath_run hsorts (fun _ => id) (by decide) hfound (Path.isExplicit_of_isPlain hplain)
      refine .cast (.bind _ (hpath.mono (fun _ => id) fun _ h => h.toSame)
        (.ahead ?_ fun again sorts hagain => by rw [hagain.isCallMark (by decide)]))
        (show _ ++ body.nodes.flatMap Node.leaves = _ by simp)
      simp only [if_pos hcall]
      exact (callBody_run hbody hmark (by decide)).map _
    · rw [reads_ahead, ite_bind] at h
      rcases reads_ite.mp h with ⟨-, h⟩ | ⟨-, hpure⟩
      · obtain ⟨others, last, -, hpure⟩ := reads_bind.mp h
        obtain ⟨rfl, -⟩ := reads_pure.mp hpure
        contradiction
      · obtain ⟨rfl, -⟩ := reads_pure.mp hpure
        contradiction

/-- Where no parameters are bound, none are read. -/
theorem reads_typeBinder? (hfor : isWord "for" tokens = false) :
    (typeBinder? sorts).Reads tokens [] tokens :=
  reads_bind.mpr ⟨[], tokens, reads_onlyIf.mpr (.inr ⟨hfor, rfl, rfl⟩),
    reads_ahead.mpr (reads_ite.mpr (.inl ⟨rfl, reads_pure.mpr ⟨rfl, rfl⟩⟩))⟩

theorem not_for_of_beginsPath (h : beginsPath tokens = true) : isWord "for" tokens = false := by
  rw [Bool.eq_false_iff]
  intro hfor
  obtain ⟨others, rfl⟩ := eq_of_isWord hfor
  simp only [beginsPath, isOp_word, Bool.or_false] at h
  exact absurd (show isPathWord [.word "for"] = true from h) (by decide)

/-- A type that is the call of a macro is read again, however it looks from before. -/
theorem typeWhere_call_run [sorts.TakesFront] (hsorts : sorts.Replays)
    (h : (typeWhere sorts plus).Reads tokens node rest) (hnode : node.isTypeCall = true) :
    Run 1 (fun sorts => typeWhere sorts plus) (Same typeEnds rest) (fun _ => True) tokens node rest
      node.leaves := by
  rw [typeWhere_eq, reads_ahead] at h
  obtain ⟨parameters, mid, hparameters, h⟩ := reads_bind.mp h
  obtain ⟨hpath, hfrom, hnamed⟩ := call_of_typeFrom (reads_ahead.mp h) hnode
  have hrun : TypeRun 1 (fun sorts => namedType sorts plus []) mid node rest :=
    namedType_call_run hsorts hnamed hnode
  have hsuffix : mid <:+ tokens := rest_suffix (show typeBinder? sorts tokens = _ from hparameters)
  refine ⟨fun {after depth} hafter hdepth => ?_, fun _ => trivial,
    fun hwritten => hrun.written (hwritten.suffix hsuffix),
    hrun.shorter.trans hsuffix.length_le⟩
  have hbegins := hrun.begins hafter
  have hfor : isWord "for" (node.leaves ++ after) = false := by
    rw [hbegins.alike.isWord]
    exact not_for_of_beginsPath hpath
  rw [typeWhere_eq, reads_ahead]
  refine reads_bind.mpr ⟨[], _, reads_typeBinder? hfor, reads_ahead.mpr ?_⟩
  rw [hbegins.typeFrom, hfrom]
  exact hrun.again hafter hdepth

end TypeCall

end Typestate.Grammar
