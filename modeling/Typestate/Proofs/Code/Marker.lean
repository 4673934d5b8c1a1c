import Typestate.Code.Naming
import Typestate.Proofs.Lattice.Walk
import Typestate.Proofs.Text.LowLine

/-!
# Names of stages

The marker of a stage joins the names of the supplied members, in upper camel case, by low lines. So
it tells no more than the pieces between low lines: two stages have one marker exactly if their
members read the same, piece by piece. Where no name has a low line of its own each piece is a
member, and the marker tells which members have been supplied.
-/

namespace Typestate

/-- Joining texts and cutting the result again cuts each text. -/
theorem splitOn_intercalate_eq_flatMap {A : Type*} [DecidableEq A] (a : A) {texts : List (List A)}
    (hne : texts ≠ []) : ([a].intercalate texts).splitOn a = texts.flatMap (List.splitOn a) := by
  induction texts with
  | nil => exact absurd rfl hne
  | cons text rest ih =>
    cases rest with
    | nil => simp [List.intercalate_singleton]
    | cons next others =>
      rw [List.intercalate_cons_cons, List.append_assoc, List.singleton_append,
        List.splitOn_append_cons_self, ih (List.cons_ne_nil _ _)]
      rfl

/-- Joined texts are equal exactly if they have the same pieces. -/
theorem intercalate_eq_iff_pieces {A : Type*} [DecidableEq A] (a : A) {first second : List (List A)}
    (hfirst : first ≠ []) (hsecond : second ≠ []) :
    [a].intercalate first = [a].intercalate second ↔
      first.flatMap (List.splitOn a) = second.flatMap (List.splitOn a) := by
  rw [← splitOn_intercalate_eq_flatMap a hfirst, ← splitOn_intercalate_eq_flatMap a hsecond]
  constructor
  · intro h
    rw [h]
  · intro h
    have hjoin : ∀ text : List A, [a].intercalate (text.splitOn a) = text :=
      fun _ => List.intercalate_splitOn a
    rw [← hjoin ([a].intercalate first), h, hjoin]

/-- A map that tells the elements of two lists apart tells the lists apart. -/
theorem eq_of_map_eq {A B : Type*} {f : A → B} {first second : List A}
    (hinjective : ∀ a ∈ first, ∀ b ∈ second, f a = f b → a = b)
    (hmap : first.map f = second.map f) : first = second := by
  induction first generalizing second with
  | nil => exact (List.map_eq_nil_iff.mp hmap.symm).symm
  | cons a first ih =>
    cases second with
    | nil => exact absurd hmap (List.cons_ne_nil _ _)
    | cons b second =>
      obtain ⟨hhead, htail⟩ := List.cons.inj hmap
      rw [hinjective a List.mem_cons_self b List.mem_cons_self hhead, ih ?_ htail]
      intro c hc d hd
      exact hinjective c (List.mem_cons_of_mem _ hc) d (List.mem_cons_of_mem _ hd)

namespace MemberList

variable {members : MemberList}

/-- The set holds indexes of members only. -/
def Knows (members : MemberList) (supplied : IndexSet) : Prop :=
  ∀ index ∈ supplied, ∃ member ∈ members.toList, member.index = index

/-- What can be enumerated are sets of members. -/
theorem knows_of_mem_sets {h : members.Distinct} {supplied : IndexSet}
    (hsupplied : supplied ∈ (members.roster h).sets) : members.Knows supplied :=
  fun index hindex => mem_indexes.mp ((Roster.mem_sets_iff.mp hsupplied).1 index hindex)

/-- The pieces between low lines of a text of each supplied member, in the order of the members. -/
def piecesOf (text : Member → String) (members : MemberList) (supplied : IndexSet) :
    List (List Char) :=
  (supplied.members members).flatMap fun member => (text member).toList.splitOn '_'

/-- The members of a set, as far as the list knows them, are members of the list. -/
theorem mem_of_mem_supplied (h : members.Distinct) {supplied : IndexSet} {member : Member}
    (hmember : member ∈ supplied.members members) : member ∈ members.toList := by
  obtain ⟨index, -, hget⟩ := List.mem_filterMap.mp hmember
  exact (h.get?_eq_some.mp hget).1

/-- The members of a set have the indexes of the set. -/
theorem map_index_supplied (h : members.Distinct) {supplied : IndexSet}
    (hknows : members.Knows supplied) :
    (supplied.members members).map Member.index = supplied.toList := by
  have hget : ∀ index ∈ supplied.toList, (members.get? index).map Member.index = some index := by
    intro index hindex
    obtain ⟨member, hmember, rfl⟩ := hknows index hindex
    rw [h.get?_eq_some.mpr ⟨hmember, rfl⟩, Option.map_some]
  rw [IndexSet.members, List.map_filterMap, List.filterMap_congr hget, List.filterMap_some]

/-- Sets of members are equal if their members have the same texts, given that a text tells members
apart. -/
theorem eq_of_map_text (h : members.Distinct) {text : Member → String}
    (htext : ∀ {first second : Member}, first.Differs second → text first ≠ text second)
    {first second : IndexSet} (hfirst : members.Knows first) (hsecond : members.Knows second)
    (hnames : (first.members members).map text = (second.members members).map text) :
    first = second := by
  have hmembers : first.members members = second.members members := by
    refine eq_of_map_eq (fun a ha b hb hname => ?_) hnames
    by_contra hne
    have hdiffers := h.forall_ne (mem_of_mem_supplied h ha) (mem_of_mem_supplied h hb) hne
    exact htext hdiffers hname
  apply IndexSet.eq_of_toList_eq
  rw [← map_index_supplied h hfirst, hmembers, map_index_supplied h hsecond]

/-- A set of members without a member is empty. -/
theorem supplied_eq_nil (h : members.Distinct) {supplied : IndexSet}
    (hknows : members.Knows supplied) : supplied.members members = [] ↔ supplied = .empty := by
  constructor
  · intro hnone
    have hlist := map_index_supplied h hknows
    rw [hnone] at hlist
    exact IndexSet.eq_of_toList_eq hlist.symm
  · intro hsame
    subst hsame
    rfl

/-- A set that is not empty has a piece. -/
theorem piecesOf_eq_nil (h : members.Distinct) (text : Member → String) {supplied : IndexSet}
    (hknows : members.Knows supplied) :
    members.piecesOf text supplied = [] ↔ supplied = .empty := by
  rw [← supplied_eq_nil h hknows]
  constructor
  · intro hpieces
    cases hmembers : supplied.members members with
    | nil => rfl
    | cons member rest =>
      rw [piecesOf, hmembers, List.flatMap_cons, List.append_eq_nil_iff] at hpieces
      exact absurd hpieces.1 (List.splitOn_ne_nil _ _)
  · intro hnone
    rw [piecesOf, hnone, List.flatMap_nil]

/-- Without low lines of their own, texts are pieces. -/
theorem piecesOf_of_no_lowLine (h : members.Distinct) {text : Member → String}
    (hnone : ∀ member ∈ members.toList, '_' ∉ (text member).toList) (supplied : IndexSet) :
    members.piecesOf text supplied =
      (supplied.members members).map fun member => (text member).toList := by
  have hpieces : ∀ member ∈ supplied.members members,
      (text member).toList.splitOn '_' = [(text member).toList] := fun member hmember =>
    List.splitOn_eq_singleton (hnone member (mem_of_mem_supplied h hmember))
  rw [piecesOf, List.flatMap_congr hpieces, ← List.map_eq_flatMap]

/-- Without low lines of their own, the pieces tell which members have been supplied. -/
theorem eq_of_piecesOf_eq (h : members.Distinct) {text : Member → String}
    (htext : ∀ {first second : Member}, first.Differs second → text first ≠ text second)
    (hnone : ∀ member ∈ members.toList, '_' ∉ (text member).toList) {first second : IndexSet}
    (hfirst : members.Knows first) (hsecond : members.Knows second)
    (hpieces : members.piecesOf text first = members.piecesOf text second) : first = second := by
  apply eq_of_map_text h htext hfirst hsecond
  rw [piecesOf_of_no_lowLine h hnone, piecesOf_of_no_lowLine h hnone] at hpieces
  have htoList : Function.Injective String.toList := fun _ _ => String.toList_inj.mp
  apply List.map_injective_iff.mpr htoList
  rw [List.map_map, List.map_map]
  exact hpieces

/-- Texts of supplied members that are joined by low lines say no more than their pieces. -/
theorem joined_eq_iff (h : members.Distinct) (text : Member → String) {first second : IndexSet}
    (hfirst : members.Knows first) (hsecond : members.Knows second) (hfirstNe : first ≠ .empty)
    (hsecondNe : second ≠ .empty) :
    ['_'].intercalate ((first.members members).map fun member => (text member).toList) =
        ['_'].intercalate ((second.members members).map fun member => (text member).toList) ↔
      members.piecesOf text first = members.piecesOf text second := by
  have hlists : ∀ supplied : IndexSet, members.Knows supplied → supplied ≠ .empty →
      (supplied.members members).map (fun member => (text member).toList) ≠ [] :=
    fun supplied hknows hne hnil =>
      hne ((supplied_eq_nil h hknows).mp (List.map_eq_nil_iff.mp hnil))
  rw [intercalate_eq_iff_pieces '_' (hlists first hfirst hfirstNe)
    (hlists second hsecond hsecondNe), List.flatMap_map, List.flatMap_map]
  rfl

end MemberList

namespace Naming

variable {members : MemberList}

/-- The characters of a marker of a stage in which something has been supplied. -/
theorem toList_marker {supplied : IndexSet} (hne : supplied ≠ .empty) :
    (marker (.after supplied) members).toList =
      "Exclude_".toList ++ ['_'].intercalate
        ((supplied.members members).map fun member => member.displayName.toList) := by
  have hsome : supplied.isEmpty = false := by
    rw [← Bool.not_eq_true, IndexSet.isEmpty_eq_true]
    exact hne
  rw [marker, hsome, if_neg Bool.false_ne_true, String.toList_append, String.toList_intercalate,
    List.map_map]
  rfl

theorem marker_empty : marker (.after .empty) members = rootMarker := rfl

/-- The marker of a stage in which something has been supplied has the beginning of all of these. -/
theorem head_marker_of_ne {supplied : IndexSet} (hne : supplied ≠ .empty) :
    (marker (.after supplied) members).toList.head? = some 'E' := by
  rw [toList_marker hne]
  rfl

/-- The marker of a stage begins as no other item of the stages module. -/
theorem head_marker (supplied : IndexSet) :
    (marker (.after supplied) members).toList.head? ∈ [some 'R', some 'E'] := by
  by_cases hempty : supplied = .empty
  · rw [hempty, marker_empty]
    decide
  · rw [head_marker_of_ne hempty]
    decide

/-- The trait of a member begins as no marker. -/
theorem head_memberTrait (member : Member) : (memberTrait member).toList.head? = some 'A' := by
  rw [memberTrait, String.toList_append]
  rfl

/-- No stage is marked as the complete one. -/
theorem marker_ne_complete (supplied : IndexSet) :
    marker (.after supplied) members ≠ completeMarker := by
  intro hsame
  have hhead : completeMarker.toList.head? ∈ [some 'R', some 'E'] := hsame ▸ head_marker supplied
  exact absurd hhead (by decide)

/-- The marker of a stage in which something has been supplied is not the first one. -/
theorem marker_ne_root {supplied : IndexSet} (hne : supplied ≠ .empty) :
    marker (.after supplied) members ≠ rootMarker := by
  intro hsame
  have hhead : rootMarker.toList.head? = some 'E' := hsame ▸ head_marker_of_ne hne
  exact absurd hhead (by decide)

/-- Markers of stages are equal exactly if the supplied members have the same pieces. -/
theorem marker_eq_iff (h : members.Distinct) {first second : IndexSet}
    (hfirst : members.Knows first) (hsecond : members.Knows second) :
    marker (.after first) members = marker (.after second) members ↔
      members.piecesOf Member.displayName first =
        members.piecesOf Member.displayName second := by
  have hnil : ∀ {supplied : IndexSet}, members.Knows supplied →
      (members.piecesOf Member.displayName supplied = [] ↔ supplied = .empty) :=
    MemberList.piecesOf_eq_nil h Member.displayName
  by_cases hfirstEmpty : first = .empty
  · subst hfirstEmpty
    rw [marker_empty, eq_comm, (hnil hfirst).mpr rfl, @eq_comm _ [], hnil hsecond]
    refine ⟨fun hroot => ?_, fun hempty => by rw [hempty, marker_empty]⟩
    by_contra hne
    exact marker_ne_root hne hroot
  by_cases hsecondEmpty : second = .empty
  · subst hsecondEmpty
    rw [marker_empty, (hnil hsecond).mpr rfl, hnil hfirst]
    exact iff_of_false (marker_ne_root hfirstEmpty) hfirstEmpty
  · rw [← String.toList_inj, toList_marker hfirstEmpty, toList_marker hsecondEmpty,
      List.append_cancel_left_eq,
      MemberList.joined_eq_iff h Member.displayName hfirst hsecond hfirstEmpty hsecondEmpty]

/-- Without low lines in names, markers tell stages apart. -/
theorem marker_injective (h : members.Distinct)
    (hnone : ∀ member ∈ members.toList, '_' ∉ member.displayName.toList) {first second : IndexSet}
    (hfirst : members.Knows first) (hsecond : members.Knows second)
    (hsame : marker (.after first) members = marker (.after second) members) : first = second :=
  MemberList.eq_of_piecesOf_eq h (fun hdiffers => hdiffers.displayName) hnone hfirst hsecond
    ((marker_eq_iff h hfirst hsecond).mp hsame)

/-- Different members have different traits. -/
theorem memberTrait_eq_iff (h : members.Distinct) {first second : Member}
    (hfirst : first ∈ members.toList) (hsecond : second ∈ members.toList) :
    memberTrait first = memberTrait second ↔ first = second := by
  constructor
  · intro hsame
    by_contra hne
    exact (h.forall_ne hfirst hsecond hne).displayName (String.append_right_inj _ |>.mp hsame)
  · intro hsame
    subst hsame
    rfl

end Naming

end Typestate
