import Typestate.Proofs.Code.Slots
import Typestate.Proofs.Grammar.PathTokens

/-!
# The constructor that is called

The text that designates the constructor of a target is a path of any length, with or without
arguments in its segments. Two colons in front leave it as it is; a first `Self` stands for the
target; a name by itself is a function of the target. The rules meet in `Self` by itself, which is
taken for the name of a function: the target is put in front of it, where no text has a meaning. All
other paths follow the rules.
-/

namespace Typestate

open Grammar Token

namespace Grammar

/-- A path that is read has a segment. -/
theorem segments_ne_nil_of_pathWhere {sorts : Sorts} {inExpression : Bool} {tokens : List Token}
    {found : Found Path} (h : pathWhere sorts inExpression tokens = .ok found) :
    found.value.segments ≠ [] := by
  obtain ⟨leading, more, -, hmore, rfl⟩ := Parser.bind_eq_ok.mp h
  obtain ⟨first, others, -, hothers, rfl⟩ := Parser.bind_eq_ok.mp hmore
  obtain ⟨segments, last, -, hlast, rfl⟩ := Parser.bind_eq_ok.mp hothers
  rw [← Except.ok.inj hlast]
  exact List.cons_ne_nil _ _

theorem segments_ne_nil_of_readPath? {text : String} {path : Path}
    (h : readPath? text = some path) : path.segments ≠ [] := by
  obtain ⟨sorts, tokens, found, hfound, rfl⟩ := read?_eq_some h
  exact segments_ne_nil_of_pathWhere hfound

/-- What a path that designates a constructor of a target stands for. Arguments of segments stay
where they are. -/
inductive Path.Designates (target : String) : Path → Path → Prop where
  /-- A path with two colons in front stands for itself. -/
  | rooted (segments : List Segment) : Designates target ⟨true, segments⟩ ⟨true, segments⟩
  /-- A first `Self` stands for the target. -/
  | own (arguments : Option Node) (others : List Segment) :
    Designates target ⟨false, ⟨"Self", arguments⟩ :: others⟩ ⟨false, ⟨target, arguments⟩ :: others⟩
  /-- Another name by itself is a function of the target. -/
  | function (only : Segment) (hname : only.name ≠ "Self") :
    Designates target ⟨false, [only]⟩ ⟨false, [⟨target, none⟩, only]⟩
  /-- A longer path that begins with another name stands for itself. -/
  | elsewhere (first second : Segment) (others : List Segment) (hname : first.name ≠ "Self") :
    Designates target ⟨false, first :: second :: others⟩ ⟨false, first :: second :: others⟩

/-- The path is `Self` by itself. -/
def Path.IsSelf (path : Path) : Prop :=
  path.leading = false ∧ ∃ arguments, path.segments = [⟨"Self", arguments⟩]

namespace Path

variable {target : String}

/-- The rules are followed, but for `Self` by itself. -/
theorem designates_resolve_iff {path : Path} (hsegments : path.segments ≠ []) :
    path.Designates target (path.resolve target) ↔ ¬ path.IsSelf := by
  obtain ⟨leading, segments⟩ := path
  cases leading with
  | true =>
    refine iff_of_true ?_ fun hself => Bool.noConfusion hself.1
    exact .rooted segments
  | false =>
    match segments, hsegments with
    | [only], _ =>
      by_cases hname : only.name = "Self"
      · obtain ⟨name, arguments⟩ := only
        obtain rfl : name = "Self" := hname
        refine iff_of_false ?_ (not_not_intro ⟨rfl, arguments, rfl⟩)
        intro hdesignates
        cases hdesignates with
        | function only hname => exact hname rfl
      · refine iff_of_true (.function only hname) ?_
        rintro ⟨-, arguments, hsame⟩
        obtain rfl := List.singleton_inj.mp hsame
        exact hname rfl
    | first :: second :: others, _ =>
      refine iff_of_true ?_ fun ⟨_, _, hsame⟩ => List.cons_ne_nil _ _ (List.cons.inj hsame).2
      by_cases hname : first.name = "Self"
      · obtain ⟨name, arguments⟩ := first
        obtain rfl : name = "Self" := hname
        exact .own arguments (second :: others)
      · have hkept : resolve ⟨false, first :: second :: others⟩ target =
            ⟨false, first :: second :: others⟩ := by
          simp [resolve, hname]
        rw [hkept]
        exact .elsewhere first second others hname

/-- Where the rules are followed and `Self` stands first at most, it is not left over. -/
theorem Designates.forall_ne {path resolved : Path} (h : path.Designates target resolved)
    (hleading : path.leading = false) (htarget : target ≠ "Self")
    (hothers : ∀ segment ∈ path.segments.tail, segment.name ≠ "Self") :
    ∀ segment ∈ resolved.segments, segment.name ≠ "Self" := by
  cases h with
  | rooted segments => exact absurd hleading nofun
  | own arguments others => exact List.forall_mem_cons.mpr ⟨htarget, hothers⟩
  | function only hname =>
    exact List.forall_mem_cons.mpr ⟨htarget, List.forall_mem_singleton.mpr hname⟩
  | elsewhere first second others hname => exact List.forall_mem_cons.mpr ⟨hname, hothers⟩

/-- `Self` by itself is left over, behind the target. -/
theorem IsSelf.resolve_eq {path : Path} (h : path.IsSelf) :
    ∃ arguments, path.resolve target = ⟨false, [⟨target, none⟩, ⟨"Self", arguments⟩]⟩ := by
  obtain ⟨leading, segments⟩ := path
  obtain ⟨rfl, arguments, rfl⟩ := h
  exact ⟨arguments, rfl⟩

end Path

end Grammar

/-- **The constructor.** Whatever text can be read as a path designates a constructor. The path that
is called is written segment by segment with the arguments that were given, and it follows the rules
unless the path is `Self` by itself, with arguments or without. In a path that does not begin with
two colons, a `Self` that stands first only is then gone; by itself it is kept behind the target. -/
theorem constructor_designates_iff {target text : String} {path : Path}
    (htarget : isIdentifierText target = true) (hread : readPath? text = some path) :
    ∃ resolved, constructorPath target text = .ok resolved ∧
      constructorTokens target text = (if resolved.leading then phrase "::" else []) ++
        List.intercalate (phrase "::") (resolved.segments.map Segment.tokens) ∧
      (path.Designates target resolved ↔ ¬ path.IsSelf) ∧
      (path.leading = false → (∀ segment ∈ path.segments.tail, segment.name ≠ "Self") →
        ((∀ segment ∈ resolved.segments, segment.name ≠ "Self") ↔ ¬ path.IsSelf)) := by
  have hpath : constructorPath target text = .ok (path.resolve target) := by
    rw [constructorPath, hread]
  have hdesignates : path.Designates target (path.resolve target) ↔ ¬ path.IsSelf :=
    Path.designates_resolve_iff (segments_ne_nil_of_readPath? hread)
  have hname : target ≠ "Self" := by
    rintro rfl
    exact absurd (lex?_of_isIdentifierText htarget).2 (by decide)
  refine ⟨path.resolve target, hpath, ?_, hdesignates, fun hleading hothers => ?_⟩
  · rw [constructorTokens, hpath]
    exact Path.tokens_node _
  · constructor
    · intro hnone hself
      obtain ⟨arguments, hresolved⟩ : ∃ arguments, path.resolve target =
          ⟨false, [⟨target, none⟩, ⟨"Self", arguments⟩]⟩ := hself.resolve_eq
      rw [hresolved] at hnone
      exact hnone ⟨"Self", arguments⟩ (List.mem_cons_of_mem _ List.mem_cons_self) rfl
    · intro hself
      exact (hdesignates.mpr hself).forall_ne hleading hname hothers

/-- A function of the target with arguments, by way of `Self`. -/
theorem constructor_designates_selfMake :
    ∃ path resolved, isIdentifierText "Order" = true ∧
      readPath? "Self::make::<u8>" = some path ∧
      constructorPath "Order" "Self::make::<u8>" = .ok resolved ∧
      path.Designates "Order" resolved ∧
      ∀ segment ∈ resolved.segments, segment.name ≠ "Self" := by
  have htarget : isIdentifierText "Order" = true := by decide +kernel
  have hnames : (readPath? "Self::make::<u8>").map (fun path =>
      (path.leading, path.segments.map Segment.name)) = some (false, ["Self", "make"]) := by
    decide +kernel
  obtain ⟨path, hread, hpath⟩ := Option.map_eq_some_iff.mp hnames
  obtain ⟨hleading, hsegments⟩ := Prod.mk.inj hpath
  obtain ⟨resolved, hresolved, -, hdesignates, hnone⟩ := constructor_designates_iff htarget hread
  have hself : ¬ path.IsSelf := by
    rintro ⟨-, arguments, hsame⟩
    rw [hsame] at hsegments
    exact List.cons_ne_nil _ _ (List.cons.inj hsegments).2.symm
  have hothers : ∀ segment ∈ path.segments.tail, segment.name ≠ "Self" := by
    rw [← List.forall_mem_map (f := Segment.name) (P := (· ≠ "Self")), List.map_tail, hsegments]
    decide
  exact ⟨path, resolved, htarget, hread, hresolved, hdesignates.mpr hself,
    (hnone hleading hothers).mpr hself⟩

/-- `Self` by itself begins with `Self`, and what is called keeps it behind the target. -/
theorem constructor_self :
    ∃ path resolved, isIdentifierText "Order" = true ∧ readPath? "Self" = some path ∧
      constructorPath "Order" "Self" = .ok resolved ∧ ¬ path.Designates "Order" resolved ∧
      constructorTokens "Order" "Self" = phrase "Order :: Self" := by
  have hread : (readPath? "Self").map (fun path =>
      (path.leading, path.segments.map fun segment => (segment.name, segment.arguments.isNone))) =
        some (false, [("Self", true)]) := by decide +kernel
  obtain ⟨⟨leading, segments⟩, hread, hpath⟩ := Option.map_eq_some_iff.mp hread
  obtain ⟨rfl, hsegments⟩ := Prod.mk.inj hpath
  obtain ⟨⟨name, arguments⟩, rfl, hsegment⟩ := List.map_eq_singleton_iff.mp hsegments
  obtain ⟨rfl, hnone⟩ := Prod.mk.inj hsegment
  obtain rfl := Option.isNone_iff_eq_none.mp hnone
  have hresolved : constructorPath "Order" "Self" =
      .ok ⟨false, [⟨"Order", none⟩, ⟨"Self", none⟩]⟩ := by
    rw [constructorPath, hread]
    rfl
  refine ⟨_, _, by decide +kernel, hread, hresolved, ?_, ?_⟩
  · exact (Path.designates_resolve_iff (List.cons_ne_nil _ _)).not.mpr
      (not_not_intro ⟨rfl, none, rfl⟩)
  · rw [constructorTokens, hresolved]
    exact Path.tokens_node _

end Typestate
