import Typestate.Proofs.Rereading.Bound

/-!
# Types, read again

A type begins as it did, even where it is put together from bounds. What stands in parentheses is a
type, a tuple of types or the first bound of a trait object, which is seen behind the parentheses
only.
-/

namespace Typestate.Grammar

open Grammar.Parser Lexer Token

section Types

variable {level : ℕ} {sorts : Sorts} {operators : List String} {tokens rest : List Token}
  {ends : List Token → Prop} {node : Node}

/-! ### Bounds of an object -/

/-- Bounds after a plus each are read again. -/
theorem plusBounds_run (hsorts : sorts.Replays) (hlevel : 1 ≤ level)
    {nodes : List Node} (h : (plusBounds sorts).Reads tokens nodes rest)
    (hnodes : ∀ node ∈ nodes, node.isExplicit = true) :
    Run level plusBounds (Same typeEnds rest) (Same typeEnds tokens) tokens nodes rest
      (nodes.flatMap Node.leaves) := by
  refine repeatWhile_run Node.leaves (fun node => node.isExplicit = true)
    (fun hagain => hagain.isOp "+" (by decide)) (fun _ hfound hexplicit => ?_) h hnodes
  obtain ⟨plus, mid, hplus, bound, last, hbound, hpure⟩ := by simpa only [reads_bind] using hfound
  obtain ⟨rfl, rfl⟩ := reads_pure.mp hpure
  refine ⟨?_, .cast (.bind (SameBound mid) (clear_run hplus (by decide))
    (((hsorts.bound hbound (hexplicit bound (by simp))).raise hlevel).map _)) (by simp)⟩
  rw [List.flatMap_cons]
  exact List.append_ne_nil_of_left_ne_nil (leaves_ne_nil_of_operator hplus) _

/-- Bounds after a first one are read again, also if the last plus is followed by none. -/
theorem furtherBounds_run (hsorts : sorts.Replays) (hlevel : 1 ≤ level)
    {nodes : List Node} (h : (furtherBounds sorts).Reads tokens nodes rest)
    (hnodes : ∀ node ∈ nodes, node.isExplicit = true) :
    Run level furtherBounds (Same typeEnds rest) (Same typeEnds tokens) tokens nodes rest
      (nodes.flatMap Node.leaves) := by
  refine .onlyIf sorts h (fun _ hreads => ?_) (fun _ heq after => heq ▸ id)
    fun again hagain => hagain.isOp "+" (by decide)
  obtain ⟨plus, mid, hplus, others, last, hothers, hpure⟩ := by
    simpa only [reads_bind] using hreads
  obtain ⟨rfl, rfl⟩ := reads_pure.mp hpure
  have hmore : Run level
      (fun sorts => onlyIf (beginsBound ⟨false, false⟩) (bounds sorts true ⟨false, false⟩))
      (Same typeEnds last)
      (fun again => beginsBound ⟨false, false⟩ again = beginsBound ⟨false, false⟩ mid) mid others
      last (others.flatMap Node.leaves) := by
    refine .onlyIf sorts hothers (fun _ hbounds => ?_) (fun hnot heq after hafter => ?_)
      fun again => id
    · exact (bounds_run hsorts hlevel hbounds (List.forall_mem_cons.mp hnodes).2).mono (fun _ => id)
        fun _ => SameBound.beginsBound
    · subst heq
      rw [hafter.beginsBound hnot, hnot]
  exact .bind _ (clear_run hplus (by decide)) (hmore.map _)

/-- Bounds of which one is a trait are read again. -/
theorem objectBounds_run {plus : Bool} {nodes : List Node} (hsorts : sorts.Replays)
    (hlevel : 1 ≤ level) (h : (objectBounds sorts plus).Reads tokens nodes rest)
    (hnodes : ∀ node ∈ nodes, node.isExplicit = true) :
    Run level (fun sorts => objectBounds sorts plus) (Same typeEnds rest) (SameBound tokens) tokens
      nodes rest (nodes.flatMap Node.leaves) := by
  obtain ⟨found, mid, hfound, h⟩ := reads_bind.mp h
  split at h
  · rename_i htrait
    obtain ⟨rfl, rfl⟩ := reads_pure.mp h
    unfold objectBounds
    refine .cast (.bind (Same typeEnds mid) (bounds_run hsorts hlevel hfound hnodes) ?_)
      (List.append_nil _)
    simp only [if_pos htrait]
    exact .pure
  · exact absurd h not_reads_refuse

/-! ### Parentheses -/

/-- What stands in the parentheses. -/
def Enclosed.nodes : Enclosed → List Node
  | .type node => [node]
  | .bound nodes => nodes
  | .whole (.construct _ _ [.group _ nodes]) => nodes
  | .whole _ => []

theorem isConst_traitParts {found : Bool × List Node}
    (h : (traitParts sorts ⟨false, false⟩).Reads tokens found rest) : found.1 = false := by
  simp only [traitParts, ite_bind] at h
  obtain ⟨parameters, left, hparameters, isConst, mid₂, hconst, relaxed, mid₃, hrelaxed, late,
    mid₄, hlate, path, last, hfound, h⟩ := by simpa only [reads_bind] using h
  split at h
  · exact absurd h not_reads_refuse
  · rw [← (reads_pure.mp h).1]
    cases isConst with
    | false => rfl
    | true =>
      simp only [constness, ↓reads_ahead, Bool.false_eq_true, if_false] at hconst
      split at hconst
      · obtain ⟨_, _, -, hrefuse⟩ := reads_bind.mp hconst
        exact absurd hrefuse not_reads_refuse
      · split at hconst
        · obtain ⟨_, _, -, hrefuse⟩ := reads_bind.mp hconst
          exact absurd hrefuse not_reads_refuse
        · exact (reads_pure.mp hconst).1.symm

/-- A type, or one in front of others in a tuple. -/
def typeOrTuple (sorts : Sorts) : Parser Enclosed :=
  sorts.type true >>= fun first => ahead >>= fun tokens =>
    if isOp "," tokens then operator "," >>= fun comma =>
      commaSeparated (one (sorts.type true)) >>= fun others =>
        pure (.whole (.branch .tupleType [.group .parenthesis (first :: comma :: others)]))
    else pure (.type first)

theorem enclosed_eq (sorts : Sorts) : enclosed sorts = ahead >>= fun tokens =>
    if tokens.isEmpty then pure (.whole (.branch .tupleType [.group .parenthesis []]))
    else if isLifetime tokens then objectBounds sorts true >>= fun found => pure
      (.whole (.branch .parenthesizedType [.group .parenthesis [.branch .traitObject found]]))
    else if isOp "?" tokens then
      traitParts sorts ⟨false, false⟩ >>= fun parts => pure (.bound parts.2)
    else typeOrTuple sorts := rfl

/-- A type or a tuple is read again inside parentheses. -/
theorem typeOrTuple_run {found : Enclosed} (hsorts : sorts.Replays)
    (h : (typeOrTuple sorts).Reads tokens found [])
    (hfound : ∀ node ∈ found.nodes, node.isExplicit = true) :
    Run 8 typeOrTuple (· = []) (Alike false tokens) tokens found []
      (found.nodes.flatMap Node.leaves) := by
  obtain ⟨first, mid, hfirst, h⟩ := reads_bind.mp h
  have hfirstRun : first.isExplicit = true → Run 8 (fun sorts => sorts.type true)
      (Same patternEnds mid) (Alike false tokens) tokens first mid first.leaves := fun hexplicit =>
    ((hsorts.type hfirst hexplicit).raise (by decide)).mono (fun _ h => h.mono (by decide))
      fun _ h => h.alike.weaken
  rcases reads_ite.mp (reads_ahead.mp h) with ⟨hlook, h⟩ | ⟨hnot, hpure⟩
  · obtain ⟨comma, left, hcomma, others, last, hothers, hpure⟩ := by
      simpa only [reads_bind] using h
    obtain ⟨rfl, rfl⟩ := reads_pure.mp hpure
    obtain ⟨hexplicit, hmore⟩ := List.forall_mem_cons.mp hfound
    have hrun : Run 8 (fun sorts => commaSeparated (one (sorts.type true))) (· = [])
        (fun again => isAtEnd again = isAtEnd left) left others []
        (others.flatMap Node.leaves) := by
      refine commaSeparated_run typeEnds (fun (h : Same openers _ _) => h.alike.isAtEnd)
        (by decide) (fun hitem hfit => ?_) hothers (List.forall_mem_cons.mp hmore).2
      obtain ⟨type, htype, rfl⟩ := reads_one.mp hitem
      have hrun := (hsorts.type htype (hfit _ (List.mem_singleton_self _))).raise
        (show 2 ≤ 8 by decide)
      exact hrun.one.cast (List.append_nil _).symm
    refine .cast (.bind (Same patternEnds mid) (hfirstRun hexplicit)
      (.ahead ?_ fun again sorts hagain => by rw [hagain.isOp "," (by decide)]))
      (show first.leaves ++ (comma.leaves ++ others.flatMap Node.leaves) = _ from rfl)
    simp only [if_pos hlook]
    exact .bind _ (clear_run hcomma (by decide)) (hrun.map _)
  · obtain ⟨rfl, rfl⟩ := reads_pure.mp hpure
    refine .cast
      (.bind (Same patternEnds _) (hfirstRun (hfound _ (List.mem_singleton_self _)))
      (.ahead ?_ fun again sorts hagain => by rw [hagain.isOp "," (by decide)])) rfl
    simp only [if_neg hnot]
    exact .mono .pure (fun _ => id) fun _ heq => by rw [heq]; exact .nil _

/-- The inside of parentheses is read again. -/
theorem enclosed_run {found : Enclosed} (hsorts : sorts.Replays)
    (h : (enclosed sorts).Reads tokens found [])
    (hfound : ∀ node ∈ found.nodes, node.isExplicit = true) :
    Run 8 enclosed (· = []) (Alike false tokens) tokens found []
      (found.nodes.flatMap Node.leaves) := by
  have hnil : ∀ operators after, after = [] → Same operators [] after := by
    rintro operators _ rfl
    exact .nil operators
  rw [enclosed_eq, reads_ahead] at h
  rw [show enclosed = _ from funext enclosed_eq]
  refine .ahead ?_ fun again sorts hagain => by
    rw [hagain.isEmpty, hagain.isLifetime, hagain.isOp_char "?" rfl (by decide)]
  rcases reads_ite.mp h with ⟨hempty, hpure⟩ | ⟨hnotEmpty, h⟩
  · obtain ⟨rfl, rfl⟩ := reads_pure.mp hpure
    simp only [List.isEmpty_nil, if_true]
    exact .mono .pure (fun _ => id) fun _ heq => by rw [heq]; exact .nil
  simp only [if_neg hnotEmpty]
  rcases reads_ite.mp h with ⟨hlifetime, h⟩ | ⟨hnotLifetime, h⟩
  · obtain ⟨bounds, mid, hbounds, hpure⟩ := reads_bind.mp h
    obtain ⟨rfl, rfl⟩ := reads_pure.mp hpure
    simp only [if_pos hlifetime]
    have hexplicit := Node.isExplicit_parts (hfound _ (List.mem_singleton_self _)) rfl
    have hrun : Run 8 (fun sorts => objectBounds sorts true) (· = []) (Alike false tokens) tokens
        bounds [] (bounds.flatMap Node.leaves) :=
      (objectBounds_run hsorts (by decide) hbounds hexplicit).mono (hnil _) fun _ h => h.alike
    exact (hrun.map _).cast (by simp [Enclosed.nodes])
  simp only [if_neg hnotLifetime]
  rcases reads_ite.mp h with ⟨hrelaxed, h⟩ | ⟨hnotRelaxed, h⟩
  · obtain ⟨⟨isConst, parts⟩, mid, hparts, hpure⟩ := reads_bind.mp h
    obtain ⟨rfl, rfl⟩ := reads_pure.mp hpure
    simp only [if_pos hrelaxed]
    obtain rfl : isConst = false := isConst_traitParts hparts
    have hrun : Run 8 (fun sorts => traitParts sorts ⟨false, false⟩) (· = []) (Alike false tokens)
        tokens (false, parts) [] (parts.flatMap Node.leaves) :=
      (traitParts_run hsorts hparts hfound).mono (hnil _) fun _ h => h.alike
    exact hrun.map fun found => Enclosed.bound found.2
  · simp only [if_neg hnotRelaxed]
    exact typeOrTuple_run hsorts h hfound

/-- A construct that is whole inside its parentheses is of the parentheses only. -/
theorem exists_of_whole (h : (enclosed sorts).Reads tokens (.whole node) rest) :
    ∃ kind nodes, node = .branch kind [.group .parenthesis nodes] ∧
      holdsArguments kind [.group .parenthesis nodes] = false := by
  simp only [enclosed, ↓reads_ahead] at h
  split at h
  · obtain ⟨heq, -⟩ := reads_pure.mp h
    exact ⟨_, _, (Enclosed.whole.inj heq).symm, rfl⟩
  · split at h
    · obtain ⟨bounds, mid, -, hpure⟩ := reads_bind.mp h
      exact ⟨_, _, (Enclosed.whole.inj (reads_pure.mp hpure).1).symm, rfl⟩
    · split at h
      · obtain ⟨parts, mid, -, hpure⟩ := reads_bind.mp h
        exact absurd (reads_pure.mp hpure).1 nofun
      · obtain ⟨first, mid, -, h⟩ := reads_bind.mp h
        rw [reads_ahead] at h
        split at h
        · obtain ⟨comma, left, -, others, last, -, hpure⟩ := by simpa only [reads_bind] using h
          exact ⟨_, _, (Enclosed.whole.inj (reads_pure.mp hpure).1).symm, rfl⟩
        · exact absurd (reads_pure.mp h).1 nofun

/-- A trait that was read as a type has the tokens of its bound, unless the bound stood in
parentheses of its own. -/
theorem eq_of_asTraitBound? {nodes : List Node} (h : asTraitBound? node = some nodes) :
    (node.leaves = nodes.flatMap Node.leaves ∧
      ((∀ node ∈ nodes, node.isExplicit = true) → node.isExplicit = true)) ∨
    node = .branch .traitObject [.branch .traitBound [.group .parenthesis nodes]] := by
  unfold asTraitBound? at h
  split at h
  · obtain rfl := Option.some.inj h
    refine .inl ⟨by simp, fun hnodes => ?_⟩
    exact (Node.isExplicit_construct rfl).mpr ⟨by decide, rfl, nofun, hnodes⟩
  · obtain rfl := Option.some.inj h
    exact .inr rfl
  · obtain rfl := Option.some.inj h
    refine .inl ⟨by simp, fun hnodes => ?_⟩
    refine (Node.isExplicit_construct rfl).mpr ⟨by decide, rfl, nofun, ?_⟩
    intro node hnode
    rw [List.mem_singleton.mp hnode]
    exact (Node.isExplicit_construct rfl).mpr ⟨by decide, rfl, nofun, hnodes⟩
  · contradiction

/-- A trait object goes on after its first bound. -/
theorem objectFrom_run {bound : List Node} (hsorts : sorts.Replays) (hlevel : 1 ≤ level)
    (h : (objectFrom sorts bound).Reads tokens node rest) (hnode : node.isExplicit = true) :
    (∀ node ∈ bound, node.isExplicit = true) ∧ ∃ printed,
      node.leaves = .group .parenthesis (bound.flatMap Node.leaves) :: printed ∧
        Run level (fun sorts => objectFrom sorts bound) (Same typeEnds rest) (Same typeEnds tokens)
          tokens node rest printed := by
  obtain ⟨others, mid, hothers, hpure⟩ := reads_bind.mp h
  obtain ⟨rfl, rfl⟩ := reads_pure.mp hpure
  obtain ⟨hfirst, hmore⟩ := List.forall_mem_cons.mp (Node.isExplicit_parts hnode rfl)
  have hgroup := Node.isExplicit_parts hfirst rfl _ (List.mem_singleton_self _)
  exact ⟨Node.isExplicit_group.mp hgroup, others.flatMap Node.leaves, by simp,
    (plusBounds_run hsorts hlevel hothers hmore).map _⟩

/-- What stands behind parentheses decides what they hold. -/
def afterParentheses (plus : Bool) (sorts : Sorts) : Enclosed → Parser Node
  | .whole node => return node
  | .bound nodes => objectFrom sorts nodes
  | .type node => do
    match (if plus && isOp "+" (← ahead) then asTraitBound? node else none) with
    | some nodes => objectFrom sorts nodes
    | none => return .branch .parenthesizedType [.group .parenthesis [node]]

theorem parenthesizedType_eq (sorts : Sorts) (plus : Bool) :
    parenthesizedType sorts plus =
      inside .parenthesis (enclosed sorts) >>= afterParentheses plus sorts := by
  unfold parenthesizedType
  congr 1

/-- What is enclosed is read again, and what follows it. -/
theorem parenthesizedType_of_runs {body mid printed : List Token} {found : Enclosed} {plus : Bool}
    {inner : List Token → Prop}
    (hinner : Run 8 enclosed (· = []) inner body found [] (found.nodes.flatMap Node.leaves))
    (hafter : Run level (fun sorts => afterParentheses plus sorts found) (Same typeEnds rest)
      (Same typeEnds mid) mid node rest printed)
    (hleaves : node.leaves =
      .group .parenthesis (found.nodes.flatMap Node.leaves) :: printed) :
    TypeRun level (fun sorts => parenthesizedType sorts plus)
      (.group .parenthesis body :: mid) node rest := by
  simp only [parenthesizedType_eq]
  exact .cast (.bind _ (hinner.inside openers) hafter) hleaves.symm

/-- A type in parentheses that is the first bound of an object has been read. -/
theorem type_of_enclosed (h : (enclosed sorts).Reads tokens (.type node) rest) :
    (sorts.type true).Reads tokens node rest := by
  simp only [enclosed, ↓reads_ahead] at h
  split at h
  · exact absurd (reads_pure.mp h).1 nofun
  · split at h
    · obtain ⟨bounds, mid, -, hpure⟩ := reads_bind.mp h
      exact absurd (reads_pure.mp hpure).1 nofun
    · split at h
      · obtain ⟨parts, mid, -, hpure⟩ := reads_bind.mp h
        exact absurd (reads_pure.mp hpure).1 nofun
      · obtain ⟨first, mid, hfirst, h⟩ := reads_bind.mp h
        rw [reads_ahead] at h
        split at h
        · obtain ⟨comma, left, -, others, last, -, hpure⟩ := by simpa only [reads_bind] using h
          exact absurd (reads_pure.mp hpure).1 nofun
        · obtain ⟨heq, rfl⟩ := reads_pure.mp h
          rwa [← Enclosed.type.inj heq]

/-- A relaxed bound in parentheses begins with a question mark. -/
theorem parts_of_enclosed {nodes : List Node}
    (h : (enclosed sorts).Reads tokens (.bound nodes) rest) :
    isOp "?" tokens = true ∧
      (traitParts sorts ⟨false, false⟩).Reads tokens (false, nodes) rest := by
  simp only [enclosed, ↓reads_ahead] at h
  rcases reads_ite.mp h with ⟨-, hpure⟩ | ⟨-, h⟩
  · exact absurd (reads_pure.mp hpure).1 nofun
  rcases reads_ite.mp h with ⟨-, h⟩ | ⟨-, h⟩
  · obtain ⟨bounds, mid, -, hpure⟩ := reads_bind.mp h
    exact absurd (reads_pure.mp hpure).1 nofun
  rcases reads_ite.mp h with ⟨hop, h⟩ | ⟨-, h⟩
  · obtain ⟨⟨isConst, parts⟩, mid, hparts, hpure⟩ := reads_bind.mp h
    obtain ⟨heq, rfl⟩ := reads_pure.mp hpure
    obtain rfl : isConst = false := isConst_traitParts hparts
    rw [← Enclosed.bound.inj heq]
    exact ⟨hop, hparts⟩
  · obtain ⟨first, mid, -, h⟩ := reads_bind.mp h
    rcases reads_ite.mp (reads_ahead.mp h) with ⟨-, h⟩ | ⟨-, hpure⟩
    · obtain ⟨comma, left, -, others, last, -, hpure⟩ := by simpa only [reads_bind] using h
      exact absurd (reads_pure.mp hpure).1 nofun
    · exact absurd (reads_pure.mp hpure).1 nofun

/-- Of no bounds nothing is taken, and no plus stands there. -/
theorem more_of_plusBounds (h : (plusBounds sorts).Reads tokens [] rest) :
    isOp "+" tokens = false := by
  have hmore := reads_ahead.mp h
  simp only [repeatAtMost, reads_ahead] at hmore
  rcases reads_ite.mp hmore with ⟨-, hmore⟩ | ⟨hnot, -⟩
  · obtain ⟨found, mid, hfound, others, last, -, hpure⟩ := by simpa only [reads_bind] using hmore
    obtain ⟨_, _, -, _, _, -, hone⟩ := by simpa only [reads_bind] using hfound
    obtain ⟨rfl, -⟩ := reads_pure.mp hone
    exact absurd (reads_pure.mp hpure).1 (by simp)
  · exact Bool.eq_false_iff.mpr hnot

theorem eq_of_plusBounds (h : (plusBounds sorts).Reads tokens [] rest) : tokens = rest := by
  have hnot := more_of_plusBounds h
  have hmore := reads_ahead.mp h
  simp only [repeatAtMost, reads_ahead, hnot, Bool.false_eq_true, if_false] at hmore
  exact (reads_pure.mp hmore).2

/-- A relaxed bound that stood in two pairs of parentheses is read again in one. -/
theorem enclosed_relaxed_run {body : List Token} {nodes : List Node}
    (h : Run 8 (fun sorts => traitParts sorts ⟨false, false⟩) (· = []) (SameBound body) body
      (false, nodes) [] (nodes.flatMap Node.leaves)) (hop : isOp "?" body = true) :
    Run 8 enclosed (· = []) (fun _ => True) [.group .parenthesis body] (.bound nodes) []
      (nodes.flatMap Node.leaves) where
  again {after depth} hafter hdepth := by
    have hagain : isOp "?" (nodes.flatMap Node.leaves ++ after) = true :=
      ((h.begins hafter).alike.isOp_char "?" rfl (by decide)).trans hop
    obtain ⟨next, hnext⟩ := Option.isSome_iff_exists.mp hagain
    obtain ⟨-, spacing, mid, htokens, -⟩ :=
      afterOperator?_cons_eq_some.mp (show afterOperator? ['?'] _ = some next from hnext)
    rw [enclosed, reads_ahead, if_neg (by simp [htokens]),
      if_neg (by rw [htokens, isLifetime_mark _ (by decide)]; decide), if_pos hagain]
    exact reads_bind.mpr ⟨_, _, h.again hafter hdepth, reads_pure.mpr ⟨rfl, rfl⟩⟩
  begins _ := trivial
  written hwritten := ⟨(h.written hwritten.body).1, .nil⟩
  shorter := by simp

/-- A type that begins with parentheses is read again. -/
theorem parenthesizedType_run {plus : Bool} (hsorts : sorts.Replays) (hlevel : 1 ≤ level)
    (h : (parenthesizedType sorts plus).Reads tokens node rest) (hnode : node.isExplicit = true) :
    TypeRun level (fun sorts => parenthesizedType sorts plus) tokens node rest := by
  rw [parenthesizedType_eq] at h
  obtain ⟨found, mid, hinside, h⟩ := reads_bind.mp h
  obtain ⟨body, rfl, hbody⟩ := reads_inside.mp hinside
  cases found with
  | whole found =>
    obtain ⟨rfl, rfl⟩ := reads_pure.mp h
    obtain ⟨kind, nodes, rfl, hkind⟩ := exists_of_whole hbody
    have hgroup := Node.isExplicit_parts hnode hkind _ (List.mem_singleton_self _)
    exact parenthesizedType_of_runs (enclosed_run hsorts hbody (Node.isExplicit_group.mp hgroup))
      .pure (by simp [Enclosed.nodes])
  | bound nodes =>
    obtain ⟨hexplicit, printed, hleaves, hrun⟩ := objectFrom_run hsorts hlevel h hnode
    exact parenthesizedType_of_runs (enclosed_run hsorts hbody hexplicit) hrun hleaves
  | type found =>
    have hstay : ∀ {others nodes left},
      (if plus && isOp "+" mid then asTraitBound? found else none) =
        nodes → Run level (fun sorts => match nodes with
          | some nodes => objectFrom sorts nodes
          | none => return .branch .parenthesizedType [.group .parenthesis [found]])
          (Same typeEnds rest) (Same typeEnds mid) mid others rest left →
        Run level (fun sorts => afterParentheses plus sorts (.type found)) (Same typeEnds rest)
          (Same typeEnds mid) mid others rest left := by
      rintro others nodes left rfl hrun
      exact .ahead hrun fun again sorts hagain => by rw [hagain.isOp "+" (by decide)]
    simp only [afterParentheses, ↓reads_ahead] at h
    split at h
    · rename_i nodes hseen
      obtain ⟨hexplicit, printed, hleaves, hrun⟩ := objectFrom_run hsorts hlevel h hnode
      have htrait : asTraitBound? found = some nodes := by
        split at hseen
        · exact hseen
        · contradiction
      rcases eq_of_asTraitBound? htrait with ⟨hfound, hfoundExplicit⟩ | rfl
      · refine parenthesizedType_of_runs (enclosed_run hsorts hbody ?_) (hstay hseen hrun) ?_
        · exact List.forall_mem_singleton.mpr (hfoundExplicit hexplicit)
        · rw [hleaves, Enclosed.nodes, List.flatMap_singleton, hfound]
      · obtain ⟨body, rfl, hop, hinner⟩ := hsorts.type_enclosed (type_of_enclosed hbody) hexplicit
        exact parenthesizedType_of_runs (enclosed_relaxed_run hinner hop) hrun hleaves
    · rename_i hseen
      obtain ⟨rfl, rfl⟩ := reads_pure.mp h
      have hgroup := Node.isExplicit_parts hnode rfl _ (List.mem_singleton_self _)
      exact parenthesizedType_of_runs (enclosed_run hsorts hbody (Node.isExplicit_group.mp hgroup))
        (hstay hseen .pure) (by simp [Enclosed.nodes])

/-! ### Functions -/

/-- A convention is read again in front of the word of a function. -/
theorem convention?_run {nodes : List Node} {others : List Token}
    (h : convention?.Reads tokens nodes (.word "fn" :: others)) :
    Run level (fun _ => convention?) (Same openers (.word "fn" :: others)) (Same openers tokens)
      tokens nodes (.word "fn" :: others) (nodes.flatMap Node.leaves) := by
  refine .onlyIf .none h (fun _ hreads => ?_) (fun _ heq after => heq ▸ id)
    fun again hagain => hagain.alike.isWord "extern"
  obtain ⟨word, mid, hword, name, last, hname, hpure⟩ := by simpa only [reads_bind] using hreads
  obtain ⟨rfl, rfl⟩ := reads_pure.mp hpure
  have hstring : Run level (fun _ => onlyIf isString (one string))
      (Same openers (.word "fn" :: others))
      (fun again => Alike true mid again ∧ isString again = isString mid) mid name
      (.word "fn" :: others) (name.flatMap Node.leaves) := by
    refine .onlyIf .none hname (fun hlook hreads => ?_) (fun _ heq after hafter => ?_)
      fun again hagain => hagain.2
    · obtain ⟨node, hnode, rfl⟩ := reads_one.mp hreads
      unfold Reads Parser.string at hnode
      split at hnode
      · rename_i text left
        split at hnode
        · rename_i htext
          obtain ⟨rfl, rfl, -⟩ := (Found.mk.injEq ..).mp (Except.ok.inj hnode)
          refine ⟨fun _ _ => reads_one.mpr ⟨_, ?_, rfl⟩, fun _ => ⟨.literal rfl, rfl⟩,
            fun hwritten => ⟨hwritten.literal, hwritten.tail⟩, Nat.le_succ _⟩
          simp [Reads, Parser.string, htext]
        · contradiction
      · contradiction
    · subst heq
      refine ⟨hafter.alike, ?_⟩
      have halike := hafter.alike
      cases halike with
      | word _ => rfl
  exact .bind _ (keyword_run hword rfl fun _ h _ => h.1) (hstring.map _)

/-- A name or a low line stands at the front. -/
def isPlainName (tokens : List Token) : Bool := isIdentifier tokens || isWord "_" tokens

/-- The glances at the name of an input see what they saw. -/
structure SameName (tokens again : List Token) : Prop where
  isMutableSelf : Grammar.isMutableSelf again = Grammar.isMutableSelf tokens
  isNamed : Grammar.isNamed isPlainName again = Grammar.isNamed isPlainName tokens
  isSelfNamed : Grammar.isNamed (isWord "self") again = Grammar.isNamed (isWord "self") tokens
  isNamedMutableSelf :
    (Grammar.isNamed isPlainName again && Grammar.isMutableSelf (afterOne (afterOne again))) =
      (Grammar.isNamed isPlainName tokens && Grammar.isMutableSelf (afterOne (afterOne tokens)))

/-- An input of a function type looks from before as it did. -/
structure SameInput (tokens again : List Token) : Prop where
  isEmpty : again.isEmpty = tokens.isEmpty
  isOp_pound : isOp "#" again = isOp "#" tokens
  isRest : isRestOfInputs again = isRestOfInputs tokens
  name : isRestOfInputs tokens = false → SameName tokens again

theorem SameInput.nil : SameInput [] [] := ⟨rfl, rfl, rfl, fun _ => ⟨rfl, rfl, rfl, rfl⟩⟩

/-- An attribute in front of an input looks as it did. -/
theorem Same.input {again : List Token} (h : Same operators tokens again)
    (hpound : Grammar.isOp "#" tokens = true) : SameInput tokens again := by
  have hagain : Grammar.isOp "#" again = true := (h.isOp "#" (.inl (by decide))).trans hpound
  obtain ⟨next, hnext⟩ := Option.isSome_iff_exists.mp hpound
  obtain ⟨next', hnext'⟩ := Option.isSome_iff_exists.mp hagain
  obtain ⟨-, spacing, mid, rfl, -⟩ :=
    afterOperator?_cons_eq_some.mp (show afterOperator? ['#'] tokens = some next from hnext)
  obtain ⟨-, spacing', mid', rfl, -⟩ :=
    afterOperator?_cons_eq_some.mp (show afterOperator? ['#'] again = some next' from hnext')
  refine ⟨rfl, rfl, ?_, fun _ => ⟨rfl, rfl, rfl, rfl⟩⟩
  rw [isRestOfInputs, isRestOfInputs, isOp_mark (by decide), isOp_mark (by decide)]
  rfl

theorem Alike.isMutableSelf {again : List Token} (h : Alike true tokens again) :
    Grammar.isMutableSelf again = Grammar.isMutableSelf tokens :=
  h.isWord_and (by decide) fun h => h.isWord "self"

/-- A name and a colon in front of a type that looks as it did look as they did. -/
theorem sameInput_named {name : String} {spacing : Spacing} {mid after : List Token}
    (h : Alike true mid after)
    (hnamed : isOp "::" (.mark ':' spacing :: mid) = false)
    (hrest : isRestOfInputs (.word name :: .mark ':' spacing :: mid) = false) :
    SameInput (.word name :: .mark ':' spacing :: mid) (.word name :: .mark ':' .alone :: after)
      where
  isEmpty := rfl
  isOp_pound := by rw [isOp_word, isOp_word]
  isRest := by
    simp only [isRestOfInputs, isOp_word, Bool.false_or, afterOne_word] at hrest ⊢
    change ((isPlainName (.word name :: .mark ':' spacing :: mid) && true) && isOp "..." mid) =
      false at hrest
    change ((isPlainName (.word name :: .mark ':' spacing :: mid) && true) && isOp "..." after) =
      ((isPlainName (.word name :: .mark ':' spacing :: mid) && true) && isOp "..." mid)
    rw [Bool.and_true] at hrest ⊢
    rw [hrest, Bool.eq_false_iff]
    intro hagain
    obtain ⟨hplain, hdots⟩ := Bool.and_eq_true_iff.mp hagain
    rw [hplain, h.isOp_of_again (by decide) hdots] at hrest
    contradiction
  name _ := by
    have hcolons : isOp "::" (.mark ':' .alone :: after) = false := rfl
    have hsame : ∀ isName : List Token → Bool,
        isName (.word name :: .mark ':' .alone :: after) =
          isName (.word name :: .mark ':' spacing :: mid) →
        isNamed isName (.word name :: .mark ':' .alone :: after) =
          isNamed isName (.word name :: .mark ':' spacing :: mid) := by
      intro isName heq
      rw [isNamed, isNamed, heq, afterOne_word, afterOne_word, hcolons, hnamed]
      rfl
    refine ⟨rfl, hsame _ rfl, hsame _ rfl, ?_⟩
    rw [hsame _ rfl]
    congr 1
    exact h.isMutableSelf

theorem Same.isNamed {again : List Token} {isName : List Token → Bool}
    (h : Same openers tokens again) (hname : isName again = isName tokens)
    (hword : isName tokens = true → (isPathWord tokens = true ∧
      ∃ text, Grammar.isWord text tokens = true ∧ text ∉ boundWords) ∨
        Grammar.isOp ":" (afterOne tokens) = false ∧ Grammar.isOp ":" (afterOne again) = false) :
    Grammar.isNamed isName again = Grammar.isNamed isName tokens := by
  rw [Grammar.isNamed, Grammar.isNamed, hname]
  cases hthere : isName tokens with
  | false => rfl
  | true =>
    rcases hword hthere with ⟨hpath, htext⟩ | ⟨hcolon, hagain⟩
    · rw [(h.alike.behind htext).isOp_char ":" rfl (by decide),
        h.afterName hpath "::" (by decide) (by decide)]
    · rw [hcolon, hagain]
      rfl

/-- A type without a name looks as it did. -/
theorem sameInput_type {again : List Token} (h : Same openers tokens again)
    (hnamed : isNamed isPlainName tokens = false) (hrest : isRestOfInputs tokens = false)
    (hwild : isWord "_" tokens = true → isOp ":" (afterOne tokens) = false) :
    SameInput tokens again := by
  have hplain : isPlainName again = isPlainName tokens := by
    rw [isPlainName, isPlainName, h.alike.isIdentifier, h.alike.isWord]
  have hsame : isNamed isPlainName again = isNamed isPlainName tokens := by
    refine h.isNamed hplain fun hname => ?_
    rcases Bool.or_eq_true_iff.mp hname with hidentifier | hword
    · refine .inl ⟨?_, exists_word_of_isIdentifier hidentifier⟩
      unfold isIdentifier at hidentifier
      split at hidentifier
      · simp [isPathWord, hidentifier]
      · contradiction
    · have halike := h.alike.behind ⟨"_", hword, by decide⟩
      exact .inr ⟨hwild hword, (halike.isOp_char ":" rfl (by decide)).trans (hwild hword)⟩
  have hself : isNamed (isWord "self") again = isNamed (isWord "self") tokens := by
    refine h.isNamed (h.alike.isWord "self") fun hword => .inl ⟨?_, "self", hword, by decide⟩
    unfold isWord at hword
    split at hword
    · rw [beq_iff_eq.mp hword]
      rfl
    · contradiction
  refine ⟨h.alike.isEmpty, h.isOp "#" (by decide), ?_, fun _ =>
    ⟨h.alike.isMutableSelf, hsame, hself, ?_⟩⟩
  · rw [hrest, Bool.eq_false_iff]
    intro hagain
    rcases Bool.or_eq_true_iff.mp hagain with hdots | hdots
    · rw [isRestOfInputs, h.alike.isOp_of_again (by decide) hdots] at hrest
      contradiction
    · obtain ⟨hname, hdots⟩ := Bool.and_eq_true_iff.mp hdots
      have hagainNamed : isNamed isPlainName again = false := hsame.trans hnamed
      rw [isNamed, isPlainName, hname, Bool.true_and, Bool.not_eq_false'] at hagainNamed
      obtain ⟨next, hnext⟩ := Option.isSome_iff_exists.mp hagainNamed
      obtain ⟨spacing, hcolons⟩ := eq_of_colons hnext
      rw [hcolons] at hdots
      rw [show afterOne (.mark ':' .joint :: .mark ':' spacing :: next) = .mark ':' spacing :: next
        from rfl, isOp_mark (by decide)] at hdots
      contradiction
  · rw [hsame, hnamed, Bool.false_and, Bool.false_and]

/-- An input of a function type is read again. -/
theorem functionInput_run {isFirst : Bool} (hsorts : sorts.Replays) (hlevel : 2 ≤ level)
    (h : (functionInput sorts isFirst).Reads tokens node rest) (hnode : node.isExplicit = true)
    (hend : isOp ":" rest = false) (hrest : isRestOfInputs tokens = false) :
    Run level (fun sorts => functionInput sorts isFirst) (Same typeEnds rest) (SameInput tokens)
      tokens node rest node.leaves := by
  simp only [functionInput, ↓reads_ahead] at h
  unfold functionInput
  refine .ahead ?_ fun again sorts hagain => ?_
  · split at h
    · exact absurd hnode (Node.not_isExplicit_of_isVerbatim (isVerbatim_of_asRead h))
    · rename_i hnotSelf
      simp only [if_neg hnotSelf]
      split at h
      · exact absurd hnode (Node.not_isExplicit_of_isVerbatim (isVerbatim_of_asRead h))
      · rename_i hnotNamedSelf
        simp only [if_neg hnotNamedSelf]
        split at h
        · rename_i hnamed
          obtain ⟨name, left, hname, colon, mid, hcolon, type, last, htype, hpure⟩ := by
            simpa only [reads_bind] using h
          obtain ⟨rfl, rfl⟩ := reads_pure.mp hpure
          simp only [if_pos hnamed]
          have hexplicit := Node.isExplicit_parts hnode rfl type (by simp)
          have hrun : TypeRun level (fun sorts => sorts.type true) mid type last :=
            (hsorts.type htype hexplicit).raise hlevel
          obtain rfl := reads_anyWord.mp hname
          obtain ⟨hop, rfl⟩ := reads_operator.mp hcolon
          have hnotColons : isOp "::" left = false := by
            rcases Bool.or_eq_true_iff.mp hnamed with hnamed | hnamed
            · simpa using (Bool.and_eq_true_iff.mp hnamed).2
            · simpa using (Bool.and_eq_true_iff.mp (Bool.and_eq_true_iff.mp hnamed).2).2
          obtain ⟨-, spacing, mid', rfl, ⟨-, rfl⟩ | ⟨hnil, -⟩⟩ := afterOperator?_cons_eq_some.mp
            (show afterOperator? [':'] left = some mid from hop)
          · exact .cast (.bind (fun again => ∃ after, again = .mark ':' .alone :: after ∧
                Alike true mid' after)
              (anyWord_bare hname fun again ⟨after, heq, halike⟩ =>
                heq ▸ sameInput_named halike hnotColons hrest)
              (.bind (Same openers mid') (operator_run hcolon fun after hafter =>
                ⟨after, rfl, hafter.alike⟩) (hrun.map _))) (by simp)
          · contradiction
        · rename_i hnotNamed
          obtain ⟨type, mid, htype, hpure⟩ := reads_bind.mp h
          obtain ⟨rfl, rfl⟩ := reads_pure.mp hpure
          simp only [if_neg hnotNamed]
          have hexplicit := Node.isExplicit_parts hnode rfl _ (List.mem_singleton_self _)
          have hrun : TypeRun level (fun sorts => sorts.type true) tokens type mid :=
            (hsorts.type htype hexplicit).raise hlevel
          refine ((hrun.map fun type => Node.branch .inputOfType [type]).cast (by simp)).mono
            (fun _ => id) fun _ hagain => sameInput_type hagain ?_ hrest fun hwild => ?_
          · exact Bool.eq_false_iff.mpr fun hname =>
              hnotNamed (Bool.or_eq_true_iff.mpr (.inl hname))
          · rw [← hsorts.type_wild htype hwild]
            exact hend
  · obtain ⟨hmutable, hnamed, hself, hboth⟩ := hagain.name hrest
    have hplain : (fun tokens => isIdentifier tokens || isWord "_" tokens) = isPlainName := rfl
    simp only [hplain, Bool.and_assoc]
    rw [hboth, hmutable, hnamed, hself]

/-- Three dots in place of inputs look as they did, behind a name or not. -/
theorem sameInput_rest {again : List Token} (hrest : isRestOfInputs tokens = true)
    (hagain : isRestOfInputs again = true) (hpound : isOp "#" again = isOp "#" tokens) :
    SameInput tokens again := by
  have hnotEmpty : ∀ {tokens : List Token}, isRestOfInputs tokens = true →
      tokens.isEmpty = false := by
    intro tokens hrest
    cases tokens with
    | nil => contradiction
    | cons token others => rfl
  refine ⟨(hnotEmpty hagain).trans (hnotEmpty hrest).symm, hpound, hagain.trans hrest.symm,
    fun hnot => ?_⟩
  rw [hrest] at hnot
  contradiction

/-- A name in front of three dots is read again. -/
theorem restName_run {nodes : List Node}
    (h : (onlyIf isAnyWord do
      let name ← anyWord
      return [.word name, ← operator ":"]).Reads tokens nodes rest)
    (hdots : isOp "..." rest = true) (hrest : isRestOfInputs tokens = true) :
    Run level (fun _ => onlyIf isAnyWord do
        let name ← anyWord
        return [.word name, ← operator ":"])
      (fun after => ∃ others, after = ofOperator ['.', '.', '.'] ++ others)
      (SameInput tokens) tokens nodes rest (nodes.flatMap Node.leaves) := by
  rcases reads_onlyIf.mp h with ⟨hlook, hreads⟩ | ⟨hnot, rfl, rfl⟩
  · obtain ⟨name, left, hword, colon, mid, hcolon, hpure⟩ := by simpa only [reads_bind] using hreads
    obtain ⟨rfl, rfl⟩ := reads_pure.mp hpure
    obtain rfl := reads_anyWord.mp hword
    have hrun : Run level (fun _ => do
          let name ← anyWord
          return [.word name, ← operator ":"])
        (fun after => ∃ others, after = ofOperator ['.', '.', '.'] ++ others)
        (fun again => isAnyWord again = true ∧ SameInput (.word name :: left) again)
        (.word name :: left) [.word name, colon] mid ([.word name, colon].flatMap Node.leaves) := by
      refine .cast (.bind (fun again => ∃ others, again = ofOperator [':'] ++
          (ofOperator ['.', '.', '.'] ++ others)) (anyWord_bare hword ?_)
        ((operator_run hcolon fun after ⟨others, hafter⟩ => ⟨others, by rw [hafter]; rfl⟩).map _))
        (by simp)
      rintro after ⟨others, rfl⟩
      refine ⟨rfl, sameInput_rest hrest ?_ (by rw [isOp_word, isOp_word])⟩
      simp only [isRestOfInputs, isOp_word, Bool.false_or, afterOne_word, Bool.and_eq_true]
        at hrest ⊢
      exact ⟨⟨hrest.1.1, rfl⟩, rfl⟩
    exact ⟨fun hafter hdepth => reads_onlyIf.mpr
        (.inl ⟨(hrun.begins hafter).1, hrun.again hafter hdepth⟩),
      fun hafter => (hrun.begins hafter).2, hrun.written, hrun.shorter⟩
  · refine ⟨fun {after depth} ⟨others, hafter⟩ _ => reads_onlyIf.mpr (.inr ⟨?_, rfl, rfl⟩),
      fun {after} ⟨others, hafter⟩ => ?_, fun h => ⟨.nil, h⟩, le_rfl⟩
    · rw [hafter]
      rfl
    · rw [hafter]
      obtain ⟨next, hnext⟩ := Option.isSome_iff_exists.mp hdots
      obtain ⟨-, spacing, mid, rfl, -⟩ := afterOperator?_cons_eq_some.mp
        (show afterOperator? ['.', '.', '.'] tokens = some next from hnext)
      exact sameInput_rest hrest rfl (by rw [isOp_mark (by decide)]; rfl)

/-- Three dots for the other inputs are read again, with a name or without. -/
theorem restOfInputs_run {nodes : List Node} (h : restOfInputs.Reads tokens nodes [])
    (hrest : isRestOfInputs tokens = true) :
    Run level (fun _ => restOfInputs) (· = []) (SameInput tokens) tokens nodes []
      (nodes.flatMap Node.leaves) := by
  obtain ⟨name, mid, hname, dots, left, hdots, comma, last, hcomma, hpure⟩ := by
    simpa only [restOfInputs, reads_bind] using h
  obtain ⟨rfl, rfl⟩ := reads_pure.mp hpure
  obtain ⟨hop, rfl⟩ := reads_operator.mp hdots
  have hthere : isOp "..." mid = true := by
    rw [isOp, hop]
    rfl
  have hcommaRun : Run level (fun _ => operator? ",") (· = []) (Same [","] left) left comma []
      (comma.flatMap Node.leaves) :=
    (operator?_run hcomma (by decide) (by decide)).mono (fun _ heq => by rw [heq]; exact .nil _)
      fun _ => id
  unfold restOfInputs
  exact .cast (.bind _ (restName_run hname hthere hrest)
    (.bind (Same [","] left) (operator_run hdots fun after _ => ⟨after, rfl⟩)
      (hcommaRun.map fun comma => name ++ Node.operator "..." :: comma))) (by simp)

/-- What is read of the inputs of a function type behind the attributes of the first one. -/
def inputsFrom (isFirst : Bool) (rounds : ℕ) (attributes : List Node) (sorts : Sorts)
    (tokens : List Token) : Parser (List Node) :=
  if isRestOfInputs tokens then restOfInputs >>= fun others => pure (attributes ++ others)
  else functionInput sorts isFirst >>= fun input => ahead >>= fun tokens =>
    if tokens.isEmpty then pure (attributes ++ [input])
    else operator "," >>= fun comma => functionInputsAtMost sorts false rounds >>= fun others =>
      pure (attributes ++ input :: comma :: others)

theorem functionInputsAtMost_succ (sorts : Sorts) (isFirst : Bool) (rounds : ℕ) :
    functionInputsAtMost sorts isFirst (rounds + 1) = ahead >>= fun tokens =>
      if tokens.isEmpty then pure []
      else outerAttributes sorts >>= fun attributes =>
        ahead >>= inputsFrom isFirst rounds attributes sorts := rfl

/-- Inputs are read again behind the attributes of the first one, if those behind a comma are. -/
theorem inputsFrom_run {isFirst : Bool} {rounds rounds' : ℕ} {attributes nodes : List Node}
    (hsorts : sorts.Replays)
    (hmore : ∀ {tokens others}, (functionInputsAtMost sorts false rounds).Reads tokens others [] →
      (∀ node ∈ others, node.isExplicit = true) → (others.flatMap Node.leaves).length < rounds' →
        Run 8 (fun sorts => functionInputsAtMost sorts false rounds') (· = []) (SameInput tokens)
          tokens others [] (others.flatMap Node.leaves))
    (h : (inputsFrom isFirst rounds attributes sorts tokens).Reads tokens nodes [])
    (hnodes : ∀ node ∈ nodes, node.isExplicit = true)
    (hrounds : (nodes.flatMap Node.leaves).length < rounds' + 1) :
    (∀ node ∈ attributes, node.isExplicit = true) ∧ ∃ printed,
      nodes.flatMap Node.leaves = attributes.flatMap Node.leaves ++ printed ∧
        Run 8 (fun sorts => inputsFrom isFirst rounds' attributes sorts tokens) (· = [])
          (SameInput tokens) tokens nodes [] printed := by
  rcases reads_ite.mp h with ⟨hrest, h⟩ | ⟨hnotRest, h⟩
  · obtain ⟨others, last, hothers, hpure⟩ := reads_bind.mp h
    obtain ⟨rfl, rfl⟩ := reads_pure.mp hpure
    refine ⟨(List.forall_mem_append.mp hnodes).1, _, List.flatMap_append, ?_⟩
    simp only [inputsFrom, if_pos hrest]
    exact (restOfInputs_run hothers hrest).map _
  obtain ⟨input, left, hinput, h⟩ := reads_bind.mp h
  have hinputRun : input.isExplicit = true → isOp ":" left = false →
      Run 8 (fun sorts => functionInput sorts isFirst) (Same typeEnds left) (SameInput tokens)
        tokens input left input.leaves := fun hexplicit hend =>
    functionInput_run hsorts (by decide) hinput hexplicit hend (Bool.eq_false_iff.mpr hnotRest)
  simp only [inputsFrom, if_neg hnotRest]
  rcases reads_ite.mp (reads_ahead.mp h) with ⟨hempty, hpure⟩ | ⟨hnotEmpty, h⟩
  · obtain ⟨rfl, rfl⟩ := reads_pure.mp hpure
    obtain ⟨hattributes, hexplicit⟩ := List.forall_mem_append.mp hnodes
    refine ⟨hattributes, input.leaves ++ [], by simp, ?_⟩
    refine .bind _ (hinputRun (hexplicit _ (List.mem_singleton_self _)) rfl)
      (.ahead ?_ fun again sorts hagain => by rw [hagain.alike.isEmpty])
    simp only [List.isEmpty_nil, if_true]
    exact .mono .pure (fun _ => id) fun _ heq => by rw [heq]; exact .nil _
  · obtain ⟨comma, last, hcomma, others, final, hothers, hpure⟩ := by
      simpa only [reads_bind] using h
    obtain ⟨rfl, rfl⟩ := reads_pure.mp hpure
    obtain ⟨hattributes, hparts⟩ := List.forall_mem_append.mp hnodes
    obtain ⟨hexplicit, hparts⟩ := List.forall_mem_cons.mp hparts
    obtain ⟨-, hothersExplicit⟩ := List.forall_mem_cons.mp hparts
    have hend : isOp ":" left = false := by
      obtain ⟨-, spacing, mid, rfl, -⟩ := afterOperator?_cons_eq_some.mp
        (show afterOperator? [','] left = some last from (reads_operator.mp hcomma).1)
      rfl
    have hpos := List.length_pos_of_ne_nil (leaves_ne_nil_of_operator hcomma)
    rw [List.flatMap_append, List.flatMap_cons, List.flatMap_cons, List.length_append,
      List.length_append, List.length_append] at hrounds
    refine ⟨hattributes, input.leaves ++ (comma.leaves ++ others.flatMap Node.leaves), by simp, ?_⟩
    refine .bind (Same patternEnds left)
      ((hinputRun hexplicit hend).mono (fun _ h => h.mono (by decide)) fun _ => id)
      (.ahead ?_ fun again sorts hagain => by rw [hagain.alike.isEmpty])
    simp only [if_neg hnotEmpty]
    exact .bind _ (clear_run hcomma (by decide))
      ((hmore hothers hothersExplicit (by omega)).map _)

/-- The inputs of a function type are read again. -/
theorem functionInputsAtMost_run {isFirst : Bool} {rounds : ℕ} {nodes : List Node}
    (hsorts : sorts.Replays)
    (h : (functionInputsAtMost sorts isFirst rounds).Reads tokens nodes [])
    (hnodes : ∀ node ∈ nodes, node.isExplicit = true) :
    ∀ rounds', (nodes.flatMap Node.leaves).length < rounds' →
      Run 8 (fun sorts => functionInputsAtMost sorts isFirst rounds') (· = []) (SameInput tokens)
        tokens nodes [] (nodes.flatMap Node.leaves) := by
  induction rounds generalizing tokens nodes isFirst with
  | zero => exact absurd h not_reads_fail
  | succ rounds ih =>
    intro rounds' hrounds
    obtain ⟨rounds', rfl⟩ : ∃ fewer, rounds' = fewer + 1 :=
      Nat.exists_eq_add_one.mpr (Nat.lt_of_le_of_lt (Nat.zero_le _) hrounds)
    simp only [functionInputsAtMost_succ, reads_ahead] at h ⊢
    refine .ahead ?_ fun again sorts hagain => by rw [hagain.isEmpty]
    rcases reads_ite.mp h with ⟨hempty, hpure⟩ | ⟨hnotEmpty, h⟩
    · obtain ⟨rfl, rfl⟩ := reads_pure.mp hpure
      simp only [List.isEmpty_nil, if_true]
      exact .mono .pure (fun _ => id) fun _ heq => by rw [heq]; exact .nil
    · obtain ⟨attributes, mid, hattributes, h⟩ := reads_bind.mp h
      obtain ⟨hexplicit, printed, hleaves, hrun⟩ := inputsFrom_run hsorts
        (fun hothers hexplicit => ih hothers hexplicit _) (reads_ahead.mp h) hnodes hrounds
      simp only [if_neg hnotEmpty]
      refine .cast (.bind _ (outerAttributes_run hsorts hattributes hexplicit
        (fun h => h.isOp_pound) fun hpound h => h.input hpound)
        (.ahead hrun fun again sorts hagain => ?_)) hleaves.symm
      rw [inputsFrom, inputsFrom, hagain.isRest]

/-- A type is read again behind the parameters that are bound in front of it. -/
def ParametersRun (level : ℕ) (parameters : List Node) (parser : Sorts → Parser Node)
    (tokens : List Token) (node : Node) (rest : List Token) : Prop :=
  (∀ node ∈ parameters, node.isExplicit = true) ∧ ∃ printed,
    node.leaves = parameters.flatMap Node.leaves ++ printed ∧
      Run level parser (Same typeEnds rest) (Same openers tokens) tokens node rest printed

namespace ParametersRun

variable {parameters : List Node}

theorem of_type {parser : Sorts → Parser Node} (hnone : parameters = [])
    (h : TypeRun level parser tokens node rest) :
    ParametersRun level parameters parser tokens node rest := by
  subst hnone
  exact ⟨nofun, _, rfl, h⟩

theorem ite {condition : Prop} [Decidable condition] {first second : Sorts → Parser Node}
    (h : (if condition then first sorts else second sorts).Reads tokens node rest)
    (hfirst : condition → (first sorts).Reads tokens node rest →
      ParametersRun level parameters first tokens node rest)
    (hsecond : ¬condition → (second sorts).Reads tokens node rest →
      ParametersRun level parameters second tokens node rest) :
    ParametersRun level parameters
      (fun sorts => if condition then first sorts else second sorts) tokens node rest := by
  rcases reads_ite.mp h with ⟨hcondition, h⟩ | ⟨hnot, h⟩
  · simp only [if_pos hcondition]
    exact hfirst hcondition h
  · simp only [if_neg hnot]
    exact hsecond hnot h

end ParametersRun

/-- The type of a function is read again, behind the parameters that are bound in front. -/
theorem functionType_run {parameters : List Node} (hsorts : sorts.Replays)
    (h : (functionType sorts parameters).Reads tokens node rest) (hnode : node.isExplicit = true) :
    ParametersRun level parameters (fun sorts => functionType sorts parameters) tokens
      node rest := by
  obtain ⟨safety, mid, hsafety, convention, left, hconvention, word, mid₂, hword, inputs, mid₃,
    hinputs, output, last, houtput, hpure⟩ := by simpa only [functionType, reads_bind] using h
  obtain ⟨rfl, rfl⟩ := reads_pure.mp hpure
  have hparts := Node.isExplicit_parts hnode rfl
  obtain ⟨body, nodes, rfl, hnodes, rfl⟩ := reads_group.mp hinputs
  have hinner : Run 8 (fun sorts => do functionInputsAtMost sorts true ((← ahead).length + 1))
      (· = []) (SameInput body) body nodes [] (nodes.flatMap Node.leaves) :=
    .rounds (functionInputsAtMost_run hsorts (reads_ahead.mp hnodes)
      (Node.isExplicit_group.mp (hparts (.group .parenthesis nodes) (by simp))))
  obtain ⟨rfl, rfl⟩ := reads_keyword.mp hword
  refine ⟨fun node hmem => hparts node (by simp [hmem]), safety.flatMap Node.leaves ++
    (convention.flatMap Node.leaves ++ ([.word "fn"] ++
      ((Node.group .parenthesis nodes).leaves ++ output.flatMap Node.leaves))), by simp, ?_⟩
  unfold functionType
  refine .bind (Same openers mid) (keyword?_run hsafety rfl) (.bind _ (convention?_run hconvention)
    (.bind (Same openers (.group .parenthesis body :: mid₃))
      (keyword_run hword rfl fun _ h _ => h.alike)
      (.next (Same ("->" :: typeEnds) mid₃) (hinner.group openers) (by simp)
        ((output?_run hsorts houtput fun node hmem => hparts node (by simp [hmem])).map _))))

/-! ### Types by their beginning -/

theorem Same.isCallMark {again : List Token} (h : Same operators tokens again)
    (hmem : "!=" ∈ operators) : Grammar.isCallMark again = Grammar.isCallMark tokens := by
  rw [Grammar.isCallMark, Grammar.isCallMark, h.isOp "!" (.inl (by decide)),
    h.isOp "!=" (.inr hmem)]

/-- What stands behind the path that a type begins with. -/
def afterPath (plus : Bool) (parameters : List Node) (sorts : Sorts) : AnyPath → Parser Node
  | .qualified node => return .branch .pathType [node]
  | .plain found => do
    if isCallMark (← ahead) && found.isPlain then
      let body ← callBody
      return .branch .callType (found.node :: body.nodes)
    else if !parameters.isEmpty || (plus && isOp "+" (← ahead)) then
      let others ← if plus then furtherBounds sorts else pure []
      return .branch .traitObject (.branch .traitBound (parameters ++ [found.node]) :: others)
    else return .branch .pathType [found.node]

theorem namedType_eq (sorts : Sorts) (plus : Bool) (parameters : List Node) :
    namedType sorts plus parameters = anyPath sorts false >>= afterPath plus parameters sorts := by
  unfold namedType
  congr 1

/-- Bounds behind a first trait are read again, where they are allowed. -/
theorem furtherBounds?_run {plus : Bool} {nodes : List Node} (hsorts : sorts.Replays)
    (hlevel : 1 ≤ level)
    (h : (if plus then furtherBounds sorts else pure []).Reads tokens nodes rest)
    (hnodes : ∀ node ∈ nodes, node.isExplicit = true) :
    Run level (fun sorts => if plus then furtherBounds sorts else pure []) (Same typeEnds rest)
      (Same typeEnds tokens) tokens nodes rest (nodes.flatMap Node.leaves) := by
  cases plus with
  | true => exact furtherBounds_run hsorts hlevel h hnodes
  | false =>
    obtain ⟨rfl, rfl⟩ := reads_pure.mp h
    exact .pure

/-- What stands behind a path is read again. -/
theorem afterPath_run {plus : Bool} {parameters : List Node} {found : AnyPath}
    (hsorts : sorts.Replays) (hlevel : 1 ≤ level)
    (hplain : parameters = [] ∨ ∃ path, found = .plain path)
    (h : (afterPath plus parameters sorts found).Reads tokens node rest)
    (hnode : node.isExplicit = true) :
    (∀ node ∈ parameters, node.isExplicit = true) ∧ found.node.isExplicit = true ∧ ∃ printed,
      node.leaves = parameters.flatMap Node.leaves ++ (found.node.leaves ++ printed) ∧
        Run level (fun sorts => afterPath plus parameters sorts found) (Same typeEnds rest)
          (Same typeEnds tokens) tokens node rest printed := by
  cases found with
  | qualified found =>
    obtain rfl : parameters = [] := hplain.resolve_right nofun
    obtain ⟨rfl, rfl⟩ := reads_pure.mp h
    exact ⟨nofun, Node.isExplicit_parts hnode rfl _ (List.mem_singleton_self _), [],
      by simp [AnyPath.node], .pure⟩
  | plain found =>
    simp only [afterPath, reads_ahead] at h
    split at h
    · obtain ⟨body, mid, -, hpure⟩ := reads_bind.mp h
      obtain ⟨rfl, rfl⟩ := reads_pure.mp hpure
      contradiction
    · rename_i hnotCall
      rw [reads_ahead, ite_bind] at h
      split at h
      · rename_i hobject
        obtain ⟨others, mid, hothers, hpure⟩ := reads_bind.mp h
        obtain ⟨rfl, rfl⟩ := reads_pure.mp hpure
        obtain ⟨hfirst, hmore⟩ := List.forall_mem_cons.mp (Node.isExplicit_parts hnode rfl)
        obtain ⟨hparameters, hfound⟩ :=
          List.forall_mem_append.mp (Node.isExplicit_parts hfirst rfl)
        refine ⟨hparameters, hfound _ (List.mem_singleton_self _), others.flatMap Node.leaves,
          by simp [AnyPath.node], ?_⟩
        unfold afterPath
        refine .ahead ?_ fun again sorts hagain => by rw [hagain.isCallMark (by decide)]
        simp only [if_neg hnotCall]
        refine .ahead ?_ fun again sorts hagain => by rw [hagain.isOp "+" (by decide)]
        simp only [if_pos hobject, ite_bind]
        exact (furtherBounds?_run hsorts hlevel hothers hmore).map _
      · rename_i hnotObject
        obtain ⟨rfl, rfl⟩ := reads_pure.mp h
        have hnone : parameters = [] := by
          have hempty := Bool.or_eq_false_iff.mp (Bool.eq_false_iff.mpr hnotObject)
          simpa using hempty.1
        subst hnone
        refine ⟨nofun, Node.isExplicit_parts hnode rfl _ (List.mem_singleton_self _), [],
          by simp [AnyPath.node], ?_⟩
        unfold afterPath
        refine .ahead ?_ fun again sorts hagain => by rw [hagain.isCallMark (by decide)]
        simp only [if_neg hnotCall]
        refine .ahead ?_ fun again sorts hagain => by rw [hagain.isOp "+" (by decide)]
        simp only [if_neg hnotObject]
        exact .pure

/-- A type that begins with a path is read again, behind the parameters that are bound in front. -/
theorem namedType_run {plus : Bool} {parameters : List Node} (hsorts : sorts.Replays)
    (hlevel : 1 ≤ level) (hangle : parameters = [] ∨ isOp "<" tokens = false)
    (h : (namedType sorts plus parameters).Reads tokens node rest)
    (hnode : node.isExplicit = true) :
    ParametersRun level parameters (fun sorts => namedType sorts plus parameters) tokens node
      rest := by
  rw [namedType_eq] at h
  obtain ⟨found, mid, hfound, h⟩ := reads_bind.mp h
  have hplain : parameters = [] ∨ ∃ path, found = .plain path := by
    refine hangle.imp_right fun hnot => ?_
    simp only [anyPath, reads_ahead, hnot, Bool.false_eq_true, if_false] at hfound
    obtain ⟨path, left, -, hpure⟩ := reads_bind.mp hfound
    exact ⟨path, (reads_pure.mp hpure).1.symm⟩
  obtain ⟨hparameters, hexplicit, printed, hleaves, hrun⟩ :=
    afterPath_run hsorts hlevel hplain h hnode
  have hpath : Run level (fun sorts => anyPath sorts false) (Same typeEnds mid)
      (SamePattern tokens) tokens found mid found.node.leaves :=
    anyPath_run hsorts (fun _ => id) (by decide) hfound hexplicit
  refine ⟨hparameters, found.node.leaves ++ printed, hleaves, ?_⟩
  simp only [namedType_eq]
  exact .bind _ (hpath.mono (fun _ => id) fun _ h => h.toSame) hrun

/-- What is read of a type of trait objects that says so, from a start on. -/
def objectBody (plus : Bool) (start : List Token) (sorts : Sorts) : Parser Node := do
  let word ← keyword "dyn"
  let star ← operator? "*"
  let found ← objectBounds sorts plus
  if star.isEmpty then return .branch .traitObject (word :: found) else keepFrom start

/-- A type of trait objects that says so is read again. -/
theorem objectType_run {plus : Bool} (hsorts : sorts.Replays) (hlevel : 1 ≤ level)
    (h : (objectType sorts plus).Reads tokens node rest) (hnode : node.isExplicit = true) :
    TypeRun level (fun sorts => objectType sorts plus) tokens node rest := by
  have hstart : ∀ {start start' again after : List Token} {sorts : Sorts},
      (objectBody plus start sorts).Reads again node after →
        (objectBody plus start' sorts).Reads again node after := by
    intro start start' again after sorts hreads
    obtain ⟨word, mid, hword, star, left, hstar, found, last, hfound, h⟩ := by
      simpa only [objectBody, reads_bind] using hreads
    refine reads_bind.mpr ⟨word, mid, hword, reads_bind.mpr ⟨star, left, hstar,
      reads_bind.mpr ⟨found, last, hfound, ?_⟩⟩⟩
    split at h
    · rename_i hnone
      rwa [if_pos hnone]
    · exact absurd hnode (Node.not_isExplicit_of_isVerbatim (isVerbatim_of_keepFrom h))
  have hbody : (objectBody plus tokens sorts).Reads tokens node rest := reads_ahead.mp h
  obtain ⟨word, mid, hword, star, left, hstar, found, last, hfound, h⟩ := by
    simpa only [objectBody, reads_bind] using hbody
  split at h
  · rename_i hnone
    obtain ⟨rfl, rfl⟩ := reads_pure.mp h
    obtain rfl := List.isEmpty_iff.mp hnone
    have hfoundExplicit := (List.forall_mem_cons.mp (Node.isExplicit_parts hnode rfl)).2
    have hskip : Run level (fun _ => operator? "*") (SameBound left) (SameBound mid) mid
        [] left [] := by
      refine .onlyIf .none hstar (fun _ hreads => ?_) (fun _ heq after => heq ▸ id)
        fun again hagain => hagain.alike.isOp_char "*" rfl (by decide)
      obtain ⟨star, -, hnil⟩ := reads_one.mp hreads
      contradiction
    refine .aheadFrom ?_ fun again sorts after _ => hstart
    refine .cast
      (.bind (SameBound mid) (keyword_run hword rfl fun _ _ hnot => absurd (by decide) hnot)
      (.bind _ hskip
        (.bind (Same typeEnds last) (objectBounds_run hsorts hlevel hfound hfoundExplicit)
        ?_))) (show _ ++ ([] ++ (found.flatMap Node.leaves ++ [])) = _ by simp)
    exact .pure
  · exact absurd hnode (Node.not_isExplicit_of_isVerbatim (isVerbatim_of_keepFrom h))

/-- A slice, or an array with its length, is read again. -/
theorem bracketedType_run (hsorts : sorts.Replays)
    (h : (bracketedType sorts).Reads tokens node rest)
    (hnode : node.isExplicit = true) : TypeRun level bracketedType tokens node rest := by
  obtain ⟨body, rfl, hbody⟩ := reads_inside.mp h
  obtain ⟨element, mid, helement, hmore⟩ := reads_bind.mp hbody
  have hrun : element.isExplicit = true → Run 8 (fun sorts => sorts.type true) (Same typeEnds mid)
      (Same openers body) body element mid element.leaves := fun hexplicit =>
    (hsorts.type helement hexplicit).raise (by decide)
  rw [reads_ahead] at hmore
  split at hmore
  · rename_i hthere
    obtain ⟨semicolon, left, hsemicolon, length, last, hlength, hpure⟩ := by
      simpa only [reads_bind] using hmore
    obtain ⟨rfl, rfl⟩ := reads_pure.mp hpure
    have hgroup := Node.isExplicit_parts hnode rfl _ (List.mem_singleton_self _)
    have hparts := Node.isExplicit_group.mp hgroup
    have hlast : Run 8 (fun sorts => sorts.expression) (· = []) (SameExpression left) left length []
        length.leaves :=
      ((hsorts.expressionWhere hlength (hparts length (by simp))).run.raise (by decide)).mono
        (fun _ heq => by rw [heq]; exact .nil _) fun _ => id
    unfold bracketedType
    refine .cast (.inside (.bind (Same typeEnds mid) (hrun (hparts element (by simp)))
      (.ahead ?_ fun again sorts hagain => by rw [hagain.isOp ";" (by decide)])) openers)
      (show [Token.group .bracket (element.leaves ++ (semicolon.leaves ++ length.leaves))] =
        _ by simp)
    simp only [if_pos hthere]
    exact .bind _ (clear_run hsemicolon (by decide)) (hlast.map _)
  · rename_i hnot
    obtain ⟨rfl, rfl⟩ := reads_pure.mp hmore
    have hgroup := Node.isExplicit_parts hnode rfl _ (List.mem_singleton_self _)
    have hparts := Node.isExplicit_group.mp hgroup
    unfold bracketedType
    refine .cast (.inside (.bind (Same typeEnds _) (hrun (hparts element (by simp)))
      (.ahead ?_ fun again sorts hagain => by rw [hagain.isOp ";" (by decide)])) openers)
      (show [Token.group .bracket (element.leaves ++ [])] = _ by simp)
    simp only [if_neg hnot]
    exact .mono .pure (fun _ => id) fun _ heq => by rw [heq]; exact .nil _

/-- The word that says whether what a pointer points to may change. -/
def pointerWord (tokens : List Token) : Parser Node :=
  if isWord "const" tokens then keyword "const"
  else if isWord "mut" tokens then keyword "mut"
  else expected ["`const`", "`mut`"]

theorem pointerWord_run (h : (pointerWord tokens).Reads tokens node rest) :
    Run level (fun _ => pointerWord tokens) (Same operators rest) (Same operators tokens)
      tokens node rest node.leaves := by
  unfold pointerWord at h ⊢
  split at h
  · rename_i hconst
    simp only [if_pos hconst]
    exact keyword_run h rfl fun _ h _ => h.alike
  · rename_i hnot
    simp only [if_neg hnot]
    split at h
    · rename_i hmut
      simp only [if_pos hmut]
      exact keyword_run h rfl fun _ h _ => h.alike
    · exact absurd h not_reads_expected

/-- A pointer is read again. -/
theorem pointerType_run (hsorts : sorts.Replays) (h : (pointerType sorts).Reads tokens node rest)
    (hnode : node.isExplicit = true) : TypeRun level pointerType tokens node rest := by
  have heq : pointerType = fun sorts => operator "*" >>= fun star => ahead >>= fun tokens =>
      pointerWord tokens >>= fun word => do
        return .branch .pointerType [star, word, ← sorts.type false] := by
    funext sorts
    unfold pointerType
    simp only [ite_bind]
    rfl
  rw [heq] at h
  obtain ⟨star, mid, hstar, hmore⟩ := reads_bind.mp h
  obtain ⟨word, left, hword, type, last, htype, hpure⟩ := by
    simpa only [reads_bind] using reads_ahead.mp hmore
  obtain ⟨rfl, rfl⟩ := reads_pure.mp hpure
  have hexplicit := Node.isExplicit_parts hnode rfl type (by simp)
  rw [heq]
  refine .cast (.next (Same openers mid) (clear_run hstar (by decide))
    (leaves_ne_nil_of_operator hstar) (.ahead (.bind (Same openers left) (pointerWord_run hword)
      (((hsorts.type htype hexplicit).raise (by omega)).map _)) fun again sorts hagain => ?_))
        (by simp)
  rw [pointerWord, pointerWord, hagain.alike.isWord, hagain.alike.isWord]

/-- A reference is read again. -/
theorem referenceType_run (hsorts : sorts.Replays)
    (h : (referenceType sorts).Reads tokens node rest)
    (hnode : node.isExplicit = true) : TypeRun level referenceType tokens node rest := by
  obtain ⟨mark, mid, hmark, lifetime, left, hlifetime, word, mid₂, hword, type, last,
    htype, hpure⟩ := by
    simpa only [referenceType, reads_bind] using h
  obtain ⟨rfl, rfl⟩ := reads_pure.mp hpure
  have hexplicit := Node.isExplicit_parts hnode rfl type (by simp)
  unfold referenceType
  exact .cast (.next (Same openers mid) (clear_run hmark (by decide))
    (leaves_ne_nil_of_operator hmark) (.bind (Same openers left) (lifetime?_run hlifetime)
      (.bind (Same openers mid₂) (keyword?_run hword rfl)
        (((hsorts.type htype hexplicit).raise (by omega)).map _)))) (by simp)

/-- A type known by its bounds only is read again. -/
theorem implType_run {plus : Bool} (hsorts : sorts.Replays) (hlevel : 1 ≤ level)
    (h : (implType sorts plus).Reads tokens node rest) (hnode : node.isExplicit = true) :
    TypeRun level (fun sorts => implType sorts plus) tokens node rest := by
  obtain ⟨word, mid, hword, found, last, hfound, h⟩ := by simpa only [implType, reads_bind] using h
  split at h
  · rename_i hthere
    obtain ⟨rfl, rfl⟩ := reads_pure.mp h
    have hfoundExplicit := (List.forall_mem_cons.mp (Node.isExplicit_parts hnode rfl)).2
    unfold implType
    refine .cast
      (.bind (SameBound mid) (keyword_run hword rfl fun _ _ hnot => absurd (by decide) hnot)
      (.bind (Same typeEnds last) (bounds_run hsorts hlevel hfound hfoundExplicit) ?_))
      (show _ ++ (found.flatMap Node.leaves ++ []) = _ by simp)
    simp only [if_pos hthere]
    exact .pure
  · exact absurd h not_reads_refuse

/-! ### Types -/

/-- Parameters bound in front of a type are read again. -/
theorem typeBinder?_run {nodes : List Node} (hsorts : sorts.Replays)
    (h : (typeBinder? sorts).Reads tokens nodes rest)
    (hnodes : ∀ node ∈ nodes, node.isExplicit = true) :
    Run level typeBinder? (Same openers rest) (Same openers tokens) tokens nodes rest
      (nodes.flatMap Node.leaves) := by
  obtain ⟨found, mid, hfound, h⟩ := reads_bind.mp h
  rw [reads_ahead] at h
  split at h
  · rename_i hthere
    obtain ⟨rfl, rfl⟩ := reads_pure.mp h
    unfold typeBinder?
    refine .cast (.bind (Same openers mid) (binder?_run hsorts hfound hnodes
      (fun _ h => h.alike.isWord "for") fun _ h => h.toSame)
      (.ahead ?_ fun again sorts hagain => ?_)) (List.append_nil _)
    · simp only [if_pos hthere]
      exact .pure
    · rw [hagain.alike.isAnyOf, hagain.alike.isIdentifier]
  · exact absurd h not_reads_expected

/-- What stands behind bound parameters: a function, or a path without angles. -/
theorem followsBinder {nodes : List Node} (h : (typeBinder? sorts).Reads tokens nodes rest) :
    nodes = [] ∨ (isGroup .parenthesis rest = false ∧ isOp "<" rest = false ∧
      (isAnyOf ["fn", "unsafe", "extern"] rest = true ∨ beginsPath rest = true)) := by
  obtain ⟨found, mid, hfound, h⟩ := reads_bind.mp h
  rw [reads_ahead] at h
  split at h
  · rename_i hthere
    obtain ⟨rfl, rfl⟩ := reads_pure.mp h
    rw [Bool.or_eq_true, Bool.or_eq_true, List.isEmpty_iff, or_assoc] at hthere
    refine hthere.imp_right fun hword => ?_
    have hfirst : ∃ text others, mid = .word text :: others := by
      cases mid with
      | nil => simp [isIdentifier, isAnyOf, isWord] at hword
      | cons token others =>
        cases token with
        | word text => exact ⟨text, others, rfl⟩
        | _ => simp [isIdentifier, isAnyOf, isWord] at hword
    obtain ⟨text, others, rfl⟩ := hfirst
    refine ⟨rfl, isOp_word .., ?_⟩
    rcases hword with hword | hword
    · have hidentifier : Word.isIdentifier text = true := hword
      exact .inr (by simp [beginsPath, isPathWord, hidentifier])
    · have hmem : text ∈ boundTypeWords := by
        obtain ⟨word, hmem, heq⟩ := List.any_eq_true.mp hword
        rwa [beq_iff_eq.mp (show (text == word) = true from heq)]
      have hall : ∀ text ∈ boundTypeWords,
          text ∈ ["fn", "unsafe", "extern"] ∨ text ∈ pathWords := by
        decide
      rcases hall text hmem with hfn | hpath
      · exact .inl (List.any_eq_true.mpr ⟨text, hfn, beq_self_eq_true text⟩)
      · refine .inr ?_
        rw [beginsPath, isPathWord, List.contains_eq_mem, decide_eq_true hpath, Bool.or_true,
          Bool.true_or, Bool.true_or]
  · exact absurd h not_reads_expected

theorem Alike.isBuiltin {again : List Token} (h : Alike true tokens again) :
    Grammar.isBuiltin again = Grammar.isBuiltin tokens :=
  h.isWord_and (by decide) fun h => h.isOp_char "#" rfl (by decide)

theorem Same.beginsPath {again : List Token} (h : Same openers tokens again) :
    Grammar.beginsPath again = Grammar.beginsPath tokens := by
  rw [Grammar.beginsPath, Grammar.beginsPath, h.alike.isPathWord, h.isOp "::" (by decide),
    h.isOp "<" (by decide)]

/-- A type behind parameters that are bound in front, from a start on. -/
def typeFrom (plus : Bool) (start : List Token) (parameters : List Node) (sorts : Sorts)
    (tokens : List Token) : Parser Node :=
  if isGroup .parenthesis tokens then parenthesizedType sorts plus
  else if isAnyOf ["fn", "unsafe", "extern"] tokens then functionType sorts parameters
  else if isBuiltin tokens then builtin start
  else if beginsPath tokens then namedType sorts plus parameters
  else if isWord "dyn" tokens then objectType sorts plus
  else if isGroup .bracket tokens then bracketedType sorts
  else if isOp "*" tokens then pointerType sorts
  else if isOp "&" tokens then referenceType sorts
  else if isOp "!" tokens then return .branch .neverType [← operator "!"]
  else if isWord "impl" tokens then implType sorts plus
  else if isWord "_" tokens then return .branch .inferredType [← keyword "_"]
  else if isLifetime tokens then return .branch .traitObject (← objectBounds sorts true)
  else expected typeBeginnings

theorem typeWhere_eq (sorts : Sorts) (plus : Bool) :
    typeWhere sorts plus = ahead >>= fun start => typeBinder? sorts >>= fun parameters =>
      ahead >>= typeFrom plus start parameters sorts := rfl

theorem Same.typeFrom {plus : Bool} {start again : List Token} {parameters : List Node}
    (h : Same openers tokens again) :
    Grammar.typeFrom plus start parameters sorts again =
      Grammar.typeFrom plus start parameters sorts tokens := by
  simp only [Grammar.typeFrom, h.alike.isAnyOf, h.alike.isGroup, h.alike.isWord, h.alike.isBuiltin,
    h.beginsPath, h.isOp "*" (by decide), h.isOp "&" (by decide), h.isOp "!" (by decide),
    h.alike.isLifetime]

theorem isVerbatim_of_builtin {start : List Token} (h : (builtin start).Reads tokens node rest) :
    node.isVerbatim = true := by
  obtain ⟨_, _, -, _, _, -, _, _, -, _, _, -, hkeep⟩ := by
    simpa only [builtin, reads_bind] using h
  exact isVerbatim_of_keepFrom hkeep

/-- An explicit type does not depend on the start that it is kept from. -/
theorem typeFrom_of_start {plus : Bool} {start start' again after : List Token}
    {parameters : List Node} (hnode : node.isExplicit = true)
    (h : (typeFrom plus start parameters sorts tokens).Reads again node after) :
    (typeFrom plus start' parameters sorts tokens).Reads again node after := by
  refine reads_ite.mpr ((reads_ite.mp h).imp_right fun ⟨hnot, h⟩ => ⟨hnot, ?_⟩)
  refine reads_ite.mpr ((reads_ite.mp h).imp_right fun ⟨hnot, h⟩ => ⟨hnot, ?_⟩)
  rcases reads_ite.mp h with ⟨-, h⟩ | ⟨hnot, h⟩
  · exact absurd hnode (Node.not_isExplicit_of_isVerbatim (isVerbatim_of_builtin h))
  · exact reads_ite.mpr (.inr ⟨hnot, h⟩)

/-- A type that begins with a lifetime has a plus behind it, as one bound of it is a trait. -/
theorem plus_of_lifetime {nodes : List Node} (hsorts : sorts.Replays)
    (h : (objectBounds sorts true).Reads tokens nodes rest) (hlifetime : isLifetime tokens = true) :
    isOp "+" (afterOne tokens) = true ∧
      ∃ first others, nodes = first :: others ∧ first.isKind .traitBound = false := by
  obtain ⟨found, mid, hfound, h⟩ := reads_bind.mp h
  rcases reads_ite.mp h with ⟨htrait, hpure⟩ | ⟨-, hrefuse⟩
  · obtain ⟨rfl, rfl⟩ := reads_pure.mp hpure
    obtain ⟨first, left, hfirst, hmore⟩ := reads_bind.mp (reads_ahead.mp hfound)
    obtain ⟨bound, hbound, rfl⟩ := reads_one.mp hfirst
    obtain ⟨rfl, hkind⟩ := hsorts.bound_lifetime hbound hlifetime
    rcases reads_ite.mp (reads_ahead.mp hmore) with ⟨hplus, hmore⟩ | ⟨-, hpure⟩
    · obtain ⟨between, left, -, hmore⟩ := reads_bind.mp hmore
      refine ⟨hplus, bound, ?_⟩
      rcases reads_ite.mp (reads_ahead.mp hmore) with ⟨-, hmore⟩ | ⟨-, hpure⟩
      · obtain ⟨others, last, -, hpure⟩ := reads_bind.mp hmore
        exact ⟨_, (reads_pure.mp hpure).1.symm, hkind⟩
      · exact ⟨_, (reads_pure.mp hpure).1.symm, hkind⟩
    · obtain ⟨rfl, -⟩ := reads_pure.mp hpure
      rw [holdsTrait, List.any_cons, hkind] at htrait
      contradiction
  · exact absurd hrefuse not_reads_refuse

/-- A lifetime in front of a plus looks as it did, and what is behind it. -/
theorem SameBound.lifetime {again : List Token} (h : SameBound tokens again)
    (hlifetime : isLifetime tokens = true) (hplus : isOp "+" (afterOne tokens) = true) :
    Same openers tokens again := by
  have halike := h.alike
  cases halike with
  | lifetime hrest =>
    rename_i name others after
    refine .lifetime ?_
    obtain ⟨next, hnext⟩ := Option.isSome_iff_exists.mp hplus
    obtain ⟨-, spacing, mid, htokens, -⟩ :=
      afterOperator?_cons_eq_some.mp (show afterOperator? ['+'] others = some next from hnext)
    subst htokens
    cases hrest with
    | mark hquote hmarks => exact .mark hquote hmarks
    | stop hstop _ => exact absurd hstop (by decide)
  | mark hquote _ => rw [isLifetime_mark _ hquote] at hlifetime; contradiction
  | stop hstop _ =>
    rw [isLifetime_mark _ (ne_of_mem_of_not_mem hstop quote_not_mem_stops)] at hlifetime
    contradiction
  | _ => contradiction

/-- A type behind bound parameters is read again. -/
theorem typeFrom_run {plus : Bool} {start : List Token} {parameters : List Node}
    (hsorts : sorts.Replays)
    (hfollows : parameters = [] ∨ (isGroup .parenthesis tokens = false ∧ isOp "<" tokens = false ∧
      (isAnyOf ["fn", "unsafe", "extern"] tokens = true ∨ beginsPath tokens = true)))
    (h : (typeFrom plus start parameters sorts tokens).Reads tokens node rest)
    (hnode : node.isExplicit = true) :
    ParametersRun 1 parameters (fun sorts => typeFrom plus start parameters sorts tokens)
      tokens node rest := by
  unfold typeFrom at h ⊢
  refine .ite h (fun hlook h => ?_) fun _ h => .ite h
    (fun _ h => functionType_run hsorts h hnode) fun hnotFunction h => .ite h (fun _ h => ?_)
    fun _ h => .ite h (fun _ h => ?_) fun hnotPath h => ?_
  · refine .of_type (hfollows.resolve_right fun hnot => ?_)
      (parenthesizedType_run hsorts le_rfl h hnode)
    rw [hlook] at hnot
    exact absurd hnot.1 (by decide)
  · exact absurd hnode (Node.not_isExplicit_of_isVerbatim (isVerbatim_of_builtin h))
  · exact namedType_run hsorts le_rfl (hfollows.imp_right fun h => h.2.1) h hnode
  -- Of the types that begin otherwise, none has parameters in front.
  refine .of_type (hfollows.resolve_right fun hnot => hnot.2.2.elim hnotFunction hnotPath) ?_
  refine .ite h (fun _ h => objectType_run hsorts le_rfl h hnode) fun _ h => ?_
  refine .ite h (fun _ h => bracketedType_run hsorts h hnode) fun _ h => ?_
  refine .ite h (fun _ h => pointerType_run hsorts h hnode) fun _ h => ?_
  refine .ite h (fun _ h => referenceType_run hsorts h hnode) fun _ h => ?_
  refine .ite h (fun _ h => ?_) fun _ h => ?_
  · obtain ⟨mark, mid, hmark, hpure⟩ := reads_bind.mp h
    obtain ⟨rfl, rfl⟩ := reads_pure.mp hpure
    exact ((clear_run hmark (by decide)).map _).cast (by simp)
  refine .ite h (fun _ h => implType_run hsorts le_rfl h hnode) fun _ h => ?_
  refine .ite h (fun _ h => ?_) fun _ h => ?_
  · obtain ⟨word, mid, hword, hpure⟩ := reads_bind.mp h
    obtain ⟨rfl, rfl⟩ := reads_pure.mp hpure
    exact ((keyword_run hword rfl fun _ h _ => h.alike).map _).cast (by simp)
  refine .ite h (fun hlifetime h => ?_) fun _ h => absurd h not_reads_expected
  obtain ⟨found, mid, hfound, hpure⟩ := reads_bind.mp h
  obtain ⟨rfl, rfl⟩ := reads_pure.mp hpure
  have hrun := objectBounds_run hsorts le_rfl hfound (Node.isExplicit_parts hnode rfl)
  refine ((hrun.map _).cast (by simp)).mono (fun _ => id) fun _ hagain => ?_
  exact hagain.lifetime hlifetime (plus_of_lifetime hsorts hfound hlifetime).1

/-- A type is read again. -/
theorem typeWhere_run {plus : Bool} (hsorts : sorts.Replays)
    (h : (typeWhere sorts plus).Reads tokens node rest) (hnode : node.isExplicit = true) :
    TypeRun 1 (fun sorts => typeWhere sorts plus) tokens node rest := by
  simp only [typeWhere_eq, ↓reads_ahead] at h ⊢
  obtain ⟨parameters, mid, hparameters, h⟩ := reads_bind.mp h
  obtain ⟨hexplicit, printed, hleaves, hrun⟩ :=
    typeFrom_run hsorts (followsBinder hparameters) (reads_ahead.mp h) hnode
  refine .cast (.aheadFrom (.bind _ (typeBinder?_run hsorts hparameters hexplicit)
    (.ahead hrun fun again sorts hagain => hagain.typeFrom)) fun again sorts after _ hreads => ?_)
    hleaves.symm
  obtain ⟨others, left, hothers, hreads⟩ := reads_bind.mp hreads
  exact reads_bind.mpr ⟨others, left, hothers,
    reads_ahead.mpr (typeFrom_of_start hnode (reads_ahead.mp hreads))⟩

/-! ### What a type begins with -/

/-- Where a binder does not stand, nothing is read of it. -/
theorem eq_of_typeBinder? {nodes : List Node} (h : (typeBinder? sorts).Reads tokens nodes rest)
    (hfor : isWord "for" tokens = false) : nodes = [] ∧ tokens = rest := by
  obtain ⟨found, mid, hfound, h⟩ := reads_bind.mp h
  rcases reads_onlyIf.mp hfound with ⟨hthere, -⟩ | ⟨-, rfl, rfl⟩
  · rw [hfor] at hthere
    contradiction
  · rcases reads_ite.mp (reads_ahead.mp h) with ⟨-, hpure⟩ | ⟨-, hexpected⟩
    · obtain ⟨rfl, rfl⟩ := reads_pure.mp hpure
      exact ⟨rfl, rfl⟩
    · exact absurd hexpected not_reads_expected

theorem followsColon_typeFrom {plus : Bool} {start : List Token} {parameters : List Node}
    (h : (typeFrom plus start parameters sorts tokens).Reads tokens node rest) :
    FollowsColon tokens := by
  rcases reads_ite.mp h with ⟨hlook, -⟩ | ⟨-, h⟩
  · exact .of_glance hlook fun _ _ => rfl
  rcases reads_ite.mp h with ⟨hlook, -⟩ | ⟨-, h⟩
  · exact .of_glance hlook fun _ _ => rfl
  rcases reads_ite.mp h with ⟨hlook, -⟩ | ⟨-, h⟩
  · exact .of_glance hlook fun _ _ => rfl
  rcases reads_ite.mp h with ⟨hlook, -⟩ | ⟨-, h⟩
  · rcases Bool.or_eq_true_iff.mp hlook with hlook | hangle
    · rcases Bool.or_eq_true_iff.mp hlook with hword | hcolons
      · exact .of_glance hword fun _ _ => rfl
      · exact fun _ => hcolons
    · exact .of_glance hangle fun _ _ => rfl
  rcases reads_ite.mp h with ⟨hlook, -⟩ | ⟨-, h⟩
  · exact .of_glance hlook fun _ _ => rfl
  rcases reads_ite.mp h with ⟨hlook, -⟩ | ⟨-, h⟩
  · exact .of_glance hlook fun _ _ => rfl
  rcases reads_ite.mp h with ⟨hlook, -⟩ | ⟨-, h⟩
  · exact .of_glance hlook fun _ _ => rfl
  rcases reads_ite.mp h with ⟨hlook, -⟩ | ⟨-, h⟩
  · exact .of_glance hlook fun _ _ => rfl
  rcases reads_ite.mp h with ⟨hlook, -⟩ | ⟨-, h⟩
  · exact .of_glance hlook fun _ _ => rfl
  rcases reads_ite.mp h with ⟨hlook, -⟩ | ⟨-, h⟩
  · exact .of_glance hlook fun _ _ => rfl
  rcases reads_ite.mp h with ⟨hlook, -⟩ | ⟨-, h⟩
  · exact .of_glance hlook fun _ _ => rfl
  rcases reads_ite.mp h with ⟨hlook, -⟩ | ⟨-, h⟩
  · exact .of_glance hlook fun _ _ => rfl
  · exact absurd h not_reads_expected

theorem followsColon_type {plus : Bool} (h : (typeWhere sorts plus).Reads tokens node rest) :
    FollowsColon tokens := by
  rw [typeWhere_eq, reads_ahead] at h
  obtain ⟨parameters, mid, hparameters, h⟩ := reads_bind.mp h
  cases hfor : isWord "for" tokens with
  | true => exact .of_glance hfor fun _ _ => rfl
  | false =>
    obtain ⟨-, rfl⟩ := eq_of_typeBinder? hparameters hfor
    exact followsColon_typeFrom (reads_ahead.mp h)

theorem typeWhere_lifetime {plus : Bool} (hsorts : sorts.Replays)
    (h : (typeWhere sorts plus).Reads tokens node rest) (hlifetime : isLifetime tokens = true) :
    isOp ":" (afterOne tokens) = false := by
  unfold isLifetime at hlifetime
  split at hlifetime
  · rename_i name others
    rw [typeWhere_eq, reads_ahead] at h
    obtain ⟨parameters, mid, hparameters, h⟩ := reads_bind.mp h
    obtain ⟨-, rfl⟩ := eq_of_typeBinder? hparameters rfl
    obtain ⟨found, left, hfound, -⟩ := reads_bind.mp (show (objectBounds sorts true >>= fun found =>
      pure (Node.branch .traitObject found)).Reads _ _ _ from reads_ahead.mp h)
    obtain ⟨next, hnext⟩ :=
      Option.isSome_iff_exists.mp (plus_of_lifetime hsorts hfound rfl).1
    obtain ⟨-, spacing, mid, htokens, -⟩ :=
      afterOperator?_cons_eq_some.mp (show afterOperator? ['+'] _ = some next from hnext)
    rw [htokens]
    rfl
  · contradiction

theorem typeWhere_wild {plus : Bool} (h : (typeWhere sorts plus).Reads tokens node rest)
    (hwild : isWord "_" tokens = true) : rest = afterOne tokens := by
  obtain ⟨others, rfl⟩ := eq_of_isWord hwild
  rw [typeWhere_eq, reads_ahead] at h
  obtain ⟨parameters, mid, hparameters, h⟩ := reads_bind.mp h
  obtain ⟨-, rfl⟩ := eq_of_typeBinder? hparameters rfl
  obtain ⟨word, left, hword, hpure⟩ := reads_bind.mp (show (keyword "_" >>= fun word =>
    pure (Node.branch .inferredType [word])).Reads _ _ _ from reads_ahead.mp h)
  obtain ⟨htokens, -⟩ := reads_keyword.mp hword
  obtain ⟨-, rfl⟩ := reads_pure.mp hpure
  exact (List.cons.inj htokens).2.symm

end Types

end Typestate.Grammar
