import Typestate.Proofs.Rereading.Parameter

/-!
# Bounds, read again

A trait as a bound takes generic arguments, or inputs and an output. Two colons and empty arguments
in front of the inputs are not written, so what follows the name of the trait may change.
-/

namespace Typestate.Grammar

open Grammar.Parser Lexer Token

section Bound

variable {level : ℕ} {sorts : Sorts} {operators : List String} {tokens rest : List Token}
  {ends : List Token → Prop} {node : Node}

/-! ### Outputs and inputs -/

/-- A glance for one more operator sees none where none stood. -/
theorem Same.cons {text : String} {again : List Token} (h : Same operators tokens again)
    (hseen : IsSeen text) (hname : text ∉ nameEnds) (hnot : Grammar.isOp text tokens = false) :
    Same (text :: operators) tokens again :=
  { h with
    isOp_of_mem := by
      refine List.forall_mem_cons.mpr ⟨?_, h.isOp_of_mem⟩
      rw [hnot, Bool.eq_false_iff]
      intro hagain
      rw [h.alike.isOp_of_again hseen hagain] at hnot
      contradiction
    afterName := fun hpath longer hlonger hmem => h.afterName hpath longer hlonger
      ((List.mem_cons.mp hmem).resolve_left fun heq => hname (heq ▸ hlonger)) }

/-- The output of a function is read again, if it is said. -/
theorem output?_run {plus : Bool} {nodes : List Node} (hsorts : sorts.Replays)
    (h : (output? sorts plus).Reads tokens nodes rest)
    (hnodes : ∀ node ∈ nodes, node.isExplicit = true) :
    Run (level + 8) (fun sorts => output? sorts plus) (Same typeEnds rest)
      (Same ("->" :: typeEnds) tokens) tokens nodes rest (nodes.flatMap Node.leaves) := by
  refine .onlyIf sorts h (fun _ hreads => ?_) (fun hnot heq after hafter => ?_)
    fun again hagain => hagain.isOp "->" (by decide)
  · obtain ⟨arrow, mid, harrow, type, last, htype, hpure⟩ := by simpa only [reads_bind] using hreads
    obtain ⟨rfl, rfl⟩ := reads_pure.mp hpure
    exact .cast (.bind (Same openers mid) (clear_run harrow (by decide))
      (((hsorts.type htype (hnodes type (by simp))).raise (by omega)).map _)) (by simp)
  · subst heq
    exact hafter.cons (by decide) (by decide) hnot

/-- The inputs and the output of a trait of functions are read again. -/
theorem inputArguments_run (hsorts : sorts.Replays)
    (h : (inputArguments sorts).Reads tokens node rest) (hnode : node.isExplicit = true) :
    Run level inputArguments (Same typeEnds rest) (Same operators tokens) tokens node rest
      node.leaves := by
  obtain ⟨inputs, mid, hinputs, output, last, houtput, hpure⟩ := by
    simpa only [inputArguments, reads_bind] using h
  obtain ⟨rfl, rfl⟩ := reads_pure.mp hpure
  obtain ⟨hinputsExplicit, houtputExplicit⟩ :=
    List.forall_mem_cons.mp (Node.isExplicit_parts hnode rfl)
  obtain ⟨body, nodes, rfl, hnodes, rfl⟩ := reads_group.mp hinputs
  have hinner : Run 8 (fun sorts => commaSeparated (one (sorts.type true))) (· = [])
      (fun again => isAtEnd again = isAtEnd body) body nodes [] (nodes.flatMap Node.leaves) := by
    refine commaSeparated_run typeEnds (fun (h : Same openers _ _) => h.alike.isAtEnd) (by decide)
      (fun hitem hfit => ?_) hnodes (Node.isExplicit_group.mp hinputsExplicit)
    obtain ⟨type, htype, rfl⟩ := reads_one.mp hitem
    have hrun :=
      (hsorts.type htype (hfit _ (List.mem_singleton_self _))).raise (show 2 ≤ 8 by decide)
    exact hrun.one.cast (List.append_nil _).symm
  unfold inputArguments
  exact .cast (.next (Same ("->" :: typeEnds) mid) (hinner.group operators) (by simp)
    ((output?_run hsorts houtput houtputExplicit).map _)) (by simp)

/-! ### Paths of traits -/

/-- Inputs of a function stand in front. -/
def BeginsInputs (tokens : List Token) : Prop := isGroup .parenthesis tokens = true

theorem BeginsInputs.exists_group (h : BeginsInputs tokens) :
    ∃ body others, tokens = .group .parenthesis body :: others := by
  cases tokens with
  | nil => contradiction
  | cons token others =>
    cases token with
    | group delimiter body =>
      obtain rfl : delimiter = .parenthesis := by
        unfold BeginsInputs isGroup Token.isGroup at h
        simpa using h
      exact ⟨body, others, rfl⟩
    | _ => contradiction

/-- The segment without its arguments. -/
def Segment.bare (segment : Segment) : Segment := ⟨segment.name, none⟩

/-- The segments, the last of which is without its arguments. -/
def bareLast : List Segment → List Segment
  | [] => []
  | [last] => [last.bare]
  | first :: next :: others => first :: bareLast (next :: others)

theorem bareLast_cons (first : Segment) {others : List Segment} (h : others ≠ []) :
    bareLast (first :: others) = first :: bareLast others := by
  cases others with
  | nil => contradiction
  | cons next more => rfl

theorem bareLast_append (init : List Segment) (last : Segment) :
    bareLast (init ++ [last]) = init ++ [last.bare] := by
  induction init with
  | nil => rfl
  | cons first others ih => rw [List.cons_append, bareLast_cons _ (by simp), ih, List.cons_append]

/-- A last segment is read again without its arguments, in front of inputs. -/
theorem bareSegment_run {found : Segment} (hsorts : sorts.Replays)
    (h : (segment sorts false).Reads tokens found rest) (hfound : found.node.isExplicit = true) :
    Run level (fun sorts => segment sorts false) BeginsInputs (SameBound tokens) tokens found.bare
      rest found.bare.node.leaves := by
  have hrun : Run level (fun sorts => segment sorts false) (SameColons typeEnds rest)
      (Same openers tokens) tokens found rest found.node.leaves :=
    segment_run hsorts (fun _ => id) h hfound
  have hbare : found.bare.node.leaves = [.word found.name] := by simp [Segment.bare, Segment.node]
  have htokens : ∃ others, tokens = .word found.name :: others ∧
      (isAnyOf ["super", "self", "crate", "try"] tokens = true ∨
        isWord "Self" tokens = true ∨ Word.isIdentifier found.name = true) := by
    simp only [segment, ↓reads_ahead] at h
    split at h
    · rename_i hword
      obtain ⟨name, mid, hname, hpure⟩ := reads_bind.mp h
      obtain ⟨rfl, rfl⟩ := reads_pure.mp hpure
      exact ⟨_, reads_anyWord.mp hname, .inl hword⟩
    · rw [ite_bind] at h
      obtain ⟨name, mid, hname, h⟩ := reads_bind.mp h
      have hsame : name = found.name := by
        rw [reads_ahead] at h
        split at h
        · obtain ⟨arguments, last, -, hpure⟩ := reads_bind.mp h
          rw [← (reads_pure.mp hpure).1]
        · rw [← (reads_pure.mp h).1]
      subst hsame
      split at hname
      · rename_i hself
        exact ⟨_, reads_anyWord.mp hname, .inr (.inl hself)⟩
      · obtain ⟨rfl, hidentifier⟩ := reads_identifier.mp hname
        exact ⟨_, rfl, .inr (.inr hidentifier)⟩
  obtain ⟨others, rfl, hname⟩ := htokens
  rw [hbare]
  refine ⟨fun {after depth} hafter _ => ?_, fun {after} _ =>
    ⟨.word fun h => absurd h Bool.false_ne_true, by simp⟩,
    fun hwritten => ⟨hwritten.word, (hrun.written hwritten).2⟩, hrun.shorter⟩
  obtain ⟨body, more, rfl⟩ := hafter.exists_group
  have hanyOf : ∀ words more, isAnyOf words (.word found.name :: more) =
      isAnyOf words (.word found.name :: others) := fun _ _ => rfl
  simp only [segment, ↓reads_ahead, List.cons_append, List.nil_append]
  rw [hanyOf]
  split
  · exact reads_bind.mpr ⟨_, _, rfl, reads_pure.mpr ⟨rfl, rfl⟩⟩
  · rename_i hnot
    rw [ite_bind]
    refine reads_bind.mpr ⟨found.name, .group .parenthesis body :: more, ?_, reads_ahead.mpr ?_⟩
    · split
      · rfl
      · rename_i hnotSelf
        refine reads_identifier.mpr ⟨rfl, ?_⟩
        rcases hname with h | h | h
        · exact absurd h hnot
        · exact absurd h hnotSelf
        · exact h
    · rw [if_neg (by simp [isTurbofish])]
      exact reads_pure.mpr ⟨rfl, rfl⟩

theorem BeginsInputs.goesOn (h : BeginsInputs tokens) : goesOn tokens = false := by
  obtain ⟨body, others, rfl⟩ := h.exists_group
  rfl

/-- No further segment is read in front of inputs. -/
theorem noSegments_run {rounds : ℕ} (hrounds : 0 < rounds) :
    Run level (fun sorts => repeatAtMost goesOn (nextSegment false sorts) rounds) BeginsInputs
      BeginsInputs tokens [] tokens [] := by
  obtain ⟨rounds, rfl⟩ := Nat.exists_eq_add_one.mpr hrounds
  refine ⟨fun {after depth} hafter _ => ?_, id, fun h => ⟨.nil, h⟩, le_rfl⟩
  simp only [repeatAtMost, reads_ahead, List.nil_append]
  rw [if_neg (by rw [hafter.goesOn]; decide)]
  exact reads_pure.mpr ⟨rfl, rfl⟩

theorem eq_of_noSegments {rounds : ℕ}
    (h : (repeatAtMost goesOn (nextSegment false sorts) rounds).Reads tokens [] rest) :
    tokens = rest := by
  cases rounds with
  | zero => exact absurd h not_reads_fail
  | succ rounds =>
    simp only [repeatAtMost, reads_ahead] at h
    split at h
    · obtain ⟨found, mid, hfound, more, last, -, hpure⟩ := by simpa only [reads_bind] using h
      obtain ⟨colons, left, segment, -, -, rfl⟩ := reads_nextSegment.mp hfound
      exact absurd (reads_pure.mp hpure).1 (by simp)
    · exact (reads_pure.mp h).2

/-- Further segments are read again without the arguments of the last one, in front of inputs. -/
theorem bareSegments_run {rounds : ℕ} {others : List Segment} (hsorts : sorts.Replays)
    (h : (repeatAtMost goesOn (nextSegment false sorts) rounds).Reads tokens others rest)
    (hne : others ≠ []) (hothers : ∀ segment ∈ others, segment.node.isExplicit = true) :
    ∀ rounds', ((bareLast others).flatMap Segment.printed).length < rounds' →
      Run level (fun sorts => repeatAtMost goesOn (nextSegment false sorts) rounds') BeginsInputs
        (SameColons typeEnds tokens) tokens (bareLast others) rest
        ((bareLast others).flatMap Segment.printed) := by
  induction rounds generalizing tokens others with
  | zero => exact absurd h not_reads_fail
  | succ rounds ih =>
    intro rounds' hrounds
    obtain ⟨rounds', rfl⟩ : ∃ fewer, rounds' = fewer + 1 :=
      Nat.exists_eq_add_one.mpr (Nat.lt_of_le_of_lt (Nat.zero_le _) hrounds)
    simp only [repeatAtMost, reads_ahead] at h ⊢
    refine .ahead ?_ fun again sorts hagain => by rw [hagain.goesOn]
    split at h
    · rename_i hthere
      obtain ⟨found, mid, hfound, more, last, hmore, hpure⟩ := by simpa only [reads_bind] using h
      obtain ⟨rfl, rfl⟩ := reads_pure.mp hpure
      obtain ⟨hfoundExplicit, hmoreExplicit⟩ := List.forall_mem_append.mp hothers
      simp only [hthere, if_true]
      by_cases hlast : more = []
      · subst hlast
        obtain rfl := eq_of_noSegments hmore
        obtain ⟨colons, left, segment, hcolons, hsegment, rfl⟩ := reads_nextSegment.mp hfound
        have hexplicit := hfoundExplicit _ (List.mem_singleton_self segment)
        have hsign : colons.leaves = ofOperator [':', ':'] := by
          rw [← (reads_operator.mp hcolons).2]
          simp
        have hpos : 0 < rounds' := by
          have hprinted : 0 < segment.bare.printed.length := by simp [Segment.printed, ofOperator]
          simp only [List.append_nil, bareLast, List.flatMap_singleton] at hrounds
          omega
        refine .cast (.bind BeginsInputs (.bind (SameBound left)
          (pathColons_run hcolons (by decide) fun _ h => h.alike)
          ((bareSegment_run hsorts hsegment hexplicit).map _))
          ((noSegments_run hpos).map _)) ?_
        simp [bareLast, Segment.printed, hsign]
      · have hne' : found ≠ [] := by
          obtain ⟨_, _, _, _, _, rfl⟩ := reads_nextSegment.mp hfound
          simp
        have hbareLast : bareLast (found ++ more) = found ++ bareLast more := by
          obtain ⟨_, _, segment, _, _, rfl⟩ := reads_nextSegment.mp hfound
          exact bareLast_cons segment hlast
        obtain ⟨hprinted, hfirst⟩ : found.flatMap Segment.printed ≠ [] ∧
            Run level (nextSegment false) (SameColons typeEnds mid)
              (SameColons typeEnds tokens) tokens found mid (found.flatMap Segment.printed) :=
          nextSegment_run hsorts (fun _ => id) (by decide) hfound hfoundExplicit
        have hlength := List.length_pos_of_ne_nil hprinted
        rw [hbareLast, List.flatMap_append, List.length_append] at hrounds
        rw [hbareLast, List.flatMap_append]
        exact hfirst.bind _ ((ih hmore hlast hmoreExplicit rounds' (by omega)).map _)
    · obtain ⟨rfl, -⟩ := reads_pure.mp h
      contradiction

/-- Two colons that a bound may begin with are read again. -/
theorem boundColons?_run {nodes : List Node} (h : (operator? "::").Reads tokens nodes rest) :
    Run level (fun _ => operator? "::") (SameBound rest) (SameBound tokens) tokens nodes rest
      (nodes.flatMap Node.leaves) := by
  refine .onlyIf .none h (fun _ hreads => ?_) (fun _ heq after => heq ▸ id)
    fun again hagain => hagain.isOp_colons
  obtain ⟨node, hnode, rfl⟩ := reads_one.mp hreads
  obtain ⟨hop, -⟩ := reads_operator.mp hnode
  refine (operator_run hnode fun after hafter => ⟨?_, ?_⟩).one.cast (List.append_nil _).symm
  · exact alike_operator hop (fun _ => rfl) (by decide) fun _ => hafter.alike
  · have hagain := afterOperator?_ofOperator hop after
    rw [isOp, isOp, hop, hagain]
    rfl

/-- The path without the arguments of its last segment. -/
def Path.bare (path : Path) : Path := { path with segments := bareLast path.segments }

theorem Same.bound {again : List Token} (h : Same openers tokens again) : SameBound tokens again :=
  ⟨h.alike.weaken, h.isOp_of_mem "::" (by decide)⟩

/-- A path is read again without the arguments of its last segment, in front of inputs. -/
theorem barePath_run {found : Path} (hsorts : sorts.Replays)
    (h : (path sorts).Reads tokens found rest)
    (hfound : ∀ segment ∈ found.segments, segment.node.isExplicit = true) :
    Run level path BeginsInputs (SameBound tokens) tokens found.bare rest
      found.bare.node.leaves := by
  obtain ⟨leading, mid, hleading, first, left, hfirst, others, last, hothers, hpure⟩ := by
    simpa only [path, pathWhere, reads_bind] using h
  obtain ⟨rfl, rfl⟩ := reads_pure.mp hpure
  obtain ⟨hfirstExplicit, hothersExplicit⟩ := List.forall_mem_cons.mp hfound
  have hmore := reads_ahead.mp hothers
  have hbound :
    Run level (fun _ => operator? "::") (SameBound mid) (SameBound tokens) tokens leading
      mid (leading.flatMap Node.leaves) := boundColons?_run hleading
  unfold path pathWhere
  simp only [moreSegments_eq]
  by_cases hlast : others = []
  · subst hlast
    obtain rfl := eq_of_noSegments hmore
    have hend : Run level (fun sorts => repeatWhile goesOn (nextSegment false sorts)) BeginsInputs
        BeginsInputs left [] left [] := .rounds fun rounds hrounds =>
      noSegments_run (Nat.lt_of_le_of_lt (Nat.zero_le _) hrounds)
    have hbare : Path.bare ⟨!leading.isEmpty, [first]⟩ = ⟨!leading.isEmpty, [first.bare]⟩ := rfl
    rw [hbare, Path.node, Node.leaves_branch, List.flatMap_append, eq_of_colons? hleading]
    refine .bind _ hbound (.cast (.bind BeginsInputs (bareSegment_run hsorts hfirst hfirstExplicit)
      (hend.map fun others => Path.mk (!leading.isEmpty) (first.bare :: others)))
      (show first.bare.node.leaves ++ [] = _ by simp))
  · have hrun : Run level (fun sorts => repeatWhile goesOn (nextSegment false sorts)) BeginsInputs
        (SameColons typeEnds left) left (bareLast others) last
        ((bareLast others).flatMap Segment.printed) :=
      .rounds (bareSegments_run hsorts hmore hlast hothersExplicit)
    have hbare : Path.bare ⟨!leading.isEmpty, first :: others⟩ =
        ⟨!leading.isEmpty, first :: bareLast others⟩ := by rw [Path.bare, bareLast_cons _ hlast]
    rw [hbare, Path.node, Node.leaves_branch, List.flatMap_append, leaves_segments,
      eq_of_colons? hleading]
    exact .bind _ hbound (.bind (SameColons typeEnds left)
      ((segment_run hsorts (fun _ => id) hfirst hfirstExplicit).mono (fun _ => id) fun _ h =>
        h.bound)
      (hrun.map _))

theorem Path.withArguments_append (leading : Bool) (init : List Segment) (last : Segment)
    (arguments : Node) : (Path.mk leading (init ++ [last])).withArguments arguments =
      ⟨leading, init ++ [⟨last.name, some arguments⟩]⟩ := by
  simp [Path.withArguments]

theorem Path.bare_append (leading : Bool) (init : List Segment) (last : Segment) :
    (Path.mk leading (init ++ [last])).bare = ⟨leading, init ++ [last.bare]⟩ := by
  rw [Path.bare, bareLast_append]

/-- The arguments of the last segment are the last that is printed of a path. -/
theorem leaves_withArguments (leading : Bool) (init : List Segment) (last : Segment)
    (arguments : Node) : ((Path.mk leading (init ++ [last])).withArguments arguments).node.leaves =
      (Path.mk leading (init ++ [last])).bare.node.leaves ++ arguments.leaves := by
  rw [Path.withArguments_append, Path.bare_append, Path.node, Path.node, Node.leaves_branch,
    Node.leaves_branch, List.flatMap_append, List.flatMap_append, List.append_assoc]
  congr 1
  cases init with
  | nil => simp [Segment.node, Segment.bare]
  | cons first others =>
    rw [List.cons_append, List.cons_append, leaves_segments, leaves_segments]
    simp [Segment.printed, Segment.node, Segment.bare]

/-- A segment that is open is explicit. -/
theorem isExplicit_of_isOpen {segment : Segment} (h : segment.isOpen = true) :
    segment.node.isExplicit = true := by
  obtain ⟨name, arguments⟩ := segment
  unfold Segment.isOpen at h
  split at h
  · rename_i hnone
    rw [show arguments = none from hnone]
    rfl
  · rename_i hempty
    rw [show arguments = _ from hempty]
    rfl
  · rename_i hempty
    rw [show arguments = _ from hempty]
    rfl
  · contradiction

/-- The path of a trait is read again, with generic arguments or with inputs. -/
theorem traitPath_run {found : Path} (hsorts : sorts.Replays)
    (h : (traitPath sorts).Reads tokens found rest) (hfound : found.node.isExplicit = true) :
    Run level traitPath (Same typeEnds rest) (SameBound tokens) tokens found rest
      found.node.leaves := by
  obtain ⟨plain, mid, hpath, h⟩ := reads_bind.mp h
  rw [reads_ahead] at h
  unfold traitPath
  split at h
  · rename_i hinputs
    obtain ⟨colons, left, hcolons, arguments, last, harguments, hpure⟩ := by
      simpa only [reads_bind] using h
    obtain ⟨rfl, rfl⟩ := reads_pure.mp hpure
    obtain ⟨hopen, -⟩ := Bool.and_eq_true_iff.mp hinputs
    obtain ⟨leading, segments⟩ := plain
    rcases List.eq_nil_or_concat segments with rfl | ⟨init, final, rfl⟩
    · contradiction
    rw [List.concat_eq_append] at *
    have hfinal : final.isOpen = true := by simpa [Path.endsOpen] using hopen
    rw [Path.withArguments_append] at hfound
    have hsegments : ∀ segment ∈ init ++ [⟨final.name, some arguments⟩],
        segment.node.isExplicit = true := fun segment hsegment =>
      Node.isExplicit_parts hfound rfl _
        (List.mem_append_right _ (mem_intersperse (List.mem_map_of_mem hsegment)))
    obtain ⟨hinit, hlast⟩ := List.forall_mem_append.mp hsegments
    have hexplicit := Node.isExplicit_parts (hlast _ (List.mem_singleton_self _)) rfl arguments
      (by simp)
    have hplain : ∀ segment ∈ init ++ [final], segment.node.isExplicit = true := by
      refine List.forall_mem_append.mpr ⟨hinit, fun segment hsegment => ?_⟩
      rw [List.mem_singleton.mp hsegment]
      exact isExplicit_of_isOpen hfinal
    rw [leaves_withArguments]
    refine .bind BeginsInputs (barePath_run hsorts hpath hplain) ?_
    have hwith : (Path.mk leading (init ++ [final])).bare.withArguments arguments =
        (Path.mk leading (init ++ [final])).withArguments arguments := by
      rw [Path.bare_append, Path.withArguments_append, Path.withArguments_append]
      rfl
    have hends : (Path.mk leading (init ++ [final])).bare.endsOpen = true := by
      rw [Path.bare_append]
      simp [Path.endsOpen, Segment.bare, Segment.isOpen]
    have hmid : (isGroup .parenthesis mid || isInputTurbofish mid) = true :=
      (Bool.and_eq_true_iff.mp hinputs).2
    refine .ahead ?_ fun again sorts hagain => by
      rw [hends, hmid, show isGroup .parenthesis again = true from hagain, Bool.true_or]
    simp only [hends, hmid, Bool.and_self, if_true]
    have hskip : Run level (fun _ => operator? "::") BeginsInputs BeginsInputs mid [] left [] := by
      refine ⟨fun {after depth} hafter _ => ?_, id, fun hwritten => ⟨.nil, ?_⟩, ?_⟩
      · obtain ⟨body, others, rfl⟩ := hafter.exists_group
        exact reads_onlyIf.mpr (.inr ⟨rfl, rfl, rfl⟩)
      · exact ((boundColons?_run hcolons : Run level _ _ _ _ _ _ _).written hwritten).2
      · exact (boundColons?_run hcolons : Run level _ _ _ _ _ _ _).shorter
    have hleft : BeginsInputs left := by
      obtain ⟨inputs, mid', hgroup, -⟩ := reads_bind.mp harguments
      obtain ⟨body, nodes, rfl, -⟩ := reads_group.mp hgroup
      rfl
    have hrun : Run level inputArguments (Same typeEnds last) (Same [] left) left arguments last
        arguments.leaves := inputArguments_run hsorts harguments hexplicit
    rw [← hwith]
    exact .bind BeginsInputs hskip ((hrun.mono (fun _ => id) fun _ hagain =>
      (hagain.alike.isGroup .parenthesis).trans hleft).map _)
  · rename_i hnot
    obtain ⟨rfl, rfl⟩ := reads_pure.mp h
    refine .cast (.bind (Same typeEnds mid)
      ((path_run hsorts hpath hfound).mono (fun _ => id) fun _ h => h.bound) ?_) (List.append_nil _)
    refine .ahead ?_ fun again sorts hagain => by
      rw [hagain.alike.isGroup, hagain.isInputTurbofish]
    simp only [if_neg hnot]
    exact .pure

/-! ### Traits and lifetimes -/

theorem eq_of_constness {rules : BoundRules} (h : (constness rules).Reads tokens false rest) :
    isGroup .bracket tokens = false ∧ isWord "const" tokens = false ∧ tokens = rest := by
  simp only [constness, ↓reads_ahead] at h
  split at h
  · obtain ⟨mark, mid, -, h⟩ := reads_bind.mp h
    split at h
    · exact absurd (reads_pure.mp h).1 (by decide)
    · exact absurd h not_reads_refuse
  · split at h
    · obtain ⟨mark, mid, -, h⟩ := reads_bind.mp h
      split at h
      · exact absurd (reads_pure.mp h).1 (by decide)
      · exact absurd h not_reads_refuse
    · rename_i hgroup hword
      exact ⟨Bool.eq_false_iff.mpr hgroup, Bool.eq_false_iff.mpr hword, (reads_pure.mp h).2⟩

/-- Where no mark of constness was read, none is read again. -/
theorem constness_run {rules : BoundRules} (h : (constness rules).Reads tokens false rest) :
    Run level (fun _ => constness rules) (SameBound rest) (SameBound tokens) tokens false rest
      [] := by
  obtain ⟨hgroup, hword, rfl⟩ := eq_of_constness h
  refine ⟨fun {after depth} hafter _ => ?_, id, fun hwritten => ⟨.nil, hwritten⟩, le_rfl⟩
  simp only [constness, reads_ahead, List.nil_append]
  rw [if_neg (by rw [hafter.alike.isGroup, hgroup]; decide),
    if_neg (by rw [hafter.alike.isWord, hword]; decide)]
  exact reads_pure.mpr ⟨rfl, rfl⟩

/-- The mark of a relaxed bound is read again. -/
theorem relaxed_run {nodes : List Node} (h : (operator? "?").Reads tokens nodes rest) :
    Run level (fun _ => operator? "?") (SameBound rest) (SameBound tokens) tokens nodes rest
      (nodes.flatMap Node.leaves) := by
  refine .onlyIf .none h (fun _ hreads => ?_) (fun _ heq after => heq ▸ id)
    fun again hagain => hagain.alike.isOp_char "?" rfl (by decide)
  obtain ⟨node, hnode, rfl⟩ := reads_one.mp hreads
  have hrun : Run level (fun _ => operator "?") (SameBound rest) (Same openers tokens)
      tokens node rest node.leaves := clear_run hnode (by decide)
  exact (hrun.one.cast (List.append_nil _).symm).mono (fun _ => id) fun _ h => h.bound

/-- Where no parameters were bound behind the mark of a relaxed bound, none are read again. -/
theorem lateBinder_run {isLate : Bool}
    (h : (if isLate then binder? sorts else pure []).Reads tokens [] rest) :
    Run level (fun sorts => if isLate then binder? sorts else pure []) (SameBound rest)
      (SameBound tokens) tokens [] rest [] := by
  cases isLate with
  | false =>
    obtain ⟨-, rfl⟩ := reads_pure.mp h
    exact .pure
  | true =>
    rcases reads_onlyIf.mp h with ⟨-, hreads⟩ | ⟨hnot, -, rfl⟩
    · obtain ⟨node, -, hnil⟩ := reads_one.mp hreads
      contradiction
    · exact ⟨fun hafter _ => reads_onlyIf.mpr
        (.inr ⟨(hafter.alike.isWord "for").trans hnot, rfl, rfl⟩), id, fun h => ⟨.nil, h⟩, le_rfl⟩

/-- A trait as a bound is read again, with what it binds and how. -/
theorem traitParts_run {rules : BoundRules} {nodes : List Node} (hsorts : sorts.Replays)
    (h : (traitParts sorts rules).Reads tokens (false, nodes) rest)
    (hnodes : ∀ node ∈ nodes, node.isExplicit = true) :
    Run level (fun sorts => traitParts sorts rules) (Same typeEnds rest) (SameBound tokens) tokens
      (false, nodes) rest (nodes.flatMap Node.leaves) := by
  simp only [traitParts, ite_bind] at h
  obtain ⟨parameters, mid, hparameters, isConst, mid₂, hconst, relaxed, mid₃, hrelaxed, late, mid₄,
    hlate, found, last, hfound, h⟩ := by simpa only [reads_bind] using h
  split at h
  · exact absurd h not_reads_refuse
  · rename_i hallowed
    obtain ⟨heq, rfl⟩ := reads_pure.mp h
    obtain ⟨rfl, rfl⟩ := Prod.mk.inj heq
    obtain ⟨hbefore, hfoundExplicit⟩ := List.forall_mem_append.mp hnodes
    have hparametersExplicit := (List.forall_mem_append.mp hbefore).2
    -- Either nothing is relaxed or nothing is bound, so that the order does not matter.
    have hnone : late = [] ∧ (relaxed = [] ∨ parameters = []) := by
      cases relaxed with
      | nil =>
        simp only [List.isEmpty_nil, Bool.not_true, Bool.and_false] at hlate
        exact ⟨(reads_pure.mp hlate).1.symm, .inl rfl⟩
      | cons mark others =>
        have hempty : parameters ++ late = [] := by simpa using hallowed
        obtain ⟨rfl, rfl⟩ := List.append_eq_nil_iff.mp hempty
        exact ⟨rfl, .inr rfl⟩
    obtain ⟨rfl, horder⟩ := hnone
    unfold traitParts
    simp only [ite_bind]
    refine .cast (.bind (SameBound mid) (binder?_run hsorts hparameters hparametersExplicit
        (fun _ h => h.alike.isWord "for") fun _ h => h.toSame.bound)
      (.bind (SameBound mid₂) (constness_run hconst) (.bind (SameBound mid₃) (relaxed_run hrelaxed)
        (.bind (SameBound mid₄) (lateBinder_run hlate) ?_))))
      (show _ ++ ([] ++ (_ ++ ([] ++ found.node.leaves))) = _ from ?_)
    · simp only [if_neg hallowed]
      exact (traitPath_run hsorts hfound (hfoundExplicit _ (List.mem_singleton_self _))).map _
    · rcases horder with rfl | rfl
      · simp
      · simp

/-- The parts of a trait as a bound, in parentheses or not. -/
def enclosedParts (isEnclosed : Bool) (rules : BoundRules) (sorts : Sorts) :
    Parser (Bool × List Node) :=
  if isEnclosed then inside .parenthesis (traitParts sorts rules) else traitParts sorts rules

/-- What is read as the parts of a trait, from a start on. -/
def traitFrom (isEnclosed : Bool) (start : List Token) (parts : Bool × List Node) : Parser Node :=
  if parts.1 then keepFrom start
  else return .branch .traitBound (if isEnclosed then [.group .parenthesis parts.2] else parts.2)

theorem traitBound_eq (rules : BoundRules) (sorts : Sorts) :
    traitBound sorts rules = ahead >>= fun start =>
      enclosedParts (isGroup .parenthesis start) rules sorts >>=
        traitFrom (isGroup .parenthesis start) start := by
  simp only [traitBound, ite_bind]
  rfl

theorem enclosedParts_run {isEnclosed : Bool} {rules : BoundRules} {nodes : List Node}
    (hsorts : sorts.Replays)
    (h : (enclosedParts isEnclosed rules sorts).Reads tokens (false, nodes) rest)
    (hnodes : ∀ node ∈ nodes, node.isExplicit = true) :
    Run level (enclosedParts isEnclosed rules) (Same typeEnds rest) (SameBound tokens) tokens
      (false, nodes) rest (if isEnclosed then [.group .parenthesis (nodes.flatMap Node.leaves)] else
        nodes.flatMap Node.leaves) := by
  cases isEnclosed with
  | false => exact traitParts_run hsorts h hnodes
  | true =>
    obtain ⟨body, rfl, hbody⟩ := reads_inside.mp h
    have hinner : Run 8 (fun sorts => traitParts sorts rules) (· = []) (SameBound body) body
        (false, nodes) [] (nodes.flatMap Node.leaves) :=
      (traitParts_run hsorts hbody hnodes).mono (fun _ heq => by rw [heq]; exact .nil _) fun _ => id
    exact (hinner.inside openers).mono (fun _ => id) fun _ h => h.bound

/-- A trait as a bound is read again. -/
theorem traitBound_run {rules : BoundRules} (hsorts : sorts.Replays)
    (h : (traitBound sorts rules).Reads tokens node rest) (hnode : node.isExplicit = true) :
    BoundRun level (fun sorts => traitBound sorts rules) tokens node rest := by
  simp only [traitBound_eq, ↓reads_ahead] at h ⊢
  obtain ⟨⟨isConst, nodes⟩, mid, hparts, h⟩ := reads_bind.mp h
  cases isConst with
  | true => exact absurd hnode (Node.not_isExplicit_of_isVerbatim (isVerbatim_of_keepFrom h))
  | false =>
    obtain ⟨rfl, rfl⟩ := reads_pure.mp h
    generalize hlook : isGroup .parenthesis tokens = isEnclosed at *
    have hparents := Node.isExplicit_parts hnode rfl
    have hexplicit : ∀ node ∈ nodes, node.isExplicit = true := by
      cases isEnclosed with
      | false => exact hparents
      | true => exact Node.isExplicit_group.mp (hparents _ (List.mem_singleton_self _))
    refine .aheadFrom ?_ fun again sorts after hagain hreads => ?_
    · rw [hlook]
      refine .cast (.bind _ (enclosedParts_run hsorts hparts hexplicit) .pure) ?_
      cases isEnclosed with
      | false => simp
      | true => simp
    · rw [hagain.alike.isGroup]
      obtain ⟨⟨isConst, others⟩, left, hagainParts, hreads⟩ := reads_bind.mp hreads
      refine reads_bind.mpr ⟨_, _, hagainParts, ?_⟩
      cases isConst with
      | true => exact absurd (isVerbatim_of_keepFrom hreads) Bool.false_ne_true
      | false => exact hreads

/-! ### Bounds of any kind -/

/-- A captured parameter is read again. -/
theorem captured_run {isLifetime : Bool} (h : captured.Reads tokens (isLifetime, node) rest) :
    Run level (fun _ => captured) (Same typeEnds rest)
      (fun again => isOp ">" again = isOp ">" tokens)
      tokens (isLifetime, node) rest node.leaves := by
  have hrun : Run level (fun _ => captured) (Same typeEnds rest) (Same [">"] tokens) tokens
      (isLifetime, node) rest node.leaves := by
    simp only [captured, ↓reads_ahead] at h
    unfold captured
    refine .ahead ?_ fun again sorts hagain => by
      rw [hagain.alike.isLifetime, hagain.alike.isIdentifier, hagain.alike.isWord]
    split at h
    · rename_i hlook
      obtain ⟨name, mid, hname, hpure⟩ := reads_bind.mp h
      obtain ⟨heq, rfl⟩ := reads_pure.mp hpure
      obtain ⟨rfl, rfl⟩ := Prod.mk.inj heq
      simp only [if_pos hlook]
      exact (lifetime_run hname fun _ h => h.alike).map _
    · rename_i hnot
      simp only [if_neg hnot]
      split at h
      · rename_i hlook
        obtain ⟨name, mid, hname, hpure⟩ := reads_bind.mp h
        obtain ⟨heq, rfl⟩ := reads_pure.mp hpure
        obtain ⟨rfl, rfl⟩ := Prod.mk.inj heq
        simp only [if_pos hlook]
        exact (anyWord_run hname (fun _ h => h.alike) fun _ _ longer hname hmem =>
          absurd (List.mem_singleton.mp hmem ▸ hname) (by decide)).map _
      · exact absurd h not_reads_expected
  exact hrun.mono (fun _ => id) fun _ h => h.isOp_of_mem ">" (by decide)

theorem reads_captureComma {node : Node} : Parser.Reads (do
      if isOp "," (← ahead) then operator "," else expected ["`,`", "`>`"]) tokens node rest ↔
    (operator ",").Reads tokens node rest := by
  rw [reads_ahead]
  split
  · exact Iff.rfl
  · rename_i hnot
    refine ⟨fun h => absurd h not_reads_expected, fun h => ?_⟩
    rw [isOp, (reads_operator.mp h).1] at hnot
    exact absurd rfl hnot

theorem capture_run (h : capture.Reads tokens node rest) (hnode : node.isExplicit = true) :
    Run level (fun _ => capture) ends (Same operators tokens) tokens node rest node.leaves := by
  simp only [capture] at h
  obtain ⟨word, mid, hword, arguments, last, harguments, hpure⟩ := by
    simpa only [reads_bind] using h
  obtain ⟨rfl, rfl⟩ := reads_pure.mp hpure
  have hexplicit := (List.forall_mem_cons.mp (Node.isExplicit_parts hnode rfl)).2
  obtain ⟨opening, left, hopening, -⟩ := reads_bind.mp harguments
  obtain ⟨hop, -⟩ := reads_operator.mp hopening
  unfold capture
  refine .cast (.bind (Alike true mid) (keyword_run hword rfl fun _ h _ => h)
    ((angled_run .none reads_captureComma (fun hitem _ => captured_run hitem) harguments hexplicit
      fun after => ?_).map _)) (by simp)
  exact alike_operator hop (by decide) (by decide) fun hmem => absurd hmem (by decide)

/-- A bound is read again, of whatever kind it is. -/
theorem boundWhere_run {rules : BoundRules} (hsorts : sorts.Replays)
    (h : (boundWhere sorts rules).Reads tokens node rest) (hnode : node.isExplicit = true) :
    BoundRun level (fun sorts => boundWhere sorts rules) tokens node rest := by
  simp only [boundWhere, ↓reads_ahead] at h
  unfold boundWhere
  refine .ahead ?_ fun again sorts hagain => by rw [hagain.alike.isLifetime, hagain.alike.isWord]
  split at h
  · rename_i hlook
    obtain ⟨name, mid, hname, hpure⟩ := reads_bind.mp h
    obtain ⟨rfl, rfl⟩ := reads_pure.mp hpure
    simp only [if_pos hlook]
    have hrun : Run level (fun _ => Parser.lifetime) (Same typeEnds mid)
        (Same openers tokens) tokens name mid name.leaves := lifetime_run hname fun _ h => h.alike
    exact ((hrun.map fun name => Node.branch .lifetimeBound [name]).cast (by simp)).mono
      (fun _ => id) fun _ h => h.bound
  · rename_i hnot
    simp only [if_neg hnot]
    split at h
    · rename_i hlook
      obtain ⟨found, mid, hfound, h⟩ := reads_bind.mp h
      simp only [if_pos hlook]
      split at h
      · rename_i hcaptures
        obtain ⟨rfl, rfl⟩ := reads_pure.mp h
        simp only [if_pos hcaptures]
        have hrun : Run level (fun _ => capture) (Same typeEnds mid) (Same openers tokens) tokens
            found mid found.leaves := capture_run hfound hnode
        exact (hrun.map id).mono (fun _ => id) fun _ h => h.bound
      · exact absurd h not_reads_refuse
    · rename_i hnot
      simp only [if_neg hnot]
      exact traitBound_run hsorts h hnode

/-- Where no bound began, none begins. -/
theorem Same.beginsBound {rules : BoundRules} {again : List Token} (h : Same typeEnds tokens again)
    (hnot : Grammar.beginsBound rules tokens = false) :
      Grammar.beginsBound rules again = false := by
  unfold Grammar.beginsBound at hnot ⊢
  rw [h.alike.isAnyWord, h.alike.isOp_char "?" rfl (by decide), h.alike.isLifetime, h.alike.isGroup,
    h.alike.isGroup, h.alike.isWord]
  cases hcolons : Grammar.isOp "::" again with
  | false => simp_all
  | true => simp [h.alike.isOp_of_again (by decide) hcolons] at hnot

theorem SameBound.beginsBound {rules : BoundRules} {again : List Token}
    (h : SameBound tokens again) :
    Grammar.beginsBound rules again = Grammar.beginsBound rules tokens := by
  unfold Grammar.beginsBound
  rw [h.alike.isAnyWord, h.isOp_colons, h.alike.isOp_char "?" rfl (by decide), h.alike.isLifetime,
    h.alike.isGroup, h.alike.isGroup, h.alike.isWord]

/-- One bound, or several between pluses, are read again. -/
theorem bounds_run {plus : Bool} {rules : BoundRules} {nodes : List Node} (hsorts : sorts.Replays)
    (hlevel : 1 ≤ level) (h : (bounds sorts plus rules).Reads tokens nodes rest)
    (hnodes : ∀ node ∈ nodes, node.isExplicit = true) :
    Run level (fun sorts => bounds sorts plus rules) (Same typeEnds rest) (SameBound tokens) tokens
      nodes rest (nodes.flatMap Node.leaves) := by
  have hone : ∀ {tokens found rest}, (one (sorts.bound rules)).Reads tokens found rest →
      (∀ node ∈ found, node.isExplicit = true) →
        Run level (fun sorts => one (sorts.bound rules)) (Same typeEnds rest)
          (SameBound tokens) tokens found rest (found.flatMap Node.leaves) := by
    intro tokens found rest hfound hexplicit
    obtain ⟨node, hnode, rfl⟩ := reads_one.mp hfound
    have hrun := (hsorts.bound hnode (hexplicit _ (List.mem_singleton_self _))).raise hlevel
    exact hrun.one.cast (List.append_nil _).symm
  cases plus with
  | false => exact hone h hnodes
  | true =>
    exact linked_run Same.beginsBound SameBound.beginsBound (by decide) (by decide) hone h hnodes

/-! ### What a bound begins with -/

theorem followsColon_path {inExpression : Bool} {found : Path}
    (h : (pathWhere sorts inExpression).Reads tokens found rest) : FollowsColon tokens := by
  obtain ⟨leading, mid, hleading, first, left, hfirst, -⟩ := by
    simpa only [pathWhere, reads_bind] using h
  rcases reads_onlyIf.mp hleading with ⟨hcolons, -⟩ | ⟨-, -, rfl⟩
  · exact fun _ => hcolons
  · simp only [segment, ↓reads_ahead] at hfirst
    split at hfirst
    · rename_i hword
      exact .of_glance hword fun _ _ => rfl
    · rw [ite_bind] at hfirst
      obtain ⟨name, last, hname, -⟩ := reads_bind.mp hfirst
      split at hname
      · rename_i hword
        exact .of_glance hword fun _ _ => rfl
      · rw [(reads_identifier.mp hname).1]
        exact .word name _

theorem followsColon_constness {rules : BoundRules} {isConst : Bool}
    (h : (constness rules).Reads tokens isConst rest) (hrest : FollowsColon rest) :
    FollowsColon tokens := by
  simp only [constness, ↓reads_ahead] at h
  split at h
  · rename_i hgroup
    exact .of_glance hgroup fun _ _ => rfl
  · split at h
    · rename_i hword
      exact .of_glance hword fun _ _ => rfl
    · rw [(reads_pure.mp h).2]
      exact hrest

theorem followsColon_bound {rules : BoundRules}
    (h : (boundWhere sorts rules).Reads tokens node rest) :
    FollowsColon tokens := by
  simp only [boundWhere, ↓reads_ahead] at h
  split at h
  · rename_i hlifetime
    exact .of_glance hlifetime fun _ _ => rfl
  · split at h
    · rename_i hword
      exact .of_glance hword fun _ _ => rfl
    · simp only [traitBound_eq, ↓reads_ahead] at h
      obtain ⟨⟨isConst, nodes⟩, last, hparts, -⟩ := reads_bind.mp h
      cases hgroup : isGroup .parenthesis tokens with
      | true => exact .of_glance hgroup fun _ _ => rfl
      | false =>
        rw [hgroup] at hparts
        change (traitParts sorts rules).Reads tokens (isConst, nodes) last at hparts
        simp only [traitParts, ite_bind] at hparts
        obtain ⟨parameters, left, hparameters, isConst', mid₂, hconst, relaxed, mid₃,
          hrelaxed, late,
          mid₄, hlate, found, last, hfound, -⟩ := by simpa only [reads_bind] using hparts
        obtain ⟨path, left', hpath, -⟩ := reads_bind.mp hfound
        refine .onlyIf hparameters (fun _ _ => rfl) (followsColon_constness hconst
          (.onlyIf hrelaxed (fun _ _ => rfl) ?_))
        split at hlate
        · exact .onlyIf hlate (fun _ _ => rfl) (followsColon_path hpath)
        · rw [(reads_pure.mp hlate).2]
          exact followsColon_path hpath

/-- A bound that begins with a lifetime is the lifetime. -/
theorem eq_of_lifetimeBound {rules : BoundRules}
    (h : (boundWhere sorts rules).Reads tokens node rest)
    (hlifetime : isLifetime tokens = true) :
    rest = afterOne tokens ∧ node.isKind .traitBound = false := by
  simp only [boundWhere, ↓reads_ahead, hlifetime, if_true] at h
  obtain ⟨name, mid, hname, hpure⟩ := reads_bind.mp h
  obtain ⟨rfl, rfl⟩ := reads_pure.mp hpure
  obtain ⟨name, rfl, rfl⟩ := reads_lifetime.mp hname
  exact ⟨rfl, rfl⟩

end Bound

end Typestate.Grammar
