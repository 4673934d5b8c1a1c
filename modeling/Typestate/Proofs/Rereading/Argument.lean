import Typestate.Proofs.Rereading.Attribute

/-!
# Arguments, read again

Arguments in angles are written with the lifetimes first, so that they may change places: each of
them is read again before a comma and before the closing angle alike. Arguments whose lifetimes
stand first are written as they stand.
-/

namespace Typestate.Grammar

open Grammar.Parser Lexer Token

/-! ### The order of arguments -/

namespace Argument

/-- The arguments that are lifetimes. -/
def lifetimes (arguments : List Argument) : List Argument := arguments.filter isLifetime

/-- The arguments that are no lifetimes. -/
def others (arguments : List Argument) : List Argument :=
  arguments.filter fun argument => !argument.isLifetime

theorem mem_lifetimes {arguments : List Argument} {argument : Argument} :
    argument ∈ lifetimes arguments ↔ argument ∈ arguments ∧ argument.isLifetime = true :=
  List.mem_filter

theorem mem_others {arguments : List Argument} {argument : Argument} :
    argument ∈ others arguments ↔ argument ∈ arguments ∧ argument.isLifetime = false := by
  rw [others, List.mem_filter, Bool.not_eq_true']

/-- Lifetimes in front of the others are written as they stand. -/
theorem lifetimesFirst_of_listed {arguments : List Argument}
    (h : Listed (lifetimes arguments ++ others arguments)) :
    lifetimesFirst arguments = written (lifetimes arguments ++ others arguments) ∧
      lifetimesFirst (lifetimes arguments ++ others arguments) =
        written (lifetimes arguments ++ others arguments) := by
  have hsame := lifetimesFirst_append h (fun argument hargument => (mem_lifetimes.mp hargument).2)
    fun argument hargument => (mem_others.mp hargument).2
  refine ⟨?_, hsame⟩
  rw [← hsame]
  have hlifetimes : (lifetimes arguments ++ others arguments).filter isLifetime =
      arguments.filter isLifetime := by
    simp [lifetimes, others, List.filter_filter]
  have hothers : (lifetimes arguments ++ others arguments).filter
      (fun argument => !argument.isLifetime) = arguments.filter fun argument =>
        !argument.isLifetime := by
    simp [lifetimes, others, List.filter_filter]
  rw [lifetimesFirst, lifetimesFirst, hlifetimes, hothers]

/-- Behind a lifetime, the other arguments are written alike, whether its comma is its own or
not. -/
theorem layout_of_ne_nil {arguments : List Argument} (hne : arguments ≠ [])
    (hlisted : Listed arguments) (comma : Bool) :
    (if comma then [.operator ","] else []) ++ layout (!comma) arguments =
      .operator "," :: written arguments := by
  cases arguments with
  | nil => contradiction
  | cons first rest =>
    rw [← layout_of_listed hlisted]
    cases comma <;> rfl

/-- Arguments are written as others are, which have the lifetimes first already. -/
structure IsOrdered (arguments ordered : List Argument) : Prop where
  first : lifetimesFirst arguments = written ordered
  again : lifetimesFirst ordered = written ordered
  listed : Listed ordered
  source : ∀ argument ∈ ordered, ∃ other ∈ arguments,
    argument.isLifetime = other.isLifetime ∧ argument.node = other.node

section Ordered

variable {init : List Argument} {last : Argument}

theorem lifetimes_concat : lifetimes (init ++ [last]) =
    lifetimes init ++ if last.isLifetime then [last] else [] := by
  simp [lifetimes, List.filter_append, List.filter_singleton]

theorem others_concat : others (init ++ [last]) =
    others init ++ if last.isLifetime then [] else [last] := by
  cases hlast : last.isLifetime <;> simp [others, List.filter_append, hlast]

/-- The last argument is a lifetime that moves before others: a comma stands behind it now. -/
theorem isOrdered_of_moves (hcommas : ∀ argument ∈ init, argument.comma = true)
    (hlast : last.isLifetime = true) (hne : others init ≠ []) :
    IsOrdered (init ++ [last])
      (lifetimes init ++ [{ last with comma := true }] ++ others init) := by
  have hlifetimes : lifetimes (init ++ [last]) = lifetimes init ++ [last] := by
    rw [lifetimes_concat, if_pos hlast]
  have hothers : others (init ++ [last]) = others init := by
    rw [others_concat, if_pos hlast, List.append_nil]
  have hlisted : Listed (others init) := fun argument hargument =>
    hcommas argument (mem_others.mp (List.dropLast_subset _ hargument)).1
  have hall : Listed (lifetimes init ++ [{ last with comma := true }] ++ others init) := by
    intro argument hargument
    have hmem := List.dropLast_subset _ hargument
    rw [List.append_assoc, List.mem_append, List.mem_append, List.mem_singleton] at hmem
    rcases hmem with hmem | rfl | hmem
    · exact hcommas argument (mem_lifetimes.mp hmem).1
    · rfl
    · exact hcommas argument (mem_others.mp hmem).1
  refine ⟨?_, ?_, hall, ?_⟩
  · rw [lifetimes] at hlifetimes
    rw [others] at hothers
    rw [lifetimesFirst, hlifetimes, hothers, List.getLast?_concat, List.flatMap_append,
      List.flatMap_singleton, List.append_assoc, List.cons_append,
      layout_of_ne_nil hne hlisted last.comma]
    simp [written]
  · refine lifetimesFirst_append hall (fun argument hargument => ?_)
      fun argument hargument => (mem_others.mp hargument).2
    rcases List.mem_append.mp hargument with hmem | hmem
    · exact (mem_lifetimes.mp hmem).2
    · rw [List.mem_singleton.mp hmem]
      exact hlast
  · intro argument hargument
    rw [List.append_assoc, List.mem_append, List.mem_append, List.mem_singleton] at hargument
    rcases hargument with hmem | rfl | hmem
    · exact ⟨argument, List.mem_append_left _ (mem_lifetimes.mp hmem).1, rfl, rfl⟩
    · exact ⟨last, List.mem_append_right _ List.mem_cons_self, rfl, rfl⟩
    · exact ⟨argument, List.mem_append_left _ (mem_others.mp hmem).1, rfl, rfl⟩

/-- The last argument stays the last one. -/
theorem isOrdered_of_stays (hcommas : ∀ argument ∈ init, argument.comma = true)
    (hstays : last.isLifetime = true → others init = []) :
    IsOrdered (init ++ [last]) (lifetimes (init ++ [last]) ++ others (init ++ [last])) := by
  have hconcat : lifetimes (init ++ [last]) ++ others (init ++ [last]) =
      lifetimes init ++ others init ++ [last] := by
    rw [lifetimes_concat, others_concat]
    cases hlast : last.isLifetime with
    | false => simp
    | true => simp [hstays hlast]
  have hlisted : Listed (lifetimes (init ++ [last]) ++ others (init ++ [last])) := by
    rw [hconcat, Listed, List.dropLast_concat]
    intro argument hargument
    rw [List.mem_append, mem_lifetimes, mem_others, ← and_or_left] at hargument
    exact hcommas argument hargument.1
  obtain ⟨hfirst, hagain⟩ := lifetimesFirst_of_listed hlisted
  refine ⟨hfirst, hagain, hlisted, fun argument hargument => ?_⟩
  rw [List.mem_append, mem_lifetimes, mem_others, ← and_or_left] at hargument
  exact ⟨argument, hargument.1, rfl, rfl⟩

end Ordered

/-- Arguments as they are read are written like arguments with the lifetimes first. -/
theorem exists_ordered {arguments : List Argument} (h : Listed arguments) :
    ∃ ordered, IsOrdered arguments ordered := by
  rcases List.eq_nil_or_concat arguments with rfl | ⟨init, last, rfl⟩
  · exact ⟨[], rfl, rfl, h, by simp⟩
  rw [List.concat_eq_append] at *
  have hcommas : ∀ argument ∈ init, argument.comma = true := by
    rwa [Listed, List.dropLast_concat] at h
  by_cases hmoves : last.isLifetime = true ∧ others init ≠ []
  · exact ⟨_, isOrdered_of_moves hcommas hmoves.1 hmoves.2⟩
  · exact ⟨_, isOrdered_of_stays hcommas fun hlast => by_contra fun hne => hmoves ⟨hlast, hne⟩⟩

theorem mem_layout {arguments : List Argument} {argument : Argument} (h : argument ∈ arguments)
    (due : Bool) : argument.node ∈ layout due arguments := by
  induction arguments generalizing due with
  | nil => exact absurd h List.not_mem_nil
  | cons first others ih =>
    rw [layout]
    rcases List.mem_cons.mp h with rfl | hothers
    · simp
    · exact List.mem_append_right _ (ih hothers _)

/-- Every argument is written. -/
theorem mem_lifetimesFirst {arguments : List Argument} {argument : Argument}
    (h : argument ∈ arguments) : argument.node ∈ lifetimesFirst arguments := by
  rw [lifetimesFirst, List.mem_append]
  cases hlifetime : argument.isLifetime with
  | true =>
    exact .inl (List.mem_flatMap.mpr
      ⟨argument, mem_lifetimes.mpr ⟨h, hlifetime⟩, List.mem_cons_self⟩)
  | false => exact .inr (mem_layout (mem_others.mpr ⟨h, hlifetime⟩) _)

/-- The leaves of the first argument, of its comma and of the other arguments. -/
theorem leaves_written (first : Argument) (others : List Argument) :
    (written (first :: others)).flatMap Node.leaves = first.node.leaves ++
      ((if first.comma then ofOperator [','] else []) ++ (written others).flatMap Node.leaves) := by
  have hcomma : (Node.operator ",").leaves = ofOperator [','] := Node.leaves_operator ","
  rw [written, List.flatMap_cons, List.flatMap_append, List.flatMap_cons, List.append_assoc]
  split
  · rw [List.flatMap_singleton, hcomma]
    rfl
  · rfl

end Argument

/-! ### Arguments by themselves -/

section Argument

variable {level : ℕ} {sorts : Sorts} {tokens rest start : List Token}
  {parser : Sorts → Parser (Bool × Node)}

theorem exists_stop (h : isOneOf [",", ">"] tokens = true) :
    ∃ char ∈ stops, ∃ spacing rest, tokens = .mark char spacing :: rest := by
  obtain ⟨text, htext, hop⟩ := List.any_eq_true.mp h
  obtain ⟨next, hnext⟩ := Option.isSome_iff_exists.mp hop
  rcases List.mem_cons.mp htext with rfl | hmore
  · obtain ⟨-, spacing, mid, rfl, -⟩ := afterOperator?_cons_eq_some.mp hnext
    exact ⟨_, by decide, spacing, mid, rfl⟩
  · obtain rfl := List.mem_singleton.mp hmore
    obtain ⟨-, spacing, mid, rfl, -⟩ := afterOperator?_cons_eq_some.mp hnext
    exact ⟨_, by decide, spacing, mid, rfl⟩

/-- An argument of what begins at the given place is read again wherever an argument ends. -/
structure Argument.Replays (level : ℕ) (parser : Sorts → Parser (Bool × Node)) (start : List Token)
    (argument : Argument) : Prop where
  again : ∀ {stop : Char} {spacing : Spacing} {after : List Token} {depth : ℕ}, stop ∈ stops →
    8 * sizeList argument.node.leaves + level ≤ depth → (parser (Sorts.deepened depth .none)).Reads
        (argument.node.leaves ++ .mark stop spacing :: after) (argument.isLifetime, argument.node)
        (.mark stop spacing :: after)
  begins : ∀ {stop : Char} {spacing : Spacing} {after : List Token}, stop ∈ stops →
    isOp ">" (argument.node.leaves ++ .mark stop spacing :: after) = false
  written : Written start → Written argument.node.leaves

/-- An argument is read again if its run ends where an argument does. -/
theorem Argument.replays_of_run {isLifetime comma : Bool} {node : Node}
    (h : Run level parser (Same typeEnds rest) (fun again => isOp ">" again = isOp ">" tokens)
      tokens (isLifetime, node) rest node.leaves)
    (hrest : isOneOf [",", ">"] rest = true) (htokens : isOp ">" tokens = false) :
    Argument.Replays level parser tokens ⟨isLifetime, node, comma⟩ := by
  obtain ⟨char, hchar, spacing, mid, rfl⟩ := exists_stop hrest
  have hstop : ∀ {stop : Char} {spacing' : Spacing} {after : List Token}, stop ∈ stops →
      Same typeEnds (.mark char spacing :: mid) (.mark stop spacing' :: after) :=
    fun hmem => .stop hchar hmem (by decide)
  exact ⟨fun hmem hdepth => h.again (hstop hmem) hdepth,
    fun hmem => (h.begins (hstop hmem)).trans htokens, fun hwritten => (h.written hwritten).1⟩

theorem Argument.Replays.mono {argument : Argument} {left : List Token}
    (h : argument.Replays level parser left) (hstart : Written start → Written left) :
    argument.Replays level parser start :=
  ⟨h.again, h.begins, fun hwritten => h.written (hstart hwritten)⟩

variable {separator : Parser Node}

/-- Every argument that is read can be read again, wherever it is written. -/
theorem argumentsAtMost_replays
    (hseparator : ∀ {tokens node rest}, separator.Reads tokens node rest →
      (operator ",").Reads tokens node rest)
    (hitem : ∀ {tokens isLifetime node rest}, (parser sorts).Reads tokens (isLifetime, node) rest →
      node.isExplicit = true → Run level parser (Same typeEnds rest)
        (fun again => isOp ">" again = isOp ">" tokens) tokens (isLifetime, node) rest node.leaves)
    {rounds : ℕ} {arguments : List Argument}
    (h : (argumentsAtMost separator (parser sorts) rounds).Reads tokens arguments rest)
    (hexplicit : ∀ argument ∈ arguments, argument.node.isExplicit = true) :
    Argument.Listed arguments ∧ (∀ argument ∈ arguments, argument.Replays level parser tokens) ∧
      (Written tokens → Written rest) ∧ rest.length ≤ tokens.length := by
  induction rounds generalizing tokens arguments with
  | zero => exact absurd h not_reads_fail
  | succ rounds ih =>
    simp only [argumentsAtMost, reads_ahead] at h
    split at h
    · obtain ⟨rfl, rfl⟩ := reads_pure.mp h
      exact ⟨by simp [Argument.Listed], by simp, id, le_rfl⟩
    · rename_i hopen
      have htokens : isOp ">" tokens = false := Bool.eq_false_iff.mpr hopen
      obtain ⟨⟨isLifetime, node⟩, mid, hnode, h⟩ := reads_bind.mp h
      simp only [reads_ahead] at h
      split at h
      · rename_i hclosed
        obtain ⟨rfl, rfl⟩ := reads_pure.mp h
        have hrun := hitem hnode (hexplicit _ (List.mem_singleton_self _))
        refine ⟨by simp [Argument.Listed], ?_, fun hwritten => (hrun.written hwritten).2,
          hrun.shorter⟩
        intro argument hargument
        rw [List.mem_singleton.mp hargument]
        exact Argument.replays_of_run hrun (by simp [isOneOf, hclosed]) htokens
      · obtain ⟨comma, left, hcomma, others, left', hothers, hpure⟩ := by
          simpa only [reads_bind] using h
        obtain ⟨rfl, rfl⟩ := reads_pure.mp hpure
        obtain ⟨hfirst, hmore⟩ := List.forall_mem_cons.mp hexplicit
        have hrun := hitem hnode hfirst
        obtain ⟨hop, -⟩ := reads_operator.mp (hseparator hcomma)
        have hleft : Written tokens → Written left := fun hwritten =>
          (written_ofOperator hop (hrun.written hwritten).2).2
        obtain ⟨hlisted, hreplays, hrest, hshorter⟩ := ih hothers hmore
        refine ⟨?_, ?_, fun hwritten => hrest (hleft hwritten),
          hshorter.trans ((length_lt_of_operator hop).le.trans hrun.shorter)⟩
        · cases others with
          | nil => simp [Argument.Listed]
          | cons next more =>
            rw [Argument.Listed, List.dropLast_cons_cons]
            exact List.forall_mem_cons.mpr ⟨rfl, hlisted⟩
        · refine List.forall_mem_cons.mpr ⟨?_, fun argument hargument =>
            (hreplays argument hargument).mono hleft⟩
          have hthere : isOp "," mid = true := by rw [isOp, hop]; rfl
          exact Argument.replays_of_run hrun (by simp [isOneOf, hthere]) htokens

/-- Arguments are read again up to a closing angle. -/
theorem argumentsAtMost_again
    (hseparator : ∀ {tokens node rest}, (operator ",").Reads tokens node rest →
      separator.Reads tokens node rest)
    {arguments : List Argument} (hlisted : Argument.Listed arguments)
    (h : ∀ argument ∈ arguments, argument.Replays level parser start) {rounds depth : ℕ}
    (hrounds : ((Argument.written arguments).flatMap Node.leaves).length < rounds)
    (hdepth : 8 * sizeList ((Argument.written arguments).flatMap Node.leaves) + level ≤ depth)
    (after : List Token) :
    (argumentsAtMost separator (parser (Sorts.deepened depth .none)) rounds).Reads
      ((Argument.written arguments).flatMap Node.leaves ++ ofOperator ['>'] ++ after) arguments
      (ofOperator ['>'] ++ after) := by
  induction arguments generalizing rounds with
  | nil =>
    obtain ⟨rounds, rfl⟩ : ∃ fewer, rounds = fewer + 1 :=
      Nat.exists_eq_add_one.mpr (Nat.lt_of_le_of_lt (Nat.zero_le _) hrounds)
    simp only [argumentsAtMost, reads_ahead]
    exact reads_pure.mpr ⟨rfl, rfl⟩
  | cons first others ih =>
    obtain ⟨rounds, rfl⟩ : ∃ fewer, rounds = fewer + 1 :=
      Nat.exists_eq_add_one.mpr (Nat.lt_of_le_of_lt (Nat.zero_le _) hrounds)
    obtain ⟨hfirst, hothers⟩ := List.forall_mem_cons.mp h
    obtain ⟨isLifetime, node, comma⟩ := first
    obtain ⟨hagain, hbegins, -⟩ := hfirst
    dsimp only at hagain hbegins
    rw [Argument.leaves_written] at hrounds hdepth ⊢
    simp only [List.length_append, sizeList_append, List.append_assoc] at hrounds hdepth ⊢
    simp only [argumentsAtMost, reads_ahead]
    cases comma with
    | true =>
      have hcomma : ofOperator [','] = [.mark ',' .alone] := rfl
      simp only [if_true, hcomma, List.length_singleton, List.cons_append, List.nil_append] at *
      have hmem : ',' ∈ stops := by decide
      have hlistedOthers : Argument.Listed others := by
        cases others with
        | nil => simp [Argument.Listed]
        | cons next more => exact hlisted.cons_cons.2
      have hmore := ih hlistedOthers hothers (show _ < rounds by omega) (by omega)
      rw [if_neg (by rw [hbegins hmem]; decide)]
      refine reads_bind.mpr ⟨_, _, hagain hmem (by omega), ?_⟩
      rw [reads_ahead]
      exact reads_bind.mpr ⟨_, _, hseparator (reads_operator.mpr ⟨rfl, rfl⟩),
        reads_bind.mpr ⟨_, _, by simpa using hmore, reads_pure.mpr ⟨rfl, rfl⟩⟩⟩
    | false =>
      obtain rfl : others = [] := by
        cases others with
        | nil => rfl
        | cons next more => exact absurd hlisted.cons_cons.1 Bool.false_ne_true
      have hclosing : ofOperator ['>'] = [.mark '>' .alone] := rfl
      simp only [Argument.written, List.flatMap_nil, List.nil_append, hclosing, List.cons_append,
        Bool.false_eq_true, if_false] at hdepth ⊢
      have hmem : '>' ∈ stops := by decide
      rw [if_neg (by rw [hbegins hmem]; decide)]
      refine reads_bind.mpr ⟨_, _, hagain hmem (by omega), ?_⟩
      rw [reads_ahead]
      exact reads_pure.mpr ⟨rfl, rfl⟩

variable (sorts) in
/-- Arguments in angles are read again, lifetimes first. -/
theorem angled_run {ends begins : List Token → Prop} {nodes : List Node}
    (hseparator : ∀ {tokens node rest}, separator.Reads tokens node rest ↔
      (operator ",").Reads tokens node rest)
    (hitem : ∀ {tokens isLifetime node rest}, (parser sorts).Reads tokens (isLifetime, node) rest →
      node.isExplicit = true → Run (level + 8) parser (Same typeEnds rest)
        (fun again => isOp ">" again = isOp ">" tokens) tokens (isLifetime, node) rest node.leaves)
    (h : (angled separator (parser sorts)).Reads tokens nodes rest)
    (hnodes : ∀ node ∈ nodes, node.isExplicit = true)
    (hbegins : ∀ after, begins (ofOperator ['<'] ++ after)) :
    Run level (fun sorts => angled separator (parser sorts)) ends begins tokens nodes rest
      (nodes.flatMap Node.leaves) := by
  simp only [angled, reads_bind, ↓reads_ahead] at h
  obtain ⟨opening, left, hopening, arguments, mid, harguments, closing, last, hclosing, hpure⟩ := h
  obtain ⟨rfl, rfl⟩ := reads_pure.mp hpure
  obtain ⟨hop, rfl⟩ := reads_operator.mp hopening
  obtain ⟨hop', rfl⟩ := reads_operator.mp hclosing
  obtain ⟨hlisted, hreplays, hmid, hshorter⟩ :=
    argumentsAtMost_replays hseparator.mp hitem harguments
    fun argument hargument => hnodes _
      (List.mem_cons_of_mem _ (List.mem_append_left _ (Argument.mem_lifetimesFirst hargument)))
  obtain ⟨ordered, hfirst, hagain, hordered, hsource⟩ := Argument.exists_ordered hlisted
  have hall : ∀ argument ∈ ordered, argument.Replays (level + 8) parser left := by
    intro argument hargument
    obtain ⟨other, hother, hlifetime, hnode⟩ := hsource argument hargument
    obtain ⟨again, begins, written⟩ := hreplays other hother
    rw [← hlifetime, ← hnode] at again
    rw [← hnode] at begins written
    exact ⟨again, begins, written⟩
  have hprinted : (Node.operator "<" :: Argument.lifetimesFirst arguments ++
      [Node.operator ">"]).flatMap Node.leaves =
        ofOperator ['<'] ++ ((Argument.written ordered).flatMap Node.leaves ++ ofOperator
          ['>']) := by
    simp [hfirst]
  rw [hprinted]
  refine ⟨fun {after depth} _ hdepth => ?_, fun _ => by rw [List.append_assoc]; exact hbegins _,
    fun hwritten => ?_, (length_lt_of_operator hop').le.trans (hshorter.trans
      (length_lt_of_operator hop).le)⟩
  · have hsize : ∀ chars : List Char, ofOperator chars = [.mark chars.head! .alone] →
        sizeList (ofOperator chars) = 1 := fun chars heq => by rw [heq]; rfl
    rw [sizeList_append, sizeList_append, hsize ['<'] rfl, hsize ['>'] rfl] at hdepth
    have hrounds : ((Argument.written ordered).flatMap Node.leaves).length <
        ((Argument.written ordered).flatMap Node.leaves ++ (ofOperator ['>'] ++ after)).length
          + 1 := by
      rw [List.length_append]
      omega
    have hreads := argumentsAtMost_again hseparator.mpr hordered hall hrounds
      (show _ ≤ depth by omega) after
    rw [List.append_assoc] at hreads
    simp only [angled, reads_bind, ↓reads_ahead, List.append_assoc]
    refine ⟨_, _, reads_operator.mpr ⟨rfl, rfl⟩, ordered, _, hreads, _, _,
      reads_operator.mpr ⟨rfl, rfl⟩, ?_⟩
    rw [hfirst, ← hagain]
    exact reads_pure.mpr ⟨rfl, rfl⟩
  · obtain ⟨hopen, hleft⟩ := written_ofOperator hop hwritten
    obtain ⟨hclose, hrest⟩ := written_ofOperator hop' (hmid hleft)
    refine ⟨Written.append hopen (Written.append ?_ hclose), hrest⟩
    clear hordered hfirst hagain hsource hprinted
    induction ordered with
    | nil => exact .nil
    | cons first others ih =>
      obtain ⟨hone, hothers⟩ := List.forall_mem_cons.mp hall
      rw [Argument.leaves_written]
      refine Written.append (hone.written hleft) (Written.append ?_ (ih hothers))
      split
      · exact .alone (by decide) (by decide) .nil
      · exact .nil

end Argument

end Typestate.Grammar
