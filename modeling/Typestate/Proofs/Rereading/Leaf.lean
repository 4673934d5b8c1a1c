import Typestate.Proofs.Grammar.Remainder
import Typestate.Proofs.Rereading.Explicit
import Typestate.Proofs.Rereading.Run

/-!
# Single tokens, read again

The parsers of single tokens find again what is printed of them. An operator is told from longer
ones by how it is printed, so it may stand wherever no longer one was seen. What has to follow it
matters for a minus and for two colons only.
-/

namespace Typestate.Grammar

open Grammar.Parser Lexer Token

/-! ### Leaves -/

namespace Node

attribute [simp] leaves_branch leaves_group

@[simp] theorem leaves_nothing : nothing.leaves = [] := rfl

@[simp] theorem leaves_word (text : String) : (word text).leaves = [.word text] := rfl

@[simp] theorem leaves_literal (text : String) : (literal text).leaves = [.literal text] := rfl

@[simp] theorem leaves_lifetime (name : String) : (lifetime name).leaves = ofLifetime name := rfl

@[simp] theorem leaves_operator (text : String) :
    (operator text).leaves = ofOperator text.toList := by
  rw [leaves, leavesBefore, List.append_nil]

@[simp] theorem leaves_verbatim (tokens : List Token) : (verbatim tokens).leaves = tokens := by
  rw [leaves, leavesBefore, List.append_nil]

/-- The attributes of a construct stand in front of its parts. -/
@[simp] theorem leaves_construct (kind : Kind) (attributes children : List Node) :
    (construct kind attributes children).leaves =
      attributes.flatMap leaves ++ children.flatMap leaves := by
  rw [leaves, leavesBefore, listLeavesBefore_eq, listLeavesBefore_nil, listLeavesBefore_nil]

/-- Attributes stand in front of the construct that they are put in front of. -/
theorem leaves_withAttributes {node : Node} (attributes : List Node)
    (hconstruct : node.isConstruct = true) :
    (node.withAttributes attributes).leaves = attributes.flatMap leaves ++ node.leaves := by
  cases node with
  | construct kind others children => simp [withAttributes]
  | _ => contradiction

end Node

/-! ### What is read -/

namespace Parser

variable {tokens rest : List Token} {node : Node}

theorem reads_operator {text : String} :
    (operator text).Reads tokens node rest ↔
      afterOperator? text.toList tokens = some rest ∧ .operator text = node := by
  unfold Reads operator
  cases afterOperator? text.toList tokens with
  | none => simp
  | some left => simp [and_comm]

theorem reads_keyword {text : String} :
    (keyword text).Reads tokens node rest ↔ tokens = .word text :: rest ∧ .word text = node := by
  constructor
  · intro h
    unfold Reads keyword at h
    split at h
    · split at h
      · rename_i hfound
        obtain ⟨rfl, rfl, -⟩ := (Found.mk.injEq ..).mp (Except.ok.inj h)
        rw [beq_iff_eq.mp hfound]
        exact ⟨rfl, rfl⟩
      · contradiction
    · contradiction
  · rintro ⟨rfl, rfl⟩
    simp [Reads, keyword]

theorem reads_anyWord {text : String} :
    anyWord.Reads tokens text rest ↔ tokens = .word text :: rest := by
  constructor
  · exact fun h => anyWord_eq_ok h
  · rintro rfl
    rfl

theorem reads_identifier {text : String} :
    identifier.Reads tokens text rest ↔
      tokens = .word text :: rest ∧ Word.isIdentifier text = true := by
  constructor
  · intro h
    unfold Reads identifier at h
    split at h
    · split at h
      · rename_i hidentifier
        obtain ⟨rfl, rfl, -⟩ := (Found.mk.injEq ..).mp (Except.ok.inj h)
        exact ⟨rfl, hidentifier⟩
      · contradiction
    · contradiction
  · rintro ⟨rfl, hidentifier⟩
    simp [Reads, identifier, hidentifier]

theorem reads_lifetime :
    lifetime.Reads tokens node rest ↔
      ∃ name, tokens = ofLifetime name ++ rest ∧ .lifetime name = node := by
  constructor
  · intro h
    unfold Reads lifetime at h
    split at h
    · obtain ⟨rfl, rfl, -⟩ := (Found.mk.injEq ..).mp (Except.ok.inj h)
      exact ⟨_, rfl, rfl⟩
    · contradiction
  · rintro ⟨name, rfl, rfl⟩
    rfl

theorem reads_anyGroup {found : Delimiter × Node} :
    anyGroup.Reads tokens found rest ↔
      ∃ delimiter body, tokens = .group delimiter body :: rest ∧
        (delimiter, .group delimiter [.verbatim body]) = found := by
  constructor
  · intro h
    unfold Reads anyGroup at h
    split at h
    · obtain ⟨rfl, rfl, -⟩ := (Found.mk.injEq ..).mp (Except.ok.inj h)
      exact ⟨_, _, rfl, rfl⟩
    · contradiction
  · rintro ⟨delimiter, body, rfl, rfl⟩
    rfl

end Parser

/-! ### What is read again -/

section Run

variable {level : ℕ} {ends : List Token → Prop} {tokens rest : List Token} {node : Node}

/-- The operator goes on with none of the given ones, and anything may stand behind it. -/
def IsClear (operators : List String) (text : String) : Prop :=
  text.toList ∉ [':'] :: signs ∧ ¬ [':', ':'] <+: text.toList ∧ ¬ ['#'] <+: text.toList ∧
    ∀ longer ∈ operators, text.toList <+: longer.toList → longer.toList = text.toList

instance (operators : List String) (text : String) : Decidable (IsClear operators text) :=
  inferInstanceAs (Decidable (_ ∧ _))

/-- The marks of an operator are written whatever follows it. -/
theorem written_ofOperator {chars : List Char} (h : afterOperator? chars tokens = some rest)
    (hwritten : Written tokens) : Written (ofOperator chars) ∧ Written rest := by
  induction chars generalizing tokens with
  | nil => simp [afterOperator?] at h
  | cons c others ih =>
    obtain ⟨hquote, spacing, mid, rfl, ⟨rfl, rfl⟩ | ⟨hne, rfl, hrest⟩⟩ :=
      afterOperator?_cons_eq_some.mp h
    · exact ⟨hwritten.mark hquote, hwritten.tail⟩
    · obtain ⟨hothers, hleft⟩ := ih hrest hwritten.tail
      refine ⟨?_, hleft⟩
      obtain ⟨d, more, rfl⟩ := List.exists_cons_of_ne_nil hne
      obtain ⟨-, spacing, mid, rfl, -⟩ := afterOperator?_cons_eq_some.mp hrest
      cases more with
      | nil => exact Written.joint hquote hwritten hothers
      | cons e more => exact Written.joint hquote hwritten hothers

/-- An operator that is read has a mark. -/
theorem leaves_ne_nil_of_operator {text : String} (h : (operator text).Reads tokens node rest) :
    node.leaves ≠ [] := by
  obtain ⟨hop, rfl⟩ := reads_operator.mp h
  rw [Node.leaves_operator]
  intro hnil
  have hagain := afterOperator?_ofOperator hop []
  rw [hnil] at hagain
  unfold afterOperator? at hagain
  split at hagain
  · contradiction
  · contradiction
  · contradiction

/-- Behind an operator there are fewer tokens. -/
theorem length_lt_of_operator {chars : List Char} (h : afterOperator? chars tokens = some rest) :
    rest.length < tokens.length := by
  induction chars generalizing tokens with
  | nil => simp [afterOperator?] at h
  | cons c others ih =>
    obtain ⟨-, spacing, mid, rfl, ⟨-, rfl⟩ | ⟨-, -, hmid⟩⟩ := afterOperator?_cons_eq_some.mp h
    · exact Nat.lt_succ_self _
    · exact (ih hmid).trans (Nat.lt_succ_self _)

/-- An operator is read again where no longer one stood. -/
theorem operator_run {text : String} (h : (operator text).Reads tokens node rest)
    {begins : List Token → Prop}
    (hbegins : ∀ after, ends after → begins (ofOperator text.toList ++ after)) :
    Run level (fun _ => operator text) ends begins tokens node rest node.leaves := by
  obtain ⟨hop, rfl⟩ := reads_operator.mp h
  rw [Node.leaves_operator]
  exact ⟨fun _ _ => reads_operator.mpr ⟨afterOperator?_ofOperator hop _, rfl⟩, fun h => hbegins _ h,
    written_ofOperator hop, (length_lt_of_operator hop).le⟩

/-- The same for an operator that is told from all others. -/
theorem clear_run {text : String} {operators : List String}
    (h : (operator text).Reads tokens node rest) (hclear : IsClear operators text) :
    Run level (fun _ => operator text) ends (Same operators tokens) tokens node rest
      node.leaves := by
  obtain ⟨hspecial, hcolons, hpound, hlonger⟩ := hclear
  obtain ⟨hcolon, hsigns⟩ := not_or.mp (List.mem_cons.not.mp hspecial)
  exact operator_run h fun after _ => same_operator (reads_operator.mp h).1
    (fun hprefix => absurd hprefix hcolons) (fun hprefix => absurd hprefix hpound)
    (fun hmem => absurd hmem hsigns)
    (fun text htext hprefix => .inl (hlonger text htext hprefix)) fun heq => absurd heq hcolon

/-- Two colons are told from one, as long as what is behind them looks alike. -/
theorem colons_run {operators : List String} (h : (operator "::").Reads tokens node rest)
    (hclear : ∀ longer ∈ operators, [':', ':'] <+: longer.toList → longer.toList = [':', ':'])
    (hends : ∀ after, ends after → Alike false rest after) :
    Run level (fun _ => operator "::") ends (Same operators tokens) tokens node rest node.leaves :=
  operator_run h fun _ hafter => same_operator (reads_operator.mp h).1 (fun _ => rfl)
    (by decide) (fun _ => hends _ hafter)
    (fun longer hmem hprefix => .inl (hclear longer hmem hprefix)) nofun

/-- A number sign is read again, as long as what is behind it looks alike. -/
theorem pound_run {operators : List String} (h : (operator "#").Reads tokens node rest)
    (hclear : ∀ longer ∈ operators, ['#'] <+: longer.toList → longer.toList = ['#'])
    (hends : ∀ after, ends after → Alike false rest after) :
    Run level (fun _ => operator "#") ends (Same operators tokens) tokens node rest node.leaves :=
  operator_run h fun _ hafter => same_operator (reads_operator.mp h).1 (by decide)
    (fun _ => rfl) (fun _ => hends _ hafter)
    (fun longer hmem hprefix => .inl (hclear longer hmem hprefix)) nofun

/-- One colon may have been the first of two, if no inputs of a function follow these. -/
theorem colon_run {operators : List String} (h : (operator ":").Reads tokens node rest)
    (hclear : ∀ longer ∈ operators, [':'] <+: longer.toList → longer.toList = [':'])
    (hinputs : isInputTurbofish tokens = false) :
    Run level (fun _ => operator ":") ends (Same operators tokens) tokens node rest node.leaves :=
  operator_run h fun _ _ => same_operator (reads_operator.mp h).1 (by decide)
    (by decide) (fun hmem => absurd hmem (by decide))
    (fun longer hmem hprefix => .inl (hclear longer hmem hprefix)) fun _ => hinputs

/-- A word is read again whatever follows it; what it looks like from before is left open. -/
theorem keyword_bare {text : String} (h : (keyword text).Reads tokens node rest)
    {begins : List Token → Prop} (hbegins : ∀ after, ends after → begins (.word text :: after)) :
    Run level (fun _ => keyword text) ends begins tokens node rest node.leaves := by
  obtain ⟨rfl, rfl⟩ := reads_keyword.mp h
  exact ⟨fun _ _ => reads_keyword.mpr ⟨rfl, rfl⟩, fun hafter => hbegins _ hafter,
    fun h => ⟨h.word, h.tail⟩, Nat.le_succ _⟩

theorem anyWord_bare {text : String} (h : anyWord.Reads tokens text rest)
    {begins : List Token → Prop} (hbegins : ∀ after, ends after → begins (.word text :: after)) :
    Run level (fun _ => anyWord) ends begins tokens text rest [.word text] := by
  obtain rfl := reads_anyWord.mp h
  exact ⟨fun _ _ => reads_anyWord.mpr rfl, fun hafter => hbegins _ hafter,
    fun h => ⟨h.word, h.tail⟩, Nat.le_succ _⟩

theorem identifier_bare {text : String} (h : identifier.Reads tokens text rest)
    {begins : List Token → Prop} (hbegins : ∀ after, ends after → begins (.word text :: after)) :
    Run level (fun _ => identifier) ends begins tokens text rest [.word text] := by
  obtain ⟨rfl, hidentifier⟩ := reads_identifier.mp h
  exact ⟨fun _ _ => reads_identifier.mpr ⟨rfl, hidentifier⟩, fun hafter => hbegins _ hafter,
    fun h => ⟨h.word, h.tail⟩, Nat.le_succ _⟩

theorem lifetime_bare (h : lifetime.Reads tokens node rest) {begins : List Token → Prop}
    (hbegins : ∀ after, ends after → begins (node.leaves ++ after)) :
    Run level (fun _ => lifetime) ends begins tokens node rest node.leaves := by
  obtain ⟨name, rfl, rfl⟩ := reads_lifetime.mp h
  exact ⟨fun _ _ => reads_lifetime.mpr ⟨name, rfl, rfl⟩, fun hafter => hbegins _ hafter,
    fun h => ⟨h.lifetime, h.tail.tail⟩, (Nat.le_succ _).trans (Nat.le_succ _)⟩

/-- A word that begins no path is read again. -/
theorem keyword_run {text : String} {operators : List String}
    (h : (keyword text).Reads tokens node rest) (htext : isPathWord [.word text] = false)
    (hends : ∀ after, ends after → text ∉ boundWords → Alike true rest after) :
    Run level (fun _ => keyword text) ends (Same operators tokens) tokens node rest
      node.leaves := by
  refine keyword_bare h fun after hafter => ?_
  obtain ⟨rfl, -⟩ := reads_keyword.mp h
  exact .keyword htext (hends _ hafter)

theorem anyWord_run {text : String} {operators : List String} (h : anyWord.Reads tokens text rest)
    (hends : ∀ after, ends after → Alike true rest after)
    (hnameEnds : ∀ after, ends after → ∀ longer ∈ nameEnds, longer ∈ operators →
      isOp longer after = isOp longer rest) :
    Run level (fun _ => anyWord) ends (Same operators tokens) tokens text rest [.word text] := by
  refine anyWord_bare h fun after hafter => ?_
  obtain rfl := reads_anyWord.mp h
  exact .name (hends _ hafter) (hnameEnds _ hafter)

theorem identifier_run {text : String} {operators : List String}
    (h : identifier.Reads tokens text rest)
    (hends : ∀ after, ends after → Alike true rest after)
    (hnameEnds : ∀ after, ends after → ∀ longer ∈ nameEnds, longer ∈ operators →
      isOp longer after = isOp longer rest) :
    Run level (fun _ => identifier) ends (Same operators tokens) tokens text rest [.word text] := by
  refine identifier_bare h fun after hafter => ?_
  obtain ⟨rfl, -⟩ := reads_identifier.mp h
  exact .name (hends _ hafter) (hnameEnds _ hafter)

theorem lifetime_run {operators : List String} (h : lifetime.Reads tokens node rest)
    (hends : ∀ after, ends after → Alike true rest after) :
    Run level (fun _ => lifetime) ends (Same operators tokens) tokens node rest node.leaves := by
  refine lifetime_bare h fun after hafter => ?_
  obtain ⟨name, rfl, rfl⟩ := reads_lifetime.mp h
  exact .lifetime (hends _ hafter)

theorem anyGroup_run {operators : List String} {found : Delimiter × Node}
    (h : anyGroup.Reads tokens found rest) :
    Run level (fun _ => anyGroup) ends (Same operators tokens) tokens found rest
      found.2.leaves := by
  obtain ⟨delimiter, body, rfl, rfl⟩ := reads_anyGroup.mp h
  simp only [Node.leaves_group, List.flatMap_cons, List.flatMap_nil, Node.leaves_verbatim,
    List.append_nil]
  exact ⟨fun _ _ => reads_anyGroup.mpr ⟨delimiter, body, rfl, rfl⟩, fun _ => .group,
    fun h => ⟨.group h.body .nil, h.tail⟩, Nat.le_succ _⟩

/-- A minus before a number is no other operator. -/
theorem same_minus {operators : List String} {spacing : Spacing} {text : String}
    {rest after : List Token} :
    Same operators (.mark '-' spacing :: .literal text :: rest)
      (.mark '-' .alone :: .literal text :: after) := by
  have hop : afterOperator? ['-'] (.mark '-' spacing :: .literal text :: rest) =
      some (.literal text :: rest) := rfl
  refine same_operator hop (by decide) (by decide) (fun _ => .literal rfl)
    (fun longer _ hprefix => ?_) nofun
  obtain ⟨others, hothers⟩ := hprefix
  cases others with
  | nil => exact .inl hothers.symm
  | cons c more =>
    refine .inr ?_
    rw [isOp, ← hothers]
    cases spacing with
    | alone => rfl
    | joint => simp [afterOperator?]

/-- A literal is read again as the token that it is, or as a minus and a number. -/
theorem literal_run {operators : List String} (h : Parser.literal.Reads tokens node rest)
    (hends : ∀ after, ends after → Alike true rest after) :
    Run level (fun _ => Parser.literal) ends (Same operators tokens) tokens node rest
      node.leaves := by
  unfold Reads Parser.literal at h
  split at h
  · rename_i text left
    obtain ⟨rfl, rfl, -⟩ := (Found.mk.injEq ..).mp (Except.ok.inj h)
    exact ⟨fun _ _ => rfl, fun _ => .literal rfl, fun h => ⟨h.literal, h.tail⟩, Nat.le_succ _⟩
  · rename_i text left
    split at h
    · rename_i htext
      obtain ⟨rfl, rfl, -⟩ := (Found.mk.injEq ..).mp (Except.ok.inj h)
      refine ⟨fun _ _ => ?_, fun hafter => .keyword ?_ fun _ => hends _ hafter,
        fun h => ⟨h.word, h.tail⟩, Nat.le_succ _⟩
      · simp only [Reads, Parser.literal, Node.leaves_branch, List.flatMap_cons, List.flatMap_nil,
          Node.leaves_word, List.append_nil, List.cons_append, List.nil_append, htext, if_true]
      · rcases Bool.or_eq_true_iff.mp htext with heq | heq
        · rw [beq_iff_eq.mp heq]
          decide
        · rw [beq_iff_eq.mp heq]
          decide
    · contradiction
  · rename_i spacing text left
    split at h
    · rename_i htext
      obtain ⟨rfl, rfl, -⟩ := (Found.mk.injEq ..).mp (Except.ok.inj h)
      refine ⟨fun _ _ => ?_, fun _ => same_minus, fun h => ⟨?_, h.tail.tail⟩,
        (Nat.le_succ _).trans (Nat.le_succ _)⟩
      · simp [Reads, Parser.literal, ofOperator, htext]
      · exact Written.append (h.mark (by decide)) (Written.literal h.tail)
    · contradiction
  · contradiction

/-! ### What may be left out -/

section Optional

variable {operators : List String} {nodes : List Node}

/-- An operator that may be left out is told from all others. -/
theorem operator?_run {text : String} (h : (operator? text).Reads tokens nodes rest)
    (hclear : IsClear operators text)
      (hlook : (text.toList.length = 1 ∧ IsSeen text) ∨ text ∈ operators) :
    Run level (fun _ => operator? text) (Same operators rest) (Same operators tokens) tokens nodes
      rest (nodes.flatMap Node.leaves) := by
  refine .onlyIf .none h (fun _ hreads => ?_) (fun _ heq after => heq ▸ id)
    fun again hagain => hagain.isOp text hlook
  obtain ⟨node, hnode, rfl⟩ := reads_one.mp hreads
  exact (clear_run hnode hclear).one.cast (List.append_nil _).symm

/-- Two colons that may be left out. -/
theorem colons?_run (h : (operator? "::").Reads tokens nodes rest) :
    Run level (fun _ => operator? "::") (Same openers rest) (Same openers tokens) tokens nodes rest
      (nodes.flatMap Node.leaves) := by
  refine .onlyIf .none h (fun _ hreads => ?_) (fun _ heq after => heq ▸ id)
    fun again hagain => hagain.isOp "::" (by decide)
  obtain ⟨node, hnode, rfl⟩ := reads_one.mp hreads
  exact (colons_run hnode (by decide) fun _ h => h.alike.weaken).one.cast (List.append_nil _).symm

theorem keyword?_run {text : String} (h : (keyword? text).Reads tokens nodes rest)
    (htext : isPathWord [.word text] = false) :
    Run level (fun _ => keyword? text) (Same operators rest) (Same operators tokens) tokens nodes
      rest (nodes.flatMap Node.leaves) := by
  refine .onlyIf .none h (fun _ hreads => ?_) (fun _ heq after => heq ▸ id)
    fun again hagain => hagain.alike.isWord text
  obtain ⟨node, hnode, rfl⟩ := reads_one.mp hreads
  exact (keyword_run hnode htext fun _ h _ => h.alike).one.cast (List.append_nil _).symm

theorem lifetime?_run (h : lifetime?.Reads tokens nodes rest) :
    Run level (fun _ => lifetime?) (Same operators rest) (Same operators tokens) tokens nodes rest
      (nodes.flatMap Node.leaves) := by
  refine .onlyIf .none h (fun _ hreads => ?_) (fun _ heq after => heq ▸ id)
    fun again hagain => hagain.alike.isLifetime
  obtain ⟨node, hnode, rfl⟩ := reads_one.mp hreads
  exact (lifetime_run hnode fun _ h => h.alike).one.cast (List.append_nil _).symm

end Optional

end Run

end Typestate.Grammar
