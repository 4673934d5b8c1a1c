import Typestate.Proofs.Rereading.Pattern

/-!
# Branches and loops, read again

A word begins each of them, and a block ends it, so that nothing has to stand behind them but what
goes on with a choice.
-/

namespace Typestate.Grammar

open Grammar.Parser Lexer Token

section Branch

variable {level : ℕ} {sorts : Sorts} {operators : List String} {tokens rest : List Token}
  {ends : List Token → Prop} {node : Node}

/-! ### What an expression looks like from before -/

/-- What begins with no name is no call of a macro. -/
theorem callStatement_of_not (hword : isPathWord tokens = false)
    (hcolons : isOp "::" tokens = false) :
    callStatement tokens = .expression := by
  cases hfound : plainPath tokens with
  | error mismatch => rw [callStatement, hfound]
  | ok found =>
    obtain ⟨leading, more, hleading, hnames, -⟩ := bind_eq_ok.mp hfound
    have hnone : operator? "::" tokens = .ok ⟨[], tokens, none⟩ := by
      simp [operator?, Parser.onlyIf, hcolons]
    obtain rfl := Except.ok.inj (hnone.symm.trans hleading)
    rw [ahead_bind, if_neg (Bool.eq_false_iff.mp hword)] at hnames
    obtain ⟨name, _, hname, -, -⟩ := bind_eq_ok.mp hnames
    cases tokens with
    | nil => contradiction
    | cons token others =>
      cases token with
      | word text =>
        have hnot : Word.isIdentifier text = false := (Bool.or_eq_false_iff.mp hword).1
        simp [identifier, hnot] at hname
      | _ => contradiction

/-- What begins with no name looks from before as an expression does. -/
theorem Same.expression {again : List Token} (h : Same openers tokens again)
    (hword : isPathWord tokens = false) (hcolons : Grammar.isOp "::" tokens = false)
    (hfor : Grammar.isWord "for" tokens = false) (htry : Grammar.isWord "try" tokens = false) :
    SameExpression tokens again where
  toSame := h
  callStatement := by
    rw [callStatement_of_not hword hcolons, callStatement_of_not (h.alike.isPathWord.trans hword)
      ((h.isOp "::" (by decide)).trans hcolons)]
  beginsBinder := by
    rw [Grammar.beginsBinder, Grammar.beginsBinder, h.alike.isWord, hfor]
    rfl
  tryMark hthere := by
    rw [htry] at hthere
    contradiction

/-- A construct that begins with no name is read again, and attributes may be put in front of it. -/
structure BranchRun (operators : List String) (level : ℕ) (parser : Sorts → Parser Node)
    (tokens : List Token) (node : Node) (rest : List Token) : Prop where
  run : Run level parser (Same operators rest) (Same openers tokens) tokens node rest node.leaves
  isOperand : node.isOperand = true
  leaves_ne : node.leaves ≠ []
  beginsBlock : node.isBlockLike = true → beginsBlock tokens = true

/-- A construct that begins with no name is an atom. -/
theorem BranchRun.atom {parser : Sorts → Parser Node}
    (h : BranchRun operators level parser tokens node rest)
    (hword : isPathWord tokens = false) (hcolons : isOp "::" tokens = false)
    (hfor : isWord "for" tokens = false) (htry : isWord "try" tokens = false) :
    AtomRun operators level parser tokens node rest :=
  ⟨h.run.mono (fun _ => id) fun _ h => h.expression hword hcolons hfor htry, h.isOperand,
    h.leaves_ne, fun _ => h.beginsBlock⟩

theorem BranchRun.atom_of_word {parser : Sorts → Parser Node} {text : String}
    (h : BranchRun operators level parser tokens node rest) (hlook : isWord text tokens = true)
    (htext : isPathWord [.word text] = false) (hfor : text ≠ "for") (htry : text ≠ "try") :
    AtomRun operators level parser tokens node rest := by
  obtain ⟨others, rfl⟩ := eq_of_isWord hlook
  exact h.atom htext (isOp_word ..) (by simpa [isWord] using hfor) (by simpa [isWord] using htry)

/-- An expression in front of a block is read again. -/
theorem head_run (hsorts : sorts.Replays) (hlevel : 1 ≤ level)
    (h : sorts.head.Reads tokens node rest) (hnode : node.isExplicit = true) :
    Run level (fun sorts => sorts.head) (Same expressionEnds rest) (SameExpression tokens) tokens
      node rest node.leaves :=
  (hsorts.expressionWhere h hnode).run.raise hlevel

/-! ### Choices by conditions -/

/-- What stands behind `else`. -/
def otherwiseFrom (rounds : ℕ) (tokens : List Token) (sorts : Sorts) : Parser Node :=
  if isWord "if" tokens then ifElse sorts rounds
  else if isGroup .brace tokens then block sorts
  else expected ["`if`", "curly braces"]

theorem ifElse_succ (sorts : Sorts) (rounds : ℕ) : ifElse sorts (rounds + 1) =
    keyword "if" >>= fun word => sorts.head >>= fun condition => block sorts >>= fun body =>
      ahead >>= fun tokens => if isWord "else" tokens then
        keyword "else" >>= fun between => ahead >>= fun tokens =>
          otherwiseFrom rounds tokens sorts >>= fun otherwise =>
            pure (.branch .ifElse [word, condition, body, between, otherwise])
      else pure (.branch .ifElse [word, condition, body]) := by
  simp only [ifElse, ite_bind, otherwiseFrom]

/-- A choice by conditions is read again. -/
theorem ifElse_run (hsorts : sorts.Replays) {rounds : ℕ}
    (h : (ifElse sorts rounds).Reads tokens node rest) (hnode : node.isExplicit = true) :
    ∀ {level rounds' : ℕ}, node.leaves.length < rounds' →
      BranchRun operators level (fun sorts => ifElse sorts rounds') tokens node rest := by
  induction rounds generalizing tokens node with
  | zero => exact absurd h not_reads_fail
  | succ rounds ih =>
    intro level rounds' hrounds
    rw [ifElse_succ] at h
    obtain ⟨word, mid, hword, h⟩ := reads_bind.mp h
    obtain ⟨condition, left, hcondition, h⟩ := reads_bind.mp h
    obtain ⟨body, last, hbody, h⟩ := reads_bind.mp h
    obtain ⟨more, rfl⟩ : ∃ more, rounds' = more + 1 := ⟨rounds' - 1, by omega⟩
    have hkeyword : Run level (fun _ => keyword "if") (SameExpression mid) (Same openers tokens)
        tokens word mid word.leaves := keyword_run hword rfl fun _ h _ => h.alike
    obtain ⟨rfl, rfl⟩ := reads_keyword.mp hword
    have hhead : condition.isExplicit = true → Run (level + 8) (fun sorts => sorts.head)
        (Same expressionEnds left) (SameExpression mid) mid condition left condition.leaves :=
      head_run hsorts (by omega) hcondition
    have hblock : ∀ {operators}, body.isExplicit = true →
        Run (level + 8) block (Same operators last)
          (Same expressionEnds left) left body last body.leaves := block_run hsorts hbody
    rw [show (fun sorts => ifElse sorts (more + 1)) = _ from
      funext fun sorts => ifElse_succ sorts more]
    rcases reads_ite.mp (reads_ahead.mp h) with ⟨helse, h⟩ | ⟨hnot, hpure⟩
    · obtain ⟨between, next, hbetween, h⟩ := reads_bind.mp h
      obtain ⟨otherwise, final, hotherwise, hpure⟩ := reads_bind.mp (reads_ahead.mp h)
      obtain ⟨rfl, rfl⟩ := reads_pure.mp hpure
      have hparts := Node.isExplicit_parts hnode rfl
      have hbetweenRun : Run (level + 8) (fun _ => keyword "else") (Same openers next)
          (Same expressionEnds last) last between next between.leaves :=
        keyword_run hbetween rfl fun _ h _ => h.alike
      have hfits : otherwise.leaves.length < more := by
        simp at hrounds
        omega
      have hother : Run (level + 8) (otherwiseFrom more next) (Same operators final)
          (Same openers next) next otherwise final otherwise.leaves := by
        unfold otherwiseFrom at hotherwise ⊢
        rcases reads_ite.mp hotherwise with ⟨hif, h⟩ | ⟨hnot, h⟩
        · simp only [if_pos hif]
          exact (ih h (hparts otherwise (by simp)) hfits).run
        · simp only [if_neg hnot]
          exact .ite h (fun _ h => block_run hsorts h (hparts otherwise (by simp)))
            fun _ h => absurd h not_reads_expected
      refine ⟨.cast (.next _ hkeyword (by simp) (.bind _ (hhead (hparts condition (by simp)))
        (.bind (Same expressionEnds last) (hblock (hparts body (by simp)))
          (.ahead ?_ fun again sorts hagain => by
          rw [hagain.alike.isWord]))))
        (show [_] ++ (_ ++ (_ ++ (between.leaves ++ otherwise.leaves))) = _ by simp), rfl, by simp,
        fun _ => rfl⟩
      simp only [if_pos helse]
      refine .bind _ hbetweenRun (.ahead (hother.map _) fun again sorts hagain => ?_)
      rw [otherwiseFrom, otherwiseFrom, hagain.alike.isWord, hagain.alike.isGroup]
    · obtain ⟨rfl, rfl⟩ := reads_pure.mp hpure
      have hparts := Node.isExplicit_parts hnode rfl
      refine ⟨.cast (.next _ hkeyword (by simp) (.bind _ (hhead (hparts condition (by simp)))
        (.bind (Same operators last) (hblock (hparts body (by simp)))
          (.ahead ?_ fun again sorts hagain => by
          rw [hagain.alike.isWord])))) (show [_] ++ (_ ++ (_ ++ [])) = _ by simp), rfl, by simp,
        fun _ => rfl⟩
      simp only [if_neg hnot]
      exact .pure

/-- A choice by conditions is read again. -/
theorem ifExpression_run (hsorts : sorts.Replays) (h : (ifExpression sorts).Reads tokens node rest)
    (hnode : node.isExplicit = true) : BranchRun operators level ifExpression tokens node rest := by
  have hrun : ∀ rounds, node.leaves.length < rounds →
      BranchRun operators level (fun sorts => ifElse sorts rounds) tokens node rest :=
    fun _ => ifElse_run hsorts (reads_ahead.mp h) hnode
  have hlast := hrun _ (Nat.lt_succ_self _)
  exact ⟨.rounds fun rounds hrounds => (hrun rounds hrounds).run, hlast.isOperand, hlast.leaves_ne,
    hlast.beginsBlock⟩

/-! ### Loops and blocks -/

/-- A loop as long as a condition holds is read again. -/
theorem whileLoop_run (hsorts : sorts.Replays) (h : (whileLoop sorts).Reads tokens node rest)
    (hnode : node.isExplicit = true) : BranchRun operators level whileLoop tokens node rest := by
  obtain ⟨word, mid, hword, condition, left, hcondition, body, last, hbody, hpure⟩ := by
    simpa only [whileLoop, reads_bind] using h
  obtain ⟨rfl, rfl⟩ := reads_pure.mp hpure
  have hparts := Node.isExplicit_parts hnode rfl
  have hkeyword : Run level (fun _ => keyword "while") (SameExpression mid) (Same openers tokens)
      tokens word mid word.leaves := keyword_run hword rfl fun _ h _ => h.alike
  obtain ⟨rfl, rfl⟩ := reads_keyword.mp hword
  exact ⟨.cast (.next _ hkeyword (by simp) (.bind (Same expressionEnds left)
    (head_run hsorts (by omega) hcondition (hparts condition (by simp)))
    ((blockWithAttributes_run hsorts hbody (hparts body (by simp))).map _))) (by simp),
      rfl, by simp,
    fun _ => rfl⟩

variable (level operators) in
/-- A loop over the elements of a value is read again. -/
theorem forLoop_run (hsorts : sorts.Replays) (h : (forLoop sorts).Reads tokens node rest)
    (hnode : node.isExplicit = true) :
    Run level forLoop (Same operators rest) (SameExpression tokens) tokens node rest
      node.leaves := by
  obtain ⟨word, mid, hword, element, next, helement, between, left, hbetween, source, last, hsource,
    body, final, hbody, hpure⟩ := by simpa only [forLoop, reads_bind] using h
  obtain ⟨rfl, rfl⟩ := reads_pure.mp hpure
  have hparts := Node.isExplicit_parts hnode rfl
  have hkeyword : Run level (fun _ => keyword "for") (SamePattern mid) (SameExpression tokens)
      tokens word mid word.leaves := by
    refine keyword_bare hword fun after hafter => ?_
    rw [(reads_keyword.mp hword).1]
    have hsame : Same openers (.word "for" :: mid) (.word "for" :: after) :=
      .keyword rfl fun _ => hafter.alike
    exact ⟨hsame, by rw [callStatement_of_not rfl (isOp_word ..),
      callStatement_of_not rfl (isOp_word ..)],
      by simp [beginsBinder, isWord, hafter.beginsParameters], by simp [isWord]⟩
  have hbetweenRun : Run (level + 8) (fun _ => keyword "in") (SameExpression left)
      (Same alternativesEnds next) next between left between.leaves :=
    keyword_run hbetween rfl fun _ h _ => h.alike
  obtain ⟨rfl, rfl⟩ := reads_keyword.mp hword
  exact .cast (.next _ hkeyword (by simp) (.bind _
    (alternatives_run hsorts (by omega) helement (hparts element (by simp))).1 (.bind _ hbetweenRun
    (.bind (Same expressionEnds last) (head_run hsorts (by omega) hsource (hparts source (by simp)))
    ((blockWithAttributes_run hsorts hbody (hparts body (by simp))).map _))))) (by simp)

/-- A loop over the elements of a value is read again as an expression, where no parameters are
bound behind its word. -/
theorem forLoop_atom (hsorts : sorts.Replays) (h : (forLoop sorts).Reads tokens node rest)
    (hnode : node.isExplicit = true) (hbinder : beginsBinder tokens = false) :
    AtomRun operators level forLoop tokens node rest := by
  have hrun := forLoop_run level operators hsorts h hnode
  obtain ⟨word, mid, hword, element, next, -, between, left, -, source, last, -, body, final, -,
    hpure⟩ := by simpa only [forLoop, reads_bind] using h
  obtain ⟨rfl, rfl⟩ := reads_pure.mp hpure
  obtain ⟨rfl, rfl⟩ := reads_keyword.mp hword
  refine ⟨hrun, rfl, by simp, fun _ _ => ?_⟩
  rw [beginsBlock, hbinder]
  rfl

/-- A word with a block behind it is read again. -/
theorem wordBlock_run {text : String} {block : Sorts → Parser Node} {word body : Node}
    {mid : List Token}
    (hword : (keyword text).Reads tokens word mid) (htext : isPathWord [.word text] = false)
    (hbody : Run (level + 8) block (Same operators rest) (Same openers mid) mid body rest
      body.leaves) {kind : Kind} (hkind : (Node.branch kind [word, body]).isOperand = true)
    (hbegins : beginsBlock tokens = true) :
    BranchRun operators level (fun sorts => do
      let word ← keyword text
      return .branch kind [word, ← block sorts]) tokens (.branch kind [word, body]) rest := by
  have hkeyword : Run level (fun _ => keyword text) (Same openers mid) (Same openers tokens)
      tokens word mid word.leaves := keyword_run hword htext fun _ h _ => h.alike
  obtain ⟨rfl, rfl⟩ := reads_keyword.mp hword
  exact ⟨.cast (.next _ hkeyword (by simp) (hbody.map _)) (by simp), hkind, by simp,
    fun _ => hbegins⟩

/-- A loop without an end is read again. -/
theorem endlessLoop_run (hsorts : sorts.Replays) (h : (endlessLoop sorts).Reads tokens node rest)
    (hnode : node.isExplicit = true) : BranchRun operators level endlessLoop tokens node rest := by
  obtain ⟨word, mid, hword, body, last, hbody, hpure⟩ := by
    simpa only [endlessLoop, reads_bind] using h
  obtain ⟨rfl, rfl⟩ := reads_pure.mp hpure
  refine wordBlock_run hword rfl
    (blockWithAttributes_run hsorts hbody (Node.isExplicit_parts hnode rfl body (by simp))) rfl ?_
  rw [(reads_keyword.mp hword).1]
  rfl

/-- A block by itself is read again. -/
theorem blockExpression_run (hsorts : sorts.Replays)
    (h : (blockExpression sorts).Reads tokens node rest) (hnode : node.isExplicit = true) :
    BranchRun operators level blockExpression tokens node rest := by
  obtain ⟨body, last, hbody, hpure⟩ := by simpa only [blockExpression, reads_bind] using h
  obtain ⟨rfl, rfl⟩ := reads_pure.mp hpure
  have hexplicit := Node.isExplicit_parts hnode rfl body (by simp)
  have hrun : Run level blockWithAttributes (Same operators last) (Same openers tokens)
      tokens body last body.leaves := blockWithAttributes_run hsorts hbody hexplicit
  obtain ⟨inner, nodes, rfl, -, rfl⟩ := reads_group.mp hbody
  exact ⟨(hrun.map _).cast (by simp), rfl, by simp, fun _ => rfl⟩

/-- A block after a word is read again. -/
theorem blockAfter_run {text : String} {kind : Kind} (hsorts : sorts.Replays)
    (htext : isPathWord [.word text] = false) (hkind : ∀ word body,
      holdsArguments kind [word, body] = false ∧ (Node.branch kind [word, body]).isOperand = true)
    (hbegins : ∀ body rest, beginsBlock (.word text :: .group .brace body :: rest) = true)
    (h : (blockAfter sorts text kind).Reads tokens node rest) (hnode : node.isExplicit = true) :
    BranchRun operators level (fun sorts => blockAfter sorts text kind) tokens node rest := by
  obtain ⟨word, mid, hword, body, last, hbody, hpure⟩ := by
    simpa only [blockAfter, reads_bind] using h
  obtain ⟨rfl, rfl⟩ := reads_pure.mp hpure
  have hexplicit := Node.isExplicit_parts hnode (hkind word body).1 body (by simp)
  refine wordBlock_run hword htext (blockWithAttributes_run hsorts hbody hexplicit)
    (hkind word body).2 ?_
  obtain ⟨inner, nodes, rfl, -, -⟩ := reads_group.mp hbody
  rw [(reads_keyword.mp hword).1]
  exact hbegins _ _

/-- A block whose failures stay inside is read again. -/
theorem tryBlock_run (hsorts : sorts.Replays) (h : (tryBlock sorts).Reads tokens node rest)
    (hnode : node.isExplicit = true) : AtomRun operators level tryBlock tokens node rest := by
  obtain ⟨word, mid, hword, body, last, hbody, hpure⟩ := by
    simpa only [tryBlock, reads_bind] using h
  obtain ⟨rfl, rfl⟩ := reads_pure.mp hpure
  have hexplicit := Node.isExplicit_parts hnode rfl body (by simp)
  obtain ⟨inner, nodes, rfl, -, rfl⟩ := reads_group.mp hbody
  have hblock : Run (level + 8) block (Same operators last)
      (fun again => ∃ inner' after, again = .group .brace inner' :: after)
      (.group .brace inner :: last) (.group .brace nodes) last
        (Node.group .brace nodes).leaves := by
    have hrun : Run (level + 8) block (Same operators last) (Same [] _) _ _ last _ :=
      block_run hsorts hbody hexplicit
    refine ⟨hrun.again, fun {after} _ => ⟨nodes.flatMap Node.leaves, after, ?_⟩, hrun.written,
      hrun.shorter⟩
    rw [Node.leaves_group]
    rfl
  have hkeyword : Run level (fun _ => keyword "try")
      (fun again => ∃ inner' after, again = .group .brace inner' :: after) (SameExpression tokens)
      tokens word (.group .brace inner :: last) word.leaves := by
    refine keyword_bare hword ?_
    rintro _ ⟨inner', after, rfl⟩
    rw [(reads_keyword.mp hword).1]
    exact ⟨.keyword rfl fun _ => .group, by rw [callStatement_of_not rfl (isOp_word ..),
      callStatement_of_not rfl (isOp_word ..)], rfl, fun _ => by simp [isOneOf, afterOne]⟩
  obtain ⟨rfl, rfl⟩ := reads_keyword.mp hword
  exact ⟨.cast (.next _ hkeyword (by simp) (hblock.map _)) (by simp), rfl, by simp, fun _ _ => rfl⟩

/-- A block of deferred code is read again. -/
theorem asyncBlock_run (hsorts : sorts.Replays) (h : (asyncBlock sorts).Reads tokens node rest)
    (hnode : node.isExplicit = true) : BranchRun operators level asyncBlock tokens node rest := by
  obtain ⟨word, mid, hword, capture, left, hcapture, body, last, hbody, hpure⟩ := by
    simpa only [asyncBlock, reads_bind] using h
  obtain ⟨rfl, rfl⟩ := reads_pure.mp hpure
  have hparts := Node.isExplicit_parts hnode rfl
  have hkeyword : Run level (fun _ => keyword "async") (Same openers mid) (Same openers tokens)
      tokens word mid word.leaves := keyword_run hword rfl fun _ h _ => h.alike
  obtain ⟨rfl, rfl⟩ := reads_keyword.mp hword
  exact ⟨.cast (.next _ hkeyword (by simp) (.bind _ (keyword?_run hcapture rfl)
    ((block_run hsorts hbody (hparts body (by simp))).map _))) (by simp), rfl, by simp,
    fun h => absurd h Bool.false_ne_true⟩

/-! ### Choices by patterns -/

/-- What stands between the arms of a choice and behind the last one. -/
def armComma (isBlockLike : Bool) (tokens : List Token) : Parser Node :=
  slotIf (fun left => !(isBlockLike || tokens.isEmpty) || isOp "," left) (operator ",")

theorem arm_eq (sorts : Sorts) : arm sorts = outerAttributes sorts >>= fun attributes =>
    alternatives sorts >>= fun shape =>
      (onlyIf (isWord "if") do return [← keyword "if", ← sorts.expression]) >>= fun guard =>
        operator "=>" >>= fun arrow => sorts.bodyExpression >>= fun body =>
          ahead >>= fun tokens => armComma body.isBlockLike tokens >>= fun comma =>
            pure (.construct .arm attributes
              [.branch .start (shape :: guard ++ [arrow]), body, comma]) := rfl

/-- The body of an arm and the comma behind it are read again. -/
theorem armBody_run {body comma : Node} {mid : List Token} (hsorts : sorts.Replays)
    (hbody : sorts.bodyExpression.Reads tokens body mid) (hexplicit : body.isExplicit = true)
    (hcomma : (armComma body.isBlockLike mid).Reads mid comma rest) (f : Node → Node → Node) :
    Run (level + 2) (fun sorts => sorts.bodyExpression >>= fun body => ahead >>= fun tokens =>
      armComma body.isBlockLike tokens >>= fun comma => pure (f body comma)) (Same openers rest)
      (SameExpression tokens) tokens (f body comma) rest (body.leaves ++ comma.leaves) := by
  have hcommaRun : ∀ {operators ends}, IsClear operators "," → (operator ",").Reads mid comma rest →
      Run (level + 2) (fun _ => operator ",") ends (Same operators mid) mid comma rest
        comma.leaves := fun hclear h => clear_run h hclear
  cases hblock : body.isBlockLike with
  | true =>
    rw [hblock] at hcomma
    have hslot : Run (level + 2) (fun _ => armComma true mid) (Same openers rest)
        (Same openers mid) mid comma rest comma.leaves := by
      unfold armComma at hcomma ⊢
      exact .slotIf .none hcomma (fun _ h => hcommaRun (by decide) h) (fun _ heq after => heq ▸ id)
        fun again hagain => by simp [hagain.isOp "," (by decide)]
    refine .bind (Same openers mid)
      ((hsorts.bodyExpression_ends hbody hexplicit hblock (by decide)).raise
      (by omega)) (.ahead ?_ fun again sorts hagain => ?_)
    · rw [hblock]
      exact hslot.map _
    · simp only [armComma, hblock, Bool.true_or]
  | false =>
    rw [hblock] at hcomma
    have hslot : Run (level + 2) (fun _ => armComma false mid) (Same openers rest)
        (Same expressionEnds mid) mid comma rest comma.leaves := by
      unfold armComma at hcomma ⊢
      refine .slotIf .none hcomma (fun _ h => hcommaRun (by decide) h) (fun hnot heq after h => ?_)
        fun again hagain => by simp [hagain.isOp "," (by decide)]
      obtain rfl : mid = [] := by simpa using (Bool.or_eq_false_iff.mp hnot).1
      subst heq
      obtain rfl : after = [] := by simpa using h.alike.isEmpty
      exact .nil _
    refine .bind (Same expressionEnds mid) ((hsorts.bodyExpression hbody hexplicit).run.raise
      (by omega)) (.ahead ?_ fun again sorts hagain => ?_)
    · rw [hblock]
      exact hslot.map _
    · rw [armComma, armComma, hagain.alike.isEmpty]

variable (level) in
/-- The arm of a choice by patterns is read again. -/
theorem arm_run (hsorts : sorts.Replays) (h : (arm sorts).Reads tokens node rest)
    (hnode : node.isExplicit = true) :
    Run (level + 2) arm (Same openers rest) (Same openers tokens) tokens node rest node.leaves ∧
      node.leaves ≠ [] := by
  rw [arm_eq] at h
  obtain ⟨attributes, mid, hattributes, h⟩ := reads_bind.mp h
  obtain ⟨shape, left, hshape, h⟩ := reads_bind.mp h
  obtain ⟨guard, next, hguard, h⟩ := reads_bind.mp h
  obtain ⟨arrow, last, harrow, h⟩ := reads_bind.mp h
  obtain ⟨body, final, hbody, h⟩ := reads_bind.mp h
  obtain ⟨comma, _, hcomma, hpure⟩ := reads_bind.mp (reads_ahead.mp h)
  obtain ⟨rfl, rfl⟩ := reads_pure.mp hpure
  obtain ⟨-, -, hleading, hparts⟩ := (Node.isExplicit_construct rfl).mp hnode
  have hstart := Node.isExplicit_parts
    (hparts (.branch .start (shape :: guard ++ [arrow])) (by simp)) rfl
  have hguardRun : Run (level + 2) (fun sorts => onlyIf (isWord "if") do
      return [← keyword "if", ← sorts.expression]) (Same expressionEnds next)
      (Same alternativesEnds left) left guard next (guard.flatMap Node.leaves) := by
    refine .onlyIf sorts hguard (fun _ h => ?_)
      (fun _ heq after h => heq ▸ h.mono (by decide)) fun _ h => h.alike.isWord _
    obtain ⟨word, mid, hword, value, last, hvalue, hpure⟩ := by simpa only [reads_bind] using h
    obtain ⟨rfl, rfl⟩ := reads_pure.mp hpure
    exact .cast (.bind (SameExpression mid) (keyword_run hword rfl fun _ h _ => h.alike)
      (((hsorts.expressionWhere hvalue (hstart value (by simp))).run.raise (by omega)).map _))
        (by simp)
  have harrowRun : Run (level + 2) (fun _ => operator "=>") (SameExpression last)
      (Same expressionEnds next) next arrow last arrow.leaves := clear_run harrow (by decide)
  rw [show arm = _ from funext arm_eq]
  refine ⟨.cast (.bind (Same openers mid) (outerAttributes_run hsorts hattributes hleading
    (fun h => h.isOp "#" (by decide)) fun _ h => h) (.bind _
      ((alternatives_run hsorts (by omega) hshape (hstart shape (by simp))).1.mono (fun _ => id)
        fun _ h => h.toSame) (.bind _ hguardRun (.bind _ harrowRun
          (armBody_run hsorts hbody (hparts body (by simp)) hcomma fun body comma =>
            .construct .arm attributes
              [.branch .start (shape :: guard ++ [arrow]), body, comma]))))) (by simp), ?_⟩
  have hne := (hsorts.bodyExpression hbody (hparts body (by simp))).leaves_ne
  simp [hne]

/-- A choice by patterns is read again. -/
theorem matchExpression_run (hsorts : sorts.Replays)
    (h : (matchExpression sorts).Reads tokens node rest) (hnode : node.isExplicit = true) :
    BranchRun operators level matchExpression tokens node rest := by
  obtain ⟨word, mid, hword, h⟩ := reads_bind.mp h
  obtain ⟨subject, left, hsubject, h⟩ := reads_bind.mp h
  obtain ⟨arms, last, harms, hpure⟩ := reads_bind.mp h
  obtain ⟨rfl, rfl⟩ := reads_pure.mp hpure
  have hparts := Node.isExplicit_parts hnode rfl
  obtain ⟨body, nodes, rfl, hbody, rfl⟩ := reads_group.mp harms
  have hnodes := Node.isExplicit_group.mp (hparts (.group .brace nodes) (by simp))
  obtain ⟨attributes, next, hattributes, found, final, hfound, hpure⟩ := by
    simpa only [reads_bind] using hbody
  obtain ⟨rfl, rfl⟩ := reads_pure.mp hpure
  have hkeyword : Run level (fun _ => keyword "match") (SameExpression mid) (Same openers tokens)
      tokens word mid word.leaves := keyword_run hword rfl fun _ h _ => h.alike
  obtain ⟨rfl, rfl⟩ := reads_keyword.mp hword
  have hfoundRun :
    Run 8 (fun sorts => repeatWhile (fun tokens => !tokens.isEmpty) (one (arm sorts)))
      (Same openers []) (Same openers next) next found [] (found.flatMap Node.leaves) := by
    refine repeatWhile_run Node.leaves (fun node => node.isExplicit = true)
      (fun hagain => by rw [hagain.alike.isEmpty]) (fun _ hitem hexplicit => ?_) hfound
      fun node hmem => hnodes node (by simp [hmem])
    obtain ⟨shape, hshape, rfl⟩ := reads_one.mp hitem
    obtain ⟨hrun, hne⟩ := arm_run 6 hsorts hshape (hexplicit shape (by simp))
    exact ⟨by simpa using hne, hrun.one.cast (List.append_nil _).symm⟩
  have hinner : Run 8 (fun sorts => innerAttributes sorts >>= fun attributes =>
      repeatWhile (fun tokens => !tokens.isEmpty) (one (arm sorts)) >>= fun arms =>
        pure (attributes ++ arms)) (· = []) (Same openers body) body (attributes ++ found) []
      ((attributes ++ found).flatMap Node.leaves) := by
    refine .mono (.cast (.bind _ (innerAttributes_run hsorts hattributes
      (fun node hmem => hnodes node (by simp [hmem])) (by decide) (by decide)) (hfoundRun.map _))
      (by simp)) (fun after heq => ?_) fun _ => id
    subst heq
    exact .nil _
  exact ⟨.cast (.next _ hkeyword (by simp) (.bind _
    (head_run hsorts (by omega) hsubject (hparts subject (by simp)))
    ((hinner.group expressionEnds).map _))) (by simp), rfl, by simp, fun _ => rfl⟩

/-! ### Labels -/

/-- What may have a label. -/
def labelledBody (tokens : List Token) (sorts : Sorts) : Parser Node :=
  if isWord "while" tokens then whileLoop sorts
  else if isWord "for" tokens then forLoop sorts
  else if isWord "loop" tokens then endlessLoop sorts
  else if isGroup .brace tokens then blockExpression sorts
  else expected ["loop or block expression"]

theorem labelled_eq (sorts : Sorts) : labelled sorts = lifetime >>= fun label =>
    operator ":" >>= fun colon => ahead >>= fun tokens => labelledBody tokens sorts >>= fun body =>
      pure (.branch .labelled [label, colon, body]) := by
  simp only [labelled, ite_bind, labelledBody]

variable (level) in
/-- What may have a label is read again. -/
theorem labelledBody_run (hsorts : sorts.Replays)
    (h : (labelledBody tokens sorts).Reads tokens node rest) (hnode : node.isExplicit = true) :
    Run level (labelledBody tokens) (Same operators rest) (Same openers tokens) tokens node rest
      node.leaves ∧ FollowsColon tokens := by
  unfold labelledBody at h ⊢
  constructor
  · exact .ite h (fun _ h => (whileLoop_run hsorts h hnode).run) fun _ h =>
      .ite h (fun _ h => (forLoop_run level _ hsorts h hnode).mono (fun _ => id) fun _ h =>
        h.toSame)
      fun _ h => .ite h (fun _ h => (endlessLoop_run hsorts h hnode).run) fun _ h =>
      .ite h (fun _ h => (blockExpression_run hsorts h hnode).run)
      fun _ h => absurd h not_reads_expected
  · rcases reads_ite.mp h with ⟨hlook, -⟩ | ⟨-, h⟩
    · exact .of_glance hlook fun _ _ => rfl
    rcases reads_ite.mp h with ⟨hlook, -⟩ | ⟨-, h⟩
    · exact .of_glance hlook fun _ _ => rfl
    rcases reads_ite.mp h with ⟨hlook, -⟩ | ⟨-, h⟩
    · exact .of_glance hlook fun _ _ => rfl
    rcases reads_ite.mp h with ⟨hlook, -⟩ | ⟨-, h⟩
    · exact .of_glance hlook fun _ _ => rfl
    · exact absurd h not_reads_expected

/-- A loop or a block with a label is read again. -/
theorem labelled_run (hsorts : sorts.Replays) (h : (labelled sorts).Reads tokens node rest)
    (hnode : node.isExplicit = true) : BranchRun operators level labelled tokens node rest := by
  rw [labelled_eq] at h
  obtain ⟨label, mid, hlabel, h⟩ := reads_bind.mp h
  obtain ⟨colon, left, hcolon, h⟩ := reads_bind.mp h
  obtain ⟨body, last, hbody, hpure⟩ := reads_bind.mp (reads_ahead.mp h)
  obtain ⟨rfl, rfl⟩ := reads_pure.mp hpure
  have hparts := Node.isExplicit_parts hnode rfl
  obtain ⟨hrun, hfollows⟩ := labelledBody_run level hsorts hbody (hparts body (by simp))
  rw [show labelled = _ from funext labelled_eq]
  refine ⟨.cast (.bind (Same [] mid) (lifetime_run hlabel fun _ h => h.alike)
    (.bind (Same openers left)
    (colon_run hcolon (by decide) (hfollows.isInputTurbofish hcolon)) (.ahead (hrun.map _)
      fun again sorts hagain => by
        simp only [labelledBody, hagain.alike.isWord, hagain.alike.isGroup]))) (by simp),
          rfl, ?_, ?_⟩
  · obtain ⟨name, -, rfl⟩ := reads_lifetime.mp hlabel
    simp [ofLifetime]
  · obtain ⟨name, rfl, -⟩ := reads_lifetime.mp hlabel
    exact fun _ => rfl

end Branch

end Typestate.Grammar
