import Typestate.Proofs.Code.Automaton
import Typestate.Proofs.Code.Slots
import Typestate.Proofs.Lattice.Walk
import Typestate.Proofs.Target.Collecting

/-!
# Supplying members

The code of a builder and its factory runs on records of slots: the factory fills them all, a method
that supplies a member copies them all and sets one, and building reads them. Copies are equal to
what is copied, and the defaults give values; what values are is left open. Along every walk through
the lattice the slot of a member then holds what has been supplied for it, and its default if it may
be left out, so where a value can be built no slot that is read is empty.
-/

namespace Typestate

open Token

/-- What a slot holds. -/
inductive Held (V : Type) where
  /-- An option without a value. -/
  | empty
  /-- An option with a value. -/
  | filled (value : V)
  /-- A value by itself. -/
  | plain (value : V)

/-- A value by itself, if that is held. -/
def Held.value? {V : Type} : Held V → Option V
  | .plain value => some value
  | .empty => none
  | .filled _ => none

/-- The slots of one builder by their names, with what they hold. -/
abbrev Contents (V : Type) := List (String × Held V)

/-- The contents after a slot has been set. -/
def Contents.set {V : Type} (contents : Contents V) (slot : String) (held : Held V) : Contents V :=
  contents.map fun entry => if entry.1 = slot then (slot, held) else entry

section Running

variable {V : Type} (evaluate : List Token → V)

/-- What an expression gives in a builder with the given contents when the given value is being
supplied. It gives nothing if a slot or the value is missing, or if the value is taken out of a slot
that is not an option with a value. -/
def SlotExpression.eval (contents : Contents V) (given : Option V) :
    SlotExpression → Option (Held V)
  | .nothing => some .empty
  | .supplied => given.map Held.filled
  | .value => given.map Held.plain
  | .copy slot => contents.lookup slot
  | .taken slot =>
    match contents.lookup slot with
    | some (.filled inside) => some (.plain inside)
    | _ => none
  | .expression tokens => some (.plain (evaluate tokens))

/-- The contents that a literal of the builder gives, if all its expressions give something. -/
def literalContents (contents : Contents V) (slots : List (String × SlotExpression)) :
    Option (Contents V) :=
  slots.mapM fun slot => (slot.2.eval evaluate contents none).map fun held => (slot.1, held)

namespace BuilderCode

/-- The contents of a builder that the factory makes. -/
def start (code : BuilderCode) : Option (Contents V) := literalContents evaluate [] code.seeded

/-- The contents of the builder that a method gives back for a value. -/
def supply (code : BuilderCode) (contents : Contents V) (name : String) (value : V) :
    Option (Contents V) := do
  let method ← code.supplies.find? fun method => method.name == name
  let next ← literalContents evaluate contents code.copied
  let held ← method.stored.eval evaluate contents (some value)
  return next.set method.slot held

/-- The contents after members have been supplied one after another from the start. -/
def run (code : BuilderCode) (calls : List (Member × V)) : Option (Contents V) := do
  let contents ← code.start evaluate
  calls.foldlM (fun contents call => code.supply evaluate contents (Naming.method call.1) call.2)
    contents

end BuilderCode

/-- The values that are read when a value of the target is built, from first to last, if none is
missing. -/
def BuildCode.values? (build : BuildCode) (contents : Contents V) : Option (List V) :=
  build.expressions.mapM fun expression =>
    (expression.eval evaluate contents none).bind Held.value?

/-- What the slot of a member holds when the given value has been supplied, or none has. -/
def Member.held (member : Member) (given : Option V) : Held V :=
  match given with
  | some value => if member.mandatory then .filled value else .plain value
  | none => if member.mandatory then .empty else .plain (evaluate member.default.tokens)

/-- The value that is read of the slot of a member, if there is one. -/
def Member.value? (member : Member) (given : Option V) : Option V :=
  given.or (if member.mandatory then none else some (evaluate member.default.tokens))

/-- The slots of members, each with what it holds by the value that is given for it. -/
def Contents.ofMembers (members : List Member) (given : Member → Option V) : Contents V :=
  members.map fun member => (member.name, member.held evaluate (given member))

end Running

/-! ### Records of members -/

section Records

variable {V : Type} {evaluate : List Token → V} {members : List Member} {given : Member → Option V}

/-- The expressions of a literal that are given member by member. -/
theorem literalContents_eq_some {contents : Contents V} {expression : Member → SlotExpression}
    (heval : ∀ member ∈ members,
      (expression member).eval evaluate contents none =
        some (member.held evaluate (given member))) :
    literalContents evaluate contents
        (members.map fun member => (member.name, expression member)) =
      some (.ofMembers evaluate members given) := by
  rw [literalContents]
  induction members with
  | nil => rfl
  | cons member rest ih =>
    obtain ⟨hmember, hrest⟩ := List.forall_mem_cons.mp heval
    rw [List.map_cons, List.mapM_cons, hmember, ih hrest]
    rfl

/-- The slot of a member is found by its name. -/
theorem lookup_ofMembers (hnodup : (members.map Member.name).Nodup) {member : Member}
    (hmember : member ∈ members) :
    (Contents.ofMembers evaluate members given).lookup member.name =
      some (member.held evaluate (given member)) := by
  induction members with
  | nil => exact absurd hmember List.not_mem_nil
  | cons first rest ih =>
    obtain ⟨hfirst, hrest⟩ := List.nodup_cons.mp hnodup
    rw [Contents.ofMembers, List.map_cons, List.lookup_cons]
    rcases List.mem_cons.mp hmember with rfl | hmember
    · rw [beq_self_eq_true]
    · have hne : member.name ≠ first.name :=
        fun hsame => hfirst (hsame ▸ List.mem_map_of_mem hmember)
      rw [beq_eq_false_iff_ne.mpr hne]
      exact ih hrest hmember

/-- Setting the slot of a member changes what is given for this member. -/
theorem set_ofMembers (hnodup : (members.map Member.name).Nodup) {member : Member}
    (hmember : member ∈ members) (value : V) :
    (Contents.ofMembers evaluate members given).set member.name
        (member.held evaluate (some value)) =
      .ofMembers evaluate members (Function.update given member (some value)) := by
  rw [Contents.set, Contents.ofMembers, Contents.ofMembers, List.map_map]
  refine List.map_congr_left fun other hother => ?_
  rw [Function.comp_apply]
  by_cases hsame : other = member
  · rw [hsame, if_pos rfl, Function.update_self]
  · have hne : other.name ≠ member.name :=
      fun hname => hsame (List.inj_on_of_nodup_map hnodup hother hmember hname)
    rw [if_neg hne, Function.update_of_ne hsame]

/-- What is read of the slot of a member is its value, if there is one. -/
theorem eval_read (hnodup : (members.map Member.name).Nodup) {member : Member}
    (hmember : member ∈ members) :
    member.slotCode.read.eval evaluate (.ofMembers evaluate members given) none =
      (member.value? evaluate (given member)).map Held.plain := by
  have hlookup : (Contents.ofMembers evaluate members given).lookup member.name =
      some (member.held evaluate (given member)) := lookup_ofMembers hnodup hmember
  unfold Member.held at hlookup
  unfold Member.slotCode Member.value?
  cases hmandatory : member.mandatory with
  | true =>
    rw [hmandatory] at hlookup
    rw [if_pos rfl, Member.optionSlot, SlotExpression.eval, hlookup]
    cases given member with
    | none => rfl
    | some value => rfl
  | false =>
    rw [hmandatory] at hlookup
    rw [if_neg Bool.false_ne_true, Member.plainSlot, SlotExpression.eval, hlookup]
    cases given member with
    | none => rfl
    | some value => rfl

end Records

/-! ### Running the code of members -/

/-- Results of computations that all give something. -/
theorem isSome_mapM {A B : Type} {compute : A → Option B} {inputs : List A}
    (h : ∀ input ∈ inputs, (compute input).isSome) : (inputs.mapM compute).isSome := by
  induction inputs with
  | nil => rfl
  | cons input rest ih =>
    obtain ⟨hinput, hrest⟩ := List.forall_mem_cons.mp h
    obtain ⟨result, hresult⟩ := Option.isSome_iff_exists.mp hinput
    obtain ⟨results, hresults⟩ := Option.isSome_iff_exists.mp (ih hrest)
    rw [List.mapM_cons, hresult, hresults]
    rfl

namespace BuilderCode.Agrees

variable {V : Type} {evaluate : List Token → V} {code : BuilderCode} {members : MemberList}

/-- The factory makes a builder for which nothing has been given. -/
theorem start_eq (h : code.Agrees members) :
    code.start evaluate = some (.ofMembers evaluate members.toList fun _ => none) := by
  rw [start, h.seeded]
  refine literalContents_eq_some fun member hmember => ?_
  rw [Member.slotCode, Member.held]
  cases member.mandatory
  · rfl
  · rfl

/-- The method of a member is found by its name. -/
theorem find?_method (h : code.Agrees members) {member : Member}
    (hmember : member ∈ members.toList) :
    ∃ method, code.supplies.find? (fun method => method.name == Naming.method member) =
        some method ∧
      method.slot = member.name ∧ method.stored = member.slotCode.stored := by
  have hmethods : (members.toList.map Naming.method).Nodup :=
    (List.nodup_append.mp (List.nodup_append.mp h.nodup_methods).1).2.1
  have hfound : (code.supplies.map fun method => (method.name, method.slot, method.stored)).find?
      (fun method => method.1 == Naming.method member) =
        some (Naming.method member, member.name, member.slotCode.stored) := by
    rw [h.supplied, List.find?_map]
    exact congrArg (Option.map _) (find?_key hmethods hmember)
  rw [List.find?_map, Option.map_eq_some_iff] at hfound
  obtain ⟨method, hmethod, hsame⟩ := hfound
  obtain ⟨hslot, hstored⟩ := Prod.mk.inj (Prod.mk.inj hsame).2
  exact ⟨method, hmethod, hslot, hstored⟩

/-- **Step.** The method of a member gives a builder in which its value is given besides. -/
theorem supply_eq (h : code.Agrees members) {given : Member → Option V} {member : Member}
    (hmember : member ∈ members.toList) (value : V) :
    code.supply evaluate (.ofMembers evaluate members.toList given) (Naming.method member) value =
      some (.ofMembers evaluate members.toList (Function.update given member (some value))) := by
  obtain ⟨method, hmethod, hslot, hstored⟩ := h.find?_method hmember
  have hcopied : literalContents evaluate (.ofMembers evaluate members.toList given) code.copied =
      some (.ofMembers evaluate members.toList given) := by
    rw [h.copied]
    exact literalContents_eq_some fun other hother => lookup_ofMembers h.nodup_names hother
  have hheld : ∀ contents : Contents V, method.stored.eval evaluate contents (some value) =
      some (member.held evaluate (some value)) := by
    intro contents
    rw [hstored, Member.slotCode, Member.held]
    cases member.mandatory
    · rfl
    · rfl
  rw [supply, hmethod, hcopied, Option.bind_eq_bind, Option.bind_some, Option.bind_eq_bind,
    Option.bind_some, hheld, Option.bind_eq_bind, Option.bind_some, hslot]
  exact congrArg some (set_ofMembers h.nodup_names hmember value)

/-- **Run.** After any calls of methods of members, what is given for a member is the value of its
last call. -/
theorem run_eq (h : code.Agrees members) {calls : List (Member × V)}
    (hcalls : ∀ call ∈ calls, call.1 ∈ members.toList) :
    code.run evaluate calls =
      some (.ofMembers evaluate members.toList fun member => calls.reverse.lookup member) := by
  induction calls using List.reverseRecOn with
  | nil => exact congrArg (Option.bind · some) h.start_eq
  | append_singleton calls call ih =>
    obtain ⟨hbefore, hlast⟩ := List.forall_mem_append.mp hcalls
    have hlookup : (fun member => (calls ++ [call]).reverse.lookup member) =
        Function.update (fun member => calls.reverse.lookup member) call.1 (some call.2) := by
      funext member
      rw [List.reverse_append, List.reverse_singleton, List.singleton_append, List.lookup_cons,
        Function.update_apply]
      by_cases hsame : member = call.1
      · rw [beq_iff_eq.mpr hsame, if_pos hsame]
      · rw [beq_eq_false_iff_ne.mpr hsame, if_neg hsame]
    have hconcat : code.run evaluate (calls ++ [call]) = (code.run evaluate calls).bind
        fun contents => code.supply evaluate contents (Naming.method call.1) call.2 := by
      rw [run, run, Option.bind_eq_bind, Option.bind_assoc]
      simp [List.foldlM_append]
    rw [hconcat, ih hbefore, Option.bind_some,
      h.supply_eq (hlast call (List.mem_singleton_self call)), hlookup]

/-- A value can be built if there is one to read for every member. -/
theorem isSome_values? (h : code.Agrees members) {given : Member → Option V}
    (hgiven : ∀ member ∈ members.toList, (member.value? evaluate (given member)).isSome) :
    (code.build.values? evaluate (.ofMembers evaluate members.toList given)).isSome := by
  refine isSome_mapM fun expression hexpression => ?_
  rcases h.read_only expression hexpression with ⟨member, hmember, rfl⟩ | ⟨tokens, rfl⟩
  · rw [eval_read h.nodup_names hmember, Option.bind_map, Option.isSome_bind]
    obtain ⟨value, hvalue⟩ := Option.isSome_iff_exists.mp (hgiven member hmember)
    rw [hvalue]
    rfl
  · rfl

end BuilderCode.Agrees

/-! ### Walks -/

/-- What a member gets from calls of methods: the value that it is supplied with, or its default if
it is supplied with none and may be left out. -/
def Member.Gets {V : Type} (member : Member) (evaluate : List Token → V)
    (calls : List (Member × V)) (value : V) : Prop :=
  (member, value) ∈ calls ∨
    (∀ call ∈ calls, call.1 ≠ member) ∧ member.mandatory = false ∧
      value = evaluate member.default.tokens

/-- After calls that leave no mandatory member out, every member has got a value, which its slot
holds. -/
theorem Member.gets_of_calls {V : Type} (evaluate : List Token → V) {calls : List (Member × V)}
    {member : Member} (hmandatory : member.mandatory = true → ∃ call ∈ calls, call.1 = member) :
    ∃ value, member.Gets evaluate calls value ∧
      member.held evaluate (calls.reverse.lookup member) =
        (if member.mandatory then .filled value else .plain value) ∧
      member.value? evaluate (calls.reverse.lookup member) = some value := by
  cases hgiven : calls.reverse.lookup member with
  | some value =>
    obtain ⟨later, before, hparts, -⟩ := List.lookup_eq_some_iff.mp hgiven
    refine ⟨value, Or.inl (List.mem_reverse.mp ?_), rfl, rfl⟩
    rw [hparts]
    exact List.mem_append_right _ List.mem_cons_self
  | none =>
    have hnone : ∀ call ∈ calls, call.1 ≠ member := by
      intro call hcall hsame
      have hne := List.lookup_eq_none_iff.mp hgiven call (List.mem_reverse.mpr hcall)
      exact bne_iff_ne.mp hne hsame.symm
    cases hkind : member.mandatory with
    | true =>
      obtain ⟨call, hcall, hsame⟩ := hmandatory hkind
      exact absurd hsame (hnone call hcall)
    | false =>
      refine ⟨_, Or.inr ⟨hnone, hkind, rfl⟩, ?_, ?_⟩
      · rw [Member.held, hkind]
        rfl
      · rw [Member.value?, hkind]
        rfl

/-- The member begins as it is described: it has to be supplied, or the tokens of its default are the
default that is given for it. -/
structure MemberDraft.BeginsAs (draft : MemberDraft) (member : Member) : Prop where
  name : member.name = draft.name
  mandatory : member.mandatory = draft.isRequired
  default : IsDefault member.default.tokens draft.fallback.text?

/-- The members of a finished target begin as they are described, one after another. -/
theorem Draft.Finished.forall₂_beginsAs {draft : Draft} {target : Target}
    {arguments fields : List Member} (h : draft.Finished target arguments fields) :
    List.Forall₂ MemberDraft.BeginsAs draft.memberDrafts target.members.toList :=
  h.forall₂_memberDrafts.imp fun _ _ ⟨_, _, hbecomes⟩ =>
    ⟨hbecomes.name, hbecomes.mandatory, hbecomes.default.isDefault⟩

section Walks

variable {draft : Draft} {target : Target} {cancelled : Bool} {generated : Generated}

/-- **Slots.** The artifacts of a target say what the code of its builder is, which deals with the
slot of each member in the same way at all places, and the members begin as they are described, those
that may be left out with the given defaults. After any walk through the lattice to where a
value can be built, the slot of a member holds the value that it has been supplied with, or its
default if there is none, and building reads these values and misses none. -/
theorem generate_slots (hfinish : draft.finish = .ok target)
    (hgenerate : generate target cancelled = .ok generated) :
    ∃ code : BuilderCode,
      code.WrittenIn generated.builderType.tokens generated.factory.tokens ∧
      code.Agrees target.members ∧
      List.Forall₂ MemberDraft.BeginsAs draft.memberDrafts target.members.toList ∧
      ∀ (V : Type) (evaluate : List Token → V) (calls : List (Member × V)) (key : StageKey),
        (∀ call ∈ calls, call.1 ∈ target.members.toList) →
        generated.lattice.walk (calls.map fun call => call.1.index) = some key →
        generated.lattice.canBuild key = true →
        ∃ contents, code.run evaluate calls = some contents ∧
          (∀ member ∈ target.members.toList, ∃ value, member.Gets evaluate calls value ∧
            contents.lookup member.name =
              some (if member.mandatory then .filled value else .plain value) ∧
            member.slotCode.read.eval evaluate contents none = some (.plain value)) ∧
          (code.build.values? evaluate contents).isSome := by
  have hagrees := Generated.code_agrees hfinish hgenerate
  obtain ⟨arguments, fields, hfinished⟩ := Draft.finished_of_finish hfinish
  refine ⟨generated.code, Generated.code_writtenIn_of_generate hgenerate, hagrees,
    hfinished.forall₂_beginsAs, fun V evaluate calls key hcalls hwalk hcan => ?_⟩
  obtain ⟨body, hlattice, -⟩ := generate_eq_ok hgenerate
  obtain ⟨h, -, -, hbuilt⟩ := Lattice.build_eq_ok.mp hlattice
  rw [hbuilt] at hwalk hcan
  obtain ⟨hadmits, rfl⟩ := MemberList.walk_eq_some.mp hwalk
  -- The walk can build, so every mandatory member is on it, under its own index.
  have hmandatory : ∀ member ∈ target.members.toList, member.mandatory = true →
      ∃ call ∈ calls, call.1 = member := by
    intro member hmember hkind
    have hindex := MemberList.forall_mandatoryIndexes.mp
      ((MemberList.canBuild_key hadmits).mp hcan) member hmember hkind
    obtain ⟨call, hcall, hsame⟩ := List.mem_map.mp hindex
    exact ⟨call, hcall, h.eq_of_index_eq (hcalls call hcall) hmember hsame⟩
  refine ⟨_, hagrees.run_eq hcalls, fun member hmember => ?_,
    hagrees.isSome_values? fun member hmember => ?_⟩
  · obtain ⟨value, hgets, hheld, hvalue⟩ :=
      Member.gets_of_calls evaluate (hmandatory member hmember)
    refine ⟨value, hgets, ?_, ?_⟩
    · rw [lookup_ofMembers hagrees.nodup_names hmember, hheld]
    · rw [eval_read hagrees.nodup_names hmember, hvalue]
      rfl
  · obtain ⟨value, -, -, hvalue⟩ :=
      Member.gets_of_calls evaluate (hmandatory member hmember)
    rw [hvalue]
    rfl

/-- With its mandatory member supplied, a builder has the given default of the other one. -/
theorem generate_slots_accountDraft :
    ∃ (generated : Generated) (code : BuilderCode) (contents : Contents String),
      generate accountTarget = .ok generated ∧
      code.WrittenIn generated.builderType.tokens generated.factory.tokens ∧
      code.run render (accountMembers.mandatory.map fun member => (member, "7")) =
        some contents ∧
      contents.lookup "user_id" = some (.filled "7") ∧
      contents.lookup "note" = some (.plain "String :: new ()") := by
  have hgenerable : accountTarget.isGenerable = true := by decide +kernel
  obtain ⟨generated, hgenerate⟩ := exists_generate_eq_ok.mpr hgenerable
  obtain ⟨body, hbuild, -⟩ := generate_eq_ok hgenerate
  obtain ⟨h, -, -, hlattice⟩ := Lattice.build_eq_ok.mp hbuild
  have hoffered : 0 ∈ (accountMembers.roster h).offered (.ofList []) :=
    Roster.mem_offered.mpr ⟨List.not_mem_nil, Or.inl List.mem_cons_self⟩
  have hadmits : accountMembers.Admits [0] :=
    MemberList.admits_concat.mpr ⟨MemberList.admits_nil, hoffered⟩
  obtain ⟨code, hwritten, -, hbegins, hruns⟩ := generate_slots finish_accountDraft hgenerate
  rw [hlattice] at hruns
  obtain ⟨contents, hrun, hslots, -⟩ := hruns String render
    (accountMembers.mandatory.map fun member => (member, "7")) _ (by decide)
    (MemberList.walk_eq_some.mpr ⟨hadmits, rfl⟩)
    ((MemberList.canBuild_key hadmits).mpr (by decide))
  refine ⟨generated, code, contents, hgenerate, hwritten, hrun, ?_, ?_⟩
  · obtain ⟨value, hgets, hlookup, -⟩ := hslots _ List.mem_cons_self
    rcases hgets with hin | ⟨-, hkind, -⟩
    · obtain rfl : value = "7" := (Prod.mk.inj (List.mem_singleton.mp hin)).2
      exact hlookup
    · exact absurd hkind Bool.noConfusion
  · have hnote : IsDefault (DefaultText.mk "String :: new ()" false).tokens (some "String::new()") := by
      have hdrafts : accountDraft.memberDrafts = [⟨"user_id", "u64", .required⟩,
          ⟨"note", "String", .expression "String::new()"⟩] := by decide
      rw [hdrafts] at hbegins
      obtain ⟨-, hbegins⟩ := List.forall₂_cons.mp hbegins
      exact (List.forall₂_cons.mp hbegins).1.default
    obtain ⟨value, hgets, hlookup, -⟩ := hslots _ (List.mem_cons_of_mem _ List.mem_cons_self)
    rcases hgets with hin | ⟨-, -, hvalue⟩
    · exact absurd (congrArg Member.mandatory (Prod.mk.inj (List.mem_singleton.mp hin)).1)
        Bool.noConfusion
    · obtain ⟨node, hnode, -, htokens⟩ := hnote
      have hagain : (Grammar.readExpression? "String::new()").bind (fun node =>
          (Grammar.readExpression? node.render).map fun again => render again.tokens) =
            some "String :: new ()" := by decide +kernel
      rw [hnode, Option.bind_some] at hagain
      obtain ⟨again, hread, hrendered⟩ := Option.map_eq_some_iff.mp hagain
      have hrender : value = "String :: new ()" :=
        hvalue.trans ((congrArg render (htokens again hread)).trans hrendered)
      rw [hrender] at hlookup
      exact hlookup

end Walks

end Typestate
