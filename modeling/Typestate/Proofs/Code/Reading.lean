import Typestate.Generation
import Typestate.Proofs.Grammar.Visibility

/-!
# Reading generated items back

What the generated items declare, read off their tokens by words alone: the traits and types of the
stages module, which type has which trait and with which next stage, and the stage that the factory
and the struct of the builder name. Nothing is taken from the lattice, so what is said about it is
said about the code.
-/

namespace Typestate

open Token

/-- An item of the stages module, as far as its words tell. -/
inductive ModuleItem where
  | trait (name : String)
  | type (name : String)
  /-- A type has a trait; what stands in the braces is kept. -/
  | implementation (implemented name : String) (body : List Token)

namespace ModuleItem

/-- The name that the item declares, if it declares one. -/
def declared? : ModuleItem → Option String
  | .trait name => some name
  | .type name => some name
  | .implementation _ _ _ => none

/-- The type that the item declares, if it declares one. -/
def type? : ModuleItem → Option String
  | .type name => some name
  | _ => none

/-- The type that has the given trait by the item. -/
def implementing? (wanted : String) : ModuleItem → Option String
  | .implementation implemented name _ => if implemented = wanted then some name else none
  | _ => none

/-- The next stage that stands between the braces of an implementation. -/
def next? : List Token → Option String
  | [.word "type", .word "Next", .mark '=' .alone, .word name, .mark ';' .alone] => some name
  | _ => none

/-- The step that the item allows: from a type, by a trait, to a type. -/
def step? : ModuleItem → Option (String × String × String)
  | .implementation implemented name body =>
    (next? body).map fun next => (name, implemented, next)
  | _ => none

end ModuleItem

/-- The items among the tokens of a module. -/
def readItems : List Token → List ModuleItem
  | .word "trait" :: .word name :: rest => .trait name :: readItems rest
  | .word "enum" :: .word name :: rest => .type name :: readItems rest
  | .word "impl" :: .word implemented :: .word "for" :: .word name :: .group .brace body :: rest =>
    .implementation implemented name body :: readItems rest
  | _ :: rest => readItems rest
  | [] => []

/-- The tokens after the first one that is the given word. -/
def afterWord (text : String) (tokens : List Token) : List Token :=
  (tokens.dropWhile fun token => !Grammar.isWord text [token]).drop 1

/-- The module and the marker in a path to a stage that ends a list of arguments. -/
def readStagePath? : List Token → Option (String × String)
  | .word module :: .mark ':' _ :: .mark ':' _ :: .word marker :: .mark '>' _ :: _ =>
    some (module, marker)
  | _ => none

/-- The name of the module and its items. -/
def readModule? (tokens : List Token) : Option (String × List ModuleItem) :=
  match afterWord "mod" tokens with
  | .word name :: .group .brace body :: _ => some (name, readItems body)
  | _ => none

/-- The stage in the type that a function returns. -/
def returnedStage? (tokens : List Token) : Option (String × String) :=
  match afterWord "fn" tokens with
  | .word _ :: .group .parenthesis _ :: .mark '-' _ :: .mark '>' _ :: .word _ :: .mark '<' _ ::
      rest => readStagePath? rest
  | _ => none

/-- The stage in the type that the function of an implementation returns. -/
def factoryStage? : List Token → Option (String × String)
  | .word "impl" :: .word _ :: .group .brace body :: _ => returnedStage? body
  | _ => none

/-- The stage that stands for the parameter of a struct if none is given. -/
def defaultStage? (tokens : List Token) : Option (String × String) :=
  match afterWord "struct" tokens with
  | .word _ :: .mark '<' _ :: .word _ :: .mark '=' _ :: rest => readStagePath? rest
  | _ => none

/-! ### What is read of the stages module -/

/-- The trait of a member declares its name. -/
theorem readItems_memberTrait (item : MemberTrait) (rest : List Token) :
    readItems (item.tokens ++ rest) = .trait item.name :: readItems rest := by
  rw [MemberTrait.tokens, List.append_assoc, List.append_assoc]
  rfl

/-- The item of a step. -/
def ModuleItem.ofTransition (name : String) (step : String × String) : ModuleItem :=
  .implementation step.1 name
    [.word "type", .word "Next", .mark '=' .alone, .word step.2, .mark ';' .alone]

/-- The items that a marker comes with. -/
def StageMarker.items (item : StageMarker) : List ModuleItem :=
  [.type item.name, .implementation Naming.stageTrait item.name []] ++
    (if item.canBuild then [.implementation Naming.canBuildTrait item.name []] else []) ++
    item.transitions.map (.ofTransition item.name)

theorem readItems_transitions (name : String) (transitions : List (String × String))
    (rest : List Token) :
    readItems (transitions.flatMap (StageMarker.transitionTokens name) ++ rest) =
      transitions.map (.ofTransition name) ++ readItems rest := by
  induction transitions with
  | nil => rfl
  | cons step transitions ih =>
    rw [List.flatMap_cons, List.append_assoc, List.map_cons, List.cons_append, ← ih]
    rfl

/-- A marker declares its name, its traits and its steps. -/
theorem readItems_marker (item : StageMarker) (rest : List Token) :
    readItems (item.tokens ++ rest) = item.items ++ readItems rest := by
  have hbuild : ∀ more, readItems
      ((if item.canBuild then StageMarker.implementation Naming.canBuildTrait item.name else []) ++
        more) =
      (if item.canBuild then [.implementation Naming.canBuildTrait item.name []] else []) ++
        readItems more := by
    intro more
    split
    · rfl
    · rfl
  rw [StageMarker.items, List.append_assoc, List.append_assoc, ← readItems_transitions, ← hbuild]
  simp only [StageMarker.tokens, List.append_assoc]
  rfl

/-- What is read of pieces one after another is read of each. -/
theorem readItems_flatMap {A : Type} {tokens : A → List Token} {items : A → List ModuleItem}
    (hread : ∀ a rest, readItems (tokens a ++ rest) = items a ++ readItems rest) (pieces : List A)
    (rest : List Token) :
    readItems (pieces.flatMap tokens ++ rest) = pieces.flatMap items ++ readItems rest := by
  induction pieces with
  | nil => rfl
  | cons a pieces ih =>
    rw [List.flatMap_cons, List.append_assoc, hread, ih, List.flatMap_cons, List.append_assoc]

/-- The items of the stages module. -/
def StageModule.items (item : StageModule) : List ModuleItem :=
  [.trait Naming.stageTrait, .trait Naming.canBuildTrait] ++
    item.traits.map (fun memberTrait => .trait memberTrait.name) ++
    [.type Naming.completeMarker,
      .implementation Naming.stageTrait Naming.completeMarker [],
      .implementation Naming.canBuildTrait Naming.completeMarker []] ++
    item.markers.flatMap StageMarker.items

/-- The stages module declares these items and no others. -/
theorem readItems_body (item : StageModule) : readItems item.body = item.items := by
  have htraits : ∀ rest, readItems (item.traits.flatMap MemberTrait.tokens ++ rest) =
      item.traits.map (fun memberTrait => .trait memberTrait.name) ++ readItems rest := by
    intro rest
    rw [List.map_eq_flatMap]
    exact readItems_flatMap (fun memberTrait more => readItems_memberTrait memberTrait more) _ rest
  have hmarkers := readItems_flatMap readItems_marker item.markers []
  rw [List.append_nil, readItems, List.append_nil] at hmarkers
  rw [StageModule.items, ← hmarkers]
  simp only [StageModule.body, List.append_assoc]
  change .trait Naming.stageTrait :: .trait Naming.canBuildTrait ::
    readItems (item.traits.flatMap MemberTrait.tokens ++ _) = _
  rw [htraits]
  rfl

/-- Parts of the items that a marker comes with. -/
theorem StageMarker.filterMap_items {A : Type} (part : ModuleItem → Option A) (item : StageMarker) :
    item.items.filterMap part =
      [.type item.name, .implementation Naming.stageTrait item.name []].filterMap part ++
        (if item.canBuild then (part (.implementation Naming.canBuildTrait item.name [])).toList
          else []) ++
        item.transitions.filterMap fun step => part (.ofTransition item.name step) := by
  rw [StageMarker.items, List.filterMap_append, List.filterMap_append, List.filterMap_map]
  congr 2
  split
  · rw [List.filterMap_cons, List.filterMap_nil]
    cases part (.implementation Naming.canBuildTrait item.name []) with
    | none => rfl
    | some a => rfl
  · rfl

/-- A part that implementations do not have is taken of the type alone. -/
theorem StageMarker.filterMap_items_of_type {A : Type} {part : ModuleItem → Option A}
    (item : StageMarker) {a : A} (htype : part (.type item.name) = some a)
    (hnone : ∀ implemented body, part (.implementation implemented item.name body) = none) :
    item.items.filterMap part = [a] := by
  have hsteps : item.transitions.filterMap (fun step => part (.ofTransition item.name step)) = [] :=
    List.filterMap_eq_nil_iff.mpr fun step _ => hnone step.1 _
  rw [filterMap_items, hsteps, hnone, Option.toList_none, ite_self, List.append_nil,
    List.append_nil, List.filterMap_cons_some htype, List.filterMap_cons_none (hnone _ _),
    List.filterMap_nil]

/-- Parts of the items of the stages module. -/
theorem StageModule.filterMap_items {A : Type} (part : ModuleItem → Option A) (item : StageModule) :
    item.items.filterMap part =
      [.trait Naming.stageTrait, .trait Naming.canBuildTrait].filterMap part ++
        item.traits.filterMap (fun memberTrait => part (.trait memberTrait.name)) ++
        [.type Naming.completeMarker,
          .implementation Naming.stageTrait Naming.completeMarker [],
          .implementation Naming.canBuildTrait Naming.completeMarker []].filterMap part ++
        item.markers.flatMap fun marker => marker.items.filterMap part := by
  rw [StageModule.items, List.filterMap_append, List.filterMap_append, List.filterMap_append,
    List.filterMap_map, List.filterMap_flatMap]
  rfl

/-! ### What is read of each artifact -/

@[simp] theorem afterWord_self (text : String) (rest : List Token) :
    afterWord text (.word text :: rest) = rest := by
  have hfound : Grammar.isWord text [.word text] = true := beq_self_eq_true text
  rw [afterWord, List.dropWhile_cons_of_neg]
  · rfl
  · rw [hfound, Bool.not_true]
    exact Bool.false_ne_true

/-- Tokens that are other words or none are passed over. -/
theorem afterWord_append {text : String} {tokens : List Token}
    (htokens : ∀ token ∈ tokens, Grammar.isWord text [token] = false) (rest : List Token) :
    afterWord text (tokens ++ rest) = afterWord text rest := by
  rw [afterWord, List.dropWhile_append_of_pos fun token htoken => by
    rw [htokens token htoken, Bool.not_false], afterWord]

/-- An attribute is passed over. -/
theorem afterWord_attribute (text : String) (body rest : List Token) :
    afterWord text (phrase "#" ++ ([brackets body] ++ rest)) = afterWord text rest := rfl

/-- Documentation is passed over. -/
theorem afterWord_doc (text summary : String) (rest : List Token) :
    afterWord text (doc summary ++ rest) = afterWord text rest := rfl

/-- What holds of the word `pub` and of every group in parentheses holds of the tokens of the
visibility that is written for a target. -/
theorem forall_visibility_ofTarget (target : Target) {P : Token → Prop} (hpub : P (.word "pub"))
    (hscope : ∀ body, P (.group .parenthesis body)) :
    ∀ token ∈ (Naming.ofTarget target).visibility, P token := by
  unfold Naming.ofTarget
  cases hread : Grammar.readVisibility? target.visibility with
  | none => exact fun token htoken => absurd htoken List.not_mem_nil
  | some nodes => exact Grammar.forall_visibility hread hpub hscope

/-- The names for a target, whose visibility holds no word but `pub`. -/
theorem isWord_visibility_ofTarget (target : Target) {word : String} (hword : word ≠ "pub") :
    ∀ token ∈ (Naming.ofTarget target).visibility, Grammar.isWord word [token] = false :=
  forall_visibility_ofTarget target (beq_false_of_ne (Ne.symm hword)) fun _ => rfl

/-- The module is read with its name and its items. -/
theorem readModule?_tokens (item : StageModule)
    (hvisibility : ∀ token ∈ item.visibility, Grammar.isWord "mod" [token] = false) :
    readModule? item.tokens = some (item.name, item.items) := by
  have hafter : afterWord "mod" item.tokens = [.word item.name, braces item.body] := by
    rw [StageModule.tokens]
    simp only [List.append_assoc]
    rw [afterWord_doc, afterWord_attribute, afterWord_append hvisibility]
    exact afterWord_self "mod" _
  rw [readModule?, hafter]
  exact congrArg (fun items => some (item.name, items)) (readItems_body item)

/-- The function of an implementation is all that stands in its braces. -/
theorem factoryStage?_implementation (name : String) (body : List Token) :
    factoryStage? [.word "impl", .word name, braces body] = returnedStage? body := rfl

/-- The function of the factory returns the builder at the stage that the factory begins with. -/
theorem factoryStage?_tokens (item : Factory)
    (hvisibility : ∀ token ∈ item.naming.visibility, Grammar.isWord "fn" [token] = false) :
    factoryStage? item.tokens = some (item.naming.stagesModule, item.root) := by
  rw [Factory.tokens, factoryStage?_implementation, returnedStage?]
  simp only [List.append_assoc]
  rw [afterWord_doc, afterWord_attribute, afterWord_append hvisibility]
  rfl

/-- The parameter of the struct of the builder stands for the stage in which a builder begins. -/
theorem defaultStage?_tokens (item : BuilderType)
    (hvisibility : ∀ token ∈ item.naming.visibility, Grammar.isWord "struct" [token] = false) :
    defaultStage? item.tokens = some (item.naming.stagesModule, item.root) := by
  rw [defaultStage?, BuilderType.tokens, BuilderType.structTokens]
  simp only [List.append_assoc]
  rw [afterWord_doc, afterWord_append hvisibility]
  rfl

end Typestate
