import Mathlib.Data.List.Basic
import Typestate.Proofs.Code.Generated
import Typestate.Proofs.Code.Reading

/-!
# The generated builder as a record

What the builder and the factory do with values: the slots of the struct, the expressions that fill
them in the factory and in a copy, the methods that set one of them, and the expressions of the
method that builds the value. Such code is written as tokens here by its own rules, and the
artifacts of a target are read piece by piece to see that they are written like this. What the
pieces are for which members is another matter.
-/

namespace Typestate

open Token

/-! ### Code -/

/-- An expression of the generated code that a slot is filled with or that reads a slot. -/
inductive SlotExpression where
  /-- An option without a value. -/
  | nothing
  /-- An option with the value that is being supplied. -/
  | supplied
  /-- The value that is being supplied. -/
  | value
  /-- A copy of what a slot holds. -/
  | copy (slot : String)
  /-- A copy of the value in the option that a slot holds; there must be one. -/
  | taken (slot : String)
  /-- An expression that has nothing to do with slots. -/
  | expression (tokens : List Token)

/-- The expression, as tokens. -/
def SlotExpression.tokens : SlotExpression → List Token
  | .nothing => phrase ":: core :: option :: Option :: None"
  | .supplied => phrase ":: core :: option :: Option :: Some" ++ [parens [.word "value"]]
  | .value => [.word "value"]
  | .copy slot => cloneOf (ownSlot slot)
  | .taken slot =>
    phrase "match" ++ ownSlot slot ++ [braces <|
      phrase ":: core :: option :: Option :: Some" ++ [parens [.word "supplied"]] ++ phrase "=>" ++
      cloneOf [.word "supplied"] ++ phrase "," ++
      phrase ":: core :: option :: Option :: None => :: core :: unreachable !" ++
      [parens [string ("`" ++ slot ++ "` is supplied before build")]] ++ phrase ","]
  | .expression tokens => tokens

/-- A method that supplies a member: a copy of the builder for the next stage, in which one slot is
set. -/
structure SupplyMethod where
  name : String
  /-- The type of the next stage, as an argument of the method that copies. -/
  next : List Token
  slot : String
  stored : SlotExpression

/-- What the method does, as tokens. -/
def SupplyMethod.tokens (method : SupplyMethod) : List Token :=
  phrase "let mut next = self . restage ::" ++ method.next ++ [parens []] ++ phrase "; next ." ++
    [.word method.slot] ++ phrase "=" ++ method.stored.tokens ++ phrase "; next"

/-- A field of the target and the expression that it gets. -/
structure FieldSetting where
  field : List Token
  value : SlotExpression

/-- What the method that builds the value does. -/
inductive BuildCode where
  /-- A literal of the target. -/
  | literal (target : String) (fields : List FieldSetting)
  /-- A call of a function, and fields of the result that are set. -/
  | call (function : List Token) (arguments : List SlotExpression) (assigned : List FieldSetting)

namespace BuildCode

/-- What the method does, as tokens. Nothing but the call is written if no field is set. -/
def tokens : BuildCode → List Token
  | .literal target fields =>
    [.word target,
      braces (commaEnded (fields.map fun setting =>
        setting.field ++ phrase ":" ++ setting.value.tokens))]
  | .call function arguments assigned =>
    let call :=
      function ++ [parens (List.intercalate (phrase ",") (arguments.map SlotExpression.tokens))]
    if assigned.isEmpty then call
    else
      phrase "let mut value =" ++ call ++ phrase ";" ++
        assigned.flatMap (fun setting =>
          phrase "value ." ++ setting.field ++ phrase "=" ++ setting.value.tokens ++ phrase ";") ++
        phrase "value"

/-- All expressions in the code, from first to last. -/
def expressions : BuildCode → List SlotExpression
  | .literal _ fields => fields.map FieldSetting.value
  | .call _ arguments assigned => arguments ++ assigned.map FieldSetting.value

end BuildCode

/-- What the generated builder and its factory do with values. -/
structure BuilderCode where
  /-- The slots of the struct with their types. -/
  declared : List (String × List Token)
  /-- What each slot gets in a copy for another stage. -/
  copied : List (String × SlotExpression)
  /-- What each slot gets in the factory. -/
  seeded : List (String × SlotExpression)
  /-- The methods that supply members. -/
  supplies : List SupplyMethod
  /-- What the method that builds the value does. -/
  build : BuildCode

/-! ### Reading -/

/-- The tokens in each pair of braces. -/
def inBraces (tokens : List Token) : List (List Token) :=
  tokens.filterMap fun token =>
    match token with
    | .group .brace body => some body
    | _ => none

@[simp] theorem inBraces_append (first second : List Token) :
    inBraces (first ++ second) = inBraces first ++ inBraces second := List.filterMap_append

/-- The name of the function in an implementation, and what it does. -/
def readMethod? (implementation : List Token) : Option (String × List Token) :=
  match afterWord "fn" implementation with
  | .word name :: rest => (inBraces rest).head?.map fun body => (name, body)
  | _ => none

/-- The fields in the braces of a struct. -/
def readFields? (builder : List Token) : Option (List Token) :=
  (inBraces (afterWord "struct" builder)).head?

/-- The methods of a builder, which follow its struct. -/
def readMethods (builder : List Token) : List (String × List Token) :=
  ((inBraces (afterWord "struct" builder)).drop 1).filterMap readMethod?

/-- The fields of the literal that a function gives back. -/
def readLiteral? (body : List Token) : Option (List Token) := (inBraces body).head?

/-- The fields of the literal that the factory makes. -/
def readSeeds? (factory : List Token) : Option (List Token) := do
  let implementation ← (inBraces factory).head?
  let (_, body) ← readMethod? implementation
  readLiteral? body

/-- Names with what follows a colon, each ended by a comma. -/
def listing (fields : List (String × List Token)) : List Token :=
  commaEnded (fields.map fun field => [.word field.1] ++ phrase ":" ++ field.2)

/-- The name of the slot that carries the stage. -/
def stageSlot : String := "__stage_marker"

/-- The type of the slot that carries the stage, in the struct. -/
def stageType : List Token :=
  phrase ":: core :: marker :: PhantomData < fn" ++ [parens []] ++ phrase "-> __Stage >"

/-- What the slot that carries the stage gets in a literal. -/
def stageValue : List Token := phrase ":: core :: marker :: PhantomData"

/-- The fields of a literal of the builder. -/
def literalListing (slots : List (String × SlotExpression)) : List Token :=
  listing (slots.map (fun slot => (slot.1, slot.2.tokens)) ++ [(stageSlot, stageValue)])

/-- The tokens of the two artifacts say what the code says: the slots and the one that carries the
stage are the fields of the struct, of the copy and of the factory, and there are no methods but
those that copy, those of the code and the one that builds the value. -/
structure BuilderCode.WrittenIn (code : BuilderCode) (builder factory : List Token) : Prop where
  declared : readFields? builder = some (listing (code.declared ++ [(stageSlot, stageType)]))
  seeded : readSeeds? factory = some (literalListing code.seeded)
  methods : ∃ restage clone,
    readMethods builder =
      [("restage", restage), ("clone", clone)] ++
        code.supplies.map (fun method => (method.name, method.tokens)) ++
        [("build", code.build.tokens)] ∧
      readLiteral? restage = some (literalListing code.copied)

/-! ### The code of a builder and its factory -/

namespace Slot

/-- The type of the slot in the struct. -/
def declaredType (slot : Slot) : List Token :=
  if slot.mandatory then phrase ":: core :: option :: Option <" ++ slot.type.tokens ++ phrase ">"
  else slot.type.tokens

/-- What the slot gets when its member is supplied. -/
def storedExpression (slot : Slot) : SlotExpression := if slot.mandatory then .supplied else .value

/-- What is read of the slot when the value is built. -/
def readExpression (slot : Slot) : SlotExpression :=
  if slot.mandatory then .taken slot.name else .copy slot.name

/-- The method that supplies the member of the slot. -/
def supplyMethod (naming : Naming) (slot : Slot) : SupplyMethod where
  name := slot.method
  next := phrase "<< __Stage as" ++
    ([.word naming.stagesModule] ++ phrase "::" ++ [.word slot.memberTrait]) ++ phrase "> :: Next >"
  slot := slot.name
  stored := slot.storedExpression

theorem tokens_storedExpression (slot : Slot) : slot.storedExpression.tokens = slot.stored := by
  rw [storedExpression, stored]
  split
  · rfl
  · rfl

theorem tokens_readExpression (slot : Slot) : slot.readExpression.tokens = slot.read := by
  rw [readExpression, read]
  split
  · rfl
  · rfl

/-- The method stands in an implementation of its own. -/
theorem inBraces_methodTokens (naming : Naming) (slot : Slot) :
    (inBraces (slot.methodTokens naming)).filterMap readMethod? =
      [(slot.method, (slot.supplyMethod naming).tokens)] := by
  rw [SupplyMethod.tokens, supplyMethod, tokens_storedExpression]
  rfl

end Slot

namespace BuilderType

/-- What is read of the slot of the given name when the value is built. -/
def readExpression (item : BuilderType) (name : String) : SlotExpression :=
  match item.slots.find? fun slot => slot.name == name with
  | some slot => slot.readExpression
  | none => .copy name

theorem tokens_readExpression (item : BuilderType) (name : String) :
    (item.readExpression name).tokens = item.readSlot name := by
  unfold readExpression readSlot
  cases item.slots.find? fun slot => slot.name == name with
  | none => rfl
  | some slot => exact slot.tokens_readExpression

/-- What the method that builds the value does. -/
def buildCode (item : BuilderType) : BuildCode :=
  let setting (entry : Assignment) : FieldSetting :=
    ⟨entry.field.tokens, item.readExpression entry.slot⟩
  match item.body with
  | .literal assigned fixed =>
    .literal item.naming.target (assigned.map setting ++
      fixed.map fun entry => ⟨entry.field.tokens, .expression entry.value.tokens⟩)
  | .call path arguments assigned =>
    .call path.node.tokens (arguments.map item.readExpression) (assigned.map setting)

theorem tokens_buildCode (item : BuilderType) : item.buildCode.tokens = item.buildTokens := by
  unfold buildCode buildTokens
  cases item.body with
  | literal assigned fixed =>
    simp only [BuildCode.tokens, commaEnded, List.map_append, List.map_map, List.flatMap_append,
      Function.comp_def, tokens_readExpression]
    rfl
  | call path arguments assigned =>
    simp only [BuildCode.tokens, List.map_map, List.flatMap_map, Function.comp_def,
      tokens_readExpression, List.isEmpty_map]

/-- The slots of the struct with their types. -/
def declaredSlots (item : BuilderType) : List (String × List Token) :=
  item.slots.map fun slot => (slot.name, slot.declaredType)

/-- What each slot gets in a copy. -/
def copiedSlots (item : BuilderType) : List (String × SlotExpression) :=
  item.slots.map fun slot => (slot.name, .copy slot.name)

/-- The methods that supply members. -/
def supplyMethods (item : BuilderType) : List SupplyMethod :=
  item.slots.map (Slot.supplyMethod item.naming)

end BuilderType

namespace Factory

/-- What a slot holds from the start, as an expression. -/
def seedExpression : Seed → SlotExpression
  | .empty => .nothing
  | .default value => .expression value.tokens

theorem tokens_seedExpression (seed : Seed) : (seedExpression seed).tokens = seed.tokens := by
  cases seed with
  | empty => rfl
  | default value => rfl

/-- What each slot gets in the factory. -/
def seededSlots (item : Factory) : List (String × SlotExpression) :=
  item.seeds.map fun slot => (slot.1, seedExpression slot.2)

end Factory

/-- What the builder and the factory of a target do with values. -/
def Generated.code (generated : Generated) : BuilderCode where
  declared := generated.builderType.declaredSlots
  copied := generated.builderType.copiedSlots
  seeded := generated.factory.seededSlots
  supplies := generated.builderType.supplyMethods
  build := generated.builderType.buildCode

/-! ### What is read of the artifacts -/

namespace BuilderType

/-- The fields of the struct are the slots and the one that carries the stage. -/
theorem listing_declaredSlots (item : BuilderType) :
    listing (item.declaredSlots ++ [(stageSlot, stageType)]) =
      commaEnded (item.slots.map Slot.declaration) ++ phantom ++ phrase "< fn" ++ [parens []] ++
        phrase "-> __Stage > ," := by
  simp only [listing, declaredSlots, commaEnded, List.map_append, List.map_map,
    List.flatMap_append, List.append_assoc]
  rfl

/-- The fields of a copy are copies of the slots and the one that carries the stage. -/
theorem literalListing_copiedSlots (item : BuilderType) :
    literalListing item.copiedSlots =
      commaEnded (item.slots.map Slot.copied) ++ phantom ++ phrase "," := by
  simp only [literalListing, listing, copiedSlots, commaEnded, List.map_append, List.map_map,
    List.flatMap_append, List.append_assoc]
  rfl

/-- The fields of the struct stand in the first braces after its keyword. -/
theorem inBraces_structTokens (item : BuilderType)
    (hvisibility : ∀ token ∈ item.naming.visibility, Grammar.isWord "struct" [token] = false)
    (rest : List Token) :
    inBraces (afterWord "struct" (item.structTokens ++ rest)) =
      listing (item.declaredSlots ++ [(stageSlot, stageType)]) :: inBraces rest := by
  rw [listing_declaredSlots, structTokens]
  simp only [List.append_assoc]
  rw [afterWord_doc, afterWord_append hvisibility]
  rfl

/-- The methods that copy the builder. -/
theorem readMethod?_copyTokens (item : BuilderType) :
    (inBraces item.copyTokens).filterMap readMethod? =
      [("restage", [.word item.naming.builder, braces (literalListing item.copiedSlots)]),
        ("clone", phrase "self . restage" ++ [parens []])] := by
  rw [literalListing_copiedSlots]
  rfl

/-- The methods that supply members, one for each slot. -/
theorem readMethod?_methodTokens (item : BuilderType) :
    (inBraces (item.slots.flatMap (Slot.methodTokens item.naming))).filterMap readMethod? =
      item.supplyMethods.map fun method => (method.name, method.tokens) := by
  rw [inBraces, List.filterMap_flatMap, List.filterMap_flatMap, supplyMethods, List.map_map,
    List.map_eq_flatMap]
  exact List.flatMap_congr fun slot _ => slot.inBraces_methodTokens item.naming

/-- The method that builds the value. -/
theorem readMethod?_build (item : BuilderType) (summary : String) :
    (inBraces (item.implementation Naming.canBuildTrait [] ++ [braces <|
      doc summary ++ phrase "#" ++ [brackets (phrase "must_use")] ++
      phrase "pub fn build" ++ [parens (phrase "& self")] ++ phrase "->" ++
      [.word item.naming.target, braces item.buildTokens]])).filterMap readMethod? =
      [("build", item.buildCode.tokens)] := by
  rw [tokens_buildCode]
  rfl

/-- The methods of a builder: those that copy it, those that supply members, and the one that builds
the value. -/
theorem readMethods_tokens (item : BuilderType)
    (hvisibility : ∀ token ∈ item.naming.visibility, Grammar.isWord "struct" [token] = false) :
    readMethods item.tokens =
      [("restage", [.word item.naming.builder, braces (literalListing item.copiedSlots)]),
        ("clone", phrase "self . restage" ++ [parens []])] ++
      item.supplyMethods.map (fun method => (method.name, method.tokens)) ++
      [("build", item.buildCode.tokens)] := by
  rw [readMethods, tokens, List.append_assoc, List.append_assoc, List.append_assoc,
    inBraces_structTokens item hvisibility, List.drop_one, List.tail_cons, inBraces_append,
    inBraces_append, List.filterMap_append, List.filterMap_append, readMethod?_copyTokens,
    readMethod?_methodTokens, readMethod?_build, List.append_assoc]

/-- The struct has these fields and no others. -/
theorem readFields?_tokens (item : BuilderType)
    (hvisibility : ∀ token ∈ item.naming.visibility, Grammar.isWord "struct" [token] = false) :
    readFields? item.tokens = some (listing (item.declaredSlots ++ [(stageSlot, stageType)])) := by
  rw [readFields?, tokens, List.append_assoc, List.append_assoc, List.append_assoc,
    inBraces_structTokens item hvisibility, List.head?_cons]

end BuilderType

/-- The literal of the factory has these fields and no others. -/
theorem Factory.readSeeds?_tokens (item : Factory)
    (hvisibility : ∀ token ∈ item.naming.visibility, Grammar.isWord "fn" [token] = false) :
    readSeeds? item.tokens = some (literalListing item.seededSlots) := by
  have hlisting : literalListing item.seededSlots =
      commaEnded (item.seeds.map fun entry =>
          [.word entry.1] ++ phrase ":" ++ entry.2.tokens) ++
        phantom ++ phrase "," := by
    simp only [literalListing, listing, seededSlots, commaEnded, List.map_append, List.map_map,
      List.flatMap_append, List.append_assoc, Function.comp_def, tokens_seedExpression]
    rfl
  have hmethod : ∀ (name : String) (body : List Token), readSeeds? [.word "impl", .word name,
      braces body] = (readMethod? body).bind fun method => readLiteral? method.2 := fun _ _ => rfl
  rw [Factory.tokens, hmethod, readMethod?]
  simp only [List.append_assoc]
  rw [afterWord_doc, afterWord_attribute, afterWord_append hvisibility, hlisting]
  simp only [List.append_assoc]
  rfl

/-- The artifacts of a target say what the builder and the factory do with values. -/
theorem Generated.code_writtenIn (generated : Generated)
    (hbuilder : ∀ token ∈ generated.builderType.naming.visibility,
      Grammar.isWord "struct" [token] = false)
    (hfactory : ∀ token ∈ generated.factory.naming.visibility,
      Grammar.isWord "fn" [token] = false) :
    generated.code.WrittenIn generated.builderType.tokens generated.factory.tokens where
  declared := generated.builderType.readFields?_tokens hbuilder
  seeded := generated.factory.readSeeds?_tokens hfactory
  methods := ⟨_, _, generated.builderType.readMethods_tokens hbuilder, rfl⟩

/-- What is generated for a target says so, whoever may see it. -/
theorem Generated.code_writtenIn_of_generate {target : Target} {cancelled : Bool}
    {generated : Generated} (hgenerate : generate target cancelled = .ok generated) :
    generated.code.WrittenIn generated.builderType.tokens generated.factory.tokens := by
  obtain ⟨body, -, -, -, hbuilder, hfactory, -⟩ := generate_eq_ok hgenerate
  refine Generated.code_writtenIn generated ?_ ?_
  · rw [hbuilder]
    exact isWord_visibility_ofTarget target (by decide)
  · rw [hfactory]
    exact isWord_visibility_ofTarget target (by decide)

end Typestate
