import Typestate.Code.Naming
import Typestate.Error

/-!
# The type of the builder

The second generated item: a struct with a slot for each member and a parameter for the stage, a
method for each member, bounded by the trait of the member, and the method that builds the value.
The slot of a mandatory member is empty until the member is supplied.
-/

namespace Typestate

open Token

/-- A slot of the builder, for one member. -/
structure Slot where
  /-- The name of the slot, which is that of the member. -/
  name : String
  type : TypeText
  method : String
  memberTrait : String
  mandatory : Bool
  deriving DecidableEq, Repr

/-- A field of the target, by name or by index, and the slot that its value is read from. -/
structure Assignment where
  field : Grammar.Node
  slot : String

/-- A field of the target that has a value of its own. -/
structure FixedValue where
  field : Grammar.Node
  value : DefaultText

/-- How the value is built. -/
inductive BuildBody where
  /-- By naming each of its fields. -/
  | literal (assigned : List Assignment) (fixed : List FixedValue)
  /-- By calling a function with the values of slots and setting fields of the result. -/
  | call (path : Grammar.Path) (arguments : List String) (assigned : List Assignment)

/-- The type of the builder of one target. -/
structure BuilderType where
  naming : Naming
  /-- The marker of the stage in which a builder begins. -/
  root : String
  slots : List Slot
  body : BuildBody

/-- The slot of a member. -/
def Slot.ofMember (member : Member) : Slot where
  name := member.name
  type := member.type
  method := Naming.method member
  memberTrait := Naming.memberTrait member
  mandatory := member.mandatory

/-- The reference to a field, read for a member. -/
def fieldOf (member reference : String) : Except MemberError Grammar.Node :=
  match Grammar.readFieldReference? reference with
  | some node => .ok node
  | none => .error (.malformedField member reference)

/-- The path of the constructor as it is called. Without leading colons, a single name stands for a
function of the target, and a first `Self` stands for the target. -/
def Grammar.Path.resolve (path : Grammar.Path) (target : String) : Grammar.Path :=
  if path.leading then path
  else
    match path.segments with
    | [only] => { path with segments := [⟨target, none⟩, only] }
    | first :: rest =>
      if first.name == "Self" then { path with segments := { first with name := target } :: rest }
      else path
    | [] => path

/-- The path of the constructor, read and resolved. -/
def constructorPath (target text : String) : Except TargetError Grammar.Path :=
  match Grammar.readPath? text with
  | some path => .ok (path.resolve target)
  | none => .error (.malformedConstructor text)

/-! ### Assembling -/

namespace BuildBody

/-- The fields that are set from slots, in the order of the members. -/
def assignments (members : MemberList) : Except MemberError (List Assignment) :=
  members.fields.mapM fun (member, reference) => do
    return ⟨← fieldOf member.name reference, member.name⟩

/-- How a value of the target is built. -/
def ofTarget (target : Target) : Except Error BuildBody := do
  let assigned ← Error.ofMember (assignments target.members)
  match target.construction with
  | .literal =>
    let fixed ← Error.ofMember <| target.fixed.mapM fun field => do
      return FixedValue.mk (← fieldOf field.reference field.reference) field.default
    return .literal assigned fixed
  | .function text =>
    let path ← Error.ofTarget (constructorPath target.name text)
    return .call path (target.members.arguments.map Member.name) assigned

end BuildBody

/-- The type of the builder of a target. -/
def BuilderType.ofLattice (target : Target) (naming : Naming) (lattice : Lattice) :
    Except Error BuilderType := do
  return {
    naming := naming
    root := Naming.marker lattice.root lattice.members
    slots := target.members.toList.map .ofMember
    body := ← BuildBody.ofTarget target }

/-! ### Tokens -/

/-- Parts that each end with a comma. -/
def commaEnded (parts : List (List Token)) : List Token := parts.flatMap (· ++ phrase ",")

/-- A slot of the builder at hand, as tokens. -/
def ownSlot (name : String) : List Token := phrase "& self ." ++ [.word name]

/-- A copy of a value, as tokens. -/
def cloneOf (value : List Token) : List Token :=
  phrase ":: core :: clone :: Clone :: clone" ++ [parens value]

/-- The marker that is carried in the builder, as tokens. -/
def phantom : List Token := phrase "__stage_marker : :: core :: marker :: PhantomData"

namespace Slot

/-- The type of the slot in the struct, as tokens. -/
def declaration (slot : Slot) : List Token :=
  [.word slot.name] ++ phrase ":" ++
    if slot.mandatory then phrase ":: core :: option :: Option <" ++ slot.type.tokens ++ phrase ">"
    else slot.type.tokens

/-- The copy of the slot in the builder of the next stage, as tokens. -/
def copied (slot : Slot) : List Token :=
  [.word slot.name] ++ phrase ":" ++ cloneOf (ownSlot slot.name)

/-- What is stored when the member is supplied, as tokens. -/
def stored (slot : Slot) : List Token :=
  if slot.mandatory then phrase ":: core :: option :: Option :: Some" ++ [parens [.word "value"]]
  else [.word "value"]

/-- The value of the slot when the target is built, as tokens. The slot of a mandatory member has
been filled by then. -/
def read (slot : Slot) : List Token :=
  if slot.mandatory then
    phrase "match" ++ ownSlot slot.name ++ [braces <|
      phrase ":: core :: option :: Option :: Some" ++ [parens [.word "supplied"]] ++ phrase "=>" ++
      cloneOf [.word "supplied"] ++ phrase "," ++
      phrase ":: core :: option :: Option :: None => :: core :: unreachable !" ++
      [parens [string ("`" ++ slot.name ++ "` is supplied before build")]] ++ phrase ","]
  else cloneOf (ownSlot slot.name)

/-- The method that supplies the member, as tokens. -/
def methodTokens (naming : Naming) (slot : Slot) : List Token :=
  let kind := if slot.mandatory then "mandatory" else "optional"
  let traitPath := [.word naming.stagesModule] ++ phrase "::" ++ [.word slot.memberTrait]
  let next := phrase "<< __Stage as" ++ traitPath ++ phrase "> :: Next >"
  phrase "impl < __Stage :" ++ traitPath ++ phrase ">" ++
    [.word naming.builder] ++ phrase "< __Stage >" ++ [braces <|
      doc ("Supply the " ++ kind ++ " member `" ++ slot.name ++ "`.") ++
      phrase "#" ++ [brackets (phrase "must_use")] ++
      phrase "pub fn" ++ [.word slot.method,
        parens (phrase "& self , value :" ++ slot.type.tokens)] ++
      phrase "->" ++ [.word naming.builder] ++ next ++ [braces <|
        phrase "let mut next = self . restage ::" ++ next ++ [parens []] ++ phrase "; next ." ++
        [.word slot.name] ++ phrase "=" ++ slot.stored ++ phrase "; next"]]

end Slot

namespace BuilderType

/-- The value of the slot of the given name, as tokens. -/
def readSlot (item : BuilderType) (name : String) : List Token :=
  match item.slots.find? fun slot => slot.name == name with
  | some slot => slot.read
  | none => cloneOf (ownSlot name)

/-- What the method that builds the value does, as tokens. -/
def buildTokens (item : BuilderType) : List Token :=
  match item.body with
  | .literal assigned fixed =>
    [.word item.naming.target, braces <|
      commaEnded (assigned.map fun entry =>
        entry.field.tokens ++ phrase ":" ++ item.readSlot entry.slot) ++
      commaEnded (fixed.map fun entry => entry.field.tokens ++ phrase ":" ++ entry.value.tokens)]
  | .call path arguments assigned =>
    let call := path.node.tokens ++
      [parens (List.intercalate (phrase ",") (arguments.map item.readSlot))]
    if assigned.isEmpty then call
    else
      phrase "let mut value =" ++ call ++ phrase ";" ++
        assigned.flatMap (fun entry =>
          phrase "value ." ++ entry.field.tokens ++ phrase "=" ++ item.readSlot entry.slot ++
            phrase ";") ++
        phrase "value"

/-- The head of an implementation for the builder at stages with the given trait, as tokens. -/
def implementation (item : BuilderType) (bound : String) (implemented : List Token) : List Token :=
  phrase "impl < __Stage :" ++ [.word item.naming.stagesModule] ++ phrase "::" ++
    [.word bound] ++ phrase ">" ++ implemented ++ [.word item.naming.builder] ++
    phrase "< __Stage >"

/-- The struct, as tokens. -/
def structTokens (item : BuilderType) : List Token :=
  doc ("Staged builder for `" ++ item.naming.target ++
      "`. Every method takes `&self` and returns a new value.") ++
    item.naming.visibility ++ phrase "struct" ++ [.word item.naming.builder] ++
    phrase "< __Stage =" ++ [.word item.naming.stagesModule] ++ phrase "::" ++ [.word item.root] ++
    phrase ">" ++ [braces <|
      commaEnded (item.slots.map Slot.declaration) ++
      phantom ++ phrase "< fn" ++ [parens []] ++ phrase "-> __Stage > ,"]

/-- The methods that copy a builder to another stage or to the same, as tokens. -/
def copyTokens (item : BuilderType) : List Token :=
  item.implementation Naming.stageTrait [] ++ [braces <|
      phrase "fn restage < __Next :" ++ [.word item.naming.stagesModule] ++ phrase "::" ++
      [.word Naming.stageTrait] ++ phrase ">" ++ [parens (phrase "& self")] ++ phrase "->" ++
      [.word item.naming.builder] ++ phrase "< __Next >" ++
      [braces [.word item.naming.builder,
        braces (commaEnded (item.slots.map Slot.copied) ++ phantom ++ phrase ",")]]] ++
    item.implementation Naming.stageTrait (phrase ":: core :: clone :: Clone for") ++ [braces <|
      phrase "fn clone" ++ [parens (phrase "& self")] ++ phrase "-> Self" ++
      [braces (phrase "self . restage" ++ [parens []])]]

/-- The builder with its methods, as tokens. -/
def tokens (item : BuilderType) : List Token :=
  item.structTokens ++ item.copyTokens ++
    item.slots.flatMap (Slot.methodTokens item.naming) ++
    item.implementation Naming.canBuildTrait [] ++ [braces <|
      doc ("Construct the `" ++ item.naming.target ++ "`. The builder stays usable.") ++
      phrase "#" ++ [brackets (phrase "must_use")] ++
      phrase "pub fn build" ++ [parens (phrase "& self")] ++ phrase "->" ++
      [.word item.naming.target, braces item.buildTokens]]

end BuilderType

end Typestate
