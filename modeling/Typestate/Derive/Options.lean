import Typestate.Derive.Entry
import Typestate.Text.Similarity

/-!
# Options

The options of a declaration and those of its fields. All of them are read before anything is said
of their faults. An option counts as given even if its value is at fault, so a second one is a
duplicate.
-/

namespace Typestate.Derive

open Grammar

/-- The options of a declaration. -/
structure TargetOptions where
  constructor : Option String := none
  factory : Option String := none
  name : Option String := none
  stages : Option String := none
  stageLimit : Option Nat := none
  deriving DecidableEq, Repr

/-- A default that is given for a field. -/
inductive DefaultOption where
  /-- The default of the type. -/
  | provided
  /-- An expression. -/
  | expression (text : String)
  deriving DecidableEq, Repr

/-- The options of a field. -/
structure FieldOptions where
  default : Option DefaultOption := none
  /-- The field is an argument of the constructor. -/
  argument : Bool := false
  name : Option String := none
  /-- The builder leaves the field alone. -/
  skip : Bool := false
  deriving DecidableEq, Repr

/-- An option by its name, and how it is taken over. -/
structure OptionRule (Options : Type) where
  name : String
  take : MetaBody → Options → Except Fault Options

/-- The options that a declaration may have. -/
def targetRules : List (OptionRule TargetOptions) :=
  [⟨"constructor", fun body options => do
      return { options with constructor := some (← textOption body) }⟩,
    ⟨"factory", fun body options => do return { options with factory := some (← nameOption body) }⟩,
    ⟨"name", fun body options => do return { options with name := some (← nameOption body) }⟩,
    ⟨"stages", fun body options => do return { options with stages := some (← nameOption body) }⟩,
    ⟨"stage_limit", fun body options => do
      return { options with stageLimit := some (← countOption body) }⟩]

/-- A default: alone it is that of the type, with a text it is an expression. -/
def defaultOption (body : MetaBody) : Except Fault DefaultOption :=
  match body with
  | .word => .ok .provided
  | _ => do return .expression (← textOption body)

/-- The options that a field may have. -/
def fieldRules : List (OptionRule FieldOptions) :=
  [⟨"default", fun body options => do
      return { options with default := some (← defaultOption body) }⟩,
    ⟨"arg", fun body options => do return { options with argument := ← flagOption body }⟩,
    ⟨"name", fun body options => do return { options with name := some (← nameOption body) }⟩,
    ⟨"skip", fun body options => do return { options with skip := ← flagOption body }⟩]

/-- Options read so far. -/
structure Reading (Options : Type) where
  options : Options
  /-- The names of the options given so far. -/
  given : List String
  /-- The faults found so far. -/
  faults : List Fault

namespace Reading

variable {Options : Type}

/-- Note a fault. -/
def addFault (reading : Reading Options) (fault : Fault) : Reading Options :=
  { reading with faults := reading.faults ++ [fault] }

/-- What to say of an option that does not exist. -/
def unknown (rules : List (OptionRule Options)) (name : String) : Fault :=
  let known := rules.map OptionRule.name
  .unknownOption name (known.mergeSort fun first second => first ≤ second) (Text.closest name known)

/-- Take over an entry. -/
def add (rules : List (OptionRule Options)) (reading : Reading Options) : Entry → Reading Options
  | .literal => reading.addFault (.unexpectedFormat "literal")
  | .named name body =>
    match rules.find? fun rule => rule.name == name with
    | none => reading.addFault (unknown rules name)
    | some rule =>
      if reading.given.contains name then reading.addFault (.duplicate name)
      else
        let reading := { reading with given := name :: reading.given }
        match rule.take body reading.options with
        | .ok options => { reading with options := options }
        | .error fault => reading.addFault fault

/-- Take over the entries of an attribute. -/
def addAttribute (rules : List (OptionRule Options)) (reading : Reading Options)
    (content : Meta) : Reading Options :=
  match content.body with
  | .word => reading
  | .value _ => reading.addFault .singleValue
  | .list _ tokens =>
    match entries tokens with
    | .ok entries => entries.foldl (add rules) reading
    | .error fault => reading.addFault fault

/-- Read the options among attributes. Other attributes are of no concern. -/
def ofAttributes (rules : List (OptionRule Options)) (options : Options)
    (attributes : List Meta) : Reading Options :=
  (attributes.filter fun content => content.path == ⟨false, ["builder"]⟩).foldl
    (addAttribute rules) ⟨options, [], []⟩

end Reading

end Typestate.Derive
