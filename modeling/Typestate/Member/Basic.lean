import Typestate.Grammar.Whole
import Typestate.Text.Words
import Typestate.Token.Phrase

/-!
# Members

A member is one value that a builder takes: a name, a type, what it falls back to if it is never
supplied, and where it ends up. Types and defaults are kept as text in the layout in which tokens
are written, so that two of them are equal as soon as they read the same.
-/

namespace Typestate

/-- Why a member cannot have a name. -/
inductive NameFault where
  /-- The name is written raw. -/
  | raw
  /-- The name is not exactly one identifier. -/
  | notIdentifier
  /-- The name begins like those of generated items. -/
  | reserved
  /-- Nothing of the name is left in upper camel case. -/
  | nothingShown
  deriving DecidableEq, Repr

/-- Why a default is refused. -/
inductive DefaultFault where
  /-- There is no text. -/
  | blank
  /-- The text is no expression. -/
  | unreadable
  deriving DecidableEq, Repr

/-- Why there is no such member. -/
inductive MemberError where
  | invalidName (name : String) (fault : NameFault)
  | malformedDefault (member expression : String) (fault : DefaultFault)
  | malformedField (member field : String)
  | malformedType (member type : String)
  deriving DecidableEq, Repr

/-- What is said of a text that the grammar refuses. -/
def refusal : String := "<syn>"

/-- The fault of a name in words. -/
def NameFault.message : NameFault → String
  | .raw => "raw identifiers are not allowed"
  | .notIdentifier => "not a Rust identifier"
  | .reserved => "the `__` prefix is reserved for generated items"
  | .nothingShown => "name has no alphanumeric characters"

/-- The fault of a default in words. -/
def DefaultFault.message : DefaultFault → String
  | .blank => "expression is empty"
  | .unreadable => refusal

namespace MemberError

/-- The error in words. -/
def message : MemberError → String
  | .invalidName name fault => "invalid member name '" ++ name ++ "': " ++ fault.message
  | .malformedDefault member expression fault =>
    "malformed default expression for member '" ++ member ++ "': '" ++ expression ++ "' (" ++
      fault.message ++ ")"
  | .malformedField member field =>
    "malformed field reference for member '" ++ member ++ "': '" ++ field ++ "'"
  | .malformedType member type =>
    "malformed type for member '" ++ member ++ "': '" ++ type ++ "' (" ++ refusal ++ ")"

/-- The name of the member that the error is about. -/
def member : MemberError → String
  | .invalidName name _ => name
  | .malformedDefault member _ _ => member
  | .malformedField member _ => member
  | .malformedType member _ => member

end MemberError

/-- A type, as text in the layout of tokens. -/
structure TypeText where
  text : String
  deriving DecidableEq, Repr

namespace TypeText

/-- Read a type for a member. -/
def read (member text : String) : Except MemberError TypeText :=
  match Grammar.readType? text with
  | some node => .ok ⟨node.render⟩
  | none => .error (.malformedType member text)

/-- The tokens of the type, read from its text. -/
def tokens (type : TypeText) : List Token :=
  match Grammar.readType? type.text with
  | some node => node.tokens
  | none => Token.diagnostic refusal

end TypeText

/-- The value of a member that is never supplied, as text in the layout of tokens. -/
structure DefaultText where
  text : String
  /-- The default is the one that the type itself provides. -/
  isProvided : Bool
  deriving DecidableEq, Repr

namespace DefaultText

/-- The default that the type itself provides. -/
def provided : DefaultText := ⟨"::core::default::Default::default()", true⟩

/-- Read a default for a member. -/
def read (member text : String) : Except MemberError DefaultText :=
  if Unicode.isBlankText text then .error (.malformedDefault member text .blank)
  else
    match Grammar.readExpression? text with
    | some node => .ok ⟨node.render, false⟩
    | none => .error (.malformedDefault member text .unreadable)

/-- The tokens of the default, read from its text. -/
def tokens (default : DefaultText) : List Token :=
  match Grammar.readExpression? default.text with
  | some node => node.tokens
  | none => Token.diagnostic refusal

end DefaultText

/-- What a member falls back to if it is never supplied. -/
inductive Fallback where
  /-- Nothing: the member has to be supplied. -/
  | required
  /-- The default that its type provides. -/
  | provided
  /-- An expression. -/
  | expression (text : String)
  deriving DecidableEq, Repr

/-- The default of a member. A required one has the default of its type, which is never used. -/
def Fallback.resolve (member : String) : Fallback → Except MemberError DefaultText
  | .required => .ok .provided
  | .provided => .ok .provided
  | .expression text => DefaultText.read member text

/-- Where the value of a member ends up. -/
inductive Origin where
  /-- In the call of the constructor, by position. -/
  | argument
  /-- In a field of the value that is built, given by name or by index. -/
  | field (reference : String)
  deriving DecidableEq, Repr

namespace Origin

/-- A field as the origin of a member, if the reference to it can be read. -/
def ofField (member reference : String) : Except MemberError Origin :=
  match Grammar.readFieldReference? reference with
  | some _ => .ok (.field reference)
  | none => .error (.malformedField member reference)

/-- The member is an argument of the constructor. -/
def isArgument : Origin → Bool
  | .argument => true
  | .field _ => false

end Origin

/-- A text is an identifier, raw or not, and nothing else. -/
def isIdentifierText (text : String) : Bool := Grammar.readIdentifier? text == some text

/-- The name of a member in upper camel case, which is part of generated names. -/
def displayName (name : String) : String := Text.pascalCase name

/-- What is wrong with the name of a member. Names of members become names of fields and of
methods as they are; two low lines in front are kept for what is generated beside them. -/
def nameFault? (name : String) : Option NameFault :=
  if Word.isRaw name then some .raw
  else if !isIdentifierText name then some .notIdentifier
  else if ['_', '_'].isPrefixOf name.toList then some .reserved
  else if (displayName name).isEmpty then some .nothingShown
  else none

/-- A value that a builder takes. -/
structure Member where
  name : String
  displayName : String
  type : TypeText
  /-- The member has to be supplied. -/
  mandatory : Bool
  /-- The place of the member among the others. -/
  index : Nat
  default : DefaultText
  origin : Origin
  deriving DecidableEq, Repr

/-- A member, if its name, its type and its default are in order, looked at one after another. -/
def Member.make (name type : String) (fallback : Fallback) (index : Nat) (origin : Origin) :
    Except MemberError Member := do
  match nameFault? name with
  | some fault => throw (.invalidName name fault)
  | none =>
    let type ← TypeText.read name type
    let default ← fallback.resolve name
    return ⟨name, Typestate.displayName name, type, fallback = .required, index, default, origin⟩

end Typestate
