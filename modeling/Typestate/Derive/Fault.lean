import Typestate.Grammar.Mismatch

/-!
# Faults of options

What can be wrong with the options that are written beside a declaration, in words.
-/

namespace Typestate.Derive

open Typestate.Text (ticked)

/-- What is wrong with an option. -/
inductive Fault where
  /-- There is no such option; the options there are, and the one that may be meant. -/
  | unknownOption (name : String) (known : List String) (meant : Option String)
  /-- The option has been given before. -/
  | duplicate (name : String)
  /-- The value is of another type. -/
  | unexpectedType (type : String)
  /-- The option is given in another form. -/
  | unexpectedFormat (format : String)
  /-- A text has no meaning as a value. -/
  | unknownValue (text : String)
  /-- A number has something else than digits. -/
  | invalidDigit
  /-- A number is too large. -/
  | tooLarge
  /-- Options are given as one value. -/
  | singleValue
  /-- Options cannot be read. -/
  | unreadable (mismatch : Grammar.Mismatch)
  /-- A field is set by no one and by the constructor at once. -/
  | skippedArgument
  /-- A field that the constructor sets has a default. -/
  | skippedDefault
  deriving DecidableEq, Repr

/-- The fault in words. -/
def Fault.message : Fault → String
  | .unknownOption name known meant =>
    "Unknown field: " ++ ticked name ++
      match meant with
      | some other => ". Did you mean " ++ ticked other ++ "?"
      | none => ". Available values: " ++ ", ".intercalate (known.map ticked)
  | .duplicate name => "Duplicate field " ++ ticked name
  | .unexpectedType type => "Unexpected type " ++ ticked type
  | .unexpectedFormat format => "Unexpected meta-item format " ++ ticked format
  | .unknownValue text => "Unknown value: " ++ ticked text
  | .invalidDigit => "invalid digit found in string"
  | .tooLarge => "number too large to fit in target type"
  | .singleValue => "Name-value arguments are not supported. Use #[builder(...)]"
  | .unreadable mismatch => mismatch.message
  | .skippedArgument => "`skip` and `arg` cannot be combined"
  | .skippedDefault => "a skipped field is left to the constructor; remove `default`"

end Typestate.Derive
