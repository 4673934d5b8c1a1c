import Typestate.Derive.Fault
import Typestate.Grammar.Whole

/-!
# Entries of options

Options are a list of entries between commas: a name alone, a name with a group of tokens, or a
name with a value. What an entry stands for depends on the option that it is given for.
-/

namespace Typestate.Derive

open Grammar Grammar.Parser

/-- An entry in a list of options. -/
inductive Entry where
  /-- A literal, which stands for no option. -/
  | literal
  /-- A name and what stands after it. -/
  | named (name : String) (body : MetaBody)

/-- A literal begins here that is not the name of an option. -/
def beginsLiteral (tokens : List Token) : Bool :=
  isLiteral tokens && !(isAnyWord tokens && isOp "=" (afterOne tokens))

/-- One entry. Any words may stand in the path of its name, but not two colons before it. -/
def entry (sorts : Sorts) : Parser Entry := do
  let tokens ← ahead
  if beginsLiteral tokens then
    let _ ← literal
    return .literal
  else if isAnyWord tokens then
    let names ← namesAtMost isAnyWord (tokens.length + 1)
    return .named ("::".intercalate names) (← metaBody sorts)
  else expected ["identifier or literal"]

/-- The entries of a list of options. -/
def entries (tokens : List Token) : Except Fault (List Entry) :=
  (readTokens (fun sorts => commaList (entry sorts)) tokens).mapError .unreadable

/-! ### Values of options -/

/-- The type of a literal, as faults call it. -/
def literalType (text : String) : String :=
  match Literal.kind text with
  | .string => "string"
  | .byteString => "byte string"
  | .nullTerminated => "unknown"
  | .byte => "byte"
  | .character => "char"
  | .whole => "int"
  | .float => "float"
  | .unknown => "verbatim"

/-- The type of an expression that is no literal, as faults call it. -/
def expressionType : Kind → String
  | .array => "array"
  | .assign => "assign"
  | .asyncBlock => "async"
  | .await => "await"
  | .binary => "binary"
  | .block => "block"
  | .breakOut => "break"
  | .call => "call"
  | .cast => "cast"
  | .closure => "closure"
  | .constBlock => "const"
  | .continueOn => "continue"
  | .field => "field"
  | .forLoop => "for_loop"
  | .ifElse => "if"
  | .index => "index"
  | .inferred => "infer"
  | .condition => "let"
  | .loop => "loop"
  | .callMacro => "macro"
  | .matchArms => "match"
  | .methodCall => "method_call"
  | .parenthesized => "paren"
  | .name => "path"
  | .range => "range"
  | .reference => "reference"
  | .repeatArray => "repeat"
  | .returnFrom => "return"
  | .structLiteral => "struct"
  | .tryOperator => "try"
  | .tryBlock => "try_block"
  | .tuple => "tuple"
  | .unary => "unary"
  | .guarded => "unsafe"
  | .whileLoop => "while"
  | .yieldValue => "yield"
  | _ => "unknown"

/-- The value of an option, seen as a literal where it is one. -/
inductive Value where
  /-- A truth value. -/
  | truth (value : Bool)
  /-- A literal as it is written, and whether a minus stands before it. -/
  | literal (isNegative : Bool) (text : String)
  /-- A single name. -/
  | name (name : String)
  /-- Some other expression, by its type. -/
  | other (type : String)

/-- The value of an option. -/
def Value.ofNode : Node → Value
  | .branch .literal [.literal text] => .literal false text
  | .branch .literal [.operator _, .literal text] => .literal true text
  | .branch .literal [.word text] => .truth (text == "true")
  | .branch .name [.branch .path [.branch .segment [.word text]]] => .name text
  | .construct .labelled _ [_, _, body] => .other (expressionType (body.kind?.getD .labelled))
  | .construct kind _ _ => .other (expressionType kind)
  | .verbatim _ => .other "verbatim"
  | _ => .other "unknown"

/-- The type of a value, as faults call it. -/
def Value.type : Value → String
  | .truth _ => "bool"
  | .literal _ text => literalType text
  | .name _ => "path"
  | .other type => type

/-- The text of a value that is a string literal. -/
def Value.string? : Value → Option String
  | .literal false text => Literal.stringValue? text
  | _ => none

/-- What to say of an option that is given as a list, which none is. -/
def listFault (tokens : List Token) : Fault :=
  match entries tokens with
  | .ok _ => .unexpectedFormat "list"
  | .error fault => fault

/-- The value of an option that has to have one. -/
def valueOf : MetaBody → Except Fault Value
  | .word => .error (.unexpectedFormat "word")
  | .list _ tokens => .error (listFault tokens)
  | .value node => .ok (.ofNode node)

/-- An option that is a text. -/
def textOption (body : MetaBody) : Except Fault String := do
  let value ← valueOf body
  match value.string? with
  | some text => return text
  | none => throw (.unexpectedType value.type)

/-- An option that is a name, by itself or in quotes. -/
def nameOption (body : MetaBody) : Except Fault String := do
  let value ← valueOf body
  match value with
  | .name name => return name
  | _ =>
    match value.string? with
    | some text =>
      match readIdentifier? text with
      | some name => return name
      | none => throw (.unknownValue text)
    | none => throw (.unexpectedType value.type)

/-- An option that is set or not; alone it is set. -/
def flagOption (body : MetaBody) : Except Fault Bool :=
  match body with
  | .word => .ok true
  | _ => do
    let value ← valueOf body
    match value with
    | .truth value => return value
    | _ =>
      match value.string? with
      | some "true" => return true
      | some "false" => return false
      | some text => throw (.unknownValue text)
      | none => throw (.unexpectedType value.type)

/-- The number that decimal digits stand for; a plus may stand before them. -/
def numeral? (text : String) : Option Nat :=
  let digits :=
    match text.toList with
    | '+' :: rest => rest
    | all => all
  if digits.isEmpty || !digits.all Char.isDigit then none
  else some (digits.foldl (fun value c => value * 10 + (c.toNat - '0'.toNat)) 0)

/-- A number that is too large for a count. -/
def isTooLarge (value : Nat) : Bool := UInt64.size ≤ value

/-- An option that is a count, by itself or in quotes. -/
def countOption (body : MetaBody) : Except Fault Nat := do
  let value ← valueOf body
  match value.string? with
  | some text =>
    match numeral? text with
    | some count => if isTooLarge count then throw (.unknownValue text) else return count
    | none => throw (.unknownValue text)
  | none =>
    match value with
    | .literal isNegative text =>
      match Literal.kind text, Literal.wholeValue? text with
      | .whole, some (count, _) =>
        if isNegative then throw .invalidDigit
        else if isTooLarge count then throw .tooLarge
        else return count
      | _, _ => throw (.unexpectedType value.type)
    | _ => throw (.unexpectedType value.type)

end Typestate.Derive
