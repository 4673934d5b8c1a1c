import Typestate.Grammar.Type

/-!
# Patterns

What a value may be compared with, and the names that its parts are bound to. Alternatives stand
between vertical bars, and only where a pattern is complete by itself.
-/

namespace Typestate.Grammar

open Grammar.Parser

/-- A vertical bar stands at the front that separates alternatives. -/
def isAlternativeBar (tokens : List Token) : Bool :=
  isOp "|" tokens && !isOp "||" tokens && !isOp "|=" tokens

/-- A pattern with alternatives, the first of which may have a bar in front. -/
def alternatives (sorts : Sorts) : Parser Node := do
  let leading ← operator? "|"
  let first ← sorts.pattern
  if !leading.isEmpty || isAlternativeBar (← ahead) then
    let others ← repeatWhile isAlternativeBar do
      let bar ← operator "|"
      return [bar, ← sorts.pattern]
    return .branch .alternatives (leading ++ first :: others)
  else return first

/-! ### Ranges -/

/-- The end of a range in a pattern is left out here. -/
def isRangeEnd (tokens : List Token) : Bool :=
  tokens.isEmpty || isOneOf ["|", "=", ",", ";"] tokens || isWord "if" tokens ||
    (isOp ":" tokens && !isOp "::" tokens)

/-- An end of a range in a pattern: a literal, a path or a block of constants. -/
def rangeBound (sorts : Sorts) : Parser Node := do
  let tokens ← ahead
  if isLiteral tokens then return .branch .literalPattern [← literal]
  else if beginsPath tokens then
    return .branch .pathPattern [(← anyPath sorts true).node]
  else if isWord "const" tokens then
    let word ← keyword "const"
    return .branch .constPattern [word, ← blockWithAttributes sorts]
  else
    expected ["literal", "identifier", "`::`", "`<`", "`self`", "`Self`", "`super`", "`crate`",
      "`const`"]

/-- The sign of a range in an expression, and whether the range holds its end. -/
def openRangeSign : Parser (Bool × Node) := do
  let tokens ← ahead
  if isOp "..=" tokens then return (true, ← operator "..=")
  else if isOp "..." tokens then expected ["`..=`"]
  else return (false, ← operator "..")

/-- The sign of a range in a pattern, and whether the range holds its end. Three dots are the old
sign of such a range. -/
def rangeSign : Parser (Bool × Node) := do
  if isOp "..." (← ahead) then
    let _ ← operator "..."
    return (true, .operator "..=")
  else openRangeSign

/-- The end of a range in a pattern, which may be left out if it does not belong to the range. -/
def rangeStop (sorts : Sorts) (closed : Bool) : Parser Node := do
  if isRangeEnd (← ahead) then
    if closed then expected ["range upper bound"] else return .nothing
  else rangeBound sorts

/-- A range in a pattern after its first end. -/
def rangeFrom (sorts : Sorts) (first : Node) : Parser Node := do
  let (closed, sign) ← rangeSign
  return .branch .range [first, sign, ← rangeStop sorts closed]

/-- A range in a pattern without a first end, or the rest of a list. -/
def rangeUpTo (sorts : Sorts) : Parser Node := do
  let (closed, sign) ← openRangeSign
  match ← rangeStop sorts closed with
  | .nothing => return .branch .restPattern [sign]
  | stop => return .branch .range [.nothing, sign, stop]

/-- A literal or a block of constants, or the range that it begins. -/
def constantPattern (sorts : Sorts) : Parser Node := do
  let first ← rangeBound sorts
  if isOp ".." (← ahead) then rangeFrom sorts first else return first

/-- A name that a value is bound to, with a pattern for the value or without. -/
def bindingPattern (sorts : Sorts) : Parser Node := do
  let byReference ← keyword? "ref"
  let mutability ← keyword? "mut"
  let name ← if isWord "self" (← ahead) then anyWord else identifier
  let inner ← onlyIf (isOp "@") do
    let mark ← operator "@"
    return [mark, ← sorts.pattern]
  return .branch .bindingPattern (byReference ++ mutability ++ .word name :: inner)

/-! ### Fields -/

/-- What keeps a literal from being an index. -/
def indexMismatch (literal : String) (isNegative : Bool) : Mismatch :=
  match Literal.wholeValue? literal with
  | none => .expected ["integer literal"] false
  | some (_, suffix) =>
    if !suffix.isEmpty then .expected ["unsuffixed integer"] false
    else if isNegative then .refused "invalid digit found in string"
    else .refused "number too large to fit in target type"

/-- The index that a literal stands for. -/
def indexOf (literal : String) : Except Mismatch Nat :=
  match Literal.index? literal with
  | some index => .ok index
  | none => .error (indexMismatch literal false)

/-- A whole number is the literal at the front. -/
def isWhole (literal : String) : Bool := (Literal.wholeValue? literal).isSome

/-- A named field or an index of a field, and whether it is named. -/
def fieldReference : Parser (Bool × Node) := fun tokens =>
  match tokens with
  | .word text :: rest =>
    if Word.isIdentifier text then .ok ⟨(true, .word text), rest, none⟩
    else expected ["identifier or integer"] tokens
  | .literal text :: rest =>
    if isWhole text then do
      let index ← indexOf text
      return ⟨(false, .literal (toString index)), rest, none⟩
    else expected ["identifier or integer"] tokens
  | .mark '-' _ :: .literal text :: _ =>
    if isWhole text then .error (indexMismatch text true)
    else expected ["identifier or integer"] tokens
  | _ => expected ["identifier or integer"] tokens

/-- The pattern of a field that is named as the field itself. With a box it is kept as it is
read. -/
def shorthandField : Parser Node := do
  let start ← ahead
  let boxed ← keyword? "box"
  let byReference ← keyword? "ref"
  let mutability ← keyword? "mut"
  let name ← identifier
  if boxed.isEmpty then return .branch .fieldPattern (byReference ++ mutability ++ [.word name])
  else return .branch .fieldPattern [← keepFrom start]

/-- The pattern of a field of a struct. -/
def fieldPattern (sorts : Sorts) : Parser Node := do
  if isAnyOf ["box", "ref", "mut"] (← ahead) then shorthandField
  else
    let (named, reference) ← fieldReference
    if isOp ":" (← ahead) || !named then
      let colon ← operator ":"
      return .branch .fieldPattern [reference, colon, ← alternatives sorts]
    else return .branch .fieldPattern [reference]

/-- The fields of a struct in a pattern; two dots for the rest end them. -/
def fieldPatternsAtMost (sorts : Sorts) : Nat → Parser (List Node)
  | 0 => fail
  | rounds + 1 => do
    if (← ahead).isEmpty then return []
    else
      let attributes ← outerAttributes sorts
      if isOp ".." (← ahead) then
        let rest ← operator ".."
        return [.construct .restPattern attributes [rest]]
      else
        let field := (← fieldPattern sorts).withAttributes attributes
        if (← ahead).isEmpty then return [field]
        else
          let comma ← operator ","
          let others ← fieldPatternsAtMost sorts rounds
          return field :: comma :: others

/-! ### Patterns by their beginning -/

/-- The parts of a tuple in a pattern. -/
def tupleParts (sorts : Sorts) : Parser Node :=
  group .parenthesis (commaSeparated (one (alternatives sorts)))

/-- A pattern that begins with a path. -/
def namedPattern (sorts : Sorts) : Parser Node := do
  let found ← anyPath sorts true
  let tokens ← ahead
  match found, isCallMark tokens with
  | .plain plain, true =>
    if plain.isPlain then
      let body ← callBody
      return .branch .callPattern (plain.node :: body.nodes)
    else return .branch .pathPattern [plain.node]
  | _, _ =>
    if isGroup .brace tokens then
      let fields ← group .brace do
        fieldPatternsAtMost sorts ((← ahead).length + 1)
      return .branch .structPattern [found.node, fields]
    else if isGroup .parenthesis tokens then
      return .branch .tupleStructPattern [found.node, ← tupleParts sorts]
    else if isOp ".." tokens then
      rangeFrom sorts (.branch .pathPattern [found.node])
    else return .branch .pathPattern [found.node]

/-- A pattern in parentheses: one by itself, unless it is the rest of a list, or a tuple. -/
def enclosedPattern (sorts : Sorts) : Parser Node := do
  let parts ← tupleParts sorts
  match parts with
  | .group _ [only] =>
    let kind : Kind := if only.isKind .restPattern then .tuplePattern else .parenthesizedPattern
    return .branch kind [parts]
  | _ => return .branch .tuplePattern [parts]

/-- A range that leaves out one of its ends. -/
def isOpenRange : Node → Bool
  | .construct .range _ [.nothing, _, _] => true
  | .construct .range _ [_, _, .nothing] => true
  | _ => false

/-- A pattern for the elements of a slice; a range among them has both its ends. -/
def slicePattern (sorts : Sorts) : Parser Node := do
  let elements ← group .bracket <| commaSeparated do
    let element ← alternatives sorts
    if isOpenRange element then
      refuse "range pattern is not allowed unparenthesized inside slice pattern"
    else return [element]
  return .branch .slicePattern [elements]

/-- A pattern of a boxed value is kept as it is read. -/
def boxPattern (sorts : Sorts) : Parser Node := asRead do
  let _ ← keyword "box"
  sorts.pattern

/-- A pattern that refers to a value. -/
def referencePattern (sorts : Sorts) : Parser Node := do
  let mark ← operator "&"
  let word ← keyword? "mut"
  return .branch .referencePattern (mark :: word ++ [← sorts.pattern])

/-- What follows a name that makes it more than a binding. -/
def continuesName (tokens : List Token) : Bool :=
  isOneOf ["::", "!", ".."] tokens || isGroup .brace tokens || isGroup .parenthesis tokens

/-- What a pattern may begin with. -/
def patternBeginnings : List String :=
  ["identifier", "`::`", "`<`", "`_`", "literal", "`const`", "`ref`", "`mut`", "`&`",
    "parentheses", "square brackets", "`..`"]

/-- A pattern without alternatives. -/
def patternWhere (sorts : Sorts) : Parser Node := do
  let tokens ← ahead
  if (isIdentifier tokens && continuesName (afterOne tokens)) ||
      (isWord "self" tokens && isOp "::" (afterOne tokens)) ||
      isOneOf ["::", "<"] tokens || isAnyOf ["Self", "super", "crate"] tokens then
    namedPattern sorts
  else if isWord "_" tokens then return .branch .wildPattern [← keyword "_"]
  else if isWord "box" tokens then boxPattern sorts
  else if isOp "-" tokens || isLiteral tokens || isWord "const" tokens then constantPattern sorts
  else if isAnyOf ["ref", "mut", "self"] tokens || isIdentifier tokens then bindingPattern sorts
  else if isOp "&" tokens then referencePattern sorts
  else if isGroup .parenthesis tokens then enclosedPattern sorts
  else if isGroup .bracket tokens then slicePattern sorts
  else if isOp "..." tokens then expected (patternBeginnings.filter (· != "`..`"))
  else if isOp ".." tokens then rangeUpTo sorts
  else expected patternBeginnings

end Typestate.Grammar
