import Typestate.Grammar.Bound

/-!
# Types

What a type looks like decides its construct from the first tokens on. The place of a type decides
whether a plus after it adds a bound, which makes the type one of trait objects.
-/

namespace Typestate.Grammar

open Grammar.Parser

/-- Bounds of no captures and no constness, each after a plus. -/
def plusBounds (sorts : Sorts) : Parser (List Node) :=
  repeatWhile (isOp "+") do
    let plus ← operator "+"
    return [plus, ← sorts.bound ⟨false, false⟩]

/-- Bounds after a first one; the last plus may be followed by none. -/
def furtherBounds (sorts : Sorts) : Parser (List Node) :=
  onlyIf (isOp "+") do
    let plus ← operator "+"
    let others ← onlyIf (beginsBound ⟨false, false⟩) (bounds sorts true ⟨false, false⟩)
    return plus :: others

/-- Bounds of which one at least is a trait. -/
def objectBounds (sorts : Sorts) (plus : Bool) : Parser (List Node) := do
  let found ← bounds sorts plus ⟨false, false⟩
  if holdsTrait found then return found
  else refuse "at least one trait is required for an object type"

/-- A trait in parentheses that was read as a type: its bound without the parentheses. -/
def asTraitBound? : Node → Option (List Node)
  | .branch .pathType [.branch .path children] => some [.branch .path children]
  | .branch .traitObject [.branch .traitBound [.group .parenthesis children]] => some children
  | .branch .traitObject [.branch .traitBound children] => some children
  | _ => none

/-- What stands inside parentheses in place of a type. -/
inductive Enclosed where
  /-- A type by itself. -/
  | type (node : Node)
  /-- The first bound of a trait object, which may go on after the parentheses. -/
  | bound (nodes : List Node)
  /-- A construct that is read already. -/
  | whole (node : Node)

/-- The inside of parentheses in place of a type. -/
def enclosed (sorts : Sorts) : Parser Enclosed := do
  let tokens ← ahead
  if tokens.isEmpty then return .whole (.branch .tupleType [.group .parenthesis []])
  else if isLifetime tokens then
    let found ← objectBounds sorts true
    return .whole (.branch .parenthesizedType [.group .parenthesis [.branch .traitObject found]])
  else if isOp "?" tokens then
    let (_, nodes) ← traitParts sorts ⟨false, false⟩
    return .bound nodes
  else
    let first ← sorts.type true
    if isOp "," (← ahead) then
      let comma ← operator ","
      let others ← commaSeparated (one (sorts.type true))
      return .whole (.branch .tupleType [.group .parenthesis (first :: comma :: others)])
    else return .type first

/-- A trait object that begins with a bound in parentheses. -/
def objectFrom (sorts : Sorts) (bound : List Node) : Parser Node := do
  let others ← plusBounds sorts
  return .branch .traitObject (.branch .traitBound [.group .parenthesis bound] :: others)

/-- A type that begins with a parenthesis. -/
def parenthesizedType (sorts : Sorts) (plus : Bool) : Parser Node := do
  match ← inside .parenthesis (enclosed sorts) with
  | .whole node => return node
  | .bound nodes => objectFrom sorts nodes
  | .type node =>
    match (if plus && isOp "+" (← ahead) then asTraitBound? node else none) with
    | some nodes => objectFrom sorts nodes
    | none => return .branch .parenthesizedType [.group .parenthesis [node]]

/-- The calling convention of a function, if it is said. -/
def convention? : Parser (List Node) :=
  onlyIf (isWord "extern") do
    let word ← keyword "extern"
    let name ← onlyIf isString (one string)
    return word :: name

/-- Three dots in place of the inputs of a function from some point on. -/
def restOfInputs : Parser (List Node) := do
  let name ← onlyIf isAnyWord do
    let name ← anyWord
    return [.word name, ← operator ":"]
  let dots ← operator "..."
  let comma ← operator? ","
  return name ++ dots :: comma

/-- Three dots stand at the front, with a name or without. -/
def isRestOfInputs (tokens : List Token) : Bool :=
  isOp "..." tokens ||
    ((isIdentifier tokens || isWord "_" tokens) && isOp ":" (afterOne tokens) &&
      isOp "..." (afterOne (afterOne tokens)))

/-- A value that may change stands for itself at the front. -/
def isMutableSelf (tokens : List Token) : Bool :=
  isWord "mut" tokens && isWord "self" (afterOne tokens)

/-- A name and a colon stand at the front. -/
def isNamed (isName : List Token → Bool) (tokens : List Token) : Bool :=
  isName tokens && isOp ":" (afterOne tokens) && !isOp "::" (afterOne tokens)

/-- The input of a function type that stands for a value that may change is kept as it is read. -/
def mutableSelf (sorts : Sorts) : Parser Node := asRead do
  let _ ← keyword "mut"
  let _ ← keyword "self"
  onlyIf (fun tokens => isOp ":" tokens && !isOp "::" tokens) do
    return [← operator ":", ← sorts.type true]

/-- An input of a function type; the first one may stand for the value itself. -/
def functionInput (sorts : Sorts) (isFirst : Bool) : Parser Node := do
  let tokens ← ahead
  let isPlainName := fun tokens => isIdentifier tokens || isWord "_" tokens
  if isFirst && isMutableSelf tokens then mutableSelf sorts
  else if isFirst && isNamed isPlainName tokens && isMutableSelf (afterOne (afterOne tokens)) then
    asRead do return [.word (← anyWord), ← operator ":", ← keyword "mut", ← keyword "self"]
  else if isNamed isPlainName tokens || (isFirst && isNamed (isWord "self") tokens) then
    return .branch .inputOfType [.word (← anyWord), ← operator ":", ← sorts.type true]
  else return .branch .inputOfType [← sorts.type true]

/-- The inputs of a function type. -/
def functionInputsAtMost (sorts : Sorts) (isFirst : Bool) : Nat → Parser (List Node)
  | 0 => fail
  | rounds + 1 => do
    if (← ahead).isEmpty then return []
    else
      let attributes ← outerAttributes sorts
      if isRestOfInputs (← ahead) then return attributes ++ (← restOfInputs)
      else
        let input ← functionInput sorts isFirst
        if (← ahead).isEmpty then return attributes ++ [input]
        else
          let comma ← operator ","
          let others ← functionInputsAtMost sorts false rounds
          return attributes ++ input :: comma :: others

/-- A function type. -/
def functionType (sorts : Sorts) (parameters : List Node) : Parser Node := do
  let safety ← keyword? "unsafe"
  let convention ← convention?
  let word ← keyword "fn"
  let inputs ← group .parenthesis do
    functionInputsAtMost sorts true ((← ahead).length + 1)
  let output ← output? sorts false
  return .branch .functionType (parameters ++ safety ++ convention ++ word :: inputs :: output)

/-- A type that begins with a path. -/
def namedType (sorts : Sorts) (plus : Bool) (parameters : List Node) : Parser Node := do
  match ← anyPath sorts false with
  | .qualified node => return .branch .pathType [node]
  | .plain found =>
    if isCallMark (← ahead) && found.isPlain then
      let body ← callBody
      return .branch .callType (found.node :: body.nodes)
    else if !parameters.isEmpty || (plus && isOp "+" (← ahead)) then
      let others ← if plus then furtherBounds sorts else pure []
      return .branch .traitObject (.branch .traitBound (parameters ++ [found.node]) :: others)
    else return .branch .pathType [found.node]

/-- A type of trait objects that says so. With a star it is kept as it is read. -/
def objectType (sorts : Sorts) (plus : Bool) : Parser Node := do
  let start ← ahead
  let word ← keyword "dyn"
  let star ← operator? "*"
  let found ← objectBounds sorts plus
  if star.isEmpty then return .branch .traitObject (word :: found) else keepFrom start

/-- A slice, or an array with its length. -/
def bracketedType (sorts : Sorts) : Parser Node := do
  inside .bracket do
    let element ← sorts.type true
    if isOp ";" (← ahead) then
      let semicolon ← operator ";"
      return .branch .arrayType [.group .bracket [element, semicolon, ← sorts.expression]]
    else return .branch .sliceType [.group .bracket [element]]

/-- A pointer, which says whether what it points to may change. -/
def pointerType (sorts : Sorts) : Parser Node := do
  let star ← operator "*"
  let tokens ← ahead
  let word ←
    if isWord "const" tokens then keyword "const"
    else if isWord "mut" tokens then keyword "mut"
    else expected ["`const`", "`mut`"]
  return .branch .pointerType [star, word, ← sorts.type false]

/-- A reference, with its lifetime and whether what it refers to may change. -/
def referenceType (sorts : Sorts) : Parser Node := do
  let mark ← operator "&"
  let lifetime ← lifetime?
  let word ← keyword? "mut"
  return .branch .referenceType (mark :: lifetime ++ word ++ [← sorts.type false])

/-- A type known by its bounds only. -/
def implType (sorts : Sorts) (plus : Bool) : Parser Node := do
  let word ← keyword "impl"
  let found ← bounds sorts plus ⟨true, true⟩
  if holdsTraitOrVerbatim found then return .branch .implType (word :: found)
  else refuse "at least one trait must be specified"

/-- A construct known to the compiler only begins here. -/
def isBuiltin (tokens : List Token) : Bool := isWord "builtin" tokens && isOp "#" (afterOne tokens)

/-- A construct known to the compiler only is kept as it is read, from a start on. -/
def builtin (start : List Token) : Parser Node := do
  let _ ← keyword "builtin"
  let _ ← operator "#"
  let _ ← identifier
  let _ ← groupAsRead .parenthesis
  keepFrom start

/-- Words that may follow parameters bound in front of a type, beside identifiers. -/
def boundTypeWords : List String := ["fn", "unsafe", "extern", "super", "self", "Self", "crate"]

/-- Parameters that are bound in front of a type, which has to be one of functions or of traits. -/
def typeBinder? (sorts : Sorts) : Parser (List Node) := do
  let parameters ← binder? sorts
  let tokens ← ahead
  if parameters.isEmpty || isIdentifier tokens || isAnyOf boundTypeWords tokens then
    return parameters
  else expected ("identifier" :: boundTypeWords.map Text.ticked)

/-- A word that begins a path, or an operator that does. -/
def beginsPath (tokens : List Token) : Bool :=
  isPathWord tokens || isOp "::" tokens || isOp "<" tokens

/-- What a type may begin with. -/
def typeBeginnings : List String :=
  ["`for`", "parentheses", "`fn`", "`unsafe`", "`extern`", "identifier", "`::`", "`<`", "`dyn`",
    "square brackets", "`*`", "`&`", "`!`", "`impl`", "`_`", "lifetime"]

/-- A type; the flag allows further bounds after a plus. A type of trait objects that begins with
a lifetime has them anyway. -/
def typeWhere (sorts : Sorts) (plus : Bool) : Parser Node := do
  let start ← ahead
  let parameters ← typeBinder? sorts
  let tokens ← ahead
  if isGroup .parenthesis tokens then parenthesizedType sorts plus
  else if isAnyOf ["fn", "unsafe", "extern"] tokens then functionType sorts parameters
  else if isBuiltin tokens then builtin start
  else if beginsPath tokens then namedType sorts plus parameters
  else if isWord "dyn" tokens then objectType sorts plus
  else if isGroup .bracket tokens then bracketedType sorts
  else if isOp "*" tokens then pointerType sorts
  else if isOp "&" tokens then referenceType sorts
  else if isOp "!" tokens then return .branch .neverType [← operator "!"]
  else if isWord "impl" tokens then implType sorts plus
  else if isWord "_" tokens then return .branch .inferredType [← keyword "_"]
  else if isLifetime tokens then return .branch .traitObject (← objectBounds sorts true)
  else expected typeBeginnings

end Typestate.Grammar
