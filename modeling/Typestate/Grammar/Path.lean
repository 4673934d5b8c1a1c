import Typestate.Grammar.Attribute

/-!
# Paths

A path is a list of segments, each a name with arguments or without. In a type the arguments
follow the name at once; in an expression two colons stand between them. Lifetimes are written
before the other arguments, wherever they stood.
-/

namespace Typestate.Grammar

open Grammar.Parser

/-- A segment of a path. -/
structure Segment where
  name : String
  /-- The arguments of the segment, a tree of generic or of input arguments. -/
  arguments : Option Node

/-- A path. -/
structure Path where
  /-- The path begins with two colons. -/
  leading : Bool
  segments : List Segment

/-- A segment as a tree. -/
def Segment.node (segment : Segment) : Node :=
  .branch .segment (.word segment.name :: segment.arguments.toList)

/-- A path as a tree. -/
def Path.node (path : Path) : Node :=
  .branch .path <|
    (if path.leading then [.operator "::"] else []) ++
      (path.segments.map Segment.node).intersperse (.operator "::")

/-- No segment of the path has arguments. -/
def Path.isPlain (path : Path) : Bool := path.segments.all fun segment => segment.arguments.isNone

/-- Two colons and an opening angle follow a name. -/
def isTurbofish (tokens : List Token) : Bool :=
  isOp "::" tokens && isOp "<" (afterOne (afterOne tokens))

/-- Two colons and a parenthesis follow a name. -/
def isInputTurbofish (tokens : List Token) : Bool :=
  isOp "::" tokens && isGroup .parenthesis (afterOne (afterOne tokens))

/-- A group of statements in braces, with attributes of the group first. -/
def blockWithAttributes (sorts : Sorts) : Parser Node :=
  group .brace do
    let attributes ← innerAttributes sorts
    let statements ← sorts.statements
    return attributes ++ statements

/-- A group of statements in braces. -/
def block (sorts : Sorts) : Parser Node := group .brace sorts.statements

/-! ### Arguments -/

/-- A constant as an argument: a literal, a name or a block. -/
def constantArgument (sorts : Sorts) : Parser Node := do
  let tokens ← ahead
  if isLiteral tokens then literal
  else if isIdentifier tokens then return .branch .constant [.word (← identifier)]
  else if isGroup .brace tokens then return .branch .block [← blockWithAttributes sorts]
  else expected []

/-- An argument, and whether it is a lifetime. -/
structure Argument where
  isLifetime : Bool
  node : Node
  /-- A comma stands after the argument. -/
  comma : Bool

/-- Arguments as they are written, given whether a comma is due before the next one. -/
def Argument.layout (due : Bool) : List Argument → List Node
  | [] => []
  | argument :: rest =>
    (if due then [.operator ","] else []) ++ argument.node ::
      (if argument.comma then [.operator ","] else []) ++ layout (!argument.comma) rest

/-- Arguments as they are written: lifetimes first. -/
def Argument.lifetimesFirst (arguments : List Argument) : List Node :=
  let lifetimes := arguments.filter Argument.isLifetime
  let others := arguments.filter fun argument => !argument.isLifetime
  let due :=
    match lifetimes.getLast? with
    | some last => !last.comma
    | none => false
  lifetimes.flatMap (fun argument =>
    argument.node :: if argument.comma then [.operator ","] else []) ++ layout due others

/-- Arguments between separators up to a closing angle. -/
def argumentsAtMost (separator : Parser Node) (parser : Parser (Bool × Node)) :
    Nat → Parser (List Argument)
  | 0 => fail
  | rounds + 1 => do
    if isOp ">" (← ahead) then return []
    else
      let (isLifetime, node) ← parser
      if isOp ">" (← ahead) then return [⟨isLifetime, node, false⟩]
      else
        let _ ← separator
        let others ← argumentsAtMost separator parser rounds
        return ⟨isLifetime, node, true⟩ :: others

/-- Arguments in angles, lifetimes first. -/
def angled (separator : Parser Node) (parser : Parser (Bool × Node)) : Parser (List Node) := do
  let opening ← operator "<"
  let arguments ← argumentsAtMost separator parser ((← ahead).length + 1)
  let closing ← operator ">"
  return opening :: Argument.lifetimesFirst arguments ++ [closing]

/-- A type that is a single name, as it was read, can be the name of an associated item. -/
def associatedName? : Node → Option (List Node)
  | .branch .pathType [.branch .path [.branch .segment children]] => some children
  | _ => none

/-- An argument that is not a lifetime or a constant: a type, or an associated item and what it
is or what bounds it. -/
def typeArgument (sorts : Sorts) : Parser Node := do
  let argument ← sorts.type true
  match associatedName? argument with
  | some name =>
    if isOp "=" (← ahead) then
      let equals ← operator "="
      let tokens ← ahead
      let value ←
        if isLiteral tokens || isGroup .brace tokens then constantArgument sorts
        else sorts.type true
      return .branch .associated (name ++ [equals, value])
    else if isOp ":" (← ahead) then
      let colon ← operator ":"
      let bounds ← linkedUpTo "+" (isOneOf [",", ">"]) (one (sorts.bound ⟨false, true⟩))
      return .branch .constraint (name ++ colon :: bounds)
    else return argument
  | none => return argument

/-- A generic argument, and whether it is a lifetime. -/
def genericArgument (sorts : Sorts) : Parser (Bool × Node) := do
  let tokens ← ahead
  if isLifetime tokens && !isOp "+" (afterOne tokens) then
    return (true, .branch .lifetimeArgument [← lifetime])
  else if isLiteral tokens || isGroup .brace tokens then
    return (false, ← constantArgument sorts)
  else
    return (false, ← typeArgument sorts)

/-- The generic arguments of a segment, after two colons or not. -/
def genericArguments (sorts : Sorts) : Parser Node := do
  let colons ← operator? "::"
  let arguments ← angled (operator ",") (genericArgument sorts)
  return .branch .genericArguments (colons ++ arguments)

/-! ### Segments -/

/-- A segment of a path, in a type or in an expression. -/
def segment (sorts : Sorts) (inExpression : Bool) : Parser Segment := do
  let tokens ← ahead
  if isAnyOf ["super", "self", "crate", "try"] tokens then return ⟨← anyWord, none⟩
  else
    let name ← if isWord "Self" tokens then anyWord else identifier
    let after ← ahead
    if (!inExpression && isOp "<" after && !isOp "<=" after && !isOp "<<=" after) ||
        isTurbofish after then
      return ⟨name, some (← genericArguments sorts)⟩
    else return ⟨name, none⟩

/-- Segments after two colons each, as long as no parenthesis follows the colons. -/
def moreSegments (sorts : Sorts) (inExpression : Bool) : Parser (List Segment) :=
  repeatWhile (fun tokens => isOp "::" tokens && !isInputTurbofish tokens) do
    let _ ← operator "::"
    return [← segment sorts inExpression]

/-- A path, in a type or in an expression. -/
def pathWhere (sorts : Sorts) (inExpression : Bool) : Parser Path := do
  let leading ← operator? "::"
  let first ← segment sorts inExpression
  let others ← moreSegments sorts inExpression
  return ⟨!leading.isEmpty, first :: others⟩

/-- A path as it stands in a type. -/
def path (sorts : Sorts) : Parser Path := pathWhere sorts false

/-- A path, or a path that begins with a type in angles. -/
inductive AnyPath where
  | plain (path : Path)
  | qualified (node : Node)

/-- A path as a tree, whether it begins with a type or not. -/
def AnyPath.node : AnyPath → Node
  | .plain path => path.node
  | .qualified node => node

/-- A path that begins with a type in angles, which may be seen as a trait. -/
def qualifiedPath (sorts : Sorts) (inExpression : Bool) : Parser Node := do
  let opening ← operator "<"
  let type ← sorts.type true
  let asTrait ← onlyIf (isWord "as") do
    let word ← keyword "as"
    return [word, (← path sorts).node]
  let closing ← operator ">"
  let colons ← operator "::"
  let first ← segment sorts inExpression
  let others ← repeatWhile (isOp "::") do
    let _ ← operator "::"
    return [← segment sorts inExpression]
  return .branch .qualifiedPath <|
    opening :: type :: asTrait ++ closing :: colons ::
      ((first :: others).map Segment.node).intersperse (.operator "::")

/-- A path, which may begin with a type in angles. -/
def anyPath (sorts : Sorts) (inExpression : Bool) : Parser AnyPath := do
  if isOp "<" (← ahead) then return .qualified (← qualifiedPath sorts inExpression)
  else return .plain (← pathWhere sorts inExpression)

/-- The arguments of a call of a macro after the exclamation mark. -/
structure CallBody where
  delimiter : Delimiter
  nodes : List Node

/-- The call of a macro, given its path. -/
def callBody : Parser CallBody := do
  let bang ← operator "!"
  let (delimiter, body) ← anyGroup
  return ⟨delimiter, [bang, body]⟩

/-- An exclamation mark that calls a macro stands at the front. -/
def isCallMark (tokens : List Token) : Bool := isOp "!" tokens && !isOp "!=" tokens

end Typestate.Grammar
