import Typestate.Token.Basic

/-!
# Trees of a parsed text

A tree keeps each token of the text it was read from, in the order in which it is written again.
Operators are leaves of their own: they are written as the unit that was read, not as the text
spaced them. A construct has a kind, attributes and parts. The parts of an expression have a fixed
order, in which a part that is left out still has its place.
-/

namespace Typestate.Grammar

/-- The kinds of constructs. -/
inductive Kind where
  -- names and their parts
  | path | qualifiedPath | segment | genericArguments | inputArguments | lifetimeArgument
  | associated | constraint | constant | binder | capture
  -- bounds and types
  | traitBound | lifetimeBound | arrayType | functionType | implType | inferredType | callType
  | neverType | parenthesizedType | pathType | pointerType | referenceType | sliceType
  | traitObject | tupleType | inputOfType
  -- attributes
  | attributeContent | outerAttribute | innerAttribute
  -- patterns
  | bindingPattern | literalPattern | callPattern | alternatives | parenthesizedPattern
  | pathPattern | referencePattern | restPattern | slicePattern | structPattern
  | tuplePattern | tupleStructPattern | typedPattern | wildPattern | constPattern | fieldPattern
  -- expressions
  | array | assign | asyncBlock | await | binary | block | breakOut | call | cast
  | closure | constBlock | continueOn | field | forLoop | ifElse | index | inferred | condition
  | labelled | literal | loop | callMacro | matchArms | methodCall | parenthesized | name | range
  | addressOf | reference | repeatArray | returnFrom | structLiteral | tryOperator | tryBlock
  | tuple | unary | guarded | whileLoop | yieldValue
  -- parts of expressions
  | start | output | arm | fieldValue
  -- statements and items
  | declaration | macroStatement | expressionStatement | emptyStatement | item
  | generics | parameter | whereClause | predicate | fieldDeclaration | variant | visibility
  | signature
  deriving DecidableEq, Repr

/-- A parsed text as a tree of constructs. -/
inductive Node where
  /-- A part that is left out. -/
  | nothing
  /-- An identifier, a keyword or a low line. -/
  | word (text : String)
  /-- One operator, of one or several characters. -/
  | operator (text : String)
  /-- A lifetime, without its apostrophe. -/
  | lifetime (name : String)
  /-- A literal as it is written. -/
  | literal (text : String)
  /-- Tokens that are kept as they were read. -/
  | verbatim (tokens : List Token)
  /-- What stands between delimiters. -/
  | group (delimiter : Delimiter) (children : List Node)
  /-- A construct, the attributes in front of it, and its parts. -/
  | construct (kind : Kind) (attributes children : List Node)
  deriving Repr

namespace Node

/-- A construct without attributes. -/
@[match_pattern]
def branch (kind : Kind) (children : List Node) : Node := .construct kind [] children

mutual

/-- The tokens of a tree as it stands, before the given ones. -/
def leavesBefore (rest : List Token) : Node → List Token
  | .nothing => rest
  | .word text => .word text :: rest
  | .operator text => Token.ofOperator text.toList ++ rest
  | .lifetime name => Token.ofLifetime name ++ rest
  | .literal text => .literal text :: rest
  | .verbatim tokens => tokens ++ rest
  | .group delimiter children => .group delimiter (listLeavesBefore [] children) :: rest
  | .construct _ attributes children =>
    listLeavesBefore (listLeavesBefore rest children) attributes

/-- The tokens of several trees as they stand, before the given ones. -/
def listLeavesBefore (rest : List Token) : List Node → List Token
  | [] => rest
  | node :: others => node.leavesBefore (listLeavesBefore rest others)

end

/-- The tokens of a tree as it stands. -/
def leaves (node : Node) : List Token := node.leavesBefore []

/-- The kind of the construct at the root of a tree. -/
def kind? : Node → Option Kind
  | .construct kind _ _ => some kind
  | _ => none

/-- The tree is a construct of the given kind. -/
def isKind (kind : Kind) (node : Node) : Bool := node.kind? == some kind

/-- The tree is kept as it was read. -/
def isVerbatim : Node → Bool
  | .verbatim _ => true
  | _ => false

/-- The tree is a range. -/
def isRange (node : Node) : Bool := node.isKind .range

/-- Put attributes in front of a construct. Tokens kept as read take none. -/
def withAttributes (attributes : List Node) : Node → Node
  | .construct kind others children => .construct kind (attributes ++ others) children
  | node => node

mutual

/-- The tree ends with a group in braces. What stands in the parentheses of a bound counts as the
end of the bound. -/
def endsInBraces : Node → Bool
  | .group .brace _ => true
  | .verbatim tokens =>
    match tokens.getLast? with
    | some token => token.isGroup .brace
    | none => false
  | .construct .traitBound _ [.group .parenthesis children] => listEndsInBraces children
  | .construct _ _ children => listEndsInBraces children
  | _ => false

/-- The last of several trees ends with a group in braces. -/
def listEndsInBraces : List Node → Bool
  | [] => false
  | [node] => node.endsInBraces
  | _ :: others => listEndsInBraces others

end

/-- Constructs that end with a block and stand as statements without a semicolon. -/
def blockKinds : List Kind :=
  [.ifElse, .matchArms, .block, .guarded, .whileLoop, .loop, .forLoop, .labelled, .tryBlock,
    .constBlock]

/-- The expression ends with a block and stands as a statement by itself. -/
def isBlockLike (node : Node) : Bool :=
  match node.kind? with
  | some kind => blockKinds.contains kind
  | none => false

/-- The expression stands as a statement by itself: it ends with a block, or is a call of a macro
with braces. -/
def isStatement (node : Node) : Bool :=
  node.isBlockLike || (node.isKind .callMacro && node.endsInBraces)

end Node

end Typestate.Grammar
