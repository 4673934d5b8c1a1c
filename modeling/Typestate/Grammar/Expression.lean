import Typestate.Grammar.Pattern

/-!
# Expressions

An operand is an atom with signs before it and with calls, fields and the like after it. Operators
join operands by precedence: an operand is followed by operators that bind at least as tightly as
its place asks for. Comparisons do not chain, and a range is no left operand.
-/

namespace Typestate.Grammar

open Grammar.Parser

/-! ### What an expression may begin with -/

/-- A value may begin here after a word that takes one or none. -/
def beginsValue (tokens : List Token) : Bool :=
  (isAnyWord tokens && !isWord "as" tokens) || isGroup .parenthesis tokens ||
    isGroup .bracket tokens || isGroup .brace tokens || isLiteral tokens || isLifetime tokens ||
    (isOp "!" tokens && !isOp "!=" tokens) ||
    (isOp "-" tokens && !isOp "-=" tokens && !isOp "->" tokens) ||
    (isOp "*" tokens && !isOp "*=" tokens) ||
    (isOp "|" tokens && !isOp "|=" tokens) ||
    (isOp "&" tokens && !isOp "&=" tokens) ||
    isOp ".." tokens ||
    (isOp "<" tokens && !isOp "<=" tokens && !isOp "<<=" tokens) ||
    isOp "::" tokens || isOp "#" tokens

/-- A closure begins here. -/
def beginsClosure (tokens : List Token) : Bool :=
  isOp "|" tokens || isWord "move" tokens || beginsBinder tokens ||
    (isWord "const" tokens && !isGroup .brace (afterOne tokens)) || isWord "static" tokens ||
    (isWord "async" tokens && (isOp "|" (afterOne tokens) || isWord "move" (afterOne tokens)))

/-- A block of deferred code begins here. -/
def beginsAsync (tokens : List Token) : Bool :=
  isWord "async" tokens &&
    (isGroup .brace (afterOne tokens) ||
      (isWord "move" (afterOne tokens) && isGroup .brace (afterOne (afterOne tokens))))

/-- A block whose failures stay inside begins here. -/
def beginsTryBlock (tokens : List Token) : Bool :=
  isWord "try" tokens && isGroup .brace (afterOne tokens)

/-! ### Blocks and branches -/

/-- A choice by conditions. -/
def ifElse (sorts : Sorts) : Nat → Parser Node
  | 0 => fail
  | rounds + 1 => do
    let word ← keyword "if"
    let condition ← sorts.head
    let body ← block sorts
    if isWord "else" (← ahead) then
      let between ← keyword "else"
      let tokens ← ahead
      let otherwise ←
        if isWord "if" tokens then ifElse sorts rounds
        else if isGroup .brace tokens then block sorts
        else expected ["`if`", "curly braces"]
      return .branch .ifElse [word, condition, body, between, otherwise]
    else return .branch .ifElse [word, condition, body]

/-- A choice by conditions. -/
def ifExpression (sorts : Sorts) : Parser Node := do
  ifElse sorts ((← ahead).length + 1)

/-- A loop as long as a condition holds. -/
def whileLoop (sorts : Sorts) : Parser Node := do
  let word ← keyword "while"
  let condition ← sorts.head
  return .branch .whileLoop [word, condition, ← blockWithAttributes sorts]

/-- A loop over the elements of a value. -/
def forLoop (sorts : Sorts) : Parser Node := do
  let word ← keyword "for"
  let element ← alternatives sorts
  let between ← keyword "in"
  let source ← sorts.head
  return .branch .forLoop [word, element, between, source, ← blockWithAttributes sorts]

/-- A loop without an end of its own. -/
def endlessLoop (sorts : Sorts) : Parser Node := do
  let word ← keyword "loop"
  return .branch .loop [word, ← blockWithAttributes sorts]

/-- A block by itself. -/
def blockExpression (sorts : Sorts) : Parser Node := do
  return .branch .block [← blockWithAttributes sorts]

/-- A block after a word. -/
def blockAfter (sorts : Sorts) (word : String) (kind : Kind) : Parser Node := do
  return .branch kind [← keyword word, ← blockWithAttributes sorts]

/-- A block whose failures stay inside. -/
def tryBlock (sorts : Sorts) : Parser Node := do
  return .branch .tryBlock [← keyword "try", ← block sorts]

/-- A block of deferred code. -/
def asyncBlock (sorts : Sorts) : Parser Node := do
  let word ← keyword "async"
  let capture ← keyword? "move"
  return .branch .asyncBlock (word :: capture ++ [← block sorts])

/-- One arm of a choice by patterns. A comma follows unless the arm is the last one or a block. -/
def arm (sorts : Sorts) : Parser Node := do
  let attributes ← outerAttributes sorts
  let shape ← alternatives sorts
  let guard ← onlyIf (isWord "if") do
    return [← keyword "if", ← sorts.expression]
  let arrow ← operator "=>"
  let body ← sorts.bodyExpression
  let isOptional := body.isBlockLike || (← ahead).isEmpty
  let comma ← slotIf (fun tokens => !isOptional || isOp "," tokens) (operator ",")
  return .construct .arm attributes [.branch .start (shape :: guard ++ [arrow]), body, comma]

/-- A choice by patterns. -/
def matchExpression (sorts : Sorts) : Parser Node := do
  let word ← keyword "match"
  let subject ← sorts.head
  let arms ← group .brace do
    let attributes ← innerAttributes sorts
    let arms ← repeatWhile (fun tokens => !tokens.isEmpty) (one (arm sorts))
    return attributes ++ arms
  return .branch .matchArms [word, subject, arms]

/-- A loop or a block with a label. -/
def labelled (sorts : Sorts) : Parser Node := do
  let label ← lifetime
  let colon ← operator ":"
  let tokens ← ahead
  let body ←
    if isWord "while" tokens then whileLoop sorts
    else if isWord "for" tokens then forLoop sorts
    else if isWord "loop" tokens then endlessLoop sorts
    else if isGroup .brace tokens then blockExpression sorts
    else expected ["loop or block expression"]
  return .branch .labelled [label, colon, body]

/-! ### Atoms -/

/-- A field of a struct literal with its value, or the field alone. -/
def fieldValue (sorts : Sorts) : Parser Node := do
  let attributes ← outerAttributes sorts
  let (named, reference) ← fieldReference
  if isOp ":" (← ahead) || !named then
    let colon ← operator ":"
    return .construct .fieldValue attributes [reference, colon, ← sorts.expression]
  else return .construct .fieldValue attributes [reference]

/-- The fields of a struct literal; two dots and a value for the rest end them. -/
def fieldValuesAtMost (sorts : Sorts) : Nat → Parser (List Node)
  | 0 => fail
  | rounds + 1 => do
    if (← ahead).isEmpty then return []
    else if isOp ".." (← ahead) then
      let dots ← operator ".."
      let rest ← onlyIf (fun tokens => !tokens.isEmpty) (one sorts.expression)
      return dots :: rest
    else
      let field ← fieldValue sorts
      if (← ahead).isEmpty then return [field]
      else
        let comma ← operator ","
        let others ← fieldValuesAtMost sorts rounds
        return field :: comma :: others

/-- The fields of a struct literal in braces. -/
def structBody (sorts : Sorts) : Parser Node :=
  group .brace do
    fieldValuesAtMost sorts ((← ahead).length + 1)

/-- An expression that begins with a path. -/
def namedExpression (sorts : Sorts) (structs : Bool) : Parser Node := do
  let found ← anyPath sorts true
  let tokens ← ahead
  let isCall :=
    match found with
    | .plain plain => plain.isPlain && isCallMark tokens
    | .qualified _ => false
  if isCall then
    let body ← callBody
    return .branch .callMacro (found.node :: body.nodes)
  else if structs && isGroup .brace tokens then
    return .branch .structLiteral [found.node, ← structBody sorts]
  else return .branch .name [found.node]

/-- What stands in parentheses: nothing, one expression, or the parts of a tuple. -/
def enclosedExpression (sorts : Sorts) : Parser Node := do
  let parts ← group .parenthesis (commaSeparated (one sorts.expression))
  match parts with
  | .group _ [_] => return .branch .parenthesized [parts]
  | _ => return .branch .tuple [parts]

/-- The elements of an array after a first one, up to the last token. -/
def moreElements (sorts : Sorts) : Parser (List Node) :=
  onlyIf (fun tokens => !tokens.isEmpty) do
    let comma ← operator ","
    return comma :: (← commaSeparated (one sorts.expression))

/-- The inside of brackets: elements, or an element and how often it is repeated. -/
def bracketedExpression (sorts : Sorts) : Parser Node :=
  inside .bracket do
    if (← ahead).isEmpty then return .branch .array [.group .bracket []]
    else
      let first ← sorts.expression
      let tokens ← ahead
      if tokens.isEmpty || isOp "," tokens then
        return .branch .array [.group .bracket (first :: (← moreElements sorts))]
      else if isOp ";" tokens then
        let semicolon ← operator ";"
        return .branch .repeatArray [.group .bracket [first, semicolon, ← sorts.expression]]
      else expected ["`,`", "`;`"]

/-- The input of a closure. -/
def closureInput (sorts : Sorts) : Parser (List Node) := do
  let attributes ← outerAttributes sorts
  let shape ← sorts.pattern
  if isOp ":" (← ahead) then
    let colon ← operator ":"
    return [.construct .typedPattern attributes [shape, colon, ← sorts.type true]]
  else return [shape.withAttributes attributes]

/-- A closure. If its output is said, its body is a block. -/
def closure (sorts : Sorts) (structs : Bool) : Parser Node := do
  let parameters ← binder? sorts
  let constness ← keyword? "const"
  let movability ← keyword? "static"
  let asyncness ← keyword? "async"
  let capture ← keyword? "move"
  let opening ← operator "|"
  let inputs ← separated "," (isOp "|") (closureInput sorts)
  let closing ← operator "|"
  let start : Node := .branch .start <|
    parameters ++ constness ++ movability ++ asyncness ++ capture ++ opening :: inputs ++ [closing]
  if isOp "->" (← ahead) then
    let output ← output? sorts true
    let body ← block sorts
    return .branch .closure [start, .branch .output output, .branch .block [body]]
  else return .branch .closure [start, .nothing, ← sorts.expressionWhere structs]

/-- The end of a range is left out here. -/
def endsRange (structs : Bool) (tokens : List Token) : Bool :=
  tokens.isEmpty ||
    isOneOf [",", ";", "?", "=>", "=", "+", "/", "%", "^", ">", "<=", "!=", "-=", "*=", "&=",
      "|=", "<<="] tokens ||
    (isOp "." tokens && !isOp ".." tokens) || (!structs && isGroup .brace tokens) ||
    isWord "as" tokens

/-- The right operand of an operator: an operand, and operators that bind more tightly; as tightly,
if the operator assigns. -/
def rightOperandAtMost (sorts : Sorts) (structs : Bool) (precedence : Precedence) (operand : Node) :
    Nat → Parser Node
  | 0 => fail
  | rounds + 1 => do
    let before ← ahead
    let next := nextPrecedence before
    if precedence < next || (next == precedence && precedence == .assign) then
      let longer ← sorts.operators structs next operand
      if (← ahead).length == before.length then return longer
      else rightOperandAtMost sorts structs precedence longer rounds
    else return operand

/-- The right operand of an operator. -/
def rightOperand (sorts : Sorts) (structs : Bool) (precedence : Precedence) : Parser Node := do
  let operand ← sorts.operand structs
  rightOperandAtMost sorts structs precedence operand ((← ahead).length + 1)

/-- A range after its first end, which may be left out. -/
def rangeAfter (sorts : Sorts) (structs : Bool) (first : Node) : Parser Node := do
  let (closed, sign) ← openRangeSign
  let stop ← slotIf (fun tokens => closed || !endsRange structs tokens)
    (rightOperand sorts structs .range)
  return .branch .range [first, sign, stop]

/-- A pattern that a value is to match. -/
def condition (sorts : Sorts) (structs : Bool) : Parser Node := do
  let word ← keyword "let"
  let shape ← alternatives sorts
  let equals ← operator "="
  let operand ← sorts.operand structs
  let value ← sorts.operators structs .compare operand
  return .branch .condition [.branch .start [word, shape, equals], value]

/-- A way out of a loop or a block, with a label and a value or without. A value that begins with
a label has to stand in parentheses. -/
def breakOut (sorts : Sorts) (structs : Bool) : Parser Node := do
  let word ← keyword "break"
  let tokens ← ahead
  if isLifetime tokens && isOp ":" (afterOne tokens) then
    let _ ← sorts.expression
    refuse "parentheses required"
  else
    let label ← slotIf isLifetime lifetime
    let value ←
      slotIf (fun tokens => beginsValue tokens && (structs || !isGroup .brace tokens))
        sorts.expression
    return .branch .breakOut [word, label, value]

/-- A way out with a value or without. -/
def wayOut (sorts : Sorts) (word : String) (kind : Kind) : Parser Node := do
  return .branch kind [← keyword word, ← slotIf beginsValue sorts.expression]

/-- A way on to the next round of a loop. -/
def continueOn : Parser Node := do
  let word ← keyword "continue"
  return .branch .continueOn (word :: (← lifetime?))

/-- A last call in place of the function is kept as it is read. -/
def becomeCall (sorts : Sorts) : Parser Node := asRead do
  let _ ← keyword "become"
  sorts.expression

/-- An atom: an expression without operators around it. -/
def atom (sorts : Sorts) (structs : Bool) : Parser Node := do
  let tokens ← ahead
  if isLiteral tokens then literal
  else if beginsAsync tokens then asyncBlock sorts
  else if beginsTryBlock tokens then tryBlock sorts
  else if beginsClosure tokens then closure sorts structs
  else if isBuiltin tokens then builtin tokens
  else if beginsPath tokens ||
      (isWord "try" tokens && isOneOf ["!", "::"] (afterOne tokens)) then
    namedExpression sorts structs
  else if isGroup .parenthesis tokens then enclosedExpression sorts
  else if isWord "break" tokens then breakOut sorts structs
  else if isWord "continue" tokens then continueOn
  else if isWord "return" tokens then wayOut sorts "return" .returnFrom
  else if isWord "become" tokens then becomeCall sorts
  else if isGroup .bracket tokens then bracketedExpression sorts
  else if isWord "let" tokens then condition sorts structs
  else if isWord "if" tokens then ifExpression sorts
  else if isWord "while" tokens then whileLoop sorts
  else if isWord "for" tokens then forLoop sorts
  else if isWord "loop" tokens then endlessLoop sorts
  else if isWord "match" tokens then matchExpression sorts
  else if isWord "yield" tokens then wayOut sorts "yield" .yieldValue
  else if isWord "unsafe" tokens then blockAfter sorts "unsafe" .guarded
  else if isWord "const" tokens then blockAfter sorts "const" .constBlock
  else if isGroup .brace tokens then blockExpression sorts
  else if isOp ".." tokens then rangeAfter sorts structs .nothing
  else if isWord "_" tokens then return .branch .inferred [← keyword "_"]
  else if isLifetime tokens then labelled sorts
  else expected ["an expression"]

/-! ### What is applied to an atom -/

/-- The arguments of a call. -/
def callArguments (sorts : Sorts) : Parser Node :=
  group .parenthesis (commaSeparated (one sorts.expression))

/-- The indexes that a number with a point stands for after a dot, and whether the point ends it:
`a.0.1` reads the number `0.1` as two indexes. -/
def chainedIndexes (text : String) : Except Mismatch (List Nat × Bool) := do
  match text.splitOn "." with
  | [first, ""] => return ([← indexOf first], true)
  | parts => return (← parts.mapM indexOf, false)

/-- Fields by index, each of the one before. -/
def indexFields (base : Node) (indexes : List Nat) : Node :=
  indexes.foldl (fun base index =>
    .branch .field [base, .operator ".", .literal (toString index)]) base

/-- A number with a point or an exponent, and whether a minus stands before it. -/
def float? : List Token → Option (Bool × String)
  | .literal text :: _ => if Literal.kind text = .float then some (false, text) else none
  | .mark '-' _ :: .literal text :: _ =>
    if Literal.kind text = .float then some (true, text) else none
  | _ => none

/-- Take a number with a point as the indexes that it stands for, if it stands here. -/
def indexes? : Parser (List Nat × Bool) := fun tokens =>
  match float? tokens with
  | some (false, text) => do return ⟨← chainedIndexes text, tokens.drop 1, none⟩
  | some (true, text) => .error (indexMismatch ((text.splitOn ".").headD text) true)
  | none => .ok ⟨([], true), tokens, none⟩

/-- What follows a dot: a wait, a method with its arguments, or a field. -/
def afterDot (sorts : Sorts) (base : Node) : Parser Node := do
  if isWord "await" (← ahead) then
    return .branch .await [base, .operator ".", ← keyword "await"]
  else
    let (named, member) ← fieldReference
    let turbofish ←
      onlyIf (fun tokens => named && isOp "::" tokens) do
        let colons ← operator "::"
        let arguments ← angled (operator ",") (genericArgument sorts)
        return [.branch .genericArguments (colons :: arguments)]
    if !turbofish.isEmpty || (named && isGroup .parenthesis (← ahead)) then
      return .branch .methodCall
        (base :: .operator "." :: member :: turbofish ++ [← callArguments sorts])
    else return .branch .field [base, .operator ".", member]

/-- Something applied to an expression with a dot. -/
def dotted (sorts : Sorts) (base : Node) : Parser Node := do
  let _ ← operator "."
  let (indexes, goesOn) ← indexes?
  if goesOn then afterDot sorts (indexFields base indexes)
  else return indexFields base indexes

/-- A dot stands at the front that reaches into a value. -/
def isDot (tokens : List Token) : Bool := isOp "." tokens && !isOp ".." tokens

/-- Calls, fields, indexes and the like after an expression. -/
def appliedAtMost (sorts : Sorts) (base : Node) : Nat → Parser Node
  | 0 => fail
  | rounds + 1 => do
    let tokens ← ahead
    if isGroup .parenthesis tokens then
      appliedAtMost sorts (.branch .call [base, ← callArguments sorts]) rounds
    else if isDot tokens && !base.isRange then
      appliedAtMost sorts (← dotted sorts base) rounds
    else if isGroup .bracket tokens then
      let inside ← group .bracket (one sorts.expression)
      appliedAtMost sorts (.branch .index [base, inside]) rounds
    else if isOp "?" tokens && !base.isRange then
      appliedAtMost sorts (.branch .tryOperator [base, ← operator "?"]) rounds
    else return base

/-- Calls, fields, indexes and the like after an expression. -/
def applied (sorts : Sorts) (base : Node) : Parser Node := do
  appliedAtMost sorts base ((← ahead).length + 1)

/-- An atom and what is applied to it, with attributes in front. A range takes no attributes, and
a construct that is kept as it is read keeps its attributes as they are read. -/
def appliedAtom (sorts : Sorts) (structs : Bool) (attributes : List Node) (start : List Token) :
    Parser Node := do
  let base ← atom sorts structs
  let node ← applied sorts base
  if node.isVerbatim then keepFrom start
  else if node.isRange && !attributes.isEmpty then
    refuse "attributes are not allowed on range expressions starting with `..`"
  else return node.withAttributes attributes

/-- A reference to an operand, or its address. -/
def referenceTo (sorts : Sorts) (structs : Bool) (attributes : List Node) : Parser Node := do
  let mark ← operator "&"
  let tokens ← ahead
  if isWord "raw" tokens && isAnyOf ["mut", "const"] (afterOne tokens) then
    let raw ← keyword "raw"
    let word ← wordNode anyWord
    return .construct .addressOf attributes
      [.branch .start [mark, raw, word], ← sorts.operand structs]
  else
    let word ← keyword? "mut"
    return .construct .reference attributes [.branch .start (mark :: word), ← sorts.operand structs]

/-- An operand: an atom and what is applied to it, with signs and attributes in front. -/
def operandWhere (sorts : Sorts) (structs : Bool) : Parser Node := do
  let start ← ahead
  let attributes ← outerAttributes sorts
  let tokens ← ahead
  if isOp "&" tokens then referenceTo sorts structs attributes
  else if isOneOf ["*", "!", "-"] tokens then
    let sign ← if isOp "*" tokens then operator "*"
      else if isOp "!" tokens then operator "!"
      else operator "-"
    return .construct .unary attributes [.branch .start [sign], ← sorts.operand structs]
  else appliedAtom sorts structs attributes start

/-! ### Operators -/

/-- What stands here and may not follow the type of a cast, in words. -/
def appliedToCast? (tokens : List Token) : Option String :=
  let second := afterOne tokens
  let third := afterOne second
  if isDot tokens then
    some <|
      if isWord "await" second then "`.await`"
      else if isIdentifier second && (isGroup .parenthesis third || isOp "::" third) then
        "a method call"
      else "a field access"
  else if isOp "?" tokens then some "`?`"
  else if isGroup .bracket tokens then some "indexing"
  else if isGroup .parenthesis tokens then some "a function call"
  else none

/-- A cast of an operand to a type. -/
def castOf (sorts : Sorts) (operand : Node) : Parser Node := do
  let word ← keyword "as"
  let type ← sorts.type false
  match appliedToCast? (← ahead) with
  | some applied => refuse ("casts cannot be followed by " ++ applied)
  | none => return .branch .cast [operand, word, type]

/-- Operators of at least a precedence after a first operand. -/
def operatorsAtMost (sorts : Sorts) (structs : Bool) (least : Precedence) (first : Node) :
    Nat → Parser Node
  | 0 => fail
  | rounds + 1 => do
    let tokens ← ahead
    if first.isRange then return first
    else
      match binaryOperator? tokens with
      | some (text, precedence) =>
        if precedence < least then return first
        else if precedence == .compare && first.isComparison then
          refuse "comparison operators cannot be chained"
        else
          let sign ← operator text
          let second ← rightOperand sorts structs precedence
          operatorsAtMost sorts structs least (.branch .binary [first, sign, second]) rounds
      | none =>
        if least ≤ .assign && isOp "=" tokens && !isOp "=>" tokens then
          let equals ← operator "="
          let second ← rightOperand sorts structs .assign
          operatorsAtMost sorts structs least (.branch .assign [first, equals, second]) rounds
        else if least ≤ .range && isOp ".." tokens then
          operatorsAtMost sorts structs least (← rangeAfter sorts structs first) rounds
        else if least ≤ .cast && isWord "as" tokens then
          operatorsAtMost sorts structs least (← castOf sorts first) rounds
        else return first

/-- Operators of at least a precedence after a first operand. -/
def operatorsWhere (sorts : Sorts) (structs : Bool) (least : Precedence) (first : Node) :
    Parser Node := do
  operatorsAtMost sorts structs least first ((← ahead).length + 1)

/-! ### Expressions that may stand as statements -/

/-- A construct that stands as a statement by itself, or an operand. -/
def bodyStart (sorts : Sorts) : Parser Node := do
  let tokens ← ahead
  if isWord "if" tokens then ifExpression sorts
  else if isWord "while" tokens then whileLoop sorts
  else if isWord "for" tokens && !beginsBinder tokens then forLoop sorts
  else if isWord "loop" tokens then endlessLoop sorts
  else if isWord "match" tokens then matchExpression sorts
  else if beginsTryBlock tokens then tryBlock sorts
  else if isWord "unsafe" tokens then blockAfter sorts "unsafe" .guarded
  else if isWord "const" tokens && isGroup .brace (afterOne tokens) then
    blockAfter sorts "const" .constBlock
  else if isGroup .brace tokens then blockExpression sorts
  else if isLifetime tokens then labelled sorts
  else sorts.operand true

/-- An expression that ends after a construct which stands as a statement by itself, unless
something is applied to it with a dot. -/
def bodyExpressionWhere (sorts : Sorts) : Parser Node := do
  let attributes ← outerAttributes sorts
  let first ← bodyStart sorts
  if !first.isBlockLike then sorts.operators true .jump (first.withAttributes attributes)
  else
    let tokens ← ahead
    if isDot tokens || isOp "?" tokens then
      let node ← applied sorts first
      sorts.operators true .jump (node.withAttributes attributes)
    else return first.withAttributes attributes

end Typestate.Grammar
