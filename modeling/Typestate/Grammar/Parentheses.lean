import Typestate.Grammar.Operator

/-!
# Parentheses

A tree is written with the parentheses that its places ask for. Most places follow from how tightly
operators bind. The others are those where a text would be read in another way although the tree is
clear: a value without which a jump may stand, a block that would end a statement or begin the body
of a condition, a type that would take what follows as its arguments. The text is followed there as
a reader would follow it, to see whether it takes the next operator, stops before it, or fails.
-/

namespace Typestate.Grammar

/-! ### Expressions by their precedence -/

namespace Node

/-- The part is left out. -/
def isNothing : Node → Bool
  | .nothing => true
  | _ => false

/-- How tightly an expression holds together by itself. Attributes in front count as a sign. -/
def precedence : Node → Precedence
  | .construct .closure attributes [_, output, _] =>
    if output.isNothing then .jump else if attributes.isEmpty then .atom else .sign
  | .construct .breakOut _ [_, _, value] => if value.isNothing then .atom else .jump
  | .construct .returnFrom _ [_, value] => if value.isNothing then .atom else .jump
  | .construct .yieldValue _ [_, value] => if value.isNothing then .atom else .jump
  | .construct .assign _ _ => .assign
  | .construct .range _ _ => .range
  | .construct .binary _ [_, .operator text, _] => .ofOperator text
  | .construct .condition _ _ => .condition
  | .construct .cast _ _ => .cast
  | .construct .unary _ _ => .sign
  | .construct .reference _ _ => .sign
  | .construct .addressOf _ _ => .sign
  | .construct _ attributes _ => if attributes.isEmpty then .atom else .sign
  | _ => .atom

/-- The expression is a way out without a value. -/
def isBareJump : Node → Bool
  | .construct .breakOut _ [_, _, .nothing] => true
  | .construct .returnFrom _ [_, .nothing] => true
  | .construct .yieldValue _ [_, .nothing] => true
  | _ => false

/-- The expression reaches as far to the right as it can. -/
def isOpenOnRight : Node → Bool
  | .construct .breakOut _ _ => true
  | .construct .returnFrom _ _ => true
  | .construct .yieldValue _ _ => true
  | .construct .closure _ _ => true
  | .construct .condition _ _ => true
  | .construct .range _ [.nothing, _, _] => true
  | _ => false

/-- The expression is a block and nothing else: it has no label and no attributes. -/
def isPlainBlock : Node → Bool
  | .construct .block [] [.group .brace (.construct .innerAttribute _ _ :: _)] => false
  | .construct .block [] _ => true
  | _ => false

/-- Constructs that begin with another expression. -/
def leadingKinds : List Kind :=
  [.assign, .await, .binary, .call, .cast, .field, .index, .methodCall, .range, .tryOperator]

/-- The expression begins with a label. -/
def leadsWithLabel : Node → Bool
  | .construct .labelled _ _ => true
  | .construct kind _ (first :: _) => leadingKinds.contains kind && first.leadsWithLabel
  | _ => false

/-- Constructs that end as their last part ends. -/
def trailingKinds : List Kind :=
  [.segment, .inputArguments, .functionType, .pathType, .path, .qualifiedPath, .pointerType,
    .referenceType, .implType, .traitObject, .traitBound]

mutual

/-- The type ends with a name that has no arguments, but may take some. -/
def endsWithName : Node → Bool
  | .construct .segment _ [.word _] => true
  | .construct .traitBound _ [.group .parenthesis children] => listEndsWithName children
  | .construct kind _ children => trailingKinds.contains kind && listEndsWithName children
  | _ => false

/-- The last of several types ends with a name that has no arguments; a plus after it is passed
over. -/
def listEndsWithName : List Node → Bool
  | [] => false
  | [node] => node.endsWithName
  | [node, .operator _] => node.endsWithName
  | _ :: others => listEndsWithName others

end

/-- The expression is a cast to a type that may take arguments. -/
def isCastToName : Node → Bool
  | .construct .cast _ [_, _, type] => type.endsWithName
  | _ => false

end Node

/-! ### Surroundings -/

/-- What stands around an expression, as far as it decides how the expression is written. -/
structure Surroundings where
  /-- How tightly the operator before the expression binds. -/
  before : Precedence := .jump
  /-- How tightly the operator after the expression binds. -/
  after : Precedence := .jump
  /-- The expression is a statement. -/
  isStatement : Bool := false
  /-- A statement begins with the expression and an operator after it. -/
  beginsStatement : Bool := false
  /-- The expression is the body of an arm. -/
  isArm : Bool := false
  /-- The body of an arm begins with the expression and an operator after it. -/
  beginsArm : Bool := false
  /-- The expression stands before a block, so that a brace may not open a literal of a struct. -/
  isHead : Bool := false
  /-- The block follows the expression at once. -/
  endsHead : Bool := false
  /-- An operand begins with the expression that could be left out before a block. -/
  beginsOptional : Bool := false
  /-- What follows the expression may also begin a value. -/
  afterBeginsValue : Bool := false
  /-- Something follows that goes on with the expression. -/
  goesOn : Bool := false
  /-- What follows the expression may also open the arguments of a type. -/
  afterBeginsArguments : Bool := false

namespace Surroundings

/-- Nothing to look out for. -/
def plain : Surroundings := {}

/-- The surroundings of a statement. -/
def statement : Surroundings := { isStatement := true }

/-- The surroundings of the body of an arm. -/
def arm : Surroundings := { isArm := true }

/-- The surroundings of an expression before a block. -/
def head : Surroundings := { isHead := true, endsHead := true }

/-- The surroundings of the first part of an expression, which an operator follows. -/
def onLeft (around : Surroundings) (operator : Precedence)
    (beginsValue beginsArguments : Bool) : Surroundings :=
  { around with
    after := operator
    isStatement := false
    beginsStatement := around.isStatement || around.beginsStatement
    isArm := false
    beginsArm := around.isArm || around.beginsArm
    endsHead := false
    afterBeginsValue := beginsValue
    goesOn := true
    afterBeginsArguments := beginsArguments }

/-- The surroundings of the first part of an expression, which a dot or a question mark follows:
neither ends a statement. -/
def beforeDot (around : Surroundings) : Surroundings :=
  { around with
    after := .atom
    isStatement := around.isStatement || around.beginsStatement
    beginsStatement := false
    isArm := around.isArm || around.beginsArm
    beginsArm := false
    endsHead := false
    afterBeginsValue := false
    goesOn := true
    afterBeginsArguments := false }

/-- The surroundings of the last part of an expression, after an operator. -/
def onRight (around : Surroundings) (operator : Precedence) : Surroundings :=
  { around with
    before := operator
    isStatement := false
    beginsStatement := false
    isArm := false
    beginsArm := false
    beginsOptional := false }

/-- The surroundings of the last part of an expression if it could be left out. -/
def onRightIfAny (around : Surroundings) (operator : Precedence) : Surroundings :=
  { around.onRight operator with beginsOptional := around.isHead }

/-- A literal of a struct may stand here even before a block. -/
def withStructs (around : Surroundings) : Surroundings := { around with isHead := false }

/-- The expression has to stand in parentheses here, lest a statement, an arm or a condition ends
within it. -/
def needsParentheses (around : Surroundings) (node : Node) : Bool :=
  (around.beginsStatement && node.isStatement) ||
    ((around.isStatement || around.beginsStatement) && node.isKind .condition) ||
    (around.beginsArm && node.isBlockLike) ||
    (around.isHead && node.isKind .structLiteral) ||
    (around.endsHead && (node.isBareJump && !node.isKind .breakOut)) ||
    (around.endsHead && !around.isHead &&
      (node.isBareJump || node.isKind .name ||
        match node with
        | .construct .range _ [_, _, .nothing] => true
        | _ => false)) ||
    (around.beginsOptional && node.isPlainBlock)

/-- How tightly an expression holds together here. -/
def precedence (around : Surroundings) (node : Node) : Precedence :=
  if around.afterBeginsValue && node.isBareJump then .jump
  else if !around.goesOn && node.isOpenOnRight then .sign
  else if around.afterBeginsArguments && node.isCastToName then .jump
  else node.precedence

/-- The operator before the expression leaves the whole of it to be read. -/
def readsWhole (around : Surroundings) : Node → Bool
  | .construct .assign _ _ => around.before ≤ .assign
  | .construct .binary _ [_, .operator text, _] =>
    match Precedence.ofOperator text with
    | .assign => around.before ≤ .assign
    | precedence => around.before < precedence
  | .construct .cast _ _ => around.before < .cast
  | .construct .range _ [first, _, _] => first.isNothing || around.before < .assign
  | _ => true

end Surroundings

/-! ### Following the text -/

/-- What comes of following a text to the operator after an expression. -/
inductive Outcome where
  /-- Nothing can be read there. -/
  | fails
  /-- The expression ends before the operator. -/
  | stops
  /-- The expression takes the operator. -/
  | takes
  deriving DecidableEq

namespace Surroundings

/-- The outcome that precedence alone decides, after an operator that has been read. -/
def outcome (around : Surroundings) (read : Precedence) : Outcome :=
  let isTaken :=
    match read with
    | .assign => decide (read ≤ around.after)
    | .compare => decide (read ≤ around.after)
    | _ => decide (read < around.after)
  if isTaken || around.after == .jump then .takes else .stops

/-- The outcome after an expression that is closed on its right. -/
def closedOutcome (around : Surroundings) (read : Precedence) : Outcome :=
  if read == .range && (around.after == .assign || around.after == .range) then .fails
  else if read == .condition && around.after < .condition then .fails
  else around.outcome read

/-- The outcome after a way out without a value. -/
def bareJumpOutcome (around : Surroundings) (read : Precedence) : Outcome :=
  if around.after == .assign && Precedence.assign < read then .fails else .takes

/-- How tightly an expression holds together after an operator, given the outcome of following it.
An expression that binds too loosely may stand all the same where nothing is taken away from what
follows it. -/
def rightPrecedence (around : Surroundings) (node : Node) (following : Unit → Outcome) :
    Precedence :=
  let usual := around.precedence node
  let isLoose :=
    match around.before with
    | .assign => decide (usual < around.before)
    | .condition => decide (usual < around.before)
    | .sign => decide (usual < around.before)
    | _ => decide (usual ≤ around.before)
  let isOpen :=
    match around.after with
    | .range => true
    | .or => true
    | .and => true
    | _ => !around.afterBeginsValue
  if isLoose && isOpen && following () != .takes && around.readsWhole node then .sign
  else usual

end Surroundings

/-- An expression that ends with a value of its own stops where nothing can be read after the
value, and takes the operator otherwise. -/
def Outcome.ofValue : Outcome → Outcome
  | .fails => .stops
  | _ => .takes

/-- Follow an expression to the operator after it, given the operator read last. The two numbers
count the places passed where failing, and where stopping, is no way out any more. -/
def follow (around : Surroundings) (read : Precedence) (failures stops : Nat) (node : Node) :
    Outcome :=
  let isDotted := around.after == .atom
  let usual := around.outcome read
  let nextFailures := if isDotted then failures else 1
  let nextStops := if usual = .takes then 1 else 0
  let isDecided :=
    if isDotted then 2 ≤ failures && (usual == .takes || 1 ≤ stops) else decide (1 ≤ stops)
  if around.needsParentheses node then usual
  else
    match node with
    | .construct .assign [] [_, _, right] =>
      if (if isDotted then 2 ≤ failures else 1 ≤ stops) then .takes
      else
        match follow (around.onRight .assign) .assign nextFailures 1 right with
        | .fails => if isDotted then .fails else .stops
        | _ => .takes
    | .construct .binary [] [_, .operator text, right] =>
      let precedence := Precedence.ofOperator text
      if isDecided || (precedence == .compare && around.after == .compare) then .takes
      else
        let inner := around.onRight precedence
        match follow inner precedence nextFailures nextStops right with
        | .stops => usual
        | .takes => .takes
        | .fails =>
          if precedence != .assign &&
              inner.rightPrecedence right (fun _ => follow inner precedence 1 0 right) ≤ precedence
          then usual
          else if isDotted then .fails
          else .stops
    | .construct .unary _ [_, operand]
    | .construct .reference _ [_, operand]
    | .construct .addressOf _ [_, operand] =>
      if isDecided then .takes
      else
        let inner := around.onRight .sign
        match follow inner read nextFailures nextStops operand with
        | .stops => usual
        | .takes => .takes
        | .fails =>
          if inner.rightPrecedence operand (fun _ => follow inner .sign 1 0 operand) < .sign then
            usual
          else if isDotted then .fails
          else .stops
    | .construct .range [] [_, _, .nothing] =>
      if around.afterBeginsValue then .takes else .fails
    | .construct .range [] [_, _, stop] =>
      if 1 ≤ failures then .takes
      else
        let inner := around.onRightIfAny .range
        let isLow := around.after == .assign || around.after == .range
        let found := follow inner .range failures (if isLow then 0 else 1) stop
        if found = .takes || (found = .stops && !isLow) then .takes
        else if inner.rightPrecedence stop (fun _ => follow inner .range 1 0 stop) ≤ .range then
          .takes
        else .fails
    | .construct .breakOut _ [_, _, .nothing] => around.bareJumpOutcome read
    | .construct .breakOut _ [_, label, value] =>
      if 1 ≤ stops || (label.isNothing && value.leadsWithLabel) then .takes
      else (follow (around.onRightIfAny .jump).withStructs .jump 1 1 value).ofValue
    | .construct .returnFrom _ [_, .nothing]
    | .construct .yieldValue _ [_, .nothing] => around.bareJumpOutcome read
    | .construct .returnFrom _ [_, value]
    | .construct .yieldValue _ [_, value] =>
      if 1 ≤ stops then .takes
      else (follow (around.onRight .jump).withStructs .jump 1 1 value).ofValue
    | .construct .closure _ [_, _, body] =>
      if 1 ≤ stops then .takes else (follow (around.onRight .jump) .jump 1 1 body).ofValue
    | .construct .condition _ [_, value] =>
      if 1 ≤ stops then .takes
      else
        let inner := around.onRight .condition
        let isLow := decide (around.after < .condition)
        match follow inner .condition 1 (if isLow then 0 else 1) value with
        | .takes => .takes
        | found =>
          if isLow then .stops
          else if inner.rightPrecedence value (fun _ => follow inner .condition 1 0 value) <
              .condition then
            .takes
          else found.ofValue
    | _ => around.closedOutcome read

/-- How tightly an expression holds together before an operator. An expression that would stop
before the operator anyway may bind as loosely as it likes. -/
def Surroundings.leftPrecedence (around : Surroundings) (node : Node) : Precedence :=
  if (!around.afterBeginsValue || around.after == .range) &&
      follow around .jump 0 0 node == .stops && around.readsWhole node then
    .atom
  else around.precedence node

/-! ### Writing a tree -/

/-- A node in parentheses. -/
def Node.enclosed (attributes : List Node) (node : Node) : Node :=
  .construct .parenthesized attributes [.group .parenthesis [node]]

/-- Write a part in its surroundings; in parentheses, its surroundings do not matter. -/
def Surroundings.write (around : Surroundings) (isEnclosed : Bool) (part : Surroundings → Node) :
    Node :=
  if isEnclosed then .enclosed [] (part .plain) else part around

/-- Write an expression whose parts bind to each other by an operator. Attributes do not reach over
an operator, so that the expression stands in parentheses behind them. -/
def Surroundings.writeOperation (around : Surroundings) (kind : Kind) (attributes : List Node)
    (parts : Surroundings → List Node) : Node :=
  if attributes.isEmpty then .branch kind (parts around)
  else .enclosed attributes (.branch kind (parts .plain))

/-- Operators that may also stand before a value. -/
def leadingOperators : List String := ["-", "*", "&&", "||", "&", "|", "<<", "<"]

/-- Operators that may also open the arguments of a type. -/
def openingOperators : List String := ["<<", "<"]

/-- An operand of the given precedence needs parentheses on the left of an operator. -/
def isLooseOnLeft (operator operand : Precedence) : Bool :=
  match operator with
  | .assign => decide (operand ≤ .range)
  | .compare => decide (operand ≤ operator)
  | .range => decide (operand ≤ operator)
  | _ => decide (operand < operator)

/-- An operand of the given precedence needs parentheses on the right of an operator. -/
def isLooseOnRight (operator operand : Precedence) : Bool :=
  match operator with
  | .assign => false
  | .condition => decide (operand < operator)
  | .sign => decide (operand < operator)
  | _ => decide (operand ≤ operator)

/-- Write the operand on the left of an operator. -/
def Surroundings.writeLeft (around : Surroundings) (operand : Node)
    (part : Surroundings → Node) : Node :=
  around.write (isLooseOnLeft around.after (around.leftPrecedence operand)) part

/-- Write the operand on the right of an operator. -/
def Surroundings.writeRight (around : Surroundings) (operand : Node)
    (part : Surroundings → Node) : Node :=
  let precedence :=
    around.rightPrecedence operand fun _ => follow around around.before 1 0 operand
  around.write (isLooseOnRight around.before precedence) part

mutual

/-- A tree with the parentheses that it needs where it stands. -/
def Node.settled (around : Surroundings) (node : Node) : Node :=
  around.write (around.needsParentheses node) fun around =>
    match node with
    | .group delimiter children => .group delimiter (listSettled children)
    | .construct .assign attributes [left, sign, right] =>
      around.writeOperation .assign (listSettled attributes) fun around =>
        [(around.onLeft .assign false false).writeLeft left fun around => left.settled around,
          sign, right.settled (around.onRight .assign)]
    | .construct .binary attributes [left, .operator text, right] =>
      around.writeOperation .binary (listSettled attributes) fun around =>
        let precedence := Precedence.ofOperator text
        let onLeft := around.onLeft precedence (leadingOperators.contains text)
          (openingOperators.contains text)
        [onLeft.writeLeft left fun around => left.settled around, .operator text,
          (around.onRight precedence).writeRight right fun around => right.settled around]
    | .construct .cast attributes [operand, word, type] =>
      around.writeOperation .cast (listSettled attributes) fun around =>
        [(around.onLeft .cast false false).writeLeft operand fun around => operand.settled around,
          word, type.settled .plain]
    | .construct .range attributes [first, sign, stop] =>
      around.writeOperation .range (listSettled attributes) fun around =>
        [(around.onLeft .range true false).writeLeft first fun around => first.settled around,
          sign, (around.onRightIfAny .range).writeRight stop fun around => stop.settled around]
    | .construct .unary attributes [start, operand] =>
      .construct .unary (listSettled attributes)
        [start, (around.onRight .sign).writeRight operand fun around => operand.settled around]
    | .construct .reference attributes [start, operand] =>
      .construct .reference (listSettled attributes)
        [start, (around.onRight .sign).writeRight operand fun around => operand.settled around]
    | .construct .addressOf attributes [start, operand] =>
      .construct .addressOf (listSettled attributes)
        [start, (around.onRight .sign).writeRight operand fun around => operand.settled around]
    | .construct .condition attributes [start, value] =>
      .construct .condition (listSettled attributes)
        [start.settled .plain,
          (around.onRight .condition).writeRight value fun around => value.settled around]
    | .construct .breakOut attributes [word, label, value] =>
      let inner := (around.onRightIfAny .jump).withStructs
      .construct .breakOut (listSettled attributes)
        [word, label, inner.write (label.isNothing && value.leadsWithLabel) fun around =>
          value.settled around]
    | .construct .returnFrom attributes [word, value] =>
      .construct .returnFrom (listSettled attributes)
        [word, value.settled (around.onRight .jump).withStructs]
    | .construct .yieldValue attributes [word, value] =>
      .construct .yieldValue (listSettled attributes)
        [word, value.settled (around.onRight .jump).withStructs]
    | .construct .closure attributes [start, output, body] =>
      .construct .closure (listSettled attributes)
        [start.settled .plain, output.settled .plain, body.settled (around.onRight .jump)]
    | .construct .call attributes [base, arguments] =>
      .construct .call (listSettled attributes)
        [(around.onLeft .atom true false).writeLeft base fun around => base.settled around,
          arguments.settled .plain]
    | .construct .index attributes [base, arguments] =>
      .construct .index (listSettled attributes)
        [(around.onLeft .atom true false).writeLeft base fun around => base.settled around,
          arguments.settled .plain]
    | .construct .await attributes (base :: others) =>
      .construct .await (listSettled attributes)
        ((around.beforeDot.writeLeft base fun around => base.settled around) :: listSettled others)
    | .construct .field attributes (base :: others) =>
      .construct .field (listSettled attributes)
        ((around.beforeDot.writeLeft base fun around => base.settled around) :: listSettled others)
    | .construct .methodCall attributes (base :: others) =>
      .construct .methodCall (listSettled attributes)
        ((around.beforeDot.writeLeft base fun around => base.settled around) :: listSettled others)
    | .construct .tryOperator attributes (base :: others) =>
      .construct .tryOperator (listSettled attributes)
        ((around.beforeDot.writeLeft base fun around => base.settled around) :: listSettled others)
    | .construct .ifElse attributes (word :: condition :: others) =>
      .construct .ifElse (listSettled attributes)
        (word :: condition.settled .head :: listSettled others)
    | .construct .whileLoop attributes (word :: condition :: others) =>
      .construct .whileLoop (listSettled attributes)
        (word :: condition.settled .head :: listSettled others)
    | .construct .matchArms attributes (word :: subject :: others) =>
      .construct .matchArms (listSettled attributes)
        (word :: subject.settled .head :: listSettled others)
    | .construct .forLoop attributes [word, element, between, source, body] =>
      .construct .forLoop (listSettled attributes)
        [word, element.settled .plain, between, source.settled .head, body.settled .plain]
    | .construct .arm attributes [start, body, comma] =>
      .construct .arm (listSettled attributes)
        [start.settled .plain, body.settled .arm, comma]
    | .construct .expressionStatement attributes (value :: others) =>
      .construct .expressionStatement (listSettled attributes)
        (value.settled .statement :: others)
    | .construct kind attributes children =>
      .construct kind (listSettled attributes) (listSettled children)
    | other => other

/-- Trees with the parentheses that they need, each by itself. -/
def listSettled : List Node → List Node
  | [] => []
  | node :: others => node.settled .plain :: listSettled others

end

/-- The tokens of a tree as it is written. -/
def Node.tokens (node : Node) : List Token := (node.settled .plain).leaves

/-- The text of a tree. -/
def Node.render (node : Node) : String := Token.render node.tokens

end Typestate.Grammar
