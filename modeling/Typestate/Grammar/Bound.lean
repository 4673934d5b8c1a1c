import Typestate.Grammar.Parameter

/-!
# Bounds

What a type may be bound by: a trait with its own lifetimes and arguments, a lifetime, or a list
of the parameters that a type captures. A trait that marks constness is kept as it was read.
-/

namespace Typestate.Grammar

open Grammar.Parser

/-- The type that a function gives back, if it is said. -/
def output? (sorts : Sorts) (plus : Bool) : Parser (List Node) :=
  onlyIf (isOp "->") do
    let arrow ← operator "->"
    return [arrow, ← sorts.type plus]

/-- The inputs and the output of a trait of functions. -/
def inputArguments (sorts : Sorts) : Parser Node := do
  let inputs ← group .parenthesis (commaSeparated (one (sorts.type true)))
  let output ← output? sorts false
  return .branch .inputArguments (inputs :: output)

/-- Give the last segment of a path its arguments. -/
def Path.withArguments (path : Path) (arguments : Node) : Path :=
  match path.segments.reverse with
  | last :: others => { path with segments := (⟨last.name, some arguments⟩ :: others).reverse }
  | [] => path

/-- The segment has no arguments, or an empty list of them. -/
def Segment.isOpen (segment : Segment) : Bool :=
  match segment.arguments with
  | none => true
  | some (.branch .genericArguments [.operator "<", .operator ">"]) => true
  | some (.branch .genericArguments [.operator "::", .operator "<", .operator ">"]) => true
  | _ => false

/-- The last segment of the path may take arguments yet. -/
def Path.endsOpen (path : Path) : Bool :=
  match path.segments.getLast? with
  | some last => last.isOpen
  | none => false

/-- A path with generic arguments or the inputs and output of a function. An empty list of generic
arguments gives way to inputs. -/
def traitPath (sorts : Sorts) : Parser Path := do
  let found ← path sorts
  let tokens ← ahead
  if found.endsOpen && (isGroup .parenthesis tokens || isInputTurbofish tokens) then
    let _ ← operator? "::"
    return found.withArguments (← inputArguments sorts)
  else return found

/-- A mark of constness, and whether it is there: a word, or a word in brackets. -/
def constness (rules : BoundRules) : Parser Bool := do
  let tokens ← ahead
  if isGroup .bracket tokens then
    let _ ← group .bracket (one (keyword "const"))
    if rules.constness then return true else refuse "`[const]` is not allowed here"
  else if isWord "const" tokens then
    let _ ← keyword "const"
    if rules.constness then return true else refuse "`const` is not allowed here"
  else return false

/-- A trait as a bound, and whether it marks constness. A relaxed bound binds no parameters. -/
def traitParts (sorts : Sorts) (rules : BoundRules) : Parser (Bool × List Node) := do
  let parameters ← binder? sorts
  let isConst ← constness rules
  let relaxed ← operator? "?"
  let lateParameters ←
    if parameters.isEmpty && !relaxed.isEmpty then binder? sorts else pure []
  let found ← traitPath sorts
  if !relaxed.isEmpty && !(parameters ++ lateParameters).isEmpty then
    refuse "`for<...>` binder not allowed with `?` trait polarity modifier"
  else return (isConst, relaxed ++ parameters ++ [found.node])

/-- A trait as a bound, which may stand in parentheses. -/
def traitBound (sorts : Sorts) (rules : BoundRules) : Parser Node := do
  let start ← ahead
  let isEnclosed := isGroup .parenthesis start
  let (isConst, nodes) ←
    if isEnclosed then inside .parenthesis (traitParts sorts rules) else traitParts sorts rules
  if isConst then keepFrom start
  else return .branch .traitBound (if isEnclosed then [.group .parenthesis nodes] else nodes)

/-- A parameter that a type captures, and whether it is a lifetime. -/
def captured : Parser (Bool × Node) := do
  let tokens ← ahead
  if isLifetime tokens then return (true, ← lifetime)
  else if isIdentifier tokens || isWord "Self" tokens then return (false, .word (← anyWord))
  else expected ["lifetime", "identifier", "`>`"]

/-- The parameters that a type captures. -/
def capture : Parser Node := do
  let word ← keyword "use"
  let comma : Parser Node := do
    if isOp "," (← ahead) then operator "," else expected ["`,`", "`>`"]
  return .branch .capture (word :: (← angled comma captured))

/-- A bound, under rules on what it may hold. -/
def boundWhere (sorts : Sorts) (rules : BoundRules) : Parser Node := do
  let tokens ← ahead
  if isLifetime tokens then return .branch .lifetimeBound [← lifetime]
  else if isWord "use" tokens then
    let found ← capture
    if rules.captures then return found
    else refuse "`use<...>` precise capturing syntax is not allowed here"
  else traitBound sorts rules

/-- A bound may begin here. -/
def beginsBound (rules : BoundRules) (tokens : List Token) : Bool :=
  isAnyWord tokens || isOp "::" tokens || isOp "?" tokens || isLifetime tokens ||
    isGroup .parenthesis tokens ||
    (rules.constness && (isGroup .bracket tokens || isWord "const" tokens))

/-- One bound, or several between pluses if a flag allows it. -/
def bounds (sorts : Sorts) (plus : Bool) (rules : BoundRules) : Parser (List Node) :=
  if plus then linked "+" (beginsBound rules) (one (sorts.bound rules))
  else one (sorts.bound rules)

/-- One of the bounds is a trait. -/
def holdsTrait (bounds : List Node) : Bool := bounds.any (Node.isKind .traitBound)

/-- One of the bounds is a trait, or was kept as it was read. -/
def holdsTraitOrVerbatim (bounds : List Node) : Bool :=
  bounds.any fun bound => bound.isVerbatim || bound.isKind .traitBound

end Typestate.Grammar
