import Typestate.Grammar.Path

/-!
# Parameters

Lifetimes, types and constants that a declaration or a bound is written over. A declaration writes
its lifetimes first; a bound keeps the order in which its parameters stand.
-/

namespace Typestate.Grammar

open Grammar.Parser

/-- A colon and bounds; a colon without bounds is not written. -/
def boundedBy (bounds : Parser (List Node)) : Parser (List Node) :=
  onlyIf (isOp ":") do
    let colon ← operator ":"
    let found ← bounds
    return if found.isEmpty then [] else colon :: found

/-- Bounds with a plus between any two of them, as far as a plus leads. -/
def boundsUpTo (sorts : Sorts) (atEnd : List Token → Bool) : Parser (List Node) :=
  linkedUpTo "+" atEnd (one (sorts.bound ⟨false, true⟩))

/-- A lifetime as a parameter. -/
def lifetimeParameter : Parser Node := do
  let name ← lifetime
  let bounds ← boundedBy (linkedUpTo "+" (isOneOf [",", ">"]) (one lifetime))
  return .branch .parameter (name :: bounds)

/-- A type as a parameter, with bounds and a default or without. -/
def typeParameter (sorts : Sorts) : Parser Node := do
  let name ← identifier
  let bounds ← boundedBy (boundsUpTo sorts (isOneOf [",", ">", "="]))
  let default ← onlyIf (isOp "=") do
    let equals ← operator "="
    return [equals, ← sorts.type true]
  return .branch .parameter (.word name :: bounds ++ default)

/-- A constant as a parameter, with a default or without. -/
def constantParameter (sorts : Sorts) : Parser Node := do
  let word ← keyword "const"
  let name ← identifier
  let colon ← operator ":"
  let type ← sorts.type true
  let default ← onlyIf (isOp "=") do
    let equals ← operator "="
    return [equals, ← constantArgument sorts]
  return .branch .parameter (word :: .word name :: colon :: type :: default)

/-- A parameter, and whether it is a lifetime; what to do if none stands here is given. -/
def parameterOr (sorts : Sorts) (otherwise : Parser Node) : Parser (Bool × Node) := do
  let attributes ← outerAttributes sorts
  let tokens ← ahead
  let node ←
    if isLifetime tokens then lifetimeParameter
    else if isIdentifier tokens then typeParameter sorts
    else if isWord "const" tokens then constantParameter sorts
    else otherwise
  return (isLifetime tokens, node.withAttributes attributes)

/-- The parameters of a declaration, one of which may be left without a name; empty angles count
as none. -/
def generics (sorts : Sorts) : Parser (List Node) :=
  onlyIf (isOp "<") do
    let parameters ← angled (operator ",") <| parameterOr sorts do
      if isWord "_" (← ahead) then return .branch .parameter [← keyword "_"]
      else expected ["lifetime", "identifier", "`const`"]
    if parameters.length ≤ 2 then return []
    else return [.branch .generics parameters]

/-- Parameters that are bound in front of a trait, a type or a closure. -/
def binder (sorts : Sorts) : Parser Node := do
  let word ← keyword "for"
  let opening ← operator "<"
  let parameters ← separated "," (isOp ">") do
    let (_, parameter) ← parameterOr sorts (expected ["identifier", "lifetime", "`const`"])
    return [parameter]
  let closing ← operator ">"
  return .branch .binder (word :: opening :: parameters ++ [closing])

/-- Parameters that may be bound in front. -/
def binder? (sorts : Sorts) : Parser (List Node) := onlyIf (isWord "for") (one (binder sorts))

/-- Angles that hold parameters rather than begin a type. -/
def beginsParameters (tokens : List Token) : Bool :=
  let second := afterOne tokens
  let third := afterOne second
  isOp "<" tokens &&
    (isOneOf [">", "#"] second || isWord "const" second ||
      ((isLifetime second || isIdentifier second) &&
        (isOneOf [">", ",", "="] third || (isOp ":" third && !isOp "::" third))))

/-- Parameters are bound in front rather than a loop begun. -/
def beginsBinder (tokens : List Token) : Bool :=
  isWord "for" tokens && beginsParameters (afterOne tokens)

end Typestate.Grammar
