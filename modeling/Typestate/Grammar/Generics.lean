import Typestate.Grammar.Bound

/-!
# Conditions on parameters

What a declaration asks of the parameters it is written over. Conditions of which there are none
are not written.
-/

namespace Typestate.Grammar

open Grammar.Parser

/-- What ends conditions on parameters. -/
def endsCondition (tokens : List Token) : Bool :=
  tokens.isEmpty || isGroup .brace tokens || isOneOf [",", ";", "="] tokens ||
    (isOp ":" tokens && !isOp "::" tokens)

/-- A condition on a lifetime or on a type. -/
def predicate (sorts : Sorts) : Parser Node := do
  let tokens ← ahead
  if isLifetime tokens && isOp ":" (afterOne tokens) then
    let name ← lifetime
    let colon ← operator ":"
    let atEnd := fun tokens => endsCondition tokens || isOp ":" tokens
    return .branch .predicate (name :: colon :: (← linkedUpTo "+" atEnd (one lifetime)))
  else
    let parameters ← binder? sorts
    let type ← sorts.type true
    let colon ← operator ":"
    return .branch .predicate (parameters ++ type :: colon :: (← boundsUpTo sorts endsCondition))

/-- The conditions on the parameters of a declaration, which may be left out. -/
def whereClause (sorts : Sorts) : Parser (List Node) :=
  onlyIf (isWord "where") do
    let word ← keyword "where"
    if beginsParameters (← ahead) then
      refuse "generic parameters on `where` clauses are reserved for future use"
    else
      let predicates ← linkedUpTo "," endsCondition (one (predicate sorts))
      if predicates.isEmpty then return []
      else return [.branch .whereClause (word :: predicates)]

end Typestate.Grammar
