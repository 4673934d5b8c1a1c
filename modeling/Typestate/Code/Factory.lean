import Typestate.Code.BuilderType

/-!
# The factory

The third generated item: a function of the target that begins a builder. The slots of optional
members hold their defaults from the start; those of mandatory members are empty.
-/

namespace Typestate

open Token

/-- What a slot holds from the start. -/
inductive Seed where
  /-- Nothing: the member has to be supplied. -/
  | empty
  /-- The default of the member. -/
  | default (value : DefaultText)
  deriving DecidableEq, Repr

/-- The function that begins a builder. -/
structure Factory where
  naming : Naming
  /-- The marker of the stage in which a builder begins. -/
  root : String
  /-- For each slot its name and what it holds. -/
  seeds : List (String × Seed)

/-- What the slot of a member holds from the start. -/
def Seed.ofMember (member : Member) : Seed :=
  if member.mandatory then .empty else .default member.default

/-- What a slot holds from the start, as tokens. -/
def Seed.tokens : Seed → List Token
  | .empty => phrase ":: core :: option :: Option :: None"
  | .default value => value.tokens

namespace Factory

/-- The factory of a target. -/
def ofLattice (target : Target) (naming : Naming) (lattice : Lattice) : Factory where
  naming := naming
  root := Naming.marker lattice.root lattice.members
  seeds := target.members.toList.map fun member => (member.name, .ofMember member)

/-- The factory, as tokens. -/
def tokens (item : Factory) : List Token :=
  [.word "impl", .word item.naming.target, braces <|
    doc ("Start building a `" ++ item.naming.target ++ "`.") ++
    phrase "#" ++ [brackets (phrase "must_use")] ++
    item.naming.visibility ++ phrase "fn" ++ [.word item.naming.factory, parens []] ++
    phrase "->" ++ [.word item.naming.builder] ++ phrase "<" ++ [.word item.naming.stagesModule] ++
    phrase "::" ++ [.word item.root] ++ phrase ">" ++ [braces [.word item.naming.builder, braces <|
      commaEnded (item.seeds.map fun (name, seed) => [.word name] ++ phrase ":" ++ seed.tokens) ++
      phantom ++ phrase ","]]]

end Factory

end Typestate
