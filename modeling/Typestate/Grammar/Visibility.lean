import Typestate.Grammar.Attribute

/-!
# Visibilities

Who may see an item: everyone, a named surrounding module, or, if nothing is said, the module the
item stands in.
-/

namespace Typestate.Grammar

open Grammar.Parser

/-- Words that name a surrounding module by themselves. -/
def scopeWords : List String := ["crate", "self", "super"]

/-- One of the words that name a surrounding module, with nothing beside it. -/
def isScopeWord : List Token → Bool
  | [.word text] => scopeWords.contains text
  | _ => false

/-- Parentheses that hold the scope of a visibility stand at the front. Parentheses that hold
something else begin the type of a field. -/
def isScope : List Token → Bool
  | .group .parenthesis body :: _ => isScopeWord body || isWord "in" body
  | _ => false

/-- The scope of a visibility in its parentheses. -/
def scope : Parser Node :=
  group .parenthesis do
    if isWord "in" (← ahead) then return [← keyword "in", (← plainPath).node]
    else return [.word (← anyWord)]

/-- A visibility, which may be left out. -/
def visibility : Parser (List Node) :=
  onlyIf (isWord "pub") do
    let word ← keyword "pub"
    return [.branch .visibility (word :: (← onlyIf isScope (one scope)))]

end Typestate.Grammar
