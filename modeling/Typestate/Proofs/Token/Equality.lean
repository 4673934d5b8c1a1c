import Typestate.Token.Basic

/-!
# Equality of tokens

Whether two tokens are equal is decided along their groups, so that what a text is read as can be
compared with tokens that are written out.
-/

namespace Typestate.Token

mutual

/-- The tokens are equal. -/
def same : Token → Token → Bool
  | .word text, .word other => text == other
  | .mark char spacing, .mark other spacing' => char == other && spacing == spacing'
  | .literal text, .literal other => text == other
  | .group delimiter body, .group delimiter' other => delimiter == delimiter' && sameList body other
  | _, _ => false

/-- The tokens are equal one by one. -/
def sameList : List Token → List Token → Bool
  | [], [] => true
  | token :: rest, other :: others => same token other && sameList rest others
  | _, _ => false

end

mutual

theorem same_iff (first second : Token) : same first second = true ↔ first = second := by
  cases first <;> cases second <;> simp [same, sameList_iff]

theorem sameList_iff (first second : List Token) :
    sameList first second = true ↔ first = second := by
  cases first with
  | nil => cases second <;> simp [sameList]
  | cons token rest =>
    cases second with
    | nil => simp [sameList]
    | cons other others => simp [sameList, same_iff token other, sameList_iff rest others]

end

instance : DecidableEq Token := fun first second => decidable_of_iff _ (same_iff first second)

end Typestate.Token
