import Typestate.Unicode.Ranges

/-!
# White space

The property `White_Space`, and the blanks between tokens, which are white space and the two
marks of writing direction.
-/

namespace Typestate.Unicode

/-- `White_Space`. -/
def whiteSpace : Ranges := [
  (0x9, 0xd), (0x20, 0x20), (0x85, 0x85), (0xa0, 0xa0), (0x1680, 0x1680), (0x2000, 0x200a),
  (0x2028, 0x2029), (0x202f, 0x202f), (0x205f, 0x205f), (0x3000, 0x3000)]

/-- White space of any script. -/
def isWhiteSpace (c : Char) : Bool := whiteSpace.has c.toNat

/-- A character that separates tokens and is otherwise dropped. -/
def isBlank (c : Char) : Bool := isWhiteSpace c || c == '\u200e' || c == '\u200f'

/-- A text of white space alone, the empty text included. -/
def isBlankText (text : String) : Bool := text.toList.all isWhiteSpace

end Typestate.Unicode
