/-!
# Ranges of code points

A character property is a list of closed ranges of code points. Membership is a scan of the
list, so a property of one character is decided by evaluation.
-/

namespace Typestate.Unicode

/-- Closed ranges of code points, in ascending order and apart from each other. -/
abbrev Ranges := List (Nat × Nat)

/-- A code point lies in one of the ranges. -/
def Ranges.has (ranges : Ranges) (code : Nat) : Bool :=
  ranges.any fun range => range.1 ≤ code && code ≤ range.2

/-- Each range is nonempty and ends at least one code point before the next one begins. -/
def Ranges.ordered : Ranges → Bool
  | [] => true
  | [range] => range.1 ≤ range.2
  | range :: next :: rest =>
    range.1 ≤ range.2 && range.2 + 1 < next.1 && Ranges.ordered (next :: rest)

end Typestate.Unicode
