/-!
# Similarity of names

The Jaro–Winkler similarity of two words, a number from 0 to 1. It counts the characters that
agree at about the same place and the transpositions among them, and favours a common beginning.
It is used to guess which option a misspelt one stands for.
-/

namespace Typestate.Text

/-- The first index from `low` up to `high` at which `c` stands and is not yet taken. -/
def findMatch (c : Char) (low high : Nat) (taken : List Nat) : Nat → List Char → Option Nat
  | _, [] => none
  | index, other :: rest =>
    if high ≤ index then none
    else if low ≤ index && c == other && !taken.contains index then some index
    else findMatch c low high taken (index + 1) rest

/-- Match the characters of one word, from a given index on, with those of another within a
distance: the matched characters in order, and the indexes taken in the other word. -/
def matchFrom (range : Nat) (other : List Char) (index : Nat) (taken : List Nat) :
    List Char → List Char × List Nat
  | [] => ([], taken)
  | c :: rest =>
    match findMatch c (index - range) (min other.length (index + range + 1)) taken 0 other with
    | some found =>
      let (chars, indexes) := matchFrom range other (index + 1) (found :: taken) rest
      (c :: chars, indexes)
    | none => matchFrom range other (index + 1) taken rest

/-- The Jaro similarity. -/
def jaro (first second : List Char) : Float :=
  if first.isEmpty && second.isEmpty then 1.0
  else
    let range := max first.length second.length / 2 - 1
    let (chars, taken) := matchFrom range second 0 [] first
    let others := second.zipIdx.filterMap fun (c, index) =>
      if taken.contains index then some c else none
    let swapped := (chars.zip others).countP fun (c, other) => c != other
    let matched := chars.length
    if matched = 0 then 0.0
    else
      let common := matched.toFloat
      (common / first.length.toFloat + common / second.length.toFloat +
        (matched - swapped / 2).toFloat / common) / 3.0

/-- The Jaro similarity, raised for a common beginning of up to four characters. -/
def jaroWinkler (first second : String) : Float :=
  let similarity := jaro first.toList second.toList
  if similarity > 0.7 then
    let start := ((first.toList.take 4).zip second.toList).takeWhile fun (c, other) => c == other
    similarity + 0.1 * start.length.toFloat * (1.0 - similarity)
  else similarity

/-- The most similar of several names, the first of equals, if one is similar enough. -/
def closest (name : String) (names : List String) : Option String :=
  let best := names.foldl (fun best candidate =>
    let similarity := jaroWinkler name candidate
    match best with
    | some (highest, _) =>
      if similarity > 0.8 && highest < similarity then some (similarity, candidate) else best
    | none => if similarity > 0.8 then some (similarity, candidate) else none) none
  best.map fun found : Float × String => found.2

end Typestate.Text
