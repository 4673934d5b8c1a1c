import Typestate.Unicode.Case
import Typestate.Unicode.Cluster

/-!
# Words of a name

A name is cut into words at low lines, hyphens and spaces, which are dropped, where a lower case
letter meets an upper case one, where a letter with case meets a digit, and before the last of
several capitals that begins a new word (`HTTPServer` is `HTTP` and `Server`). The words are then
joined again in one of two styles.
-/

namespace Typestate.Text

open Typestate.Unicode

/-- A word of a name, which is empty between two separators. -/
abbrev Word := List Char

/-- A cluster that separates words and belongs to none. -/
def isSeparator (cluster : Cluster) : Bool :=
  cluster == ['_'] || cluster == ['-'] || cluster == [' ']

/-- A cluster of ASCII digits. -/
def isDigitCluster (cluster : Cluster) : Bool := cluster.all Char.isDigit

/-- A cluster that has case and is its own upper case. -/
def isUpperCluster (cluster : Cluster) : Bool :=
  upper cluster != lower cluster && cluster == upper cluster

/-- A cluster that has case and is its own lower case. -/
def isLowerCluster (cluster : Cluster) : Bool :=
  upper cluster != lower cluster && cluster == lower cluster

/-- A word ends between two neighbouring clusters, the second of which is followed by others. -/
def breaksBetween (first second : Cluster) (others : List Cluster) : Bool :=
  (isLowerCluster first && isUpperCluster second) ||
  ((isLowerCluster first || isUpperCluster first) && isDigitCluster second) ||
  (isDigitCluster first && (isLowerCluster second || isUpperCluster second)) ||
  (isUpperCluster first && isUpperCluster second &&
    match others with
    | third :: _ => isLowerCluster third
    | [] => false)

/-- Cut clusters into words, given the current word so far. -/
def wordsFrom (word : Word) : List Cluster → List Word
  | [] => [word]
  | cluster :: rest =>
    if isSeparator cluster then word :: wordsFrom [] rest
    else
      match rest with
      | next :: others =>
        if breaksBetween cluster next others then (word ++ cluster) :: wordsFrom [] rest
        else wordsFrom (word ++ cluster) rest
      | [] => [word ++ cluster]

/-- The words of a name, in order. -/
def words (name : List Char) : List Word := wordsFrom [] (clusters name)

/-- A word with its first character in upper case and the others in lower case. -/
def capitalized : Word → Word
  | [] => []
  | c :: rest => upperChar c ++ lower rest

/-- A name in upper camel case: capitalized words, joined without a separator. -/
def pascalCase (name : String) : String :=
  String.ofList ((words name.toList).flatMap capitalized)

/-- A name in snake case: lower case words, joined by low lines. -/
def snakeCase (name : String) : String :=
  String.ofList (List.intercalate ['_'] ((words name.toList).map lower))

end Typestate.Text
