import Std.Data.TreeMap
import Typestate.Lattice.Fault

/-!
# The search for stages

Stages are found depth first: in each stage every member that is offered is supplied in turn. Many
orders of supplying lead to one set of members, so the search remembers at which place the stage of
a set stands and enters no stage twice. A stage is noted when it is entered, and the steps out of it
when all of them have been taken. A flag may be attached to a search, which is looked at first
whenever the search arrives at a set.
-/

namespace Typestate

/-- A signal by which a search can be called off. -/
structure CancelFlag where
  isSet : Bool
  deriving DecidableEq, Repr

namespace CancelFlag

/-- The search is called off: a flag is attached to it, and the flag is set. -/
def stops (flag : Option CancelFlag) : Bool := flag.any isSet

/-- A flag that is set for a search that is called off, and no flag for another. -/
def ofBool (cancelled : Bool) : Option CancelFlag := if cancelled then some ⟨true⟩ else none

@[simp] theorem stops_none : stops none = false := rfl

@[simp] theorem stops_some (flag : CancelFlag) : stops (some flag) = flag.isSet := rfl

@[simp] theorem stops_ofBool (cancelled : Bool) : stops (ofBool cancelled) = cancelled := by
  cases cancelled <;> rfl

end CancelFlag

/-- What a search has found so far. -/
structure Search where
  /-- The stages, in the order in which they were entered. -/
  stages : Array Stage
  /-- The place of the stage after each set of members. -/
  places : Std.TreeMap IndexSet Nat IndexSet.compare

namespace Search

/-- A search that has found nothing yet. -/
def empty : Search := ⟨#[], ∅⟩

/-- The stage after the given members has been entered. -/
def knows (search : Search) (supplied : IndexSet) : Bool := search.places.contains supplied

/-- The stage after the given members, if it has been entered. -/
def stage? (search : Search) (supplied : IndexSet) : Option Stage := do
  let place ← search.places[supplied]?
  search.stages[place]?

/-- Note a stage that has not been entered before. -/
def add (search : Search) (stage : Stage) : Search :=
  ⟨search.stages.push stage, search.places.insert stage.supplied search.stages.size⟩

/-- Note the steps out of the stage at the given place. -/
def setEdges (search : Search) (place : Nat) (edges : List Edge) : Search :=
  { search with stages := search.stages.modify place fun stage => { stage with edges := edges } }

@[simp] theorem knows_empty (supplied : IndexSet) : empty.knows supplied = false := by
  simp [knows, empty]

@[simp] theorem size_empty : empty.stages.size = 0 := rfl

@[simp] theorem size_add (search : Search) (stage : Stage) :
    (search.add stage).stages.size = search.stages.size + 1 := by
  simp [add]

/-- Noting a stage makes its set known and no other. -/
@[simp] theorem knows_add (search : Search) (stage : Stage) (supplied : IndexSet) :
    (search.add stage).knows supplied = true ↔
      supplied = stage.supplied ∨ search.knows supplied = true := by
  simp only [knows, add, Std.TreeMap.contains_insert, Bool.or_eq_true, beq_iff_eq,
    Std.LawfulEqCmp.compare_eq_iff_eq]
  rw [eq_comm]

/-- Steps noted for an earlier stage may as well be noted before a new one is. -/
theorem setEdges_add_of_lt (search : Search) (stage : Stage) (edges : List Edge) {place : Nat}
    (hplace : place < search.stages.size) :
    (search.add stage).setEdges place edges = (search.setEdges place edges).add stage := by
  simp only [setEdges, add, Array.size_modify, mk.injEq, and_true]
  apply Array.ext_getElem?
  intro other
  grind

/-- Steps noted for the stage entered last are part of that stage. -/
theorem setEdges_add_self (search : Search) (stage : Stage) (edges : List Edge) :
    (search.add stage).setEdges search.stages.size edges =
      search.add { stage with edges := edges } := by
  simp only [setEdges, add, mk.injEq, and_true]
  apply Array.ext_getElem?
  intro other
  grind

mutual

/-- Enter the stage after the given members, in which some mandatory and some optional members are
left, and every stage that it leads to, as far as they are new. -/
def visit (flag : Option CancelFlag) (limit : Nat) (mandatory optional : List Nat)
    (supplied : IndexSet) (search : Search) : Except LatticeError (StageKey × Search) :=
  if CancelFlag.stops flag then .error .cancelled
  else if mandatory.isEmpty && optional.isEmpty then .ok (.complete, search)
  else if search.knows supplied then .ok (.after supplied, search)
  else if limit ≤ search.stages.size then .error (.stageLimitExceeded limit)
  else do
    let place := search.stages.size
    let entered := search.add ⟨supplied, mandatory, optional, []⟩
    let (edges, found) ←
      if mandatory.isEmpty then takeSteps flag limit none supplied [] optional entered
      else takeSteps flag limit (some optional) supplied [] mandatory entered
    return (.after supplied, found.setEdges place edges)
termination_by (mandatory.length + optional.length, 1, 0)
decreasing_by
  · simp only [Option.elim_none, List.length_nil, Prod.lex_def]
    omega
  · simp only [Option.elim_some, List.length_nil, Prod.lex_def]
    omega

/-- Take the steps out of a stage, one for each offered member after those that have been passed.
The optional members wait as long as mandatory ones are offered. -/
def takeSteps (flag : Option CancelFlag) (limit : Nat) (waiting : Option (List Nat))
    (supplied : IndexSet) (passed : List Nat) :
    List Nat → Search → Except LatticeError (List Edge × Search)
  | [], search => .ok ([], search)
  | member :: later, search => do
    let (target, found) ←
      match waiting with
      | some optional => visit flag limit (passed ++ later) optional (supplied.insert member) search
      | none => visit flag limit [] (passed ++ later) (supplied.insert member) search
    let (edges, found) ← takeSteps flag limit waiting supplied (passed ++ [member]) later found
    return (⟨.after supplied, member, target⟩ :: edges, found)
termination_by next => (waiting.elim 0 List.length + passed.length + next.length, 0, next.length)
decreasing_by
  · simp only [List.length_append, List.length_cons, List.length_nil, Prod.lex_def, true_and]
    omega
  · simp only [Option.elim_some, List.length_append, List.length_cons, Prod.lex_def]
    omega
  · simp only [List.length_append, List.length_cons, List.length_nil, Prod.lex_def]
    omega

end

end Search

end Typestate
