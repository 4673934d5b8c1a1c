import Typestate.Proofs.Grammar.Call
import Typestate.Proofs.Grammar.PathTokens

/-!
# Explicit trees

A tree is explicit if every construct of it is told apart down to its words, operators and literals.
Nothing of it is kept as it was read but what is left to others: the arguments of macros and of
attributes.
-/

namespace Typestate.Grammar

/-- Calls of macros, the arguments of which are kept as they are read. -/
def callKinds : List Kind := [.callMacro, .callPattern, .macroStatement]

/-- Constructs that may be written in another way than they are read: items, and the call of a macro
in place of a type, which loses the parameters that are bound in front of it. -/
def looseKinds : List Kind := [.item, .callType]

/-- The construct holds tokens that are left to a macro or to an attribute. -/
def holdsArguments : Kind → List Node → Bool
  | .attributeContent, [_, .group _ _] => true
  | kind, _ => callKinds.contains kind

/-- The construct is one that a reader takes for another: the value of an attribute that is a
negative number, but not a literal, and an expression that is a call of a macro in braces, which is
a statement of its own. -/
def isDoubtful : Kind → List Node → Bool
  | .attributeContent, [_, _, .construct .unary _ _] => true
  | .expressionStatement, [value] => value.isKind .callMacro && value.endsInBraces
  | _, _ => false

mutual

/-- The tree holds no loose construct and nothing that is kept as it was read, except for the
arguments of macros and of attributes. -/
def Node.isExplicit : Node → Bool
  | .verbatim _ => false
  | .group _ children => listIsExplicit children
  | .construct kind attributes children =>
    !looseKinds.contains kind && !isDoubtful kind children && listIsExplicit attributes &&
      (holdsArguments kind children || listIsExplicit children)
  | _ => true

/-- All of the trees are explicit. -/
def listIsExplicit : List Node → Bool
  | [] => true
  | node :: others => node.isExplicit && listIsExplicit others

end

theorem listIsExplicit_iff {nodes : List Node} :
    listIsExplicit nodes = true ↔ ∀ node ∈ nodes, node.isExplicit = true := by
  induction nodes with
  | nil => simp [listIsExplicit]
  | cons node others ih => simp [listIsExplicit, ih]

namespace Node

@[simp] theorem isExplicit_group {delimiter : Delimiter} {children : List Node} :
    (group delimiter children).isExplicit = true ↔ ∀ node ∈ children, node.isExplicit = true := by
  rw [isExplicit, listIsExplicit_iff]

theorem not_isExplicit_of_isVerbatim {node : Node} (h : node.isVerbatim = true) :
    node.isExplicit ≠ true := by
  cases node with
  | verbatim tokens => exact Bool.false_ne_true
  | _ => contradiction

/-- A construct is explicit if its parts are, unless it leaves tokens to others. -/
theorem isExplicit_construct {kind : Kind} {attributes children : List Node}
    (h : holdsArguments kind children = false) :
    (construct kind attributes children).isExplicit = true ↔
      kind ∉ looseKinds ∧ isDoubtful kind children = false ∧
        (∀ node ∈ attributes, node.isExplicit = true) ∧
          ∀ node ∈ children, node.isExplicit = true := by
  rw [isExplicit, h, Bool.false_or, Bool.and_eq_true, Bool.and_eq_true, Bool.and_eq_true,
    listIsExplicit_iff, listIsExplicit_iff, Bool.not_eq_true', Bool.not_eq_true', and_assoc,
    and_assoc, List.contains_eq_mem, decide_eq_false_iff_not]

/-- The parts of an explicit construct are explicit. -/
theorem isExplicit_parts {kind : Kind} {attributes children : List Node}
    (h : (construct kind attributes children).isExplicit = true)
    (hkind : holdsArguments kind children = false) :
    ∀ node ∈ children, node.isExplicit = true :=
  ((isExplicit_construct hkind).mp h).2.2.2

/-- The tree is a construct, so that it takes attributes. -/
def isConstruct (node : Node) : Bool := node.kind?.isSome

/-- A construct with attributes in front is explicit if it and the attributes are. -/
theorem isExplicit_withAttributes {node : Node} {attributes : List Node}
    (hconstruct : node.isConstruct = true) :
    (node.withAttributes attributes).isExplicit = true ↔
      (∀ other ∈ attributes, other.isExplicit = true) ∧ node.isExplicit = true := by
  cases node with
  | construct kind others children =>
    simp only [withAttributes, isExplicit, Bool.and_eq_true, listIsExplicit_iff,
      List.forall_mem_append]
    tauto
  | _ => contradiction

end Node

end Typestate.Grammar
