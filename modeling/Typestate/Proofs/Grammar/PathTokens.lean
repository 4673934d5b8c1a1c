import Mathlib.Data.List.Basic
import Typestate.Proofs.Grammar.FieldReference
import Typestate.Token.Phrase

/-!
# Tokens of paths

A path is written segment by segment, with two colons between any two of them and perhaps in front.
A segment is its name with its arguments behind it. So a path with other names, or with a segment
more, is written with the same arguments at the same places.
-/

namespace Typestate.Token

/-- A blank ends a piece. -/
theorem phraseFrom_append (piece first second : List Char) :
    phraseFrom piece (first ++ ' ' :: second) = phraseFrom piece first ++ phraseFrom [] second := by
  induction first generalizing piece with
  | nil => rfl
  | cons c rest ih =>
    rw [List.cons_append, phraseFrom, phraseFrom]
    split
    · rw [ih, List.append_assoc]
    · exact ih _

/-- A phrase in two parts. -/
theorem phrase_append (first second : String) :
    phrase (first ++ " " ++ second) = phrase first ++ phrase second := by
  have htext : (first ++ " " ++ second).toList = first.toList ++ ' ' :: second.toList := by
    simp [String.toList_append]
  rw [phrase, htext, phraseFrom_append]
  rfl

end Typestate.Token

namespace Typestate.Grammar

open Token

namespace Node

mutual

/-- What stands after a tree is written after its leaves. -/
theorem leavesBefore_eq (rest : List Token) :
    ∀ node : Node, node.leavesBefore rest = node.leaves ++ rest
  | .nothing => rfl
  | .word _ => rfl
  | .operator _ => by simp only [leaves, leavesBefore, List.append_nil]
  | .lifetime _ => by simp only [leaves, leavesBefore, List.append_nil]
  | .literal _ => rfl
  | .verbatim _ => by simp only [leaves, leavesBefore, List.append_nil]
  | .group _ _ => by simp only [leaves, leavesBefore, List.cons_append, List.nil_append]
  | .construct _ attributes children => by
    simp only [leaves, leavesBefore]
    rw [listLeavesBefore_eq (listLeavesBefore rest children) attributes,
      listLeavesBefore_eq rest children,
      listLeavesBefore_eq (listLeavesBefore [] children) attributes, List.append_assoc]

/-- What stands after several trees is written after their leaves. -/
theorem listLeavesBefore_eq (rest : List Token) :
    ∀ nodes : List Node, listLeavesBefore rest nodes = listLeavesBefore [] nodes ++ rest
  | [] => rfl
  | node :: others => by
    rw [listLeavesBefore, listLeavesBefore, leavesBefore_eq (listLeavesBefore rest others) node,
      leavesBefore_eq (listLeavesBefore [] others) node, listLeavesBefore_eq rest others,
      List.append_assoc]

end

/-- The leaves of several trees are those of each. -/
theorem listLeavesBefore_nil (nodes : List Node) :
    listLeavesBefore [] nodes = nodes.flatMap leaves := by
  induction nodes with
  | nil => rfl
  | cons node others ih => rw [listLeavesBefore, leavesBefore_eq, ih, List.flatMap_cons]

/-- The leaves of a construct are those of its parts. -/
theorem leaves_branch (kind : Kind) (children : List Node) :
    (branch kind children).leaves = children.flatMap leaves := by
  rw [leaves, branch, leavesBefore, listLeavesBefore_nil]
  rfl

/-- What stands between delimiters is a leaf. -/
theorem leaves_group (delimiter : Delimiter) (children : List Node) :
    (group delimiter children).leaves = [.group delimiter (children.flatMap leaves)] := by
  rw [leaves, leavesBefore, listLeavesBefore_nil]

/-- An operator is written as its marks. -/
theorem tokens_operator (text : String) : (operator text).tokens = ofOperator text.toList := by
  simp [tokens, settled, needsParentheses_plain, Surroundings.write, leaves, leavesBefore]

end Node

/-- Trees are settled one by one. -/
theorem listSettled_eq_map (nodes : List Node) :
    listSettled nodes = nodes.map (Node.settled .plain) := by
  induction nodes with
  | nil => rfl
  | cons node others ih => rw [listSettled, ih, List.map_cons]

/-- Settled trees are written as the trees are. -/
theorem listLeavesBefore_listSettled (nodes : List Node) :
    Node.listLeavesBefore [] (listSettled nodes) = nodes.flatMap Node.tokens := by
  rw [Node.listLeavesBefore_nil, listSettled_eq_map, List.flatMap_map]
  rfl

/-- Trees with another one between any two of them are written likewise. -/
theorem flatMap_tokens_intersperse (between : Node) (nodes : List Node) :
    (nodes.intersperse between).flatMap Node.tokens =
      List.intercalate between.tokens (nodes.map Node.tokens) := by
  induction nodes with
  | nil => rfl
  | cons node others ih =>
    cases others with
    | nil => simp
    | cons next rest =>
      rw [List.intersperse_cons_cons, List.flatMap_cons, List.flatMap_cons, ih, List.map_cons,
        List.map_cons, List.map_cons, List.intercalate_cons_cons, List.append_assoc]

/-- Constructs whose parts are written one after another. -/
def plainKinds : List Kind :=
  [.path, .segment, .genericArguments, .lifetimeArgument, .literal, .pathType]

/-- The parts of a plain construct are written one after another. -/
theorem Node.tokens_branch {kind : Kind} (hkind : kind ∈ plainKinds) (children : List Node) :
    (Node.branch kind children).tokens = children.flatMap Node.tokens := by
  rw [← listLeavesBefore_listSettled]
  simp only [plainKinds, List.mem_cons, List.not_mem_nil, or_false] at hkind
  rcases hkind with rfl | rfl | rfl | rfl | rfl | rfl <;>
    simp [Node.tokens, Node.settled, listSettled, needsParentheses_plain, Surroundings.write,
      Node.leaves, Node.leavesBefore, Node.listLeavesBefore]

/-- The segment as it is written: its name and its arguments. -/
def Segment.tokens (segment : Segment) : List Token :=
  .word segment.name :: segment.arguments.toList.flatMap Node.tokens

/-- A segment is written as its name and its arguments. -/
theorem Segment.tokens_node (segment : Segment) : segment.node.tokens = segment.tokens := by
  rw [Segment.node, Node.tokens_branch (by decide), List.flatMap_cons, Node.tokens_word]
  rfl

/-- A path is written segment by segment. -/
theorem Path.tokens_node (path : Path) :
    path.node.tokens = (if path.leading then phrase "::" else []) ++
      List.intercalate (phrase "::") (path.segments.map Segment.tokens) := by
  have hcolons : (Node.operator "::").tokens = phrase "::" := Node.tokens_operator "::"
  have hsegments : (path.segments.map Segment.node).map Node.tokens =
      path.segments.map Segment.tokens := by
    rw [List.map_map]
    exact List.map_congr_left fun segment _ => segment.tokens_node
  rw [Path.node, Node.tokens_branch (by decide), List.flatMap_append, flatMap_tokens_intersperse,
    hcolons, hsegments]
  congr 1
  split
  · rw [List.flatMap_singleton, hcolons]
  · rfl

end Typestate.Grammar
