import JavaLint.Tree.Source

/-!
Chains of `+`. A chain is flattened into its leaf operands from left to right, through nested `+`
expressions and through parentheses. Expressions may be nested as deeply as they like: there is no
bound here on the depth of a recursion, as a machine has one.
-/
namespace JavaLint

theorem Node.size_le_sizeAll {node : Node} {nodes : List Node} (h : node ∈ nodes) :
    node.size ≤ Node.sizeAll nodes := by
  induction nodes with
  | nil => cases h
  | cons first rest ih =>
    rw [Node.sizeAll]
    rcases List.mem_cons.1 h with rfl | h
    · omega
    · have := ih h
      omega

theorem Node.size_lt_of_mem {node parent : Node} (h : node ∈ parent.children) :
    node.size < parent.size := by
  have := Node.size_le_sizeAll h
  rw [Node.size_eq parent]
  omega

theorem Node.size_lt_of_child? {node parent : Node} {field : String}
    (h : parent.child? field = some node) : node.size < parent.size :=
  Node.size_lt_of_mem (List.mem_of_find?_eq_some h)

theorem Node.size_lt_of_namedChildren {node parent : Node} {rest : List Node}
    (h : parent.namedChildren = node :: rest) : node.size < parent.size := by
  have : node ∈ parent.namedChildren := h ▸ List.mem_cons_self
  exact Node.size_lt_of_mem (List.mem_filter.1 this).1

inductive Fault where
  /-- A `+` expression lacks one of its operands. -/
  | missingOperand
  /-- An analyzer from outside the library failed for its own reason. -/
  | external (reason message : String)
  deriving DecidableEq, Repr

namespace Check

def isConcat (source : Source) (node : Node) : Bool :=
  node.kind == "binary_expression" && source.fieldText node "operator" == "+"

def operands (source : Source) (node : Node) : Except Fault (List Node) :=
  if isConcat source node then
    match _ : node.child? "left", _ : node.child? "right" with
    | some l, some r => do return (← operands source l) ++ (← operands source r)
    | _, _ => .error .missingOperand
  else if node.kind == "parenthesized_expression" then
    match _ : node.namedChildren with
    | first :: _ => operands source first
    | [] => .ok [node]
  else .ok [node]
termination_by node.size
decreasing_by
  · exact Node.size_lt_of_child? (by assumption)
  · exact Node.size_lt_of_child? (by assumption)
  · exact Node.size_lt_of_namedChildren (by assumption)

end Check

end JavaLint
