import JavaLint.Tree.Node

/-!
Walks over a tree. Both keep a stack of what is still to be visited. The preorder walk visits a node
before its children, the postorder walk after them.
-/
namespace JavaLint

mutual

def Node.size : Node → Nat
  | ⟨_, _, _, _, _, _, children⟩ => Node.sizeAll children + 1

def Node.sizeAll : List Node → Nat
  | [] => 0
  | node :: rest => node.size + Node.sizeAll rest

end

theorem Node.size_eq (node : Node) : node.size = Node.sizeAll node.children + 1 := by
  cases node; rfl

theorem Node.sizeAll_append (a b : List Node) :
    Node.sizeAll (a ++ b) = Node.sizeAll a + Node.sizeAll b := by
  induction a with
  | nil => simp [Node.sizeAll]
  | cons node rest ih => simp [Node.sizeAll, ih, Nat.add_assoc]

namespace Site

theorem map_node_ofChildren (parent : Node) (address : List Nat) (position : Nat)
    (previous : Option Node) (nodes : List Node) :
    (ofChildren parent address position previous nodes).map node = nodes := by
  induction nodes generalizing position previous with
  | nil => rfl
  | cons node rest ih => simp [ofChildren, ih]

@[simp] theorem map_node_children (site : Site) : site.children.map node = site.node.children :=
  map_node_ofChildren ..

def pending (stack : List Site) : Nat := Node.sizeAll (stack.map node)

theorem pending_children (site : Site) (stack : List Site) :
    pending (site.children ++ stack) < pending (site :: stack) := by
  simp only [pending, List.map_append, map_node_children, List.map_cons, Node.sizeAll_append,
    Node.sizeAll, Node.size_eq]
  omega

def preorderFrom : List Site → List Site
  | [] => []
  | site :: stack => site :: preorderFrom (site.children ++ stack)
termination_by stack => pending stack
decreasing_by exact pending_children site stack

/-- An entry of the postorder stack: a site, and whether its children have been put on the stack. -/
abbrev Task := Site × Bool

def Task.weight : Task → Nat
  | (_, true) => 1
  | (site, false) => 2 * site.node.size

def taskWeight : List Task → Nat
  | [] => 0
  | task :: rest => task.weight + taskWeight rest

theorem taskWeight_append (tasks more : List Task) :
    taskWeight (tasks ++ more) = taskWeight tasks + taskWeight more := by
  induction tasks with
  | nil => simp [taskWeight]
  | cons task rest ih =>
    simp only [List.cons_append, taskWeight, ih]
    omega

theorem taskWeight_fresh (sites : List Site) :
    taskWeight (sites.map (·, false)) = 2 * Node.sizeAll (sites.map node) := by
  induction sites with
  | nil => rfl
  | cons site rest ih =>
    simp only [taskWeight, List.map_cons, Task.weight, Node.sizeAll] at ih ⊢
    omega

theorem taskWeight_open (site : Site) (stack : List Task) :
    taskWeight (site.children.map (·, false) ++ (site, true) :: stack) <
      taskWeight ((site, false) :: stack) := by
  have fresh := taskWeight_fresh site.children
  rw [map_node_children] at fresh
  simp only [taskWeight_append, taskWeight, Task.weight, Node.size_eq] at fresh ⊢
  omega

def postorderFrom : List Task → List Site
  | [] => []
  | (site, true) :: stack => site :: postorderFrom stack
  | (site, false) :: stack =>
    postorderFrom (site.children.map (·, false) ++ (site, true) :: stack)
termination_by tasks => taskWeight tasks
decreasing_by
  · simp [taskWeight, Task.weight]
  · exact taskWeight_open site stack

end Site

inductive Order where
  | preorder
  | postorder
  deriving DecidableEq, Repr

namespace Node

def sites (root : Node) : Order → List Site
  | .preorder => Site.preorderFrom [.ofRoot root]
  | .postorder => Site.postorderFrom [(.ofRoot root, false)]

def findAll (root : Node) (kinds : List String) (order : Order) : List Site :=
  (root.sites order).filter fun site => kinds.contains site.node.kind

end Node

end JavaLint
