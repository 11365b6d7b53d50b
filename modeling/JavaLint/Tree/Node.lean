/-!
Syntax trees. A node covers a span of bytes of its source and may hold a named field of its parent.
A site is a node with its surroundings: its parent, the sibling just before it, and its address,
the child positions that lead to it from the root.
-/
namespace JavaLint

structure Node where
  kind : String
  isNamed : Bool
  isMissing : Bool
  start : Nat
  stop : Nat
  field : Option String
  children : List Node
  deriving Repr, Inhabited

namespace Node

def child? (node : Node) (field : String) : Option Node :=
  node.children.find? (·.field == some field)

def childrenOf (node : Node) (field : String) : List Node :=
  node.children.filter (·.field == some field)

def namedChildren (node : Node) : List Node := node.children.filter (·.isNamed)

end Node

structure Site where
  node : Node
  parent : Option Node
  previous : Option Node
  address : List Nat
  deriving Repr, Inhabited

namespace Site

def ofRoot (root : Node) : Site := ⟨root, none, none, []⟩

/-- Sites of the remaining children of a node, the first of which stands at `position`. -/
def ofChildren (parent : Node) (address : List Nat) (position : Nat) (previous : Option Node) :
    List Node → List Site
  | [] => []
  | node :: rest =>
    ⟨node, some parent, previous, address ++ [position]⟩ ::
      ofChildren parent address (position + 1) (some node) rest

def children (site : Site) : List Site :=
  ofChildren site.node site.address 0 none site.node.children

end Site

end JavaLint
