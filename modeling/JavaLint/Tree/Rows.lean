import JavaLint.Tree.Node

/-!
Trees listed row by row. The rows of a tree stand in preorder, and each says how deep its node lies;
the parent of a row is the nearest earlier row that lies one level above it.
-/
namespace JavaLint

structure Row where
  depth : Nat
  kind : String
  isNamed : Bool
  isMissing : Bool
  start : Nat
  stop : Nat
  field : Option String
  deriving DecidableEq, Repr

namespace Row

/-- Puts a row before the nodes listed after it: the deeper ones that follow at once are its
children. -/
def attach (row : Row) (later : List (Nat × Node)) : List (Nat × Node) :=
  let children := (later.takeWhile (·.1 > row.depth)).map (·.2)
  (row.depth, ⟨row.kind, row.isNamed, row.isMissing, row.start, row.stop, row.field, children⟩) ::
    later.dropWhile (·.1 > row.depth)

def toTree? (rows : List Row) : Option Node := ((rows.foldr attach []).head?).map (·.2)

end Row

end JavaLint
