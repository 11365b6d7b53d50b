import JavaLint.Path
import JavaLint.Tree.Source

/-!
Accepting a syntax tree. A tree with an error is refused at its first error node or missing node.
-/
namespace JavaLint

structure Tree where
  hasError : Bool
  root : Node
  deriving Repr, Inhabited

structure ParseError where
  path : Path
  /-- The line and column of the first error, counted from one. -/
  position : Option (Nat × Nat)
  deriving DecidableEq, Repr

def ParseError.detail (error : ParseError) : String :=
  match error.position with
  | some (line, column) => s!"syntax error at line {line}, column {column}"
  | none => "syntax error"

def ParseError.message (error : ParseError) : String := error.path.text ++ ": " ++ error.detail

def Node.isError (node : Node) : Bool := node.kind == "ERROR" || node.isMissing

def Tree.firstError? (tree : Tree) : Option Node :=
  ((tree.root.sites .preorder).find? (·.node.isError)).map (·.node)

def Tree.parse (tree : Tree) (path : Path) (bytes : Text.Bytes) : Except ParseError Source :=
  if tree.hasError then
    .error ⟨path, tree.firstError?.map fun node =>
      (rowAt bytes node.start + 1, columnAt bytes node.start + 1)⟩
  else .ok ⟨bytes, tree.root⟩

/-- A file and its source; there is none for a file that could not be parsed. -/
structure SourceUnit where
  path : Path
  source : Option Source
  deriving Repr

def SourceUnit.fileName (unit : SourceUnit) : String := unit.path.name

end JavaLint
