import JavaLint.Text.Search
import JavaLint.Text.Utf8
import JavaLint.Tree.Walk

/-!
A parsed source: the bytes of a file and the root of its syntax tree. The text of a node is the
lossy reading of the bytes it covers, and only line feeds end a line.
-/
namespace JavaLint

def lineFeed : UInt8 := 10

def rowAt (bytes : Text.Bytes) (offset : Nat) : Nat := (bytes.take offset).count lineFeed

theorem rowAt_mono (bytes : Text.Bytes) {a b : Nat} (h : a ≤ b) : rowAt bytes a ≤ rowAt bytes b :=
  (List.take_prefix_take_left h).sublist.count_le lineFeed

def columnAt (bytes : Text.Bytes) (offset : Nat) : Nat :=
  ((bytes.take offset).reverse.takeWhile (· != lineFeed)).length

structure Source where
  bytes : Text.Bytes
  root : Node
  deriving Repr, Inhabited

namespace Source

def span (source : Source) (node : Node) : Text.Bytes :=
  (source.bytes.take node.stop).drop node.start

def text (source : Source) (node : Node) : String :=
  String.ofList (Text.decodeLossy (source.span node))

def textOf (source : Source) : Option Node → String
  | some node => source.text node
  | none => ""

def line (source : Source) (node : Node) : Nat := rowAt source.bytes node.start + 1

def fieldText (source : Source) (node : Node) (field : String) : String :=
  source.textOf (node.child? field)

def name (source : Source) (node : Node) : String := source.fieldText node "name"

/-- The modifier keywords written on a declaration, without its annotations. -/
def modifiers (source : Source) (node : Node) : List String :=
  match node.children.find? (·.kind == "modifiers") with
  | some list => (list.children.filter (!·.isNamed)).map source.text
  | none => []

def declarators (source : Source) (node : Node) : List (Node × String) :=
  (node.childrenOf "declarator").map fun declarator => (declarator, source.name declarator)

def findAll (source : Source) (kinds : List String) (order : Order) : List Site :=
  source.root.findAll kinds order

end Source

def Site.comment? (site : Site) : Option Node :=
  site.previous.filter fun node => node.kind == "line_comment" || node.kind == "block_comment"

def Source.docComment? (source : Source) (site : Site) : Option Node :=
  site.comment?.filter fun node => Text.startsWith (source.text node) "/**"

end JavaLint
