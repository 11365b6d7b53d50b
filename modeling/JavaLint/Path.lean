import JavaLint.Text.Lowercase
import JavaLint.Text.Search

/-!
Slash-separated paths. A path is kept in its normal form: empty and single-dot components are
dropped, double-dot components stay.
-/
namespace JavaLint

/-- Where a path starts. Two leading slashes are kept apart from one; three or more count as one. -/
inductive Anchor where
  | relative
  | root
  | doubleRoot
  deriving DecidableEq, Repr

structure Path where
  anchor : Anchor
  parts : List String
  deriving DecidableEq, Repr

namespace Path

def here : Path := ⟨.relative, []⟩

def anchorOf (text : List Char) : Anchor :=
  match (text.takeWhile (· == '/')).length with
  | 0 => .relative
  | 2 => .doubleRoot
  | _ => .root

def components (text : List Char) : List String :=
  ((Text.splitAt '/' text).filter fun part => part != [] && part != ['.']).map String.ofList

def parse (text : String) : Path := ⟨anchorOf text.toList, components text.toList⟩

def anchorText : Anchor → String
  | .relative => ""
  | .root => "/"
  | .doubleRoot => "//"

def text (path : Path) : String :=
  if path = here then "." else anchorText path.anchor ++ "/".intercalate path.parts

def name (path : Path) : String := path.parts.getLast?.getD ""

/-- The last dot of a name and what follows it, unless that dot is the first or last character. -/
def suffixOf (name : List Char) : List Char :=
  let ending := Text.afterLast '.' name
  if name.contains '.' && ending.length + 1 < name.length && ending != [] then '.' :: ending else []

def suffix (path : Path) : String := String.ofList (suffixOf path.name.toList)

def parent (path : Path) : Path := { path with parts := path.parts.dropLast }

def child (path : Path) (name : String) : Path := { path with parts := path.parts ++ [name] }

def hasNull (path : Path) : Bool := path.parts.any (·.toList.contains '\x00')

def hasExtension (extensions : List String) (path : Path) : Bool :=
  extensions.contains (String.ofList (Text.lower path.suffix.toList))

end Path

end JavaLint
