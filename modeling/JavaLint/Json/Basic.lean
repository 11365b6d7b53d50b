import JavaLint.Numeral.Binary64

/-!
JSON values. Integers and floating-point numbers are kept apart, integers have any size, and an
object keeps its members in the order in which their keys first appeared.
-/
namespace JavaLint

inductive Json where
  | null
  | bool (value : Bool)
  | int (value : Int)
  | real (value : Numeral.Binary64)
  | str (value : String)
  | arr (items : List Json)
  | obj (members : List (String × Json))
  deriving Repr, Inhabited

namespace Json

/-- Sets a member. A key that is present keeps its place and takes the new value. -/
def setMember (members : List (String × Json)) (key : String) (value : Json) :
    List (String × Json) :=
  if members.any (·.1 == key) then members.map fun m => if m.1 == key then (key, value) else m
  else members ++ [(key, value)]

/-- The object with the given members, where the last of several equal keys wins. -/
def ofMembers (members : List (String × Json)) : Json :=
  .obj (members.foldl (fun done m => setMember done m.1 m.2) [])

def get? (key : String) : Json → Option Json
  | .obj members => (members.find? (·.1 == key)).map (·.2)
  | _ => none

def nat (n : Nat) : Json := .int n

def strings (texts : List String) : Json := .arr (texts.map .str)

def str? : Json → Option String
  | .str text => some text
  | _ => none

def int? : Json → Option Int
  | .int n => some n
  | _ => none

def bool? : Json → Option Bool
  | .bool b => some b
  | _ => none

def items? : Json → Option (List Json)
  | .arr items => some items
  | _ => none

def members? : Json → Option (List (String × Json))
  | .obj members => some members
  | _ => none

def strings? (value : Json) : Option (List String) := value.items?.bind (·.mapM str?)

end Json

end JavaLint
