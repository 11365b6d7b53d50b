import JavaLint.Json.Basic
import JavaLint.Numeral.Shortest
import JavaLint.Text.Quoted

/-!
Canonical JSON text. The members of an object are written in increasing order of their keys, and
only quotes, backslashes and control characters are escaped.
-/
namespace JavaLint.Json

/-- All on one line, or each item on a line of its own, indented by `width` for each level. -/
inductive Layout where
  | oneLine
  | indented (width : Nat)
  deriving DecidableEq, Repr

/-- An indent that is not positive still breaks the lines. -/
def Layout.ofIndent : Option Int → Layout
  | none => .oneLine
  | some indent => .indented indent.toNat

def escapeChar (c : Char) : List Char :=
  if c == '"' then ['\\', '"']
  else if c == '\\' then ['\\', '\\']
  else if c == '\n' then ['\\', 'n']
  else if c == '\r' then ['\\', 'r']
  else if c == '\t' then ['\\', 't']
  else if c == '\x08' then ['\\', 'b']
  else if c == '\x0c' then ['\\', 'f']
  else if c.toNat < 0x20 then ['\\', 'u'] ++ Text.hexDigits 4 c.toNat
  else [c]

def renderString (text : List Char) : List Char := '"' :: text.flatMap escapeChar ++ ['"']

def numberSpelling : Numeral.Binary64.Spelling := ⟨"NaN".toList, "Infinity".toList⟩

def Layout.lineStart (layout : Layout) (level : Nat) : List Char :=
  match layout with
  | .oneLine => []
  | .indented width => '\n' :: List.replicate (width * level) ' '

def Layout.separator (layout : Layout) (level : Nat) : List Char :=
  match layout with
  | .oneLine => [',', ' ']
  | .indented _ => ',' :: layout.lineStart level

/-- The entries of a container between its brackets; `level` is that of the container. -/
def Layout.enclose (layout : Layout) (level : Nat) (opening closing : Char)
    (entries : List (List Char)) : List Char :=
  if entries.isEmpty then [opening, closing]
  else opening :: layout.lineStart (level + 1) ++
    List.intercalate (layout.separator (level + 1)) entries ++ layout.lineStart level ++ [closing]

def sortByKey {α : Type} (members : List (String × α)) : List (String × α) :=
  members.mergeSort fun a b => !decide (b.1 < a.1)

mutual

def renderAt (layout : Layout) (level : Nat) : Json → List Char
  | .null => "null".toList
  | .bool true => "true".toList
  | .bool false => "false".toList
  | .int n => Numeral.decimal n
  | .real x => x.text numberSpelling
  | .str text => renderString text.toList
  | .arr items => layout.enclose level '[' ']' (renderItems layout (level + 1) items)
  | .obj members =>
    layout.enclose level '\x7b' '\x7d'
      ((sortByKey (renderMembers layout (level + 1) members)).map fun (key, value) =>
        renderString key.toList ++ [':', ' '] ++ value)

def renderItems (layout : Layout) (level : Nat) : List Json → List (List Char)
  | [] => []
  | item :: items => renderAt layout level item :: renderItems layout level items

def renderMembers (layout : Layout) (level : Nat) :
    List (String × Json) → List (String × List Char)
  | [] => []
  | (key, value) :: members =>
    (key, renderAt layout level value) :: renderMembers layout level members

end

def render (layout : Layout) (value : Json) : List Char := renderAt layout 0 value

def document (layout : Layout) (value : Json) : String :=
  String.ofList (value.render layout ++ ['\n'])

end JavaLint.Json
