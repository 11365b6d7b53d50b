import JavaLint.Json.Basic
import JavaLint.Numeral.Shortest
import JavaLint.Text.Quoted

/-!
The text of a value inside a message: members in their own order, strings quoted, and the words
`None`, `True` and `False`.
-/
namespace JavaLint.Json

def literalSpelling : Numeral.Binary64.Spelling := ⟨"nan".toList, "inf".toList⟩

mutual

def literal : Json → List Char
  | .null => "None".toList
  | .bool true => "True".toList
  | .bool false => "False".toList
  | .int n => Numeral.decimal n
  | .real x => x.text literalSpelling
  | .str text => Text.quoted text.toList
  | .arr items => '[' :: List.intercalate [',', ' '] (literalItems items) ++ [']']
  | .obj members => '\x7b' :: List.intercalate [',', ' '] (literalMembers members) ++ ['\x7d']

def literalItems : List Json → List (List Char)
  | [] => []
  | item :: items => literal item :: literalItems items

def literalMembers : List (String × Json) → List (List Char)
  | [] => []
  | (key, value) :: members =>
    (Text.quoted key.toList ++ [':', ' '] ++ literal value) :: literalMembers members

end

def showLiteral (value : Json) : String := String.ofList value.literal

/-- The text a value has as a key: a string stands for itself. -/
def keyText : Json → String
  | .str text => text
  | value => value.showLiteral

end JavaLint.Json
