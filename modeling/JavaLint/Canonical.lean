import JavaLint.Config
import JavaLint.Json.Literal
import JavaLint.Json.Printer
import JavaLint.Path
import JavaLint.Review.Basic
import JavaLint.Text.Quoted
import JavaLint.Text.Utf8

/-!
Canonical documents. Any value of the program has one JSON document: enumerations by name, paths
and all that has no JSON form as text, records as objects, and the keys of mappings as texts. Of
keys that become equal the last one counts.
-/
namespace JavaLint

inductive Value where
  | null
  | bool (value : Bool)
  | int (value : Int)
  | real (value : Numeral.Binary64)
  | text (value : String)
  | path (value : Path)
  | severity (value : Severity)
  | category (value : Category)
  | issue (value : Issue)
  | review (value : Review)
  | config (value : Config)
  | bytes (value : Text.Bytes)
  /-- A value known by its text only. -/
  | other (shown : String)
  | list (items : List Value)
  | map (entries : List (Value × Value))

def Issue.fields (issue : Issue) : Json :=
  .obj [
    ("file_name", .str issue.fileName),
    ("line_number", .int issue.line),
    ("message", .str issue.message),
    ("type", .str issue.category.name),
    ("severity", .str issue.severity.name),
    ("rule_id", .str issue.ruleId),
    ("path", .str issue.path)]

def Review.fields (review : Review) : Json :=
  .obj [
    ("issues", .arr (review.issues.map Issue.fields)),
    ("files_analyzed", .int review.filesAnalyzed),
    ("tool_version", .str review.toolVersion)]

namespace Value

mutual

def normalize : Value → Json
  | .null => .null
  | .bool value => .bool value
  | .int value => .int value
  | .real value => .real value
  | .text value => .str value
  | .path value => .str value.text
  | .severity value => .str value.name
  | .category value => .str value.name
  | .issue value => value.fields
  | .review value => value.fields
  | .config value => value.document
  | .bytes value => .str (Text.quoteBytes value)
  | .other shown => .str shown
  | .list items => .arr (normalizeItems items)
  | .map entries => .ofMembers (normalizeEntries entries)

def normalizeItems : List Value → List Json
  | [] => []
  | item :: rest => item.normalize :: normalizeItems rest

def normalizeEntries : List (Value × Value) → List (String × Json)
  | [] => []
  | (key, value) :: rest => (key.normalize.keyText, value.normalize) :: normalizeEntries rest

end

def canonicalText (value : Value) (layout : Json.Layout) : String :=
  value.normalize.document layout

end Value

end JavaLint
