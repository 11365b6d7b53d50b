import JavaLint.FileSystem.Edit
import JavaLint.Review.Document
import JavaLint.Schema.Violation

/-!
The bundled schemas. There is one, for the document of a review.
-/
namespace JavaLint

structure SchemaDocument where
  id : String
  title : String
  schema : Schema
  definitions : List (String × Schema)

def SchemaDocument.document (schema : SchemaDocument) : Json :=
  .obj (
    [("$schema", .str "https://json-schema.org/draft/2020-12/schema"),
     ("$id", .str schema.id), ("title", .str schema.title)] ++
    Keyword.schemaMembers schema.schema ++
    [("$defs", .obj (Keyword.membersDocument schema.definitions))])

namespace Schema

def count (least : Int) : Schema := [.type .integer, .minimum least]

def nonEmptyText : Schema := [.type .string, .minLength 1]

def record (members : List (String × Schema)) : Schema :=
  [.type .object, .closed, .required (members.map (·.1)), .properties members]

def categoryNames : List String := ["bug", "vulnerability", "performance", "style"]

def severityNames : List String := ["critical", "high", "medium", "low", "info"]

def issue : Schema :=
  record [
    ("file_name", nonEmptyText),
    ("path", nonEmptyText),
    ("line_number", count 1),
    ("message", nonEmptyText),
    ("type", [.oneOf categoryNames]),
    ("severity", [.oneOf severityNames]),
    ("rule_id", [.type .string, .form .optionalRuleId])]

def topFile : Schema := record [("file_name", [.type .string]), ("count", count 1)]

def summary : Schema :=
  record [
    ("files_analyzed", count 0),
    ("total_issues", count 0),
    ("by_type", record (categoryNames.map fun name => (name, count 0))),
    ("by_severity", record (severityNames.map fun name => (name, count 0))),
    ("top_files", [.type .array, .maxItems 5, .items topFile])]

def review : Schema :=
  record [
    ("schema_version", [.const Review.schemaVersion]),
    ("tool_version", nonEmptyText),
    ("summary", summary),
    ("issues", [.type .array, .items [.reference "issue" issue]])]

end Schema

def SchemaDocument.review : SchemaDocument where
  id := "https://code-quality.local/schemas/analysis_result.schema.json"
  title := "AnalysisResult"
  schema := Schema.review
  definitions := [("issue", Schema.issue)]

namespace Catalog

def reviewName : String := "analysis_result.schema.json"

def directory : Place := ["code_quality", "data", "schemas"]

/-- The schemas in the directory of the program. Where that lies is not known, so paths from the
root are left out. -/
def files : FileSystem where
  entries :=
    [(["code_quality"], .directory), (["code_quality", "data"], .directory),
     (directory, .directory), (directory ++ [reviewName], .file [] none)]
  workingDirectory := directory

def find? (name : String) : Option SchemaDocument :=
  let path := Path.parse name
  if path.anchor = .relative then
    match files.resolve path with
    | .ok place => if place = directory ++ [reviewName] then some .review else none
    | .error _ => none
  else none

end Catalog

end JavaLint
