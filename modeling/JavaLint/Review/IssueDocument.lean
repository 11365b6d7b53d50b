import JavaLint.Issue
import JavaLint.Json.Basic

/-!
Issues as JSON objects.
-/
namespace JavaLint

def Issue.document (issue : Issue) : Json :=
  .obj [
    ("file_name", .str issue.fileName),
    ("path", .str issue.location),
    ("line_number", .int issue.line),
    ("message", .str issue.message),
    ("type", .str issue.category.name),
    ("severity", .str issue.severity.name),
    ("rule_id", .str issue.ruleId)]

end JavaLint
