import JavaLint.Json.Printer
import JavaLint.Review.Basic
import JavaLint.Review.IssueDocument

/-!
The review as a JSON document.
-/
namespace JavaLint.Review

def schemaVersion : String := "analysis_result_v1"

def summaryDocument (review : Review) : Json :=
  .obj [
    ("files_analyzed", .int review.filesAnalyzed),
    ("total_issues", .nat review.issues.length),
    ("by_type", .obj (review.countByCategory.map fun (category, count) =>
      (category.name, .nat count))),
    ("by_severity", .obj (review.countBySeverity.map fun (severity, count) =>
      (severity.name, .nat count))),
    ("top_files", .arr ((review.topFiles topFilesLimit).map fun (name, count) =>
      .obj [("file_name", .str name), ("count", .nat count)]))]

def document (review : Review) : Json :=
  .obj [
    ("schema_version", .str schemaVersion),
    ("tool_version", .str review.toolVersion),
    ("summary", review.summaryDocument),
    ("issues", .arr (review.issues.map Issue.document))]

def jsonText (review : Review) (layout : Json.Layout) : String := review.document.document layout

end JavaLint.Review
