import JavaLint.Review.Basic
import JavaLint.Text.Search

/-!
The review as Markdown.
-/
namespace JavaLint.Review

def markdownTables (review : Review) : List String :=
  if review.issues.isEmpty then []
  else
    ["## By Type", "", "| Type | Count |", "|------|------:|"] ++
    review.countByCategory.map (fun (category, count) =>
      s!"| {category.displayName} | {count} |") ++
    ["", "## By Severity", "", "| Severity | Count |", "|----------|------:|"] ++
    (review.countBySeverity.filter (·.2 != 0)).map (fun (severity, count) =>
      s!"| {severity.displayName} | {count} |") ++
    [""]

def markdownEntry (number : Nat) (issue : Issue) : String :=
  s!"{number}. **[{issue.severity.upperName}]** `{issue.fileName}:{issue.line}` " ++
    s!"({issue.category.displayName}) {issue.message}"

def markdownIssues (issues : List Issue) : List String :=
  if issues.isEmpty then []
  else
    [s!"## Top {issues.length} Issues", ""] ++
    issues.zipIdx.map (fun (issue, index) => markdownEntry (index + 1) issue) ++ [""]

def markdownLimit : Int := 20

def markdown (review : Review) (limit : Int) : String :=
  Text.joinLines (
    ["# Code Analysis Results", "", s!"**Files analyzed:** {review.filesAnalyzed}  ",
      s!"**Issues:** {review.issues.length}", ""] ++
    review.markdownTables ++
    markdownIssues (takeUpTo limit review.worstFirst) ++
    ["---", s!"*Exported by code-quality {review.toolVersion}*", ""])

end JavaLint.Review
