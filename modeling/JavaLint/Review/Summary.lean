import JavaLint.Review.Basic
import JavaLint.Text.Search

/-!
The plain-text report: a summary of the counts, and recommendations.
-/
namespace JavaLint.Review

def summary (review : Review) : String :=
  Text.joinLines (
    ["Code Analysis Summary", "====================", "",
      s!"Total issues found: {review.issues.length}", "", "Issues by type:"] ++
    review.countByCategory.map (fun (category, count) => s!"- {category.displayName}: {count}") ++
    ["", "Issues by severity:"] ++
    review.countBySeverity.map (fun (severity, count) => s!"- {severity.displayName}: {count}") ++
    ["", "Top files with issues:"] ++
    (review.topFiles topFilesLimit).map (fun (name, count) => s!"- {name}: {count} issues")) ++ "\n"

def advice : Category → String
  | .bug => "Bug Prevention: Review error handling and null checks in your code."
  | .vulnerability =>
    "Security: Use parameterized queries for database operations and validate all user inputs."
  | .performance =>
    "Performance: Optimize loops and string operations, and be mindful of collection operations."
  | .style => "Code Style: Follow consistent naming conventions and add proper documentation."

def urgentSection (review : Review) (severity : Severity) (heading : String) : List String :=
  match review.withSeverity severity with
  | [] => []
  | issues =>
    heading :: issues.map (fun issue =>
      s!"- {issue.fileName} (line {issue.line}): {issue.message}") ++ [""]

def recommendations (review : Review) : String :=
  Text.joinLines (
    ["Recommendations", "===============", ""] ++
    review.urgentSection .critical "Critical Issues (Fix Immediately):" ++
    review.urgentSection .high "High Priority Issues (Fix Soon):" ++
    ["General Recommendations:"] ++
    (Category.all.filter fun category => review.issues.any (·.category == category)).map
      fun category => "- " ++ advice category) ++ "\n"

def plainText (review : Review) : String := review.summary ++ "\n" ++ review.recommendations

end JavaLint.Review
