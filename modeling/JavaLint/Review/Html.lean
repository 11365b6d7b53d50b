import JavaLint.Review.Basic
import JavaLint.Text.Search
import JavaLint.Text.Template

/-!
The review as an HTML page. Every text that an issue carries is escaped.
-/
namespace JavaLint.Review

def escapeHtmlChar (c : Char) : List Char :=
  if c == '&' then "&amp;".toList
  else if c == '<' then "&lt;".toList
  else if c == '>' then "&gt;".toList
  else if c == '"' then "&quot;".toList
  else if c == '\x27' then "&#x27;".toList
  else [c]

def escapeHtml (text : String) : String := String.ofList (text.toList.flatMap escapeHtmlChar)

def badgeColor : Severity → String
  | .critical => "#dc3545"
  | .high => "#fd7e14"
  | .medium => "#ffc107"
  | .low => "#17a2b8"
  | .info => "#6c757d"

def badge (severity : Severity) : String :=
  "<span class=\"badge\" style=\"background:" ++ badgeColor severity ++ "\">" ++
    severity.displayName ++ "</span>"

def htmlBreakdown (review : Review) : List String :=
  if review.issues.isEmpty then []
  else
    ["<h2>Severity Breakdown</h2>", "<table><tr><th>Severity</th><th>Count</th></tr>"] ++
    (review.countBySeverity.filter (·.2 != 0)).map (fun (severity, count) =>
      "<tr><td>" ++ badge severity ++ s!"</td><td>{count}</td></tr>") ++
    ["</table>"]

def htmlEntry (issue : Issue) : String :=
  "<div class=\"issue\">" ++ badge issue.severity ++ " <code>" ++
    escapeHtml s!"{issue.fileName}:{issue.line}" ++ "</code> &mdash; " ++
    escapeHtml issue.message ++ "</div>"

def htmlIssues (issues : List Issue) : List String :=
  if issues.isEmpty then []
  else s!"<h2>Top {issues.length} Issues</h2>" :: issues.map htmlEntry

def htmlBody (review : Review) (limit : Int) : List String :=
  ["<h1>Code Analysis Report</h1>", "<div class=\"summary\">",
    s!"<p><strong>Files analyzed:</strong> {review.filesAnalyzed}</p>",
    s!"<p><strong>Issues:</strong> {review.issues.length}</p>", "</div>"] ++
  review.htmlBreakdown ++
  htmlIssues (takeUpTo limit review.worstFirst) ++
  ["<footer>Exported by code-quality " ++ escapeHtml review.toolVersion ++ "</footer>"]

/-- The lines of a page, with doubled braces and a field for its body. -/
def htmlTemplate : List String :=
  ["<!DOCTYPE html>",
   "<html lang=\"en\">",
   "<head>",
   "<meta charset=\"utf-8\">",
   "<title>Code Analysis Report</title>",
   "<style>",
   "  body \x7b\x7b font-family: -apple-system, BlinkMacSystemFont, 'Segoe UI', Roboto, " ++
     "sans-serif; margin: 2rem; color: #212529; \x7d\x7d",
   "  h1 \x7b\x7b color: #343a40; \x7d\x7d",
   "  .summary \x7b\x7b background: #f8f9fa; padding: 1rem; border-radius: 6px; " ++
     "margin-bottom: 1.5rem; \x7d\x7d",
   "  .badge \x7b\x7b display: inline-block; padding: 2px 8px; border-radius: 4px; color: #fff; " ++
     "font-size: 0.85em; font-weight: 600; \x7d\x7d",
   "  table \x7b\x7b border-collapse: collapse; width: 100%; margin-bottom: 1.5rem; \x7d\x7d",
   "  th, td \x7b\x7b text-align: left; padding: 6px 12px; " ++
     "border-bottom: 1px solid #dee2e6; \x7d\x7d",
   "  th \x7b\x7b background: #e9ecef; \x7d\x7d",
   "  .issue \x7b\x7b margin-bottom: 0.75rem; \x7d\x7d",
   "  footer \x7b\x7b margin-top: 2rem; color: #6c757d; font-size: 0.85em; \x7d\x7d",
   "</style>",
   "</head>",
   "<body>",
   "\x7bbody\x7d",
   "</body>",
   "</html>",
   ""]

def htmlLimit : Int := 30

def html (review : Review) (limit : Int) : String :=
  let field (name : String) : List Char :=
    if name == "body" then (Text.joinLines (review.htmlBody limit)).toList else []
  String.ofList (Text.fillTemplate field (Text.joinLines htmlTemplate).toList)

end JavaLint.Review
