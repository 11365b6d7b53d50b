import JavaLint.Review.Document
import JavaLint.Review.Html
import JavaLint.Review.Markdown
import JavaLint.Review.Summary

/-!
The formats a review can be exported in.
-/
namespace JavaLint

inductive ReportFormat where
  | text
  | json
  | markdown
  | html
  deriving DecidableEq, Repr

namespace ReportFormat

def all : List ReportFormat := [.text, .json, .markdown, .html]

def name : ReportFormat → String
  | .text => "text"
  | .json => "json"
  | .markdown => "markdown"
  | .html => "html"

def ofName? (name : String) : Option ReportFormat := all.find? (·.name == name)

/-- The format of a name, where Markdown also has a short name. -/
def ofAnyName? (name : String) : Option ReportFormat :=
  if name == "md" then some .markdown else ofName? name

def unknownMessage (name : String) : String :=
  "Unknown export format: " ++ Text.quote name ++ " (use text|json|markdown|html)"

end ReportFormat

def exportLimit : Int := 20

/-- The review in a format; `limit` bounds the issues listed in Markdown and HTML. -/
def Review.report (review : Review) (format : ReportFormat) (limit : Int) : String :=
  match format with
  | .text => review.plainText
  | .json => review.jsonText (.indented 2)
  | .markdown => review.markdown limit
  | .html => review.html limit

end JavaLint
