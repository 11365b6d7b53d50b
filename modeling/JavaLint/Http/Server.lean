import JavaLint.Http.Body
import JavaLint.Http.Cors
import JavaLint.Review.Document
import JavaLint.Review.Summary
import JavaLint.Service

/-!
The service over HTTP: which addresses there are, and what is answered at each of them.
-/
namespace JavaLint.Http

def title : String := "Code Quality API"

inductive Route where
  | root
  | health
  | ready
  | analyze
  /-- The pages that describe the service. -/
  | docs
  deriving DecidableEq, Repr

def Route.method : Route → String
  | .analyze => "POST"
  | _ => "GET"

def Route.methods (route : Route) : List String :=
  match route with
  | .docs => ["GET", "HEAD"]
  | _ => [route.method]

/-- The addresses; the pages that describe the service are there for debugging only. -/
def routes (settings : Settings) : List (String × Route) :=
  (if settings.debug then
    [("/docs", .docs), ("/docs/oauth2-redirect", .docs), ("/redoc", .docs)] else []) ++
  [("/health", .health), ("/ready", .ready), ("/analyze/", .analyze), ("/", .root)]

def describe (settings : Settings) : Json :=
  .obj [
    ("name", .str title),
    ("version", .str programVersion),
    ("docs", .str (if settings.debug then "/docs" else "disabled"))]

def summaryParts (review : Review) : Json :=
  .obj ((review.summaryDocument.members?.getD []).filter fun member => member.1 != "top_files")

def reviewAnswer (review : Review) : Json :=
  .obj [
    ("status", .str "complete"),
    ("summary", summaryParts review),
    ("summary_text", .str review.summary),
    ("recommendations", .str review.recommendations),
    ("issues", .arr (review.issues.map Issue.document))]

/-- An answer to an accident: something failed that no rule foresees. -/
def accident : Response := ⟨500, .text "Internal Server Error", []⟩

def answerAnalysis (environment : Environment) (fs : FileSystem) (request : AnalysisRequest) :
    Except Response Response :=
  let path := Path.parse request.path
  if fs.pathExists path then
    match Settings.analysisConfig environment request.maxMethodLines with
    | .error _ => .error accident
    | .ok config =>
      match Analysis.ofPath environment fs (some config) path with
      | .ok review => .ok (.ok (reviewAnswer review.value))
      | .error error => .ok (.detail 500 error.message)
  else .ok (.detail 404 ("Path not found: " ++ request.path))

def Route.answer (route : Route) (settings : Settings) (environment : Environment)
    (fs : FileSystem) (request : Request) : Except Response Response :=
  match route with
  | .root => .ok (.ok (describe settings))
  | .health => .ok (.ok (.obj [("status", .str "ok"), ("version", .str programVersion)]))
  | .ready => .ok (.ok (.obj [("status", .str "ready"), ("language", .str "java")]))
  | .docs => .ok ⟨200, .page, []⟩
  | .analyze =>
    match Body.read request with
    | .error (.complaints all) => .ok ⟨422, .complaints all, []⟩
    | .error .unparsable => .ok (.detail 400 "There was an error parsing the body")
    | .ok body => answerAnalysis environment fs body

end JavaLint.Http
