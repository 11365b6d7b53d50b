import JavaLint.Json.Reader
import JavaLint.Schema.Catalog

/-!
Validating values and files against the bundled schemas.
-/
namespace JavaLint

inductive DocumentError where
  | system (error : SystemError)
  | notUtf8
  | notJson
  | wrongVersion (path : Path) (found : Json)
  | unknownSchema (name : String)
  | violation (violation : Violation)

namespace DocumentError

def message : DocumentError → String
  | .system cause => cause.message
  | .notUtf8 => "the document is not UTF-8"
  | .notJson => "the document is not JSON"
  | .wrongVersion path found =>
    path.text ++ ": expected schema_version=" ++ Text.quote Review.schemaVersion ++ ", got " ++
      found.showLiteral
  | .unknownSchema name => "Unknown schema: " ++ name
  | .violation first => first.message

end DocumentError

def validateValue (value : Json) (schemaName : String) : Except DocumentError Unit :=
  match Catalog.find? schemaName with
  | none => .error (.unknownSchema schemaName)
  | some schema => (schema.schema.validate value).mapError .violation

/-- An object has to declare the version that the schema of a review is for. -/
def checkVersion (path : Path) (value : Json) (schemaName : String) : Except DocumentError Unit :=
  match value with
  | .obj _ =>
    let found := (value.get? "schema_version").getD .null
    let matched : Bool :=
      match found with
      | .str text => text == Review.schemaVersion
      | _ => false
    if schemaName == Catalog.reviewName && !matched then .error (.wrongVersion path found)
    else .ok ()
  | _ => .ok ()

def FileSystem.readText (fs : FileSystem) (path : Path) : Except DocumentError (List Char) :=
  match fs.content path with
  | .error error => .error (.system error)
  | .ok (bytes, _) =>
    match Text.decode? bytes with
    | none => .error .notUtf8
    | some text => .ok (Text.unifyBreaks text)

def FileSystem.readJson (fs : FileSystem) (path : Path) : Except DocumentError Json := do
  match Json.read (← fs.readText path) with
  | .ok value => .ok value
  | .error _ => .error .notJson

def validateFile (fs : FileSystem) (path : Path) (schemaName : String) :
    Except DocumentError Unit := do
  let value ← fs.readJson path
  checkVersion path value schemaName
  validateValue value schemaName

def Review.checkedDocument (review : Review) : Except Violation Json := do
  Schema.review.validate review.document
  return review.document

end JavaLint
