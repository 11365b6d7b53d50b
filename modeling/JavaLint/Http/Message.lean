import JavaLint.Json.Basic
import JavaLint.Text.Utf8

/-!
Requests and responses of the service, as far as it looks at them.
-/
namespace JavaLint.Http

structure Request where
  method : String
  /-- The path and the query. -/
  target : String
  /-- Header fields by name, in whatever case. -/
  headers : List (String × String) := []
  body : Text.Bytes := []
  deriving DecidableEq, Repr

/-- Names of header fields do not depend on case. -/
def Request.header? (request : Request) (name : String) : Option String :=
  (request.headers.find? fun field => field.1.toLower == name.toLower).map (·.2)

def Request.path (request : Request) : String :=
  String.ofList (request.target.toList.takeWhile fun c => c != '?' && c != '#')

inductive Problem where
  | missing
  | invalidJson (offset : Nat)
  | notObject
  | notString
  | notInteger
  | notFinite
  | hasFraction
  | unreadableInteger
  | integerTooLarge
  | tooSmall
  deriving DecidableEq, Repr

structure Complaint where
  field : Option String
  problem : Problem
  deriving DecidableEq, Repr

inductive Content where
  | json (value : Json)
  | text (value : String)
  /-- A page, or nothing. -/
  | page
  | complaints (all : List Complaint)
  deriving Repr

structure Response where
  status : Nat
  content : Content
  headers : List (String × String) := []
  deriving Repr

def Response.detail (status : Nat) (message : String) : Response :=
  ⟨status, .json (.obj [("detail", .str message)]), []⟩

def Response.ok (value : Json) : Response := ⟨200, .json value, []⟩

end JavaLint.Http
