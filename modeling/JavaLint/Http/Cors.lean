import JavaLint.Http.Message
import JavaLint.Settings

/-!
Sharing answers across origins. Answers to requests that name their origin say who may read them. A
request that only asks for permission is answered here.
-/
namespace JavaLint.Http.Cors

def allowsAll (settings : Settings) : Bool := settings.origins.contains "*"

def allows (settings : Settings) (origin : String) : Bool :=
  allowsAll settings || settings.origins.contains origin

def methods : List String := ["GET", "POST"]

def originField : String := "access-control-allow-origin"

/-- Credentials cannot be combined with a star. -/
def credentials (settings : Settings) : List (String × String) :=
  if allowsAll settings then [] else [("access-control-allow-credentials", "true")]

/-- The fields added to the answer to a request from an origin. With cookies the origin is named
even where a star would do. -/
def fields (settings : Settings) (request : Request) (origin : String) : List (String × String) :=
  let allowed :=
    if allowsAll settings then
      if (request.header? "cookie").isSome then [(originField, origin)] else [(originField, "*")]
    else if allows settings origin then [(originField, origin)]
    else []
  allowed ++ credentials settings

def permission (settings : Settings) (request : Request) (origin method : String) : Response :=
  let allowed :=
    if allowsAll settings then [(originField, "*")]
    else if allows settings origin then [(originField, origin)]
    else []
  let requested :=
    match request.header? "access-control-request-headers" with
    | some names => [("access-control-allow-headers", names)]
    | none => []
  let failures :=
    (if allows settings origin then [] else ["origin"]) ++
    (if methods.contains method then [] else ["method"])
  let headers := allowed ++ [("access-control-allow-methods", ", ".intercalate methods)] ++
    requested ++ credentials settings
  if failures.isEmpty then ⟨200, .text "OK", headers⟩
  else ⟨400, .text ("Disallowed CORS " ++ ", ".intercalate failures), headers⟩

/-- Answers a request, given how it is answered when origins are left aside. An answer to an
accident carries no fields. -/
def apply (settings : Settings) (request : Request) (answer : Request → Except Response Response) :
    Response :=
  match request.header? "origin" with
  | none =>
    match answer request with
    | .ok response => response
    | .error response => response
  | some origin =>
    match request.method == "OPTIONS", request.header? "access-control-request-method" with
    | true, some method => permission settings request origin method
    | _, _ =>
      match answer request with
      | .ok response =>
        { response with headers := response.headers ++ fields settings request origin }
      | .error response => response

end JavaLint.Http.Cors
