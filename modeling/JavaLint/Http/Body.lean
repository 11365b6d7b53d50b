import JavaLint.Http.Message
import JavaLint.Json.Reader
import JavaLint.Text.Blank
import JavaLint.Text.Search

/-!
Reading the body of an analysis request: a path, and optionally the greatest length of a method.
All problems of the fields are reported, in the order of the fields.
-/
namespace JavaLint.Http

structure AnalysisRequest where
  path : String
  maxMethodLines : Option Int
  deriving DecidableEq, Repr

namespace Body

def digits? (afterDigit : Bool) : List Char → Option (List Char)
  | [] => if afterDigit then some [] else none
  | '_' :: rest => if afterDigit then digits? false rest else none
  | c :: rest => if Json.isDigit c then (digits? true rest).map (c :: ·) else none

def dropZeroFraction (text : List Char) : List Char :=
  match text.dropWhile (· != '.') with
  | _ :: '0' :: zeros => if zeros.all (· == '0') then text.takeWhile (· != '.') else text
  | _ => text

/-- A bound that the form of a request sets, and not a machine. -/
def integerLength : Nat := 4300

def integerText (text : String) : Except Problem Int :=
  let trimmed := Text.trimBy Text.isWhiteSpace text.toList
  let (negative, rest) : Bool × List Char :=
    match trimmed with
    | '-' :: rest => (true, rest)
    | '+' :: rest => (false, rest)
    | rest => (false, rest)
  match digits? false (dropZeroFraction rest) with
  | none => .error .unreadableInteger
  | some digits =>
    if digits.length > integerLength then .error .integerTooLarge
    else
      let n : Int := Json.digitsValue digits
      .ok (if negative then -n else n)

/-- Two to the sixty-third, below which a floating-point number counts as an integer. -/
def wordBound : Int := 9223372036854775808

def integerReal (x : Numeral.Binary64) : Except Problem Int :=
  match x with
  | .finite .. =>
    match x.toInt? with
    | none => .error .hasFraction
    | some n => if -wordBound ≤ n && n < wordBound then .ok n else .error .integerTooLarge
  | _ => .error .notFinite

def integer : Json → Except Problem Int
  | .int n => .ok n
  | .bool value => .ok (if value then 1 else 0)
  | .real x => integerReal x
  | .str text => integerText text
  | _ => .error .notInteger

def path (value : Option Json) : Except Problem String :=
  match value with
  | none => .error .missing
  | some (.str text) => .ok text
  | some _ => .error .notString

def maxMethodLines (value : Option Json) : Except Problem (Option Int) :=
  match value with
  | none => .ok none
  | some .null => .ok none
  | some value =>
    match integer value with
    | .error problem => .error problem
    | .ok n => if n < 1 then .error .tooSmall else .ok (some n)

def complaint {α : Type} (field : String) : Except Problem α → List Complaint
  | .ok _ => []
  | .error problem => [⟨some field, problem⟩]

def ofObject (value : Json) : Except (List Complaint) AnalysisRequest :=
  let path := path (value.get? "path")
  let lines := maxMethodLines (value.get? "max_method_lines")
  match path, lines with
  | .ok path, .ok lines => .ok ⟨path, lines⟩
  | path, lines => .error (complaint "path" path ++ complaint "max_method_lines" lines)

def ofValue (value : Json) : Except (List Complaint) AnalysisRequest :=
  match value with
  | .null => .error [⟨none, .missing⟩]
  | .obj _ => ofObject value
  | _ => .error [⟨none, .notObject⟩]

/-- The media type says JSON; a body without one is not read. -/
def isJson (contentType : Option String) : Bool :=
  match contentType with
  | none => false
  | some text =>
    let kind := (String.ofList (Text.trim (text.toList.takeWhile (· != ';')))).toLower
    match Text.splitAt '/' kind.toList with
    | [main, sub] =>
      String.ofList main == "application" &&
        (String.ofList sub == "json" || (String.ofList sub).endsWith "+json")
    | _ => false

/-- A body that is cut off by an error of its own, and not by its form. -/
inductive Failure where
  | complaints (all : List Complaint)
  | unparsable
  deriving DecidableEq, Repr

def dropMark : List Char → List Char
  | '\uFEFF' :: rest => rest
  | text => text

def read (request : Request) : Except Failure AnalysisRequest :=
  if request.body.isEmpty then .error (.complaints [⟨none, .missing⟩])
  else if !isJson (request.header? "content-type") then .error (.complaints [⟨none, .notObject⟩])
  else
    match Text.decode? request.body with
    | none => .error .unparsable
    | some text =>
      match Json.read (dropMark text) with
      | .error error => .error (.complaints [⟨none, .invalidJson error.offset⟩])
      | .ok value => (ofValue value).mapError .complaints

end Body

end JavaLint.Http
