import JavaLint.Schema.Basic

/-!
How a value breaks a schema. All violations are collected in the order of the keywords, depth first.
The one reported lies least deep; of those equally deep it has the greatest path, and of those at
one path one that breaks the type comes before the others.
-/
namespace JavaLint

inductive Step where
  | key (name : String)
  | index (position : Nat)
  deriving DecidableEq, Repr

structure Violation where
  path : List Step
  keyword : String
  message : String
  /-- The value does not have the type that the schema of the keyword asks for. -/
  mistyped : Bool
  deriving DecidableEq, Repr

namespace Schema

def unexpected (schema : Schema) (value : Json) : List String :=
  match value with
  | .obj members =>
    ((members.map (·.1)).filter (!schema.propertyNames.contains ·)).mergeSort
      fun a b => !decide (b < a)
  | _ => []

def unexpectedMessage (keys : List String) : String :=
  let verb := if keys.length == 1 then "was" else "were"
  "Additional properties are not allowed (" ++ ", ".intercalate (keys.map Text.quote) ++
    " " ++ verb ++ " unexpected)"

def complaints (schema : Schema) (value : Json) : Keyword → List String
  | .type type =>
    if type.admits value then []
    else [value.showLiteral ++ " is not of type " ++ Text.quote type.name]
  | .closed =>
    match schema.unexpected value with
    | [] => []
    | keys => [unexpectedMessage keys]
  | .required names =>
    match value with
    | .obj members =>
      (names.filter fun name => !members.any (·.1 == name)).map fun name =>
        Text.quote name ++ " is a required property"
    | _ => []
  | .const text =>
    match value with
    | .str other => if other == text then [] else [Text.quote text ++ " was expected"]
    | _ => [Text.quote text ++ " was expected"]
  | .oneOf texts =>
    match value with
    | .str other =>
      if texts.contains other then []
      else [value.showLiteral ++ " is not one of " ++ Text.quoteList texts]
    | _ => [value.showLiteral ++ " is not one of " ++ Text.quoteList texts]
  | .minLength length =>
    match value with
    | .str text =>
      if text.toList.length < length then
        [value.showLiteral ++ (if length == 1 then " should be non-empty" else " is too short")]
      else []
    | _ => []
  | .minimum least =>
    let below : Bool :=
      match value with
      | .int n => n < least
      | .real x => x.ltInt least
      | _ => false
    if below then [value.showLiteral ++ s!" is less than the minimum of {least}"] else []
  | .maxItems count =>
    match value with
    | .arr items => if items.length > count then [value.showLiteral ++ " is too long"] else []
    | _ => []
  | .form form =>
    match value with
    | .str text =>
      if form.admits text then []
      else [value.showLiteral ++ " does not match " ++ Text.quote form.pattern]
    | _ => []
  | _ => []

mutual

def keywordViolations (schema : Schema) (path : List Step) (value : Json) :
    Keyword → List Violation
  | .properties members => memberViolations path value members
  | .items inner =>
    match value with
    | .arr items =>
      items.zipIdx.flatMap fun (item, position) =>
        violationsOf inner (path ++ [.index position]) item inner
    | _ => []
  | .reference _ inner => violationsOf inner path value inner
  | keyword =>
    (schema.complaints value keyword).map fun message =>
      ⟨path, keyword.name, message, !schema.matchesType value⟩

def violationsOf (schema : Schema) (path : List Step) (value : Json) :
    List Keyword → List Violation
  | [] => []
  | keyword :: rest =>
    keywordViolations schema path value keyword ++ violationsOf schema path value rest

def memberViolations (path : List Step) (value : Json) :
    List (String × List Keyword) → List Violation
  | [] => []
  | (name, inner) :: rest =>
    (match value.get? name with
    | some member => violationsOf inner (path ++ [.key name]) member inner
    | none => []) ++ memberViolations path value rest

end

def violations (schema : Schema) (value : Json) : List Violation :=
  violationsOf schema [] value schema

def accepts (schema : Schema) (value : Json) : Bool := (schema.violations value).isEmpty

end Schema

def Step.compare : Step → Step → Ordering
  | .key a, .key b => if a < b then .lt else if b < a then .gt else .eq
  | .index a, .index b => Ord.compare a b
  | .key _, .index _ => .lt
  | .index _, .key _ => .gt

def comparePaths : List Step → List Step → Ordering
  | [], [] => .eq
  | [], _ :: _ => .lt
  | _ :: _, [] => .gt
  | a :: as, b :: bs => (a.compare b).then (comparePaths as bs)

namespace Violation

def compare (a b : Violation) : Ordering :=
  (Ord.compare b.path.length a.path.length).then
    ((comparePaths a.path b.path).then (Ord.compare a.mistyped.toNat b.mistyped.toNat))

def worst? : List Violation → Option Violation
  | [] => none
  | first :: rest =>
    some (rest.foldl (fun best next => if next.compare best == .gt then next else best) first)

end Violation

def Schema.validate (schema : Schema) (value : Json) : Except Violation Unit :=
  match Violation.worst? (schema.violations value) with
  | some violation => .error violation
  | none => .ok ()

end JavaLint
