import JavaLint.Json.Literal
import JavaLint.Rule.Identifier

/-!
Schemas: what a JSON value has to look like. A schema is a list of keywords, each of which stands on
its own; only the ban on further properties looks at the properties beside it.
-/
namespace JavaLint

/-- The types that a schema can ask for. A floating-point number without a fraction is an
integer. -/
inductive JsonType where
  | object
  | array
  | string
  | integer
  deriving DecidableEq, Repr

namespace JsonType

def name : JsonType → String
  | .object => "object"
  | .array => "array"
  | .string => "string"
  | .integer => "integer"

def admits : JsonType → Json → Bool
  | .object, .obj _ => true
  | .array, .arr _ => true
  | .string, .str _ => true
  | .integer, .int _ => true
  | .integer, .real x => x.toInt?.isSome
  | _, _ => false

end JsonType

inductive TextForm where
  | optionalRuleId
  deriving DecidableEq, Repr

def TextForm.pattern : TextForm → String
  | .optionalRuleId => Rule.optionalPattern

def TextForm.admits : TextForm → String → Bool
  | .optionalRuleId => Rule.isOptionalIdentifier

inductive Keyword where
  | type (expected : JsonType)
  /-- No properties but those listed beside it. -/
  | closed
  | required (names : List String)
  | properties (members : List (String × List Keyword))
  | items (schema : List Keyword)
  /-- The schema of a definition, referred to by its name. -/
  | reference (name : String) (schema : List Keyword)
  | const (text : String)
  | oneOf (texts : List String)
  | minLength (length : Nat)
  | minimum (least : Int)
  | maxItems (count : Nat)
  | form (expected : TextForm)
  deriving Repr

abbrev Schema := List Keyword

namespace Keyword

def name : Keyword → String
  | .type _ => "type"
  | .closed => "additionalProperties"
  | .required _ => "required"
  | .properties _ => "properties"
  | .items _ => "items"
  | .reference .. => "$ref"
  | .const _ => "const"
  | .oneOf _ => "enum"
  | .minLength _ => "minLength"
  | .minimum _ => "minimum"
  | .maxItems _ => "maxItems"
  | .form _ => "pattern"

mutual

def document : Keyword → Json
  | .type expected => .str expected.name
  | .closed => .bool false
  | .required names => .strings names
  | .properties members => .obj (membersDocument members)
  | .items schema => .obj (schemaMembers schema)
  | .reference name _ => .str ("#/$defs/" ++ name)
  | .const text => .str text
  | .oneOf texts => .strings texts
  | .minLength length => .nat length
  | .minimum least => .int least
  | .maxItems count => .nat count
  | .form expected => .str expected.pattern

def schemaMembers : List Keyword → List (String × Json)
  | [] => []
  | keyword :: rest => (keyword.name, keyword.document) :: schemaMembers rest

def membersDocument : List (String × List Keyword) → List (String × Json)
  | [] => []
  | (name, schema) :: rest => (name, .obj (schemaMembers schema)) :: membersDocument rest

end

end Keyword

namespace Schema

def propertyNames (schema : Schema) : List String :=
  schema.flatMap fun keyword =>
    match keyword with
    | .properties members => members.map (·.1)
    | _ => []

def type? (schema : Schema) : Option JsonType :=
  schema.findSome? fun keyword =>
    match keyword with
    | .type expected => some expected
    | _ => none

def matchesType (schema : Schema) (value : Json) : Bool :=
  match schema.type? with
  | some type => type.admits value
  | none => false

end Schema

end JavaLint
