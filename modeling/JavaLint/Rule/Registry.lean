import JavaLint.Rule
import JavaLint.Rule.Identifier
import JavaLint.Text.Quoted

/-!
The registry of rule identifiers: three buckets that share nothing, and the list of all.
-/
namespace JavaLint

def sortTexts (texts : List String) : List String := texts.mergeSort fun a b => !decide (b < a)

inductive Bucket where
  | stable
  | experimental
  | deprecated
  | all
  deriving DecidableEq, Repr

def Bucket.name : Bucket → String
  | .stable => "PUBLIC_RULE_IDS"
  | .experimental => "EXPERIMENTAL_RULE_IDS"
  | .deprecated => "DEPRECATED_RULE_IDS"
  | .all => "ALL_RULE_IDS"

structure Registry where
  /-- Supported rules. -/
  stable : List String
  /-- Rules that may still change. -/
  experimental : List String
  /-- Rules that will be removed. -/
  deprecated : List String
  all : List String
  deriving DecidableEq, Repr

namespace Registry

def bucket (registry : Registry) : Bucket → List String
  | .stable => registry.stable
  | .experimental => registry.experimental
  | .deprecated => registry.deprecated
  | .all => registry.all

inductive Flaw where
  | unsorted (bucket : Bucket)
  | repeated (bucket : Bucket)
  | malformed (bucket : Bucket) (ids : List String)
  | overlap (ids : List String)
  | notUnion
  deriving DecidableEq, Repr

def Flaw.message : Flaw → String
  | .unsorted bucket => bucket.name ++ " must be sorted"
  | .repeated bucket => bucket.name ++ " must contain unique IDs"
  | .malformed bucket ids => bucket.name ++ " contains invalid rule IDs: " ++ Text.quoteList ids
  | .overlap ids => "Rule ID buckets must be disjoint; overlaps: " ++ Text.quoteList ids
  | .notUnion => "ALL_RULE_IDS must equal union(PUBLIC, EXPERIMENTAL, DEPRECATED)"

def isSorted (ids : List String) : Bool := ids == sortTexts ids

def checkBucket (registry : Registry) (bucket : Bucket) : Except Flaw Unit :=
  let ids := registry.bucket bucket
  let malformed := ids.filter (!Rule.isIdentifier ·)
  if !isSorted ids then .error (.unsorted bucket)
  else if !decide ids.Nodup then .error (.repeated bucket)
  else if !malformed.isEmpty then .error (.malformed bucket malformed)
  else .ok ()

def overlaps (registry : Registry) : List String :=
  let shared (a b : List String) : List String := a.filter b.contains
  sortTexts (shared registry.stable registry.experimental ++
    shared registry.stable registry.deprecated ++
    shared registry.experimental registry.deprecated).eraseDups

def isUnion (registry : Registry) : Bool :=
  let union := registry.stable ++ registry.experimental ++ registry.deprecated
  registry.all.all union.contains && union.all registry.all.contains

def check (registry : Registry) : Except Flaw Unit := do
  registry.checkBucket .stable
  registry.checkBucket .experimental
  registry.checkBucket .deprecated
  registry.checkBucket .all
  if !registry.overlaps.isEmpty then .error (.overlap registry.overlaps)
  else if !registry.isUnion then .error .notUnion
  else .ok ()

end Registry

namespace Rule

def all : List Rule :=
  [.nullDereference, .infiniteLoop, .emptyCatch, .referenceEquality, .sqlInjection,
   .commandInjection, .crossSiteScripting, .pathTraversal, .hardcodedSecret, .weakCrypto,
   .insecureRandom, .unsafeDeserialization, .stringConcatInLoop, .sizeCallInLoop,
   .removeInForeach, .listCapacity, .boxingInLoop, .className, .methodName, .fieldName,
   .constantName, .classJavadoc, .methodJavadoc, .longMethod, .magicNumber]

/-- Only the rule on numbers in the place of identifiers may still change: it is silent on sources
that parse. -/
def isExperimental (rule : Rule) : Bool := rule == .magicNumber

def registry : Registry where
  stable := sortTexts ((all.filter (!·.isExperimental)).map id)
  experimental := sortTexts ((all.filter (·.isExperimental)).map id)
  deprecated := []
  all := sortTexts (all.map id)

end Rule

end JavaLint
