import JavaLint.Check.Method
import JavaLint.Text.DecimalDigit

/-!
Likely logic errors: member access without a null check, endless loops, empty catch blocks, and
references compared by identity.
-/
namespace JavaLint.Check.Defect

/-- The body accesses a member, and neither the method nor the comment before it mentions null. -/
def mayDereferenceNull (source : Source) (method : Method) : Bool :=
  let methodText := source.textOf method.site.comment? ++ source.text method.site.node
  Text.contains (method.bodyText source) "." && !Text.contains methodText "null"

def nullDereferences (source : Source) : List Finding :=
  ((methodsWithBody source).filter (mayDereferenceNull source)).map fun method =>
    method.finding source .nullDereference
      ("Method might contain null pointer dereference: " ++ method.name source)

def loopsForever (source : Source) (method : Method) : Bool :=
  let body := method.bodyText source
  Text.contains body "while(true)" || Text.contains body "while (true)"

def infiniteLoops (source : Source) : List Finding :=
  ((methodsWithBody source).filter (loopsForever source)).map fun method =>
    method.finding source .infiniteLoop
      ("Method contains a potential infinite loop: " ++ method.name source)

/-- The body holds a catch and an empty block, which need not belong together. -/
def catchesNothing (source : Source) (method : Method) : Bool :=
  let body := method.bodyText source
  Text.contains body "catch" && Text.contains body "\x7b\x7d"

def emptyCatches (source : Source) : List Finding :=
  ((methodsWithBody source).filter (catchesNothing source)).map fun method =>
    method.finding source .emptyCatch ("Method contains empty catch block: " ++ method.name source)

def isNullOrNumber (text : String) : Bool := text == "null" || Text.isDigitRun text.toList

/-- An equality test between operands neither of which is null or a number. -/
def comparesReferences (source : Source) (node : Node) : Bool :=
  let operator := source.fieldText node "operator"
  (operator == "==" || operator == "!=") &&
    !isNullOrNumber (source.fieldText node "left") &&
    !isNullOrNumber (source.fieldText node "right")

def referenceEqualities (source : Source) : List Finding :=
  ((source.findAll ["binary_expression"] .postorder).filter
    (comparesReferences source ·.node)).map fun site =>
      findingAt source site.node .referenceEquality
        ("Possible incorrect equality comparison. Consider using .equals() instead of " ++
          source.fieldText site.node "operator")

def findings (source : Source) : List Finding :=
  nullDereferences source ++ infiniteLoops source ++ emptyCatches source ++
    referenceEqualities source

end JavaLint.Check.Defect
