import JavaLint.Check.Method

/-!
Inefficient loops and collections.
-/
namespace JavaLint.Check.Efficiency

def mentionsLoop (text : String) : Bool := Text.contains text "for" || Text.contains text "while"

def wrapperTypes : List String := ["Integer", "Double", "Long", "Float", "Boolean"]

def concatenatesInLoop (source : Source) (method : Method) : Bool :=
  let body := method.bodyText source
  mentionsLoop body && Text.contains body "+=" && Text.contains body "String"

def stringConcatenations (source : Source) : List Finding :=
  ((methodsWithBody source).filter (concatenatesInLoop source)).map fun method =>
    method.finding source .stringConcatInLoop
      ("Inefficient string concatenation in loop. Consider using StringBuilder: " ++
        method.name source)

def asksSizeInCondition (source : Source) (node : Node) : Bool :=
  match node.child? "condition" with
  | some condition => Text.contains (source.text condition) ".size()"
  | none => false

def sizeCalls (source : Source) : List Finding :=
  ((source.findAll ["for_statement"] .postorder).filter (asksSizeInCondition source ·.node)).map
    fun site => findingAt source site.node .sizeCallInLoop
      ("Inefficient loop: Collection size() called in loop condition. " ++
        "Store size in a variable before the loop.")

def removesWhileIterating (source : Source) (node : Node) : Bool :=
  Text.contains (source.fieldText node "body") ".remove("

def foreachRemovals (source : Source) : List Finding :=
  ((source.findAll ["enhanced_for_statement"] .postorder).filter
    (removesWhileIterating source ·.node)).map fun site =>
      findingAt source site.node .removeInForeach
        ("Inefficient collection modification: Removing elements during foreach loop can cause " ++
          "ConcurrentModificationException. Use Iterator.remove() instead.")

/-- A field whose type names a list with growing capacity and whose first variable has no value. -/
def isUnsizedList (source : Source) (member : Node) : Bool :=
  fieldDeclarations.contains member.kind &&
    match member.childrenOf "declarator" with
    | [] => false
    | first :: _ =>
      Text.contains (source.fieldText member "type") "ArrayList" && (first.child? "value").isNone

def membersOf (declaration : Node) : List Node :=
  match declaration.child? "body" with
  | some body => body.namedChildren
  | none => []

def unsizedLists (source : Source) : List Finding :=
  (source.findAll typeDeclarations .preorder).flatMap fun site =>
    ((membersOf site.node).filter (isUnsizedList source)).map fun member =>
      findingAt source member .listCapacity
        "Consider initializing ArrayList with an initial capacity if the size is known."

def boxesInLoop (source : Source) (method : Method) : Bool :=
  let body := method.bodyText source
  wrapperTypes.any (Text.contains body) && mentionsLoop body

def boxings (source : Source) : List Finding :=
  ((methodsWithBody source).filter (boxesInLoop source)).map fun method =>
    method.finding source .boxingInLoop
      ("Method may have boxing/unboxing overhead in loops: " ++ method.name source)

def findings (source : Source) : List Finding :=
  stringConcatenations source ++ sizeCalls source ++ foreachRemovals source ++
    unsizedLists source ++ boxings source

end JavaLint.Check.Efficiency
