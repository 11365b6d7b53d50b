import JavaLint.Check.Method
import JavaLint.Text.DecimalDigit

/-!
Coding conventions: names, documentation, the length of methods, and numbers used as names.
-/
namespace JavaLint.Check.Convention

def isUpper (c : Char) : Bool := 'A' ≤ c && c ≤ 'Z'

def isLower (c : Char) : Bool := 'a' ≤ c && c ≤ 'z'

def isDigit (c : Char) : Bool := '0' ≤ c && c ≤ '9'

/-- A first character of one class and any number of another, with or without a final line break. -/
def hasShape (first more : Char → Bool) (name : List Char) : Bool :=
  match Text.dropFinalBreak name with
  | [] => false
  | c :: rest => first c && rest.all more

def isLetterOrDigit (c : Char) : Bool := isUpper c || isLower c || isDigit c

def isClassName (name : String) : Bool := hasShape isUpper isLetterOrDigit name.toList

def isMethodName (name : String) : Bool := hasShape isLower isLetterOrDigit name.toList

def isVariableName (name : String) : Bool := hasShape isLower isLetterOrDigit name.toList

def isConstantName (name : String) : Bool :=
  hasShape isUpper (fun c => isUpper c || isDigit c || c == '_') name.toList

def classNames (source : Source) : List Finding :=
  ((source.findAll typeDeclarations .preorder).filter fun site =>
    !isClassName (source.name site.node)).map fun site =>
      findingAt source site.node .className
        ("Class name '" ++ source.name site.node ++
          "' does not follow the PascalCase naming convention")

def methodNames (source : Source) : List Finding :=
  ((source.findAll ["method_declaration"] .preorder).filter fun site =>
    !isMethodName (source.name site.node)).map fun site =>
      findingAt source site.node .methodName
        ("Method name '" ++ source.name site.node ++
          "' does not follow the camelCase naming convention")

/-- Both modifiers are written out; those that an interface implies do not count. -/
def isConstant (source : Source) (field : Node) : Bool :=
  (source.modifiers field).contains "static" && (source.modifiers field).contains "final"

def variableName? (source : Source) (field : Node) (name : String) : Option Finding :=
  if isConstant source field then
    if isConstantName name then none
    else some (findingAt source field .constantName
      ("Constant '" ++ name ++ "' does not follow the UPPER_CASE naming convention"))
  else if isVariableName name then none
  else some (findingAt source field .fieldName
    ("Field '" ++ name ++ "' does not follow the camelCase naming convention"))

def fieldNames (source : Source) : List Finding :=
  (source.findAll fieldDeclarations .preorder).flatMap fun site =>
    (source.declarators site.node).filterMap fun (_, name) => variableName? source site.node name

def undocumentedClasses (source : Source) : List Finding :=
  ((source.findAll typeDeclarations .preorder).filter fun site =>
    (source.docComment? site).isNone).map fun site =>
      findingAt source site.node .classJavadoc
        ("Class '" ++ source.name site.node ++ "' is missing Javadoc comment")

def undocumentedMethods (source : Source) : List Finding :=
  ((source.findAll ["method_declaration"] .preorder).filter fun site =>
    (source.modifiers site.node).contains "public" && (source.docComment? site).isNone).map
      fun site => findingAt source site.node .methodJavadoc
        ("Public method '" ++ source.name site.node ++ "' is missing Javadoc comment")

def lineCount (text : String) : Nat := text.toList.count '\n' + 1

def longMethods (maxLines : Int) (source : Source) : List Finding :=
  ((methodsWithBody source).filter fun method =>
    (lineCount (method.bodyText source) : Int) > maxLines).map fun method =>
      let lines := lineCount (method.bodyText source)
      method.finding source .longMethod
        ("Method '" ++ method.name source ++ s!"' is too long ({lines} lines). " ++
          "Consider refactoring.")

/-- A number in the place of an identifier, other than zero and one. -/
def isMagicNumber (text : String) : Bool :=
  Text.isDigitRun text.toList && text != "0" && text != "1"

def magicNumbers (source : Source) : List Finding :=
  ((source.findAll ["identifier"] .postorder).filter fun site =>
    isMagicNumber (source.text site.node)).map fun site =>
      findingAt source site.node .magicNumber
        ("Magic number '" ++ source.text site.node ++ "' found. Consider using a named constant.")

def defaultMaxLines : Int := 30

def findings (maxLines : Int) (source : Source) : List Finding :=
  classNames source ++ methodNames source ++ fieldNames source ++ undocumentedClasses source ++
    undocumentedMethods source ++ longMethods maxLines source ++ magicNumbers source

end JavaLint.Check.Convention
