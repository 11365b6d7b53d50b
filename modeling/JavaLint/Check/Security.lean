import JavaLint.Check.Concatenation
import JavaLint.Check.Method
import JavaLint.Check.Wording

/-!
Security-sensitive patterns: injection, request input that reaches output or files, secrets, weak
algorithms, predictable random numbers, and deserialization.
-/
namespace JavaLint.Check.Security

def literalKinds : List String :=
  ["string_literal", "character_literal", "decimal_integer_literal", "hex_integer_literal",
   "octal_integer_literal", "binary_integer_literal", "decimal_floating_point_literal",
   "hex_floating_point_literal", "true", "false", "null_literal"]

/-- The content of a string literal between its quotes, one or three on each side. -/
def stringValue? (source : Source) (node : Node) : Option String :=
  if node.kind == "string_literal" then
    let text := (source.text node).toList
    let quotes := if ['"', '"', '"'].isPrefixOf text then 3 else 1
    some (String.ofList ((text.take (text.length - quotes)).drop quotes))
  else none

/-- The arguments of a call, comments among them included. -/
def arguments (node : Node) : List Node :=
  match node.child? "arguments" with
  | some list => list.namedChildren
  | none => []

def createdType (source : Source) (node : Node) : String :=
  let text := (source.fieldText node "type").toList
  String.ofList (Text.afterLast '.' (Text.beforeFirst '<' text))

/-- The outermost node of a chain, as far as its parent tells. -/
def isOutermostConcat (source : Source) (site : Site) : Bool :=
  isConcat source site.node && !site.parent.any (isConcat source)

def buildsQuery (source : Source) (operands : List Node) : Bool :=
  operands.any (fun node => Wording.hasSqlKeyword ((stringValue? source node).getD "")) &&
    operands.any (fun node => !literalKinds.contains node.kind)

def sqlInjection? (source : Source) (site : Site) : Except Fault (Option Finding) := do
  let leaves ← operands source site.node
  if buildsQuery source leaves then
    return some (findingAt source site.node .sqlInjection
      ("Possible SQL injection: query text built by string concatenation. " ++
        "Use a PreparedStatement with bound parameters."))
  else return none

def sqlInjections (source : Source) : Except Fault (List Finding) := do
  let sites :=
    (source.findAll ["binary_expression"] .preorder).filter (isOutermostConcat source)
  return (← sites.mapM (sqlInjection? source)).filterMap id

def commandTarget? (source : Source) (node : Node) : Option String :=
  if node.kind == "method_invocation" then
    if source.name node == "exec" && Text.contains (source.fieldText node "object") "getRuntime()"
    then some "Runtime.exec()" else none
  else if createdType source node == "ProcessBuilder" then some "ProcessBuilder"
  else none

def commandInjection? (source : Source) (site : Site) : Option Finding := do
  let target ← commandTarget? source site.node
  if (arguments site.node).all (·.kind == "string_literal") then none
  else some (findingAt source site.node .commandInjection
    ("Possible command injection: " ++ target ++ " called with dynamic arguments. " ++
      "Validate or whitelist command input."))

def callKinds : List String := ["method_invocation", "object_creation_expression"]

def commandInjections (source : Source) : List Finding :=
  (source.findAll callKinds .preorder).filterMap (commandInjection? source)

def requestSources : List String := ["getParameter(", "getHeader(", "getQueryString("]

def pathSources : List String := requestSources ++ ["getPathInfo(", "getRequestURI("]

def outputMethods : List String := ["print", "println", "write", "append"]

def takesInput (source : Source) (sources : List String) (node : Node) : Bool :=
  sources.any (Text.contains (source.fieldText node "arguments"))

def writesRequestInput (source : Source) (node : Node) : Bool :=
  outputMethods.contains (source.name node) && takesInput source requestSources node

def crossSiteScriptings (source : Source) : List Finding :=
  ((source.findAll ["method_invocation"] .preorder).filter
    (writesRequestInput source ·.node)).map fun site =>
      findingAt source site.node .crossSiteScripting
        ("Possible cross-site scripting: request input passed to " ++ source.name site.node ++
          "() without encoding.")

def fileTypes : List String :=
  ["File", "FileInputStream", "FileOutputStream", "FileReader", "FileWriter"]

def makesPath (source : Source) (node : Node) : Bool :=
  if node.kind == "object_creation_expression" then fileTypes.contains (createdType source node)
  else
    let receiver := source.fieldText node "object"
    (receiver == "Paths" && source.name node == "get") ||
      (receiver == "Path" && source.name node == "of")

def pathTraversals (source : Source) : List Finding :=
  ((source.findAll callKinds .preorder).filter fun site =>
    makesPath source site.node && takesInput source pathSources site.node).map fun site =>
      findingAt source site.node .pathTraversal
        ("Possible path traversal: file path built from request input. " ++
          "Normalize and restrict paths to an allowed directory.")

def holdsSecret (source : Source) (node : Node) : Bool :=
  Wording.isSecretName (source.name node) &&
    (((node.child? "value").bind (stringValue? source)).any Wording.looksLikeRealSecret)

/-- The content of the literal is not repeated. -/
def hardcodedSecrets (source : Source) : List Finding :=
  ((source.findAll ["variable_declarator"] .preorder).filter (holdsSecret source ·.node)).map
    fun site => findingAt source site.node .hardcodedSecret
      ("Hardcoded secret in '" ++ source.name site.node ++ "'. " ++
        "Load credentials from configuration or the environment.")

def weakCrypto? (source : Source) (site : Site) : Option Finding := do
  guard (source.name site.node == "getInstance")
  let receiver :=
    String.ofList (Text.afterLast '.' (source.fieldText site.node "object").toList)
  let first ← (arguments site.node).head?
  let algorithm ← stringValue? source first
  guard ((receiver == "MessageDigest" && Wording.isWeakDigest algorithm) ||
    (receiver == "Cipher" && Wording.isWeakCipher algorithm))
  return findingAt source site.node .weakCrypto
    ("Weak cryptographic algorithm '" ++ algorithm ++ "' used with " ++ receiver ++ ". " ++
      "Prefer SHA-256 or AES/GCM.")

def weakCryptos (source : Source) : List Finding :=
  (source.findAll ["method_invocation"] .preorder).filterMap (weakCrypto? source)

def creations (source : Source) (type : String) : List Site :=
  (source.findAll ["object_creation_expression"] .preorder).filter fun site =>
    createdType source site.node == type

def insecureRandoms (source : Source) : List Finding :=
  (creations source "Random").map fun site =>
    findingAt source site.node .insecureRandom
      "java.util.Random is predictable. Use SecureRandom for security-sensitive values."

def unsafeDeserializations (source : Source) : List Finding :=
  (creations source "ObjectInputStream").map fun site =>
    findingAt source site.node .unsafeDeserialization
      ("Unsafe deserialization: ObjectInputStream can instantiate arbitrary classes. " ++
        "Validate input or use a safe format.")

def findings (source : Source) : Except Fault (List Finding) := do
  let injections ← sqlInjections source
  return injections ++ commandInjections source ++ crossSiteScriptings source ++
    pathTraversals source ++ hardcodedSecrets source ++ weakCryptos source ++
    insecureRandoms source ++ unsafeDeserializations source

end JavaLint.Check.Security
