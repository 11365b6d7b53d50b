import JavaLint.Issue
import JavaLint.Tree.Parse

/-!
The rules. Each has an identifier, a category and a severity, and every finding names its rule.
-/
namespace JavaLint

inductive Rule where
  | nullDereference
  | infiniteLoop
  | emptyCatch
  | referenceEquality
  | sqlInjection
  | commandInjection
  | crossSiteScripting
  | pathTraversal
  | hardcodedSecret
  | weakCrypto
  | insecureRandom
  | unsafeDeserialization
  | stringConcatInLoop
  | sizeCallInLoop
  | removeInForeach
  | listCapacity
  | boxingInLoop
  | className
  | methodName
  | fieldName
  | constantName
  | classJavadoc
  | methodJavadoc
  | longMethod
  | magicNumber
  deriving DecidableEq, Repr

namespace Rule

def id : Rule → String
  | .nullDereference => "BUG_NULL_DEREF_001"
  | .infiniteLoop => "BUG_INFINITE_LOOP_001"
  | .emptyCatch => "BUG_EMPTY_CATCH_001"
  | .referenceEquality => "BUG_REF_EQUALITY_001"
  | .sqlInjection => "VUL_SQL_INJECTION_001"
  | .commandInjection => "VUL_COMMAND_INJECTION_001"
  | .crossSiteScripting => "VUL_XSS_001"
  | .pathTraversal => "VUL_PATH_TRAVERSAL_001"
  | .hardcodedSecret => "VUL_HARDCODED_SECRET_001"
  | .weakCrypto => "VUL_WEAK_CRYPTO_001"
  | .insecureRandom => "VUL_INSECURE_RANDOM_001"
  | .unsafeDeserialization => "VUL_UNSAFE_DESERIALIZATION_001"
  | .stringConcatInLoop => "PERF_STRING_CONCAT_LOOP_001"
  | .sizeCallInLoop => "PERF_LOOP_SIZE_CALL_001"
  | .removeInForeach => "PERF_FOREACH_REMOVE_001"
  | .listCapacity => "PERF_ARRAYLIST_CAPACITY_001"
  | .boxingInLoop => "PERF_BOXING_LOOP_001"
  | .className => "STY_CLASS_NAME_001"
  | .methodName => "STY_METHOD_NAME_001"
  | .fieldName => "STY_FIELD_NAME_001"
  | .constantName => "STY_CONSTANT_NAME_001"
  | .classJavadoc => "STY_CLASS_JAVADOC_001"
  | .methodJavadoc => "STY_METHOD_JAVADOC_001"
  | .longMethod => "STY_LONG_METHOD_001"
  | .magicNumber => "STY_MAGIC_NUMBER_001"

def category : Rule → Category
  | .nullDereference | .infiniteLoop | .emptyCatch | .referenceEquality => .bug
  | .sqlInjection | .commandInjection | .crossSiteScripting | .pathTraversal | .hardcodedSecret
  | .weakCrypto | .insecureRandom | .unsafeDeserialization => .vulnerability
  | .stringConcatInLoop | .sizeCallInLoop | .removeInForeach | .listCapacity
  | .boxingInLoop => .performance
  | .className | .methodName | .fieldName | .constantName | .classJavadoc | .methodJavadoc
  | .longMethod | .magicNumber => .style

def severity : Rule → Severity
  | .sqlInjection | .hardcodedSecret => .critical
  | .nullDereference | .referenceEquality | .commandInjection | .crossSiteScripting
  | .pathTraversal | .unsafeDeserialization => .high
  | .infiniteLoop | .emptyCatch | .weakCrypto | .stringConcatInLoop | .removeInForeach
  | .longMethod => .medium
  | .insecureRandom | .sizeCallInLoop | .listCapacity | .boxingInLoop | .className | .methodName
  | .fieldName | .constantName | .classJavadoc | .methodJavadoc | .magicNumber => .low

end Rule

structure Finding where
  rule : Rule
  line : Nat
  message : String
  deriving DecidableEq, Repr

def Finding.issue (finding : Finding) (unit : SourceUnit) : Issue where
  fileName := unit.fileName
  line := finding.line
  message := finding.message
  category := finding.rule.category
  severity := finding.rule.severity
  ruleId := finding.rule.id
  path := unit.path.text

end JavaLint
