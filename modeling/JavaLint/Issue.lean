/-!
Issues: what is reported, how urgent it is, and what it is about.
-/
namespace JavaLint

inductive Severity where
  | critical
  | high
  | medium
  | low
  | info
  deriving DecidableEq, Repr

namespace Severity

def all : List Severity := [.critical, .high, .medium, .low, .info]

theorem mem_all (severity : Severity) : severity ∈ all := by
  cases severity <;> decide

def name : Severity → String
  | .critical => "critical"
  | .high => "high"
  | .medium => "medium"
  | .low => "low"
  | .info => "info"

def displayName : Severity → String
  | .critical => "Critical"
  | .high => "High"
  | .medium => "Medium"
  | .low => "Low"
  | .info => "Info"

def upperName : Severity → String
  | .critical => "CRITICAL"
  | .high => "HIGH"
  | .medium => "MEDIUM"
  | .low => "LOW"
  | .info => "INFO"

def description : Severity → String
  | .critical => "Must be fixed immediately"
  | .high => "Should be fixed soon"
  | .medium => "Should be fixed"
  | .low => "Consider fixing"
  | .info => "Informational only"

def rank : Severity → Nat
  | .critical => 4
  | .high => 3
  | .medium => 2
  | .low => 1
  | .info => 0

def ofName? (name : String) : Option Severity := all.find? (·.name == name)

end Severity

inductive Category where
  | bug
  | vulnerability
  | performance
  | style
  deriving DecidableEq, Repr

namespace Category

def all : List Category := [.bug, .vulnerability, .performance, .style]

theorem mem_all (category : Category) : category ∈ all := by
  cases category <;> decide

def name : Category → String
  | .bug => "bug"
  | .vulnerability => "vulnerability"
  | .performance => "performance"
  | .style => "style"

def displayName : Category → String
  | .bug => "Bug"
  | .vulnerability => "Vulnerability"
  | .performance => "Performance"
  | .style => "Style"

def upperName : Category → String
  | .bug => "BUG"
  | .vulnerability => "VULNERABILITY"
  | .performance => "PERFORMANCE"
  | .style => "STYLE"

def description : Category → String
  | .bug => "Identifies potential bugs and logical errors"
  | .vulnerability => "Identifies security vulnerabilities"
  | .performance => "Identifies performance issues"
  | .style => "Identifies coding style issues"

def ofName? (name : String) : Option Category := all.find? (·.name == name)

end Category

/-- One finding in a file. The path may be empty, and the file name then stands for it. -/
structure Issue where
  fileName : String
  line : Int
  message : String
  category : Category
  severity : Severity
  ruleId : String := ""
  path : String := ""
  deriving DecidableEq, Repr

def Issue.text (issue : Issue) : String :=
  s!"[{issue.category.displayName}][{issue.severity.displayName}] {issue.fileName} " ++
    s!"(line {issue.line}): {issue.message}"

def Issue.location (issue : Issue) : String :=
  if issue.path.isEmpty then issue.fileName else issue.path

end JavaLint
