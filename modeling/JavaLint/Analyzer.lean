import JavaLint.Check.Convention
import JavaLint.Check.Defect
import JavaLint.Check.Efficiency
import JavaLint.Check.Security

/-!
Analyzers. An analyzer turns a source unit into issues or gives up on it; a unit without a source
has no issues.
-/
namespace JavaLint

structure Analyzer where
  name : String
  version : String
  category : Category
  run : SourceUnit → Except Fault (List Issue)

namespace Analyzer

def ofCheck (category : Category) (check : Source → Except Fault (List Finding)) : Analyzer where
  name := category.name
  version := "1.0.0"
  category := category
  run unit :=
    match unit.source with
    | none => .ok []
    | some source => (check source).map (·.map (·.issue unit))

def bug : Analyzer := ofCheck .bug fun source => .ok (Check.Defect.findings source)

def vulnerability : Analyzer := ofCheck .vulnerability Check.Security.findings

def performance : Analyzer :=
  ofCheck .performance fun source => .ok (Check.Efficiency.findings source)

def style (maxLines : Int) : Analyzer :=
  ofCheck .style fun source => .ok (Check.Convention.findings maxLines source)

def defaults (maxLines : Int) : List Analyzer :=
  [bug, vulnerability, performance, style maxLines]

end Analyzer

end JavaLint
