import JavaLint.Rule

/-!
Methods with a body, which several checks look at.
-/
namespace JavaLint.Check

structure Method where
  site : Site
  body : Node
  deriving Repr

def methodsWithBody (source : Source) : List Method :=
  (source.findAll ["method_declaration"] .preorder).filterMap fun site =>
    (site.node.child? "body").map (⟨site, ·⟩)

theorem mem_methodsWithBody {source : Source} {method : Method} :
    method ∈ methodsWithBody source ↔
      method.site ∈ source.findAll ["method_declaration"] .preorder ∧
        method.site.node.child? "body" = some method.body := by
  simp only [methodsWithBody, List.mem_filterMap, Option.map_eq_some_iff]
  constructor
  · rintro ⟨site, hsite, body, hbody, rfl⟩
    exact ⟨hsite, hbody⟩
  · rintro ⟨hsite, hbody⟩
    exact ⟨method.site, hsite, method.body, hbody, rfl⟩

namespace Method

def bodyText (source : Source) (method : Method) : String := source.text method.body

def name (source : Source) (method : Method) : String := source.name method.site.node

def finding (source : Source) (method : Method) (rule : Rule) (message : String) : Finding :=
  ⟨rule, source.line method.site.node, message⟩

end Method

def findingAt (source : Source) (node : Node) (rule : Rule) (message : String) : Finding :=
  ⟨rule, source.line node, message⟩

def typeDeclarations : List String := ["class_declaration", "interface_declaration"]

def fieldDeclarations : List String := ["field_declaration", "constant_declaration"]

end JavaLint.Check
