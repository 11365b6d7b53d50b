import JavaLint.Proofs.Findings
import JavaLint.Proofs.TextSearch
import JavaLint.Proofs.Traversals

/-! Bodies in bodies. Several rules only ask which words stand in the text of a body. The words are
ASCII, so a body around another one has all that the inner one has, whatever bytes either is cut
from; and what is reported for the inner one is reported for the outer one too. -/
namespace JavaLint

/-- The rules that search the body of a method or of a loop over a collection. -/
def Rule.onBodies : List Rule :=
  [.infiniteLoop, .emptyCatch, .stringConcatInLoop, .boxingInLoop, .removeInForeach]

def Rule.searchedKind (rule : Rule) : String :=
  if rule = .removeInForeach then "enhanced_for_statement" else "method_declaration"

namespace Check

def reportedMethods (source : Source) (test : Method → Bool) : List Site :=
  ((methodsWithBody source).filter test).map (·.site)

def reportedFor (source : Source) : Rule → List Site
  | .infiniteLoop => reportedMethods source (Defect.loopsForever source)
  | .emptyCatch => reportedMethods source (Defect.catchesNothing source)
  | .stringConcatInLoop => reportedMethods source (Efficiency.concatenatesInLoop source)
  | .boxingInLoop => reportedMethods source (Efficiency.boxesInLoop source)
  | .removeInForeach =>
    (source.findAll ["enhanced_for_statement"] .postorder).filter
      (Efficiency.removesWhileIterating source ·.node)
  | _ => []

section Words
variable {source : Source} {body whole : Node} {inner outer : Method}

theorem mentionsLoop_of_inside (hin : body.Inside whole)
    (h : Efficiency.mentionsLoop (source.text body) = true) :
    Efficiency.mentionsLoop (source.text whole) = true := by
  rw [Efficiency.mentionsLoop, Bool.or_eq_true] at h ⊢
  rcases h with h | h
  · exact Or.inl (source.contains_text_of_inside (by decide) hin h)
  · exact Or.inr (source.contains_text_of_inside (by decide) hin h)

theorem loopsForever_of_inside (hin : inner.body.Inside outer.body)
    (h : Defect.loopsForever source inner = true) : Defect.loopsForever source outer = true := by
  simp only [Defect.loopsForever, Method.bodyText, Bool.or_eq_true] at h ⊢
  rcases h with h | h
  · exact Or.inl (source.contains_text_of_inside (by decide) hin h)
  · exact Or.inr (source.contains_text_of_inside (by decide) hin h)

theorem catchesNothing_of_inside (hin : inner.body.Inside outer.body)
    (h : Defect.catchesNothing source inner = true) :
    Defect.catchesNothing source outer = true := by
  simp only [Defect.catchesNothing, Method.bodyText, Bool.and_eq_true] at h ⊢
  obtain ⟨hcatch, hempty⟩ := h
  exact ⟨source.contains_text_of_inside (by decide) hin hcatch,
    source.contains_text_of_inside (by decide) hin hempty⟩

theorem concatenatesInLoop_of_inside (hin : inner.body.Inside outer.body)
    (h : Efficiency.concatenatesInLoop source inner = true) :
    Efficiency.concatenatesInLoop source outer = true := by
  simp only [Efficiency.concatenatesInLoop, Method.bodyText, Bool.and_eq_true] at h ⊢
  obtain ⟨⟨hloop, hadds⟩, hstring⟩ := h
  exact ⟨⟨mentionsLoop_of_inside hin hloop, source.contains_text_of_inside (by decide) hin hadds⟩,
    source.contains_text_of_inside (by decide) hin hstring⟩

theorem boxesInLoop_of_inside (hin : inner.body.Inside outer.body)
    (h : Efficiency.boxesInLoop source inner = true) :
    Efficiency.boxesInLoop source outer = true := by
  have hascii : ∀ type ∈ Efficiency.wrapperTypes, Text.IsAscii type.toList := by
    simp only [Efficiency.wrapperTypes, List.forall_mem_cons]
    decide
  simp only [Efficiency.boxesInLoop, Method.bodyText, Bool.and_eq_true, List.any_eq_true] at h ⊢
  obtain ⟨⟨type, htype, hbox⟩, hloop⟩ := h
  exact ⟨⟨type, htype, source.contains_text_of_inside (hascii type htype) hin hbox⟩,
    mentionsLoop_of_inside hin hloop⟩

theorem removesWhileIterating_of_inside {loop around : Node} (hb : loop.child? "body" = some body)
    (hw : around.child? "body" = some whole) (hin : body.Inside whole)
    (h : Efficiency.removesWhileIterating source loop = true) :
    Efficiency.removesWhileIterating source around = true := by
  rw [Efficiency.removesWhileIterating, Source.fieldText, hb] at h
  rw [Efficiency.removesWhileIterating, Source.fieldText, hw]
  exact source.contains_text_of_inside (by decide) hin h

end Words

section Reports
variable {source : Source} {inner outer : Site} {body whole : Node}

theorem mem_reportedMethods_of_inside {test : Method → Bool}
    (htest : ∀ {method other : Method}, method.body.Inside other.body → test method = true →
      test other = true)
    (h : inner ∈ reportedMethods source test) (hs : outer ∈ source.root.sites .preorder)
    (hk : outer.node.kind = "method_declaration") (hb : inner.node.child? "body" = some body)
    (hw : outer.node.child? "body" = some whole) (hin : body.Inside whole) :
    outer ∈ reportedMethods source test := by
  obtain ⟨method, hmethod, rfl⟩ := List.mem_map.mp h
  obtain ⟨hmem, hpass⟩ := List.mem_filter.mp hmethod
  obtain ⟨-, hbody⟩ := mem_methodsWithBody.mp hmem
  cases hb.symm.trans hbody
  have hfound : outer ∈ source.findAll ["method_declaration"] .preorder :=
    List.mem_filter.mpr ⟨hs, by simp [hk]⟩
  have houter : (⟨outer, whole⟩ : Method) ∈ methodsWithBody source :=
    mem_methodsWithBody.mpr ⟨hfound, hw⟩
  exact List.mem_map.mpr ⟨⟨outer, whole⟩, List.mem_filter.mpr ⟨houter, htest hin hpass⟩, rfl⟩

theorem reportedFor_of_inside {rule : Rule} (hr : rule ∈ Rule.onBodies)
    (h : inner ∈ reportedFor source rule) (hs : outer ∈ source.root.sites .preorder)
    (hk : outer.node.kind = rule.searchedKind) (hb : inner.node.child? "body" = some body)
    (hw : outer.node.child? "body" = some whole) (hin : body.Inside whole) :
    outer ∈ reportedFor source rule := by
  simp only [Rule.onBodies, List.mem_cons, List.not_mem_nil, or_false] at hr
  rcases hr with rfl | rfl | rfl | rfl | rfl
  · exact mem_reportedMethods_of_inside loopsForever_of_inside h hs hk hb hw hin
  · exact mem_reportedMethods_of_inside catchesNothing_of_inside h hs hk hb hw hin
  · exact mem_reportedMethods_of_inside concatenatesInLoop_of_inside h hs hk hb hw hin
  · exact mem_reportedMethods_of_inside boxesInLoop_of_inside h hs hk hb hw hin
  · have hpass := (List.mem_filter.mp h).2
    have hfound : outer ∈ source.findAll ["enhanced_for_statement"] .postorder :=
      List.mem_filter.mpr ⟨source.root.sites_perm.mem_iff.mp hs, by
        rw [hk]
        rfl⟩
    exact List.mem_filter.mpr ⟨hfound, removesWhileIterating_of_inside hb hw hin hpass⟩

def ReportsSites (source : Source) (rule : Rule) (found : List Finding) (sites : List Site) :
    Prop :=
  ∃ message : Site → String,
    found = sites.map fun site => ⟨rule, source.line site.node, message site⟩

theorem reportsSites_methods (source : Source) (rule : Rule) (test : Method → Bool)
    (text : String) :
    ReportsSites source rule
      (((methodsWithBody source).filter test).map fun method =>
        method.finding source rule (text ++ method.name source))
      (reportedMethods source test) := by
  refine ⟨fun site => text ++ source.name site.node, ?_⟩
  rw [reportedMethods, List.map_map]
  rfl

/-- Each rule on bodies has its check among those of its category. -/
theorem part_of_onBodies (source : Source) {rule : Rule} (hr : rule ∈ Rule.onBodies) :
    ∃ found, ReportsSites source rule found (reportedFor source rule) ∧
      (rule.category = .bug ∧ (rule, found) ∈ Defect.parts source ∨
        rule.category = .performance ∧ (rule, found) ∈ Efficiency.parts source) := by
  simp only [Rule.onBodies, List.mem_cons, List.not_mem_nil, or_false] at hr
  rcases hr with rfl | rfl | rfl | rfl | rfl
  · exact ⟨Defect.infiniteLoops source, reportsSites_methods ..,
      Or.inl ⟨rfl, by simp [Defect.parts]⟩⟩
  · exact ⟨Defect.emptyCatches source, reportsSites_methods ..,
      Or.inl ⟨rfl, by simp [Defect.parts]⟩⟩
  · exact ⟨Efficiency.stringConcatenations source, reportsSites_methods ..,
      Or.inr ⟨rfl, by simp [Efficiency.parts]⟩⟩
  · exact ⟨Efficiency.boxings source, reportsSites_methods ..,
      Or.inr ⟨rfl, by simp [Efficiency.parts]⟩⟩
  · exact ⟨Efficiency.foreachRemovals source, ⟨_, rfl⟩,
      Or.inr ⟨rfl, by simp [Efficiency.parts]⟩⟩

end Reports

end Check

namespace Analyzer

open Check

/-- The issues of a rule on bodies stand for the sites that it is reported for, one for each. -/
theorem issues_of_reportedFor (path : Path) (source : Source) {rule : Rule}
    (hr : rule ∈ Rule.onBodies) :
    ∃ analyzer ∈ [bug, performance], analyzer.category = rule.category ∧
      ∃ issues, analyzer.run ⟨path, some source⟩ = .ok issues ∧
        ∃ message : Site → String,
          issues.filter (·.ruleId == rule.id) = (reportedFor source rule).map fun site =>
            Finding.issue ⟨rule, source.line site.node, message site⟩ ⟨path, some source⟩ := by
  obtain ⟨found, ⟨message, rfl⟩, ⟨hcategory, hpart⟩ | ⟨hcategory, hpart⟩⟩ :=
    part_of_onBodies source hr
  · obtain ⟨issues, hrun, hparts⟩ := defect_issues_of_rule path source
    refine ⟨bug, by simp, hcategory.symm, issues, hrun, message, ?_⟩
    rw [hparts _ hpart, List.map_map]
    rfl
  · obtain ⟨issues, hrun, hparts⟩ := efficiency_issues_of_rule path source
    refine ⟨performance, by simp, hcategory.symm, issues, hrun, message, ?_⟩
    rw [hparts _ hpart, List.map_map]
    rfl

/-- The issues of a rule on bodies stand for sites. If a site is among them, so is every site of the
searched kind whose body has a span around that of its body, whatever the bytes of the source
are. -/
theorem reports_pass_to_enclosing_bodies (path : Path) (source : Source) (rule : Rule)
    (hr : rule ∈ Rule.onBodies) :
    (∃ analyzer ∈ [bug, performance], analyzer.category = rule.category ∧
      ∃ issues, analyzer.run ⟨path, some source⟩ = .ok issues ∧
        ∃ message : Site → String,
          issues.filter (·.ruleId == rule.id) = (reportedFor source rule).map fun site =>
            Finding.issue ⟨rule, source.line site.node, message site⟩ ⟨path, some source⟩) ∧
    ∀ inner ∈ reportedFor source rule, ∀ outer ∈ source.root.sites .preorder,
      outer.node.kind = rule.searchedKind →
      ∀ body ∈ inner.node.child? "body", ∀ whole ∈ outer.node.child? "body",
        body.Inside whole → outer ∈ reportedFor source rule := by
  refine ⟨issues_of_reportedFor path source hr, ?_⟩
  intro inner h outer hs hk body hb whole hw hin
  exact reportedFor_of_inside hr h hs hk hb hw hin

/-- A method in the body of a method. The inner body starts within a character and ends within
another one. -/
theorem endless_loop_in_both_bodies :
    let body : Node := ⟨"block", true, false, 2, 15, some "body", []⟩
    let nested : Node := ⟨"method_declaration", true, false, 2, 15, none, [body]⟩
    let whole : Node := ⟨"block", true, false, 0, 17, some "body", [nested]⟩
    let root : Node := ⟨"method_declaration", true, false, 0, 17, none, [whole]⟩
    let source : Source := ⟨[123, 195] ++ [169, 119, 104, 105, 108, 101, 40, 116, 114, 117, 101, 41,
      226] ++ [130, 125], root⟩
    let inner : Site := ⟨nested, some whole, none, [0, 0]⟩
    let outer : Site := .ofRoot root
    Rule.infiniteLoop ∈ Rule.onBodies ∧ inner ∈ reportedFor source .infiniteLoop ∧
      outer.node.kind = Rule.infiniteLoop.searchedKind ∧ body.Inside whole ∧
      outer ∈ reportedFor source .infiniteLoop := by
  intro body nested whole root source inner outer
  have hr : Rule.infiniteLoop ∈ Rule.onBodies := List.mem_cons_self
  have hin : body.Inside whole := ⟨by decide, by decide⟩
  have hsites : source.root.sites .preorder =
      [outer, ⟨whole, some root, none, [0]⟩, inner, ⟨body, some nested, none, [0, 0, 0]⟩] := by cbv
  have hinner : inner ∈ reportedFor source .infiniteLoop := by
    refine List.mem_map.mpr ⟨⟨inner, body⟩, List.mem_filter.mpr ⟨?_, by decide +kernel⟩, rfl⟩
    refine mem_methodsWithBody.mpr ⟨List.mem_filter.mpr ⟨?_, by decide⟩, rfl⟩
    rw [hsites]
    simp
  obtain ⟨-, hpass⟩ :=
    reports_pass_to_enclosing_bodies ⟨.relative, ["A.java"]⟩ source .infiniteLoop hr
  refine ⟨hr, hinner, rfl, hin, hpass inner hinner outer ?_ rfl body rfl whole rfl hin⟩
  rw [hsites]
  exact List.mem_cons_self

end Analyzer

end JavaLint
