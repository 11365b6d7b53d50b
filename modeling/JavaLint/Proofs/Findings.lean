import JavaLint.Analyzer
import JavaLint.Proofs.Outcome
import JavaLint.Rule.Registry
import Mathlib.Data.Option.Basic
import Mathlib.Logic.IsEmpty.Defs

/-! What every check reports. Each check names its own rule, the line of a node of the source, and
says something; so every issue of an analyzer has the category of the analyzer, a registered rule of
that category, a line of the source, and the file it was found in. -/
namespace JavaLint

/-- A finding of one of some rules, at the line of a node, with something to say. -/
structure Finding.Reports (source : Source) (rules : List Rule) (finding : Finding) : Prop where
  rule_mem : finding.rule ∈ rules
  line_eq : ∃ node, finding.line = source.line node
  message_ne : finding.message ≠ ""

def AllReport (source : Source) (rules : List Rule) (findings : List Finding) : Prop :=
  ∀ finding ∈ findings, finding.Reports source rules

namespace Check

variable {α : Type} {source : Source} {rules : List Rule} {rule : Rule}

theorem reports_findingAt {node : Node} {message : String} (hr : rule ∈ rules)
    (hm : message ≠ "") : (findingAt source node rule message).Reports source rules :=
  ⟨hr, ⟨node, rfl⟩, hm⟩

theorem reports_method {method : Method} {message : String} (hr : rule ∈ rules)
    (hm : message ≠ "") : (method.finding source rule message).Reports source rules :=
  ⟨hr, ⟨method.site.node, rfl⟩, hm⟩

theorem allReport_append {more : List Rule} {first second : List Finding}
    (h : AllReport source rules first) (k : AllReport source more second) :
    AllReport source (rules ++ more) (first ++ second) := by
  intro finding hmem
  rcases List.mem_append.mp hmem with hmem | hmem
  · obtain ⟨hr, hl, hm⟩ := h finding hmem
    exact ⟨List.mem_append_left _ hr, hl, hm⟩
  · obtain ⟨hr, hl, hm⟩ := k finding hmem
    exact ⟨List.mem_append_right _ hr, hl, hm⟩

theorem rule_eq_of_allReport {findings : List Finding} (h : AllReport source [rule] findings) :
    ∀ finding ∈ findings, finding.rule = rule := by
  intro finding hmem
  exact List.mem_singleton.mp (h finding hmem).rule_mem

/-- The form of most checks: one finding for each thing that a test lets through. -/
theorem allReport_map {items : List α} {check : α → Finding}
    (h : ∀ item, (check item).Reports source rules) :
    AllReport source rules (items.map check) := by
  intro finding hmem
  obtain ⟨item, -, rfl⟩ := List.mem_map.mp hmem
  exact h item

theorem allReport_filterMap {items : List α} {check : α → Option Finding}
    (h : ∀ item finding, check item = some finding → finding.Reports source rules) :
    AllReport source rules (items.filterMap check) := by
  intro finding hmem
  obtain ⟨item, -, hitem⟩ := List.mem_filterMap.mp hmem
  exact h item finding hitem

theorem allReport_flatMap {items : List α} {check : α → List Finding}
    (h : ∀ item, AllReport source rules (check item)) :
    AllReport source rules (items.flatMap check) := by
  intro finding hmem
  obtain ⟨item, -, hitem⟩ := List.mem_flatMap.mp hmem
  exact h item finding hitem

namespace Defect

theorem nullDereferences_report (source : Source) :
    AllReport source [.nullDereference] (nullDereferences source) :=
  allReport_map fun _ => reports_method (by simp) (by simp)

theorem infiniteLoops_report (source : Source) :
    AllReport source [.infiniteLoop] (infiniteLoops source) :=
  allReport_map fun _ => reports_method (by simp) (by simp)

theorem emptyCatches_report (source : Source) :
    AllReport source [.emptyCatch] (emptyCatches source) :=
  allReport_map fun _ => reports_method (by simp) (by simp)

theorem referenceEqualities_report (source : Source) :
    AllReport source [.referenceEquality] (referenceEqualities source) :=
  allReport_map fun _ => reports_findingAt (by simp) (by simp)

theorem findings_report (source : Source) :
    AllReport source [.nullDereference, .infiniteLoop, .emptyCatch, .referenceEquality]
      (findings source) :=
  allReport_append (allReport_append (allReport_append (nullDereferences_report source)
    (infiniteLoops_report source)) (emptyCatches_report source)) (referenceEqualities_report source)

def parts (source : Source) : List (Rule × List Finding) :=
  [(.nullDereference, nullDereferences source), (.infiniteLoop, infiniteLoops source),
   (.emptyCatch, emptyCatches source), (.referenceEquality, referenceEqualities source)]

theorem findings_eq_parts (source : Source) : findings source = (parts source).flatMap (·.2) := by
  simp [findings, parts]

theorem rule_of_mem_parts (source : Source) :
    ∀ part ∈ parts source, ∀ finding ∈ part.2, finding.rule = part.1 := by
  simp only [parts, List.forall_mem_cons]
  exact ⟨rule_eq_of_allReport (nullDereferences_report source),
    rule_eq_of_allReport (infiniteLoops_report source),
    rule_eq_of_allReport (emptyCatches_report source),
    rule_eq_of_allReport (referenceEqualities_report source), by simp⟩

end Defect

namespace Efficiency

theorem stringConcatenations_report (source : Source) :
    AllReport source [.stringConcatInLoop] (stringConcatenations source) :=
  allReport_map fun _ => reports_method (by simp) (by simp)

theorem sizeCalls_report (source : Source) :
    AllReport source [.sizeCallInLoop] (sizeCalls source) :=
  allReport_map fun _ => reports_findingAt (by simp) (by simp)

theorem foreachRemovals_report (source : Source) :
    AllReport source [.removeInForeach] (foreachRemovals source) :=
  allReport_map fun _ => reports_findingAt (by simp) (by simp)

theorem unsizedLists_report (source : Source) :
    AllReport source [.listCapacity] (unsizedLists source) :=
  allReport_flatMap fun _ => allReport_map fun _ => reports_findingAt (by simp) (by simp)

theorem boxings_report (source : Source) : AllReport source [.boxingInLoop] (boxings source) :=
  allReport_map fun _ => reports_method (by simp) (by simp)

theorem findings_report (source : Source) :
    AllReport source
      [.stringConcatInLoop, .sizeCallInLoop, .removeInForeach, .listCapacity, .boxingInLoop]
      (findings source) :=
  allReport_append (allReport_append (allReport_append (allReport_append
    (stringConcatenations_report source) (sizeCalls_report source))
    (foreachRemovals_report source)) (unsizedLists_report source)) (boxings_report source)

def parts (source : Source) : List (Rule × List Finding) :=
  [(.stringConcatInLoop, stringConcatenations source), (.sizeCallInLoop, sizeCalls source),
   (.removeInForeach, foreachRemovals source), (.listCapacity, unsizedLists source),
   (.boxingInLoop, boxings source)]

theorem findings_eq_parts (source : Source) : findings source = (parts source).flatMap (·.2) := by
  simp [findings, parts]

theorem rule_of_mem_parts (source : Source) :
    ∀ part ∈ parts source, ∀ finding ∈ part.2, finding.rule = part.1 := by
  simp only [parts, List.forall_mem_cons]
  exact ⟨rule_eq_of_allReport (stringConcatenations_report source),
    rule_eq_of_allReport (sizeCalls_report source),
    rule_eq_of_allReport (foreachRemovals_report source),
    rule_eq_of_allReport (unsizedLists_report source),
    rule_eq_of_allReport (boxings_report source), by simp⟩

end Efficiency

namespace Convention

theorem classNames_report (source : Source) : AllReport source [.className] (classNames source) :=
  allReport_map fun _ => reports_findingAt (by simp) (by simp)

theorem methodNames_report (source : Source) :
    AllReport source [.methodName] (methodNames source) :=
  allReport_map fun _ => reports_findingAt (by simp) (by simp)

theorem variableName?_reports {field : Node} {name : String} {finding : Finding}
    (h : variableName? source field name = some finding) :
    finding.Reports source [.fieldName, .constantName] := by
  unfold variableName? at h
  split at h
  · split at h
    · cases h
    · cases h
      exact reports_findingAt (by simp) (by simp)
  · split at h
    · cases h
    · cases h
      exact reports_findingAt (by simp) (by simp)

/-- One check for two rules: the modifiers of a field decide which of them its names break. -/
theorem fieldNames_report (source : Source) :
    AllReport source [.fieldName, .constantName] (fieldNames source) :=
  allReport_flatMap fun _ => allReport_filterMap fun _ _ h => variableName?_reports h

theorem undocumentedClasses_report (source : Source) :
    AllReport source [.classJavadoc] (undocumentedClasses source) :=
  allReport_map fun _ => reports_findingAt (by simp) (by simp)

theorem undocumentedMethods_report (source : Source) :
    AllReport source [.methodJavadoc] (undocumentedMethods source) :=
  allReport_map fun _ => reports_findingAt (by simp) (by simp)

theorem longMethods_report (maxLines : Int) (source : Source) :
    AllReport source [.longMethod] (longMethods maxLines source) :=
  allReport_map fun _ => reports_method (by simp) (by simp)

theorem magicNumbers_report (source : Source) :
    AllReport source [.magicNumber] (magicNumbers source) :=
  allReport_map fun _ => reports_findingAt (by simp) (by simp)

theorem findings_report (maxLines : Int) (source : Source) :
    AllReport source
      [.className, .methodName, .fieldName, .constantName, .classJavadoc, .methodJavadoc,
       .longMethod, .magicNumber]
      (findings maxLines source) :=
  allReport_append (allReport_append (allReport_append (allReport_append (allReport_append
    (allReport_append (classNames_report source) (methodNames_report source))
    (fieldNames_report source)) (undocumentedClasses_report source))
    (undocumentedMethods_report source)) (longMethods_report maxLines source))
    (magicNumbers_report source)

end Convention

namespace Security

theorem sqlInjection?_reports {site : Site} {finding : Finding}
    (h : sqlInjection? source site = .ok (some finding)) :
    finding.Reports source [.sqlInjection] := by
  obtain ⟨leaves, -, h⟩ := bind_eq_ok.mp h
  split at h
  · cases h
    exact reports_findingAt (by simp) (by simp)
  · cases h

theorem sqlInjections_report {found : List Finding} (h : sqlInjections source = .ok found) :
    AllReport source [.sqlInjection] found := by
  obtain ⟨results, hr, h⟩ := bind_eq_ok.mp h
  cases h
  intro finding hmem
  obtain ⟨result, hresult, hf⟩ := List.mem_filterMap.mp hmem
  obtain ⟨i, hi, rfl⟩ := List.getElem_of_mem hresult
  have hall := mapM_eq_ok_iff.mp hr
  have hsite := hall.get (by rw [hall.length_eq]; exact hi) hi
  exact sqlInjection?_reports (hsite.trans (congrArg _ hf))

theorem commandInjection?_reports {site : Site} {finding : Finding}
    (h : commandInjection? source site = some finding) :
    finding.Reports source [.commandInjection] := by
  obtain ⟨target, -, h⟩ := Option.bind_eq_some_iff.mp h
  split at h
  · cases h
  · cases h
    exact reports_findingAt (by simp) (by simp)

theorem commandInjections_report (source : Source) :
    AllReport source [.commandInjection] (commandInjections source) :=
  allReport_filterMap fun _ _ h => commandInjection?_reports h

theorem crossSiteScriptings_report (source : Source) :
    AllReport source [.crossSiteScripting] (crossSiteScriptings source) :=
  allReport_map fun _ => reports_findingAt (by simp) (by simp)

theorem pathTraversals_report (source : Source) :
    AllReport source [.pathTraversal] (pathTraversals source) :=
  allReport_map fun _ => reports_findingAt (by simp) (by simp)

theorem hardcodedSecrets_report (source : Source) :
    AllReport source [.hardcodedSecret] (hardcodedSecrets source) :=
  allReport_map fun _ => reports_findingAt (by simp) (by simp)

theorem weakCrypto?_reports {site : Site} {finding : Finding}
    (h : weakCrypto? source site = some finding) : finding.Reports source [.weakCrypto] := by
  obtain ⟨-, -, h⟩ := Option.bind_eq_some_iff.mp h
  obtain ⟨first, -, h⟩ := Option.bind_eq_some_iff.mp h
  obtain ⟨algorithm, -, h⟩ := Option.bind_eq_some_iff.mp h
  obtain ⟨-, -, h⟩ := Option.bind_eq_some_iff.mp h
  cases h
  exact reports_findingAt (by simp) (by simp)

theorem weakCryptos_report (source : Source) :
    AllReport source [.weakCrypto] (weakCryptos source) :=
  allReport_filterMap fun _ _ h => weakCrypto?_reports h

theorem insecureRandoms_report (source : Source) :
    AllReport source [.insecureRandom] (insecureRandoms source) :=
  allReport_map fun _ => reports_findingAt (by simp) (by simp)

theorem unsafeDeserializations_report (source : Source) :
    AllReport source [.unsafeDeserialization] (unsafeDeserializations source) :=
  allReport_map fun _ => reports_findingAt (by simp) (by simp)

theorem findings_report {found : List Finding} (h : findings source = .ok found) :
    AllReport source
      [.sqlInjection, .commandInjection, .crossSiteScripting, .pathTraversal, .hardcodedSecret,
       .weakCrypto, .insecureRandom, .unsafeDeserialization]
      found := by
  obtain ⟨injections, hi, h⟩ := bind_eq_ok.mp h
  cases h
  exact allReport_append (allReport_append (allReport_append (allReport_append (allReport_append
    (allReport_append (allReport_append (sqlInjections_report hi) (commandInjections_report source))
    (crossSiteScriptings_report source)) (pathTraversals_report source))
    (hardcodedSecrets_report source)) (weakCryptos_report source)) (insecureRandoms_report source))
    (unsafeDeserializations_report source)

/-- What each check finds, beside its rule; the check of chains may give up and is done before. -/
def parts (source : Source) (injections : List Finding) : List (Rule × List Finding) :=
  [(.sqlInjection, injections), (.commandInjection, commandInjections source),
   (.crossSiteScripting, crossSiteScriptings source), (.pathTraversal, pathTraversals source),
   (.hardcodedSecret, hardcodedSecrets source), (.weakCrypto, weakCryptos source),
   (.insecureRandom, insecureRandoms source),
   (.unsafeDeserialization, unsafeDeserializations source)]

theorem findings_eq_ok_iff {found : List Finding} :
    findings source = .ok found ↔
      ∃ injections, sqlInjections source = .ok injections ∧
        found = (parts source injections).flatMap (·.2) := by
  constructor
  · intro h
    obtain ⟨injections, hi, h⟩ := bind_eq_ok.mp h
    cases h
    exact ⟨injections, hi, by simp [parts]⟩
  · rintro ⟨injections, hi, rfl⟩
    exact bind_eq_ok.mpr ⟨injections, hi, by simp [parts, pure, Except.pure]⟩

theorem rule_of_mem_parts {injections : List Finding} (h : sqlInjections source = .ok injections) :
    ∀ part ∈ parts source injections, ∀ finding ∈ part.2, finding.rule = part.1 := by
  simp only [parts, List.forall_mem_cons]
  exact ⟨rule_eq_of_allReport (sqlInjections_report h),
    rule_eq_of_allReport (commandInjections_report source),
    rule_eq_of_allReport (crossSiteScriptings_report source),
    rule_eq_of_allReport (pathTraversals_report source),
    rule_eq_of_allReport (hardcodedSecrets_report source),
    rule_eq_of_allReport (weakCryptos_report source),
    rule_eq_of_allReport (insecureRandoms_report source),
    rule_eq_of_allReport (unsafeDeserializations_report source), by simp⟩

end Security

/-- The findings of a rule are those of its part, if the parts are of different rules. -/
theorem filter_flatMap_parts {parts : List (Rule × List Finding)} (hn : (parts.map (·.1)).Nodup)
    (hall : ∀ part ∈ parts, ∀ finding ∈ part.2, finding.rule = part.1)
    {part : Rule × List Finding} (hp : part ∈ parts) :
    (parts.flatMap (·.2)).filter (·.rule == part.1) = part.2 := by
  have hown : ∀ {list : List Finding}, (∀ finding ∈ list, finding.rule = part.1) →
      list.filter (·.rule == part.1) = list := by
    intro list hlist
    rw [List.filter_eq_self]
    intro finding hmem
    exact beq_iff_eq.mpr (hlist finding hmem)
  have hother : ∀ {list : List Finding}, (∀ finding ∈ list, finding.rule ≠ part.1) →
      list.filter (·.rule == part.1) = [] := by
    intro list hlist
    rw [List.filter_eq_nil_iff]
    intro finding hmem hrule
    exact hlist finding hmem (beq_iff_eq.mp hrule)
  induction parts with
  | nil => cases hp
  | cons first rest ih =>
    rw [List.map_cons, List.nodup_cons] at hn
    rw [List.forall_mem_cons] at hall
    rw [List.flatMap_cons, List.filter_append]
    rcases List.mem_cons.mp hp with rfl | hp
    · rw [hown hall.1, hother, List.append_nil]
      intro finding hmem hrule
      obtain ⟨other, ho, hmem⟩ := List.mem_flatMap.mp hmem
      apply hn.1
      rw [← hrule, hall.2 other ho finding hmem]
      exact List.mem_map_of_mem ho
    · rw [ih hn.2 hall.2 hp, hother, List.nil_append]
      intro finding hmem hrule
      apply hn.1
      rw [← hall.1 finding hmem, hrule]
      exact List.mem_map_of_mem hp

end Check

def Rule.ofCategory (category : Category) : List Rule := Rule.all.filter (·.category == category)

def Category.family : Category → String
  | .bug => "BUG"
  | .vulnerability => "VUL"
  | .performance => "PERF"
  | .style => "STY"

theorem Rule.mem_all (rule : Rule) : rule ∈ Rule.all := by
  cases rule <;> decide

/-- An identifier names one rule. -/
theorem Rule.find?_id (rule : Rule) : Rule.all.find? (·.id == rule.id) = some rule := by
  cases rule <;> decide

theorem Rule.id_injective : Function.Injective Rule.id := by
  intro rule other h
  apply Option.some_injective
  rw [← rule.find?_id, ← other.find?_id, h]

theorem Rule.id_mem_registry (rule : Rule) : rule.id ∈ Rule.registry.all := by
  unfold registry sortTexts
  rw [List.mem_mergeSort]
  exact List.mem_map_of_mem rule.mem_all

theorem Rule.family_of_id (rule : Rule) :
    rule.id.toList.takeWhile (· != '_') = rule.category.family.toList := by
  cases rule <;> decide

theorem Source.line_pos (source : Source) (node : Node) : 1 ≤ source.line node :=
  Nat.le_add_left ..

/-- No node starts behind the last line, wherever its offset lies. -/
theorem Source.line_le (source : Source) (node : Node) :
    source.line node ≤ 1 + source.bytes.count lineFeed := by
  have hc : rowAt source.bytes node.start ≤ source.bytes.count lineFeed :=
    (List.take_sublist _ _).count_le _
  unfold line
  omega

theorem Finding.Reports.category_eq {source : Source} {category : Category} {finding : Finding}
    (h : finding.Reports source (Rule.ofCategory category)) : finding.rule.category = category := by
  simpa using (List.mem_filter.mp h.rule_mem).2

theorem Finding.Reports.one_le_line {source : Source} {rules : List Rule} {finding : Finding}
    (h : finding.Reports source rules) : 1 ≤ finding.line := by
  obtain ⟨node, hline⟩ := h.line_eq
  rw [hline]
  exact source.line_pos node

theorem Finding.Reports.line_le {source : Source} {rules : List Rule} {finding : Finding}
    (h : finding.Reports source rules) : finding.line ≤ 1 + source.bytes.count lineFeed := by
  obtain ⟨node, hline⟩ := h.line_eq
  rw [hline]
  exact source.line_le node

namespace Analyzer

theorem run_ofCheck {category : Category} {check : Source → Except Fault (List Finding)}
    {unit : SourceUnit} {source : Source} {issues : List Issue} (hs : unit.source = some source)
    (h : (ofCheck category check).run unit = .ok issues) :
    ∃ found, check source = .ok found ∧ issues = found.map (·.issue unit) := by
  simp only [ofCheck, hs] at h
  obtain ⟨found, hf, rfl⟩ := map_eq_ok.mp h
  exact ⟨found, hf, rfl⟩

/-- Of the issues that findings of different rules become, those of a rule are its own. -/
theorem issues_of_part {parts : List (Rule × List Finding)} (hn : (parts.map (·.1)).Nodup)
    (hall : ∀ part ∈ parts, ∀ finding ∈ part.2, finding.rule = part.1) (unit : SourceUnit) :
    ∀ part ∈ parts, ((parts.flatMap (·.2)).map (·.issue unit)).filter (·.ruleId == part.1.id) =
      part.2.map (·.issue unit) := by
  intro part hp
  have hrule : (fun issue : Issue => issue.ruleId == part.1.id) ∘ (Finding.issue · unit) =
      (·.rule == part.1) :=
    funext fun _ => Rule.id_injective.beq_eq
  rw [List.filter_map, hrule, Check.filter_flatMap_parts hn hall hp]

theorem defect_issues_of_rule (path : Path) (source : Source) :
    ∃ issues, bug.run ⟨path, some source⟩ = .ok issues ∧
      ∀ part ∈ Check.Defect.parts source,
        issues.filter (·.ruleId == part.1.id) = part.2.map (·.issue ⟨path, some source⟩) := by
  refine ⟨_, rfl, ?_⟩
  rw [Check.Defect.findings_eq_parts]
  exact issues_of_part (by simp [Check.Defect.parts]) (Check.Defect.rule_of_mem_parts source) _

theorem efficiency_issues_of_rule (path : Path) (source : Source) :
    ∃ issues, performance.run ⟨path, some source⟩ = .ok issues ∧
      ∀ part ∈ Check.Efficiency.parts source,
        issues.filter (·.ruleId == part.1.id) = part.2.map (·.issue ⟨path, some source⟩) := by
  refine ⟨_, rfl, ?_⟩
  rw [Check.Efficiency.findings_eq_parts]
  exact issues_of_part (by simp [Check.Efficiency.parts])
    (Check.Efficiency.rule_of_mem_parts source) _

/-- Of the issues on security, those of a rule are what the check of the rule finds. -/
theorem security_issues_of_rule {unit : SourceUnit} {source : Source} {issues : List Issue}
    (hs : unit.source = some source) (h : vulnerability.run unit = .ok issues) :
    ∃ injections, Check.Security.sqlInjections source = .ok injections ∧
      ∀ part ∈ Check.Security.parts source injections,
        issues.filter (·.ruleId == part.1.id) = part.2.map (·.issue unit) := by
  obtain ⟨found, hf, rfl⟩ := run_ofCheck hs h
  obtain ⟨injections, hi, rfl⟩ := Check.Security.findings_eq_ok_iff.mp hf
  exact ⟨injections, hi, issues_of_part (by simp [Check.Security.parts])
    (Check.Security.rule_of_mem_parts hi) unit⟩

/-- The issues of each analyzer are findings of the rules of its category. -/
theorem found_of_run {maxLines : Int} {analyzer : Analyzer} (ha : analyzer ∈ defaults maxLines)
    {unit : SourceUnit} {source : Source} {issues : List Issue} (hs : unit.source = some source)
    (h : analyzer.run unit = .ok issues) :
    ∃ found, AllReport source (Rule.ofCategory analyzer.category) found ∧
      issues = found.map (·.issue unit) := by
  simp only [defaults, List.mem_cons, List.not_mem_nil, or_false] at ha
  rcases ha with rfl | rfl | rfl | rfl
  · obtain ⟨found, hf, rfl⟩ := run_ofCheck hs h
    cases hf
    exact ⟨_, Check.Defect.findings_report source, rfl⟩
  · obtain ⟨found, hf, rfl⟩ := run_ofCheck hs h
    exact ⟨_, Check.Security.findings_report hf, rfl⟩
  · obtain ⟨found, hf, rfl⟩ := run_ofCheck hs h
    cases hf
    exact ⟨_, Check.Efficiency.findings_report source, rfl⟩
  · obtain ⟨found, hf, rfl⟩ := run_ofCheck hs h
    cases hf
    exact ⟨_, Check.Convention.findings_report maxLines source, rfl⟩

/-- Every issue that an analyzer returns for a parsed unit is of its category and of a registered
rule of that category, lies on a line of the source, names the file of the unit, and says
something. -/
theorem issues_well_formed (maxLines : Int) (analyzer : Analyzer)
    (ha : analyzer ∈ defaults maxLines) (unit : SourceUnit) (source : Source)
    (hs : unit.source = some source) (issues : List Issue) (h : analyzer.run unit = .ok issues) :
    ∀ issue ∈ issues,
      issue.category = analyzer.category ∧
      issue.ruleId ∈ Rule.registry.all ∧
      issue.ruleId.toList.takeWhile (· != '_') = analyzer.category.family.toList ∧
      1 ≤ issue.line ∧ issue.line ≤ 1 + source.bytes.count lineFeed ∧
      issue.fileName = unit.path.name ∧ issue.path = unit.path.text ∧
      issue.message ≠ "" := by
  obtain ⟨found, hall, rfl⟩ := found_of_run ha hs h
  intro issue hmem
  obtain ⟨finding, hf, rfl⟩ := List.mem_map.mp hmem
  have hr := hall finding hf
  have hhigh := hr.line_le
  refine ⟨hr.category_eq, finding.rule.id_mem_registry, ?_, ?_, ?_, rfl, rfl, hr.message_ne⟩
  · rw [← hr.category_eq]
    exact finding.rule.family_of_id
  · exact Int.ofNat_le.mpr hr.one_le_line
  · change (finding.line : Int) ≤ _
    omega

/-- A class on the second line of a file, named in lower case. -/
theorem issue_of_lower_case_class :
    let name : Node := ⟨"identifier", true, false, 7, 10, some "name", []⟩
    let declaration : Node := ⟨"class_declaration", true, false, 1, 13, none, [name]⟩
    let source : Source := ⟨[10, 99, 108, 97, 115, 115, 32, 102, 111, 111, 32, 123, 125],
      ⟨"program", true, false, 1, 13, none, [declaration]⟩⟩
    let unit : SourceUnit := ⟨⟨.relative, ["src", "Foo.java"]⟩, some source⟩
    let issue : Issue := ⟨"Foo.java", 2,
      "Class name 'foo' does not follow the PascalCase naming convention", .style, .low,
      "STY_CLASS_NAME_001", "src/Foo.java"⟩
    style 30 ∈ defaults 30 ∧ unit.source = some source ∧
      ∃ issues, (style 30).run unit = .ok issues ∧ issue ∈ issues ∧
        issue.category = (style 30).category ∧
        issue.ruleId ∈ Rule.registry.all ∧
        issue.ruleId.toList.takeWhile (· != '_') = (style 30).category.family.toList ∧
        1 ≤ issue.line ∧ issue.line ≤ 1 + source.bytes.count lineFeed ∧
        issue.fileName = unit.path.name ∧ issue.path = unit.path.text ∧
        issue.message ≠ "" := by
  intro name declaration source unit issue
  have hdefault : style 30 ∈ defaults 30 := by simp [defaults]
  have hrun : (style 30).run unit = .ok
      [issue, ⟨"Foo.java", 2, "Class 'foo' is missing Javadoc comment", .style, .low,
        "STY_CLASS_JAVADOC_001", "src/Foo.java"⟩] := by decide +kernel
  exact ⟨hdefault, rfl, _, hrun, by simp,
    issues_well_formed 30 (style 30) hdefault unit source rfl _ hrun issue (by simp)⟩

end Analyzer

end JavaLint
