import JavaLint.Proofs.DirectoryAnalysis

/-! The order of the issues of a directory. Nothing sorts them: a file is done before the next one
is begun, and within a file each pass runs to its end before the next one starts. So the issues
stand in the order of their files, and those of one file in the order of the passes. -/
namespace JavaLint

theorem Text.splitAt_eq_splitOn (separator : Char) (text : List Char) :
    Text.splitAt separator text = text.splitOn separator := by
  induction text with
  | nil => rfl
  | cons c rest ih =>
    rw [Text.splitAt, ih, List.splitOn, List.splitOn, List.splitOnP_cons_eq_if_modifyHead]
    cases hs : rest.splitOnP (· == separator) with
    | nil => exact (List.splitOnP_ne_nil _ _ hs).elim
    | cons piece pieces => rfl

theorem FileSystem.IsStep.ne_dot {component : String} (h : IsStep component) :
    component ≠ "." := by
  rcases h with rfl | h
  · decide
  · rintro rfl
    exact absurd h (by decide)

namespace Path

variable {path : Path}

theorem text_toList (hp : path.parts ≠ []) :
    path.text.toList = (anchorText path.anchor).toList ++
      ['/'].intercalate (path.parts.map String.toList) := by
  have hh : path ≠ here := fun h => hp (congrArg parts h)
  unfold text
  rw [if_neg hh]
  simp

theorem anchorOf_anchorText (anchor : Anchor) {c : Char} (hc : c ≠ '/') (rest : List Char) :
    anchorOf ((anchorText anchor).toList ++ c :: rest) = anchor := by
  cases anchor with
  | relative => simp [anchorOf, anchorText, hc]
  | root => simp [anchorOf, anchorText, hc]
  | doubleRoot => simp [anchorOf, anchorText, hc]

theorem components_slash (text : List Char) : components ('/' :: text) = components text := by
  simp [components, Text.splitAt_eq_splitOn, List.splitOn, List.splitOnP_cons_eq_if_modifyHead]

theorem components_anchorText (anchor : Anchor) (text : List Char) :
    components ((anchorText anchor).toList ++ text) = components text := by
  cases anchor with
  | relative => rfl
  | root => exact components_slash text
  | doubleRoot => exact (components_slash _).trans (components_slash text)

theorem anchorOf_text (hp : path.parts ≠ [])
    (hs : ∀ part ∈ path.parts, FileSystem.IsStep part) :
    anchorOf path.text.toList = path.anchor := by
  rw [text_toList hp]
  cases hparts : path.parts with
  | nil => exact (hp hparts).elim
  | cons first rest =>
    have hstep := hs first (by simp [hparts])
    cases hf : first.toList with
    | nil => exact (hstep.ne_empty (String.toList_inj.mp hf)).elim
    | cons c more =>
      have hc : c ≠ '/' := fun h => hstep.slash_not_mem (by simp [hf, h])
      cases rest with
      | nil => simp [hf, anchorOf_anchorText _ hc]
      | cons second rest => simp [hf, anchorOf_anchorText _ hc, List.intercalate_cons_cons]

/-- The text of a path that leads somewhere is read as that path. -/
theorem parse_text (hp : path.parts ≠ [])
    (hs : ∀ part ∈ path.parts, FileSystem.IsStep part) : Path.parse path.text = path := by
  have hsplit : Text.splitAt '/' (['/'].intercalate (path.parts.map String.toList)) =
      path.parts.map String.toList := by
    rw [Text.splitAt_eq_splitOn]
    refine List.splitOn_intercalate _ ?_ (by simpa using hp)
    intro piece hmem
    obtain ⟨part, hpart, rfl⟩ := List.mem_map.mp hmem
    exact (hs part hpart).slash_not_mem
  have hkept : ∀ piece ∈ path.parts.map String.toList, (piece != [] && piece != ['.']) = true := by
    intro piece hmem
    obtain ⟨part, hpart, rfl⟩ := List.mem_map.mp hmem
    have hne : part.toList ≠ [] := fun h => (hs part hpart).ne_empty (String.toList_inj.mp h)
    have hdot : part.toList ≠ ['.'] := fun h => (hs part hpart).ne_dot (String.toList_inj.mp h)
    simp [hne, hdot]
  have hparts : components path.text.toList = path.parts := by
    rw [text_toList hp, components_anchorText, components, hsplit, List.filter_eq_self.mpr hkept,
      List.map_map]
    simp
  unfold parse
  rw [anchorOf_text hp hs, hparts]

end Path

/-- The rules in the order in which a file is checked against them. The names of fields and those of
constants are checked in one pass. -/
def Rule.passes : List (List Rule) :=
  [[.nullDereference], [.infiniteLoop], [.emptyCatch], [.referenceEquality],
   [.sqlInjection], [.commandInjection], [.crossSiteScripting], [.pathTraversal],
   [.hardcodedSecret], [.weakCrypto], [.insecureRandom], [.unsafeDeserialization],
   [.stringConcatInLoop], [.sizeCallInLoop], [.removeInForeach], [.listCapacity], [.boxingInLoop],
   [.className], [.methodName], [.fieldName, .constantName], [.classJavadoc], [.methodJavadoc],
   [.longMethod], [.magicNumber]]

def Rule.position (rule : Rule) : Nat := Rule.passes.findIdx (·.contains rule)

/-- The position of the rule that an issue names, behind all others if there is no such rule. -/
def Issue.rulePosition (issue : Issue) : Nat :=
  Rule.passes.findIdx (·.any (·.id == issue.ruleId))

def Issue.route (root : Path) (issue : Issue) : List String :=
  (Path.parse issue.path).parts.drop root.parts.length

def Category.position (category : Category) : Nat := Category.all.idxOf category

def Issue.Precedes (root : Path) (a b : Issue) : Prop :=
  a.route root < b.route root ∨ (a.route root = b.route root ∧ a.rulePosition ≤ b.rulePosition)

instance (root : Path) (a b : Issue) : Decidable (a.Precedes root b) :=
  inferInstanceAs (Decidable (_ ∨ _ ∧ _))

theorem Rule.findIdx_id (rule : Rule) :
    Rule.passes.findIdx (·.any (·.id == rule.id)) = rule.position := by
  cases rule <;> decide

theorem Finding.rulePosition_issue (finding : Finding) (unit : SourceUnit) :
    (finding.issue unit).rulePosition = finding.rule.position :=
  finding.rule.findIdx_id

def Category.finishedAt (position : Nat) : Nat := [4, 12, 17].countP (· ≤ position)

theorem Rule.category_position (rule : Rule) :
    rule.category.position = Category.finishedAt rule.position := by
  cases rule <;> decide

theorem Category.finishedAt_mono {a b : Nat} (h : a ≤ b) :
    Category.finishedAt a ≤ Category.finishedAt b := by
  apply List.countP_mono_left
  intro first _ ha
  simp only [decide_eq_true_eq] at ha ⊢
  omega

/-- What the passes from `low` up to `high` leave behind: nothing of another pass, and nothing
before what an earlier pass has found. -/
structure InPasses {α : Type} (position : α → Nat) (low high : Nat) (items : List α) : Prop where
  le : low ≤ high
  low_le : ∀ item ∈ items, low ≤ position item
  lt_high : ∀ item ∈ items, position item < high
  ordered : items.Pairwise fun a b => position a ≤ position b

namespace InPasses

variable {α β : Type} {position : α → Nat} {low middle high : Nat}

theorem nil (h : low ≤ high) : InPasses position low high [] :=
  ⟨h, by simp, by simp, List.Pairwise.nil⟩

theorem append {first second : List α} (h : InPasses position low middle first)
    (k : InPasses position middle high second) : InPasses position low high (first ++ second) := by
  have hlow := h.le
  have hhigh := k.le
  refine ⟨by omega, ?_, ?_, ?_⟩
  · intro item hmem
    rcases List.mem_append.mp hmem with hmem | hmem
    · exact h.low_le item hmem
    · have := k.low_le item hmem
      omega
  · intro item hmem
    rcases List.mem_append.mp hmem with hmem | hmem
    · have := h.lt_high item hmem
      omega
    · exact k.lt_high item hmem
  · refine List.pairwise_append.mpr ⟨h.ordered, k.ordered, ?_⟩
    intro a ha b hb
    have := h.lt_high a ha
    have := k.low_le b hb
    omega

theorem map {other : β → Nat} {f : α → β} {items : List α}
    (hf : ∀ item, other (f item) = position item) (h : InPasses position low high items) :
    InPasses other low high (items.map f) := by
  refine ⟨h.le, ?_, ?_, ?_⟩
  · intro item hmem
    obtain ⟨original, ho, rfl⟩ := List.mem_map.mp hmem
    rw [hf]
    exact h.low_le original ho
  · intro item hmem
    obtain ⟨original, ho, rfl⟩ := List.mem_map.mp hmem
    rw [hf]
    exact h.lt_high original ho
  · rw [List.pairwise_map]
    exact h.ordered.imp fun {a b} hab => by rw [hf, hf]; exact hab

end InPasses

namespace Check

/-- The findings of a check that reports the rules of one pass only. -/
theorem inPasses_of_report {source : Source} {rules : List Rule} {found : List Finding}
    {position : Nat} (hr : ∀ rule ∈ rules, rule.position = position)
    (h : AllReport source rules found) :
    InPasses (·.rule.position) position (position + 1) found := by
  have hall : ∀ finding ∈ found, finding.rule.position = position :=
    fun finding hmem => hr _ (h finding hmem).rule_mem
  refine ⟨Nat.le_succ _, ?_, ?_, ?_⟩
  · intro finding hmem
    exact (hall finding hmem).ge
  · intro finding hmem
    exact Nat.lt_succ_of_le (hall finding hmem).le
  · apply List.pairwise_of_forall_mem_list
    intro a ha b hb
    rw [hall a ha, hall b hb]

theorem Defect.findings_inPasses (source : Source) :
    InPasses (·.rule.position) 0 4 (Defect.findings source) :=
  (((inPasses_of_report (by decide) (Defect.nullDereferences_report source)).append
    (inPasses_of_report (by decide) (Defect.infiniteLoops_report source))).append
    (inPasses_of_report (by decide) (Defect.emptyCatches_report source))).append
    (inPasses_of_report (by decide) (Defect.referenceEqualities_report source))

theorem Security.findings_inPasses {source : Source} {found : List Finding}
    (h : Security.findings source = .ok found) : InPasses (·.rule.position) 4 12 found := by
  obtain ⟨injections, hi, h⟩ := bind_eq_ok.mp h
  cases h
  exact (((((((inPasses_of_report (by decide) (Security.sqlInjections_report hi)).append
    (inPasses_of_report (by decide) (Security.commandInjections_report source))).append
    (inPasses_of_report (by decide) (Security.crossSiteScriptings_report source))).append
    (inPasses_of_report (by decide) (Security.pathTraversals_report source))).append
    (inPasses_of_report (by decide) (Security.hardcodedSecrets_report source))).append
    (inPasses_of_report (by decide) (Security.weakCryptos_report source))).append
    (inPasses_of_report (by decide) (Security.insecureRandoms_report source))).append
    (inPasses_of_report (by decide) (Security.unsafeDeserializations_report source))

theorem Efficiency.findings_inPasses (source : Source) :
    InPasses (·.rule.position) 12 17 (Efficiency.findings source) :=
  ((((inPasses_of_report (by decide) (Efficiency.stringConcatenations_report source)).append
    (inPasses_of_report (by decide) (Efficiency.sizeCalls_report source))).append
    (inPasses_of_report (by decide) (Efficiency.foreachRemovals_report source))).append
    (inPasses_of_report (by decide) (Efficiency.unsizedLists_report source))).append
    (inPasses_of_report (by decide) (Efficiency.boxings_report source))

theorem Convention.findings_inPasses (maxLines : Int) (source : Source) :
    InPasses (·.rule.position) 17 24 (Convention.findings maxLines source) :=
  ((((((inPasses_of_report (by decide) (Convention.classNames_report source)).append
    (inPasses_of_report (by decide) (Convention.methodNames_report source))).append
    (inPasses_of_report (by decide) (Convention.fieldNames_report source))).append
    (inPasses_of_report (by decide) (Convention.undocumentedClasses_report source))).append
    (inPasses_of_report (by decide) (Convention.undocumentedMethods_report source))).append
    (inPasses_of_report (by decide) (Convention.longMethods_report maxLines source))).append
    (inPasses_of_report (by decide) (Convention.magicNumbers_report source))

end Check

/-- What an analyzer adds to a unit; one that gives up adds nothing. -/
theorem Service.runAnalyzer_inPasses {category : Category}
    {check : Source → Except Fault (List Finding)} {low high : Nat} {path : Path} {source : Source}
    (hle : low ≤ high)
    (h : ∀ found, check source = .ok found → InPasses (·.rule.position) low high found) :
    InPasses Issue.rulePosition low high
      (runAnalyzer ⟨path, some source⟩ (.ofCheck category check)).value := by
  unfold runAnalyzer
  cases hrun : (Analyzer.ofCheck category check).run ⟨path, some source⟩ with
  | error fault => exact .nil hle
  | ok issues =>
    obtain ⟨found, hfound, rfl⟩ := Analyzer.run_ofCheck rfl hrun
    exact (h found hfound).map fun finding => finding.rulePosition_issue _

namespace Service

variable {fs : FileSystem} {config : Config} {root : Path}

theorem analyzeUnit_inPasses (config : Config) (unit : SourceUnit) :
    InPasses Issue.rulePosition 0 24 ((ofConfig config).analyzeUnit unit).value := by
  obtain ⟨path, source⟩ := unit
  cases source with
  | none => exact .nil (Nat.zero_le _)
  | some source =>
    have hbug : InPasses Issue.rulePosition 0 4
        (runAnalyzer ⟨path, some source⟩ .bug).value := by
      refine runAnalyzer_inPasses (by omega) ?_
      rintro found ⟨⟩
      exact Check.Defect.findings_inPasses source
    have hvulnerability : InPasses Issue.rulePosition 4 12
        (runAnalyzer ⟨path, some source⟩ .vulnerability).value :=
      runAnalyzer_inPasses (by omega) fun _ h => Check.Security.findings_inPasses h
    have hperformance : InPasses Issue.rulePosition 12 17
        (runAnalyzer ⟨path, some source⟩ .performance).value := by
      refine runAnalyzer_inPasses (by omega) ?_
      rintro found ⟨⟩
      exact Check.Efficiency.findings_inPasses source
    have hstyle : InPasses Issue.rulePosition 17 24
        (runAnalyzer ⟨path, some source⟩ (.style config.maxMethodLines)).value := by
      refine runAnalyzer_inPasses (by omega) ?_
      rintro found ⟨⟩
      exact Check.Convention.findings_inPasses _ source
    have hall := hbug.append (hvulnerability.append (hperformance.append hstyle))
    simpa [analyzeUnit, ofConfig, Analyzer.defaults, Logged.map, Logged.collect] using hall

/-- The issues of one file: in the order of the passes, each with the path of the file. -/
theorem fileReview_inPasses (config : Config) (fs : FileSystem) (file : Path) :
    InPasses Issue.rulePosition 0 24 ((ofConfig config).fileReview fs file).issues := by
  cases hp : Loading.parse fs file with
  | error error =>
    rw [fileReview_of_error _ hp]
    exact .nil (Nat.zero_le _)
  | ok source =>
    rw [fileReview_of_parsed _ hp]
    exact analyzeUnit_inPasses config _

theorem ofConfig_setsPath (config : Config) :
    ∀ analyzer ∈ (ofConfig config).analyzers, analyzer.SetsPath := by
  intro analyzer ha
  simp only [ofConfig, Analyzer.defaults, List.mem_cons, List.not_mem_nil, or_false] at ha
  rcases ha with rfl | rfl | rfl | rfl
  · exact Analyzer.setsPath_ofCheck _ _
  · exact Analyzer.setsPath_ofCheck _ _
  · exact Analyzer.setsPath_ofCheck _ _
  · exact Analyzer.setsPath_ofCheck _ _

/-- The route of an issue is the one on which the search has found its file. -/
theorem route_of_mem_fileReview {route : List String} (hr : route ∈ fs.routes config root)
    {issue : Issue}
    (h : issue ∈ ((ofConfig config).fileReview fs (root.descend route)).issues) :
    issue.route root = route := by
  obtain ⟨hne, -, hf, -⟩ := FileSystem.source_of_mem_routesWithin hr
  have hparts : (root.descend route).parts ≠ [] := List.append_ne_nil_of_right_ne_nil _ hne
  unfold Issue.route
  rw [path_of_mem_fileReview (ofConfig_setsPath config) h,
    Path.parse_text hparts (FileSystem.isStep_of_isFile hf)]
  exact List.drop_left

/-- The category of an issue of the default analyzers follows from the position of its rule. -/
theorem category_of_mem_analyzeUnit {unit : SourceUnit} {issue : Issue}
    (h : issue ∈ ((ofConfig config).analyzeUnit unit).value) :
    issue.category.position = Category.finishedAt issue.rulePosition := by
  obtain ⟨hs, analyzer, ha, issues, hrun, hi⟩ := mem_analyzeUnit.mp h
  obtain ⟨source, hs⟩ := Option.isSome_iff_exists.mp hs
  obtain ⟨found, -, rfl⟩ := Analyzer.found_of_run ha hs hrun
  obtain ⟨finding, -, rfl⟩ := List.mem_map.mp hi
  rw [finding.rulePosition_issue]
  exact finding.rule.category_position

theorem category_of_mem_fileReview {file : Path} {issue : Issue}
    (h : issue ∈ ((ofConfig config).fileReview fs file).issues) :
    issue.category.position = Category.finishedAt issue.rulePosition := by
  cases hp : Loading.parse fs file with
  | error error =>
    rw [fileReview_of_error _ hp] at h
    cases h
  | ok source =>
    rw [fileReview_of_parsed _ hp] at h
    exact category_of_mem_analyzeUnit h

def routeIssues (config : Config) (fs : FileSystem) (root : Path) : List Issue :=
  (fs.routes config root).flatMap fun route =>
    ((ofConfig config).fileReview fs (root.descend route)).issues

theorem analyzeDirectory_issues (config : Config) (shown : String)
    (h : fs.isDirectory root = true) :
    ∃ result : Logged Review, (ofConfig config).analyzeDirectory fs root shown = .ok result ∧
      result.value.issues = routeIssues config fs root := by
  obtain ⟨log, hwhole⟩ := analyzeDirectory_eq (ofConfig config) shown
    (FileSystem.pathExists_iff.mpr ⟨_, FileSystem.isDirectory_iff.mp h⟩)
  refine ⟨_, hwhole, ?_⟩
  dsimp only
  rw [FileSystem.sources_eq_map, List.flatMap_map]
  rfl

theorem routeIssues_sorted (config : Config) (fs : FileSystem) (root : Path) :
    (routeIssues config fs root).Pairwise (Issue.Precedes root) := by
  refine List.pairwise_flatMap.mpr ⟨?_, ?_⟩
  · intro route hroute
    have hordered := (fileReview_inPasses config fs (root.descend route)).ordered
    refine hordered.imp_of_mem fun {a b} ha hb hab => Or.inr ⟨?_, hab⟩
    rw [route_of_mem_fileReview hroute ha, route_of_mem_fileReview hroute hb]
  · refine (fs.routes_increasing config root).imp_of_mem ?_
    intro first second hf hs hlt a ha b hb
    left
    rw [route_of_mem_fileReview hf ha, route_of_mem_fileReview hs hb]
    exact hlt

theorem path_of_mem_routeIssues {issue : Issue} (h : issue ∈ routeIssues config fs root) :
    issue.route root ∈ fs.routes config root ∧
      issue.path = (root.descend (issue.route root)).text := by
  obtain ⟨route, hroute, hi⟩ := List.mem_flatMap.mp h
  rw [route_of_mem_fileReview hroute hi]
  exact ⟨hroute, path_of_mem_fileReview (ofConfig_setsPath config) hi⟩

theorem category_of_mem_routeIssues {issue : Issue} (h : issue ∈ routeIssues config fs root) :
    issue.category.position = Category.finishedAt issue.rulePosition := by
  obtain ⟨route, -, hi⟩ := List.mem_flatMap.mp h
  exact category_of_mem_fileReview hi

theorem route_eq_of_between {a b c : Issue} (hab : a.Precedes root b) (hbc : b.Precedes root c)
    (hac : a.route root = c.route root) : b.route root = a.route root := by
  rcases hab with hab | ⟨hab, -⟩
  · rcases hbc with hbc | ⟨hbc, -⟩
    · exact (lt_irrefl _ (hac ▸ hab.trans hbc)).elim
    · rw [hbc, ← hac] at hab
      exact (lt_irrefl _ hab).elim
  · exact hab.symm

/-- The analysis of a directory succeeds, and its issues are sorted by file and then by rule. A file
is told by the components that lead to it from the root. So the issues of one file stand together,
and among them those of a category that is reported earlier come first. -/
theorem directory_issues_in_report_order (fs : FileSystem) (config : Config) (root : Path)
    (shown : String) (h : fs.isDirectory root = true) :
    ∃ result : Logged Review,
      (ofConfig config).analyzeDirectory fs root shown = .ok result ∧
      result.value.issues.Pairwise (Issue.Precedes root) ∧
      (∀ issue ∈ result.value.issues,
        root.descend (issue.route root) ∈ fs.sources config root ∧
          issue.path = (root.descend (issue.route root)).text) ∧
      (∀ a b c, [a, b, c].Sublist result.value.issues → a.path = c.path → b.path = a.path) ∧
      result.value.issues.Pairwise fun a b =>
        a.path = b.path → a.category.position ≤ b.category.position := by
  obtain ⟨result, hok, hissues⟩ := analyzeDirectory_issues config shown h
  have hsorted := routeIssues_sorted config fs root
  refine ⟨result, hok, ?_⟩
  rw [hissues]
  refine ⟨hsorted, ?_, ?_, ?_⟩
  · intro issue hmem
    obtain ⟨hroute, hpath⟩ := path_of_mem_routeIssues hmem
    rw [FileSystem.sources_eq_map]
    exact ⟨List.mem_map_of_mem hroute, hpath⟩
  · intro a b c hsub hac
    have hthree := hsorted.sublist hsub
    simp only [List.pairwise_cons, List.mem_cons, List.not_mem_nil, or_false, forall_eq_or_imp,
      forall_eq] at hthree
    obtain ⟨⟨hab, -⟩, hbc, -⟩ := hthree
    have hroute : b.route root = a.route root :=
      route_eq_of_between hab hbc (by unfold Issue.route; rw [hac])
    have ha := path_of_mem_routeIssues (hsub.subset (show a ∈ [a, b, c] by simp))
    have hb := path_of_mem_routeIssues (hsub.subset (show b ∈ [a, b, c] by simp))
    rw [hb.2, ha.2, hroute]
  · refine hsorted.imp_of_mem fun {a b} ha hb hab hpath => ?_
    rw [category_of_mem_routeIssues ha, category_of_mem_routeIssues hb]
    apply Category.finishedAt_mono
    rcases hab with hlt | ⟨-, hle⟩
    · unfold Issue.route at hlt
      rw [hpath] at hlt
      exact (lt_irrefl _ hlt).elim
    · exact hle

/-- A file below a directory and one beside it whose name starts with that of the directory. Both
have the same two issues. -/
theorem issues_of_directory_before_file :
    let name : Node := ⟨"identifier", true, false, 6, 9, some "name", []⟩
    let bytes : Text.Bytes := [99, 108, 97, 115, 115, 32, 102, 111, 111, 32, 123, 125]
    let source : Source := ⟨bytes, ⟨"class_declaration", true, false, 0, 12, none, [name]⟩⟩
    let fs : FileSystem := ⟨[(["src"], .directory),
      (["src", "a.java"], .file bytes (some ⟨false, source.root⟩)), (["src", "a"], .directory),
      (["src", "a", "B.java"], .file bytes (some ⟨false, source.root⟩))], []⟩
    let src : Path := ⟨.relative, ["src"]⟩
    let earlier : Issue := ⟨"B.java", 1, "Class 'foo' is missing Javadoc comment", .style, .low,
      "STY_CLASS_JAVADOC_001", "src/a/B.java"⟩
    let later : Issue := ⟨"a.java", 1,
      "Class name 'foo' does not follow the PascalCase naming convention", .style, .low,
      "STY_CLASS_NAME_001", "src/a.java"⟩
    fs.isDirectory src = true ∧
      ∃ result : Logged Review,
        (ofConfig {}).analyzeDirectory fs src "src" = .ok result ∧
        earlier ∈ result.value.issues ∧ later ∈ result.value.issues ∧
        earlier.Precedes src later ∧ ¬later.Precedes src earlier ∧
        result.value.issues.Pairwise (Issue.Precedes src) := by
  intro name bytes source fs src earlier later
  have hdir : fs.isDirectory src = true := by cbv
  have hsrc : fs.resolve src = .ok ["src"] := by cbv
  have hbelow : ["a", "B.java"] ∈ fs.routes {} src := by
    refine (FileSystem.mem_routes_iff rfl hsrc rfl).mpr ⟨["a"], "B.java", rfl, ?_⟩
    refine FileSystem.leadsToSource_cons.mpr ⟨rfl, by decide, ?_⟩
    exact FileSystem.leadsToSource_nil.mpr ⟨⟨_, _, rfl⟩, by decide⟩
  have hbeside : ["a.java"] ∈ fs.routes {} src := by
    refine (FileSystem.mem_routes_iff rfl hsrc rfl).mpr ⟨[], "a.java", rfl, ?_⟩
    exact FileSystem.leadsToSource_nil.mpr ⟨⟨_, _, rfl⟩, by decide⟩
  have hearlier : earlier ∈ routeIssues {} fs src := by
    have hl : fs.lookup (src.descend ["a", "B.java"]) =
        .ok (.file bytes (some ⟨false, source.root⟩)) := by cbv
    have hunit : ((ofConfig {}).analyzeUnit ⟨src.descend ["a", "B.java"], some source⟩).value =
        [⟨"B.java", 1, "Class name 'foo' does not follow the PascalCase naming convention", .style,
          .low, "STY_CLASS_NAME_001", "src/a/B.java"⟩, earlier] := by decide +kernel
    refine List.mem_flatMap.mpr ⟨_, hbelow, ?_⟩
    rw [fileReview_of_parsed _ (Loading.parse_of_lookup hl), hunit]
    simp
  have hlater : later ∈ routeIssues {} fs src := by
    have hl : fs.lookup (src.descend ["a.java"]) =
        .ok (.file bytes (some ⟨false, source.root⟩)) := by cbv
    have hunit : ((ofConfig {}).analyzeUnit ⟨src.descend ["a.java"], some source⟩).value =
        [later, ⟨"a.java", 1, "Class 'foo' is missing Javadoc comment", .style, .low,
          "STY_CLASS_JAVADOC_001", "src/a.java"⟩] := by decide +kernel
    refine List.mem_flatMap.mpr ⟨_, hbeside, ?_⟩
    rw [fileReview_of_parsed _ (Loading.parse_of_lookup hl), hunit]
    simp
  obtain ⟨other, hother, hissues⟩ := analyzeDirectory_issues {} "src" hdir
  obtain ⟨result, hok, hsorted, -⟩ := directory_issues_in_report_order fs {} src "src" hdir
  obtain rfl : other = result := Except.ok.inj (hother.symm.trans hok)
  rw [← hissues] at hearlier hlater
  exact ⟨hdir, other, hok, hearlier, hlater, by decide, by decide, hsorted⟩

end Service

end JavaLint
