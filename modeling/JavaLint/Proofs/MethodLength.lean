import JavaLint.Proofs.LossyReading
import JavaLint.Proofs.PathAnalysis

/-! The allowed length of methods. The lines of a body are counted in its text, and come to the rows
between its offsets whatever its bytes are. Two limits tell apart exactly the reports on methods
whose length lies between them; nothing else in a review depends on the limit. -/
namespace JavaLint

theorem Source.count_span (source : Source) (node : Node) :
    (source.span node).count lineFeed =
      rowAt source.bytes node.stop - rowAt source.bytes node.start := by
  by_cases h : node.start ≤ node.stop
  · have hsplit : rowAt source.bytes node.stop =
        rowAt source.bytes node.start + (source.span node).count lineFeed := by
      calc rowAt source.bytes node.stop
          = ((source.bytes.take node.stop).take node.start ++ source.span node).count lineFeed := by
            rw [Source.span, List.take_append_drop]
            rfl
        _ = rowAt source.bytes node.start + (source.span node).count lineFeed := by
            rw [List.count_append, List.take_take, Nat.min_eq_left h]
            rfl
    omega
  · have hempty : source.span node = [] := by
      apply List.drop_eq_nil_of_le
      have := List.length_take_le node.stop source.bytes
      omega
    have := rowAt_mono source.bytes (Nat.le_of_not_le h)
    rw [hempty, List.count_nil]
    omega

def Check.Method.rows (source : Source) (method : Method) : Nat :=
  rowAt source.bytes method.body.stop - rowAt source.bytes method.body.start + 1

theorem Check.Method.lineCount_bodyText (source : Source) (method : Method) :
    Convention.lineCount (method.bodyText source) = method.rows source := by
  have hcount : (Text.decodeLossy (source.span method.body)).count '\n' =
      (source.span method.body).count lineFeed := Text.count_decodeLossy (by decide) _
  rw [Convention.lineCount, bodyText, Source.text, String.toList_ofList, hcount, Source.count_span,
    rows]

def lengthMessage (name : String) (lines : Nat) : String :=
  "Method '" ++ name ++ "' is too long (" ++ toString lines ++ " lines). Consider refactoring."

/-- The digits before the end that all messages on long methods share, as a number. -/
def reportedLines (message : String) : Nat :=
  let ending := " lines). Consider refactoring.".toList
  let digits := (message.toList.reverse.drop ending.length).takeWhile Char.isDigit
  Nat.ofDigitChars 10 digits.reverse 0

theorem reportedLines_lengthMessage (name : String) (lines : Nat) :
    reportedLines (lengthMessage name lines) = lines := by
  have htext : (lengthMessage name lines).toList.reverse =
      " lines). Consider refactoring.".toList.reverse ++ ((Nat.toDigits 10 lines).reverse ++
        '(' :: ("Method '" ++ name ++ "' is too long ").toList.reverse) := by
    simp [lengthMessage]
  have hdigits : ∀ c ∈ (Nat.toDigits 10 lines).reverse, c.isDigit = true := by
    intro c hc
    exact Nat.isDigit_of_mem_toDigits (by decide) (by decide) (List.mem_reverse.mp hc)
  rw [reportedLines, htext]
  simp only [List.drop_left' List.length_reverse]
  rw [List.takeWhile_append_of_pos hdigits, List.takeWhile_cons_of_neg (by decide),
    List.append_nil, List.reverse_reverse, Nat.ofDigitChars_ten_toDigits]

def SourceUnit.longMethodIssues (limit : Int) (unit : SourceUnit) : List Issue :=
  match unit.source with
  | none => []
  | some source =>
    ((Check.methodsWithBody source).filter fun method => limit < method.rows source).map
      fun method =>
        { fileName := unit.fileName
          line := source.line method.site.node
          message := lengthMessage (method.name source) (method.rows source)
          category := .style
          severity := .medium
          ruleId := "STY_LONG_METHOD_001"
          path := unit.path.text }

def Issue.isLongMethod (issue : Issue) : Bool := issue.ruleId == "STY_LONG_METHOD_001"

def Issue.isLongBetween (low high : Int) (issue : Issue) : Bool :=
  issue.isLongMethod && (low < reportedLines issue.message && reportedLines issue.message ≤ high)

theorem SourceUnit.isLongMethod_of_mem {limit : Int} {unit : SourceUnit} {issue : Issue}
    (h : issue ∈ unit.longMethodIssues limit) : issue.isLongMethod = true := by
  rw [longMethodIssues] at h
  split at h
  · cases h
  · obtain ⟨method, -, rfl⟩ := List.mem_map.mp h
    rfl

/-- Raising the limit leaves out the reports between the two limits. -/
theorem SourceUnit.longMethodIssues_filter {low high : Int} (h : low ≤ high) (unit : SourceUnit) :
    (unit.longMethodIssues low).filter (!·.isLongBetween low high) =
      unit.longMethodIssues high := by
  rw [longMethodIssues, longMethodIssues]
  split
  · rfl
  · rw [List.filter_map, List.filter_filter]
    congr 1
    apply List.filter_congr
    intro method _
    simp only [Function.comp_apply, Issue.isLongBetween, Issue.isLongMethod,
      reportedLines_lengthMessage, beq_self_eq_true, Bool.true_and]
    rw [Bool.eq_iff_iff]
    simp only [Bool.and_eq_true, Bool.not_eq_true', Bool.and_eq_false_iff, decide_eq_true_eq,
      decide_eq_false_iff_not]
    omega

theorem SourceUnit.longMethodIssues_eq {unit : SourceUnit} {source : Source}
    (hs : unit.source = some source) (limit : Int) :
    unit.longMethodIssues limit =
      (Check.Convention.longMethods limit source).map (·.issue unit) := by
  have hmessage (name : String) (lines : Nat) :
      "Method '" ++ name ++ s!"' is too long ({lines} lines). " ++ "Consider refactoring." =
        lengthMessage name lines := by
    show "Method '" ++ name ++ (("" ++ "' is too long (") ++ toString lines ++ " lines). ") ++ _ = _
    simp [lengthMessage, String.append_assoc]
  rw [longMethodIssues, hs]
  simp only [Check.Convention.longMethods, Check.Method.lineCount_bodyText, hmessage, gt_iff_lt,
    List.map_map]
  rfl

theorem not_isLongMethod_of_allReport {source : Source} {rules : List Rule} {found : List Finding}
    (hfound : AllReport source rules found) (hrules : .longMethod ∉ rules) (unit : SourceUnit) :
    ∀ issue ∈ found.map (·.issue unit), issue.isLongMethod = false := by
  intro issue hmem
  obtain ⟨finding, hfinding, rfl⟩ := List.mem_map.mp hmem
  have hrule : finding.rule ≠ .longMethod := by
    intro heq
    exact hrules (heq ▸ (hfound finding hfinding).rule_mem)
  show (finding.rule.id == Rule.longMethod.id) = false
  rw [Rule.id_injective.beq_eq]
  simpa using hrule

def Config.withMethodLines (config : Config) (limit : Int) : Config :=
  { config with maxMethodLines := limit }

def Review.without (p : Issue → Bool) (review : Review) : Review :=
  { review with issues := review.issues.filter (!p ·) }

theorem Service.not_isLongMethod_of_runAnalyzer {analyzer : Analyzer} {limit : Int}
    (ha : analyzer ∈ Analyzer.defaults limit) (hcategory : analyzer.category ≠ .style)
    {unit : SourceUnit} {source : Source} (hs : unit.source = some source) :
    ∀ issue ∈ (runAnalyzer unit analyzer).value, issue.isLongMethod = false := by
  rw [runAnalyzer]
  cases hrun : analyzer.run unit with
  | error fault =>
    intro issue hmem
    cases hmem
  | ok issues =>
    obtain ⟨found, hfound, rfl⟩ := Analyzer.found_of_run ha hs hrun
    apply not_isLongMethod_of_allReport hfound
    intro hmem
    have hstyle : Rule.longMethod.category = analyzer.category := by
      simpa using (List.mem_filter.mp hmem).2
    exact hcategory hstyle.symm

namespace Check.Convention

def namesAndComments (source : Source) : List Finding :=
  classNames source ++ methodNames source ++ fieldNames source ++ undocumentedClasses source ++
    undocumentedMethods source

theorem namesAndComments_report (source : Source) :
    AllReport source
      [.className, .methodName, .fieldName, .constantName, .classJavadoc, .methodJavadoc]
      (namesAndComments source) :=
  allReport_append (allReport_append (allReport_append (allReport_append
    (classNames_report source) (methodNames_report source)) (fieldNames_report source))
    (undocumentedClasses_report source)) (undocumentedMethods_report source)

end Check.Convention

theorem Service.runAnalyzer_style {unit : SourceUnit} {source : Source}
    (hs : unit.source = some source) (limit : Int) :
    runAnalyzer unit (.style limit) =
      ⟨[], (Check.Convention.namesAndComments source).map (·.issue unit) ++
        unit.longMethodIssues limit ++
        (Check.Convention.magicNumbers source).map (·.issue unit)⟩ := by
  rw [SourceUnit.longMethodIssues_eq hs, ← List.map_append, ← List.map_append, runAnalyzer,
    Analyzer.style, Analyzer.ofCheck]
  simp only [hs]
  rfl

def Analyzer.unlimited : List Analyzer := [bug, vulnerability, performance]

theorem Service.not_isLongMethod_of_unlimited {unit : SourceUnit} {source : Source}
    (hs : unit.source = some source) :
    ∀ issue ∈ Analyzer.unlimited.flatMap fun analyzer => (runAnalyzer unit analyzer).value,
      issue.isLongMethod = false := by
  intro issue hmem
  obtain ⟨analyzer, ha, hmem⟩ := List.mem_flatMap.mp hmem
  have hdefault : analyzer ∈ Analyzer.defaults 0 := List.mem_append_left [Analyzer.style 0] ha
  have hcategory : analyzer.category ≠ .style := by
    simp only [Analyzer.unlimited, List.mem_cons, List.not_mem_nil, or_false] at ha
    rcases ha with rfl | rfl | rfl <;> decide
  exact not_isLongMethod_of_runAnalyzer hdefault hcategory hs issue hmem

/-- The limit shows in one stretch of the issues of a unit, and what stands before and behind it is
about other rules. -/
theorem Service.analyzeUnit_withMethodLines (config : Config) (unit : SourceUnit) :
    ∃ log before behind, (∀ issue ∈ before ++ behind, issue.isLongMethod = false) ∧
      ∀ limit, (ofConfig (config.withMethodLines limit)).analyzeUnit unit =
        ⟨log, before ++ unit.longMethodIssues limit ++ behind⟩ := by
  cases hs : unit.source with
  | none => exact ⟨[], [], [], by simp, by simp [analyzeUnit, SourceUnit.longMethodIssues, hs]⟩
  | some source =>
    refine ⟨Analyzer.unlimited.flatMap fun analyzer => (runAnalyzer unit analyzer).log,
      (Analyzer.unlimited.flatMap fun analyzer => (runAnalyzer unit analyzer).value) ++
        (Check.Convention.namesAndComments source).map (·.issue unit),
      (Check.Convention.magicNumbers source).map (·.issue unit), ?_, ?_⟩
    · intro issue hmem
      rcases List.mem_append.mp hmem with hmem | hmem
      · rcases List.mem_append.mp hmem with hmem | hmem
        · exact not_isLongMethod_of_unlimited hs issue hmem
        · exact not_isLongMethod_of_allReport (Check.Convention.namesAndComments_report source)
            (by decide) unit issue hmem
      · exact not_isLongMethod_of_allReport (Check.Convention.magicNumbers_report source)
          (by decide) unit issue hmem
    · intro limit
      have hanalyzers : (ofConfig (config.withMethodLines limit)).analyzers =
          Analyzer.unlimited ++ [.style limit] := rfl
      rw [analyzeUnit, hs, hanalyzers]
      simp [Logged.collect, Logged.map, runAnalyzer_style hs, List.flatMap_def, Function.comp_def]

theorem Service.analyzeUnit_without {low high : Int} (h : low ≤ high) (config : Config)
    (unit : SourceUnit) :
    (ofConfig (config.withMethodLines high)).analyzeUnit unit =
      ((ofConfig (config.withMethodLines low)).analyzeUnit unit).map
        (·.filter (!·.isLongBetween low high)) := by
  obtain ⟨log, before, behind, hothers, hunit⟩ := analyzeUnit_withMethodLines config unit
  have hkept (issues : List Issue) (hall : ∀ issue ∈ issues, issue.isLongMethod = false) :
      issues.filter (!·.isLongBetween low high) = issues := by
    apply List.filter_eq_self.mpr
    intro issue hmem
    simp [Issue.isLongBetween, hall issue hmem]
  rw [hunit, hunit, Logged.map, List.filter_append, List.filter_append,
    SourceUnit.longMethodIssues_filter h,
    hkept before fun issue hmem => hothers issue (List.mem_append_left _ hmem),
    hkept behind fun issue hmem => hothers issue (List.mem_append_right _ hmem)]

theorem Service.filter_analyzeUnit (limit : Int) (config : Config) (unit : SourceUnit) :
    ((ofConfig (config.withMethodLines limit)).analyzeUnit unit).value.filter Issue.isLongMethod =
      unit.longMethodIssues limit := by
  obtain ⟨log, before, behind, hothers, hunit⟩ := analyzeUnit_withMethodLines config unit
  have hdropped (issues : List Issue) (hall : ∀ issue ∈ issues, issue.isLongMethod = false) :
      issues.filter Issue.isLongMethod = [] := by
    apply List.filter_eq_nil_iff.mpr
    intro issue hmem
    simp [hall issue hmem]
  have hlong : (unit.longMethodIssues limit).filter Issue.isLongMethod =
      unit.longMethodIssues limit :=
    List.filter_eq_self.mpr fun issue hmem => SourceUnit.isLongMethod_of_mem hmem
  rw [hunit, List.filter_append, List.filter_append, hlong,
    hdropped before fun issue hmem => hothers issue (List.mem_append_left _ hmem),
    hdropped behind fun issue hmem => hothers issue (List.mem_append_right _ hmem),
    List.nil_append, List.append_nil]

theorem Service.analyzePath_withMethodLines (config : Config) (limit : Int) (fs : FileSystem)
    (path : Path) :
    (ofConfig (config.withMethodLines limit)).analyzePath fs path =
      (Loading.unitsAt fs config path).map
        (ofConfig (config.withMethodLines limit)).analyzeUnits := by
  have hsearch : (config.withMethodLines limit).SameSearch config := ⟨rfl, rfl, rfl⟩
  rw [analyzePath_eq_map]
  show (Loading.unitsAt fs (config.withMethodLines limit) path).map _ = _
  rw [Loading.unitsAt_congr hsearch]

theorem Service.analyzeUnits_without {low high : Int} (h : low ≤ high) (config : Config)
    (units : Logged (List SourceUnit)) :
    (ofConfig (config.withMethodLines high)).analyzeUnits units =
      ((ofConfig (config.withMethodLines low)).analyzeUnits units).map
        (·.without (·.isLongBetween low high)) := by
  simp only [analyzeUnits, Logged.map, Review.without, analyzeUnit_without h, List.filter_flatMap]

/-- Raising the limit takes the reports between the two limits out of a review and changes nothing
else. The reports under one limit are those on the methods with a body of more rows, whatever its
bytes, one for each in the order of the methods. -/
theorem Service.method_length_limit (config : Config) (fs : FileSystem) (path : Path) :
    (∀ low high : Int, low ≤ high →
      (ofConfig (config.withMethodLines high)).analyzePath fs path =
        ((ofConfig (config.withMethodLines low)).analyzePath fs path).map
          (Logged.map (·.without (·.isLongBetween low high)))) ∧
    (∀ limit : Int,
      ((ofConfig (config.withMethodLines limit)).analyzePath fs path).map
          (fun review => review.value.issues.filter Issue.isLongMethod) =
        (Loading.unitsAt fs config path).map
          (fun units => units.value.flatMap (·.longMethodIssues limit))) ∧
    ∀ (source : Source) (method : Check.Method), method.body.start ≤ method.body.stop →
      (method.rows source : Int) =
        rowAt source.bytes method.body.stop - rowAt source.bytes method.body.start + 1 := by
  refine ⟨?_, ?_, ?_⟩
  · intro low high h
    rw [analyzePath_withMethodLines, analyzePath_withMethodLines]
    cases Loading.unitsAt fs config path with
    | error error => rfl
    | ok units => exact congrArg Except.ok (analyzeUnits_without h config units)
  · intro limit
    rw [analyzePath_withMethodLines]
    cases Loading.unitsAt fs config path with
    | error error => rfl
    | ok units =>
      simp only [Except.map, analyzeUnits, List.filter_flatMap, filter_analyzeUnit]
  · intro source method h
    have := rowAt_mono source.bytes h
    rw [Check.Method.rows]
    omega

/-- A body of three lines, with a carriage return and bytes that are no text. -/
theorem Service.three_lines_between_limits :
    let body : Node := ⟨"block", true, false, 1, 8, some "body", []⟩
    let declaration : Node := ⟨"method_declaration", true, false, 0, 8, none,
      [⟨"identifier", true, false, 0, 1, some "name", []⟩, body]⟩
    let source : Source := ⟨[109, 123, 13, 10, 255, 195, 10, 125], declaration⟩
    let method : Check.Method := ⟨⟨declaration, none, none, []⟩, body⟩
    let fs : FileSystem := ⟨[(["a.java"], .file source.bytes (some ⟨false, source.root⟩))], []⟩
    let path : Path := ⟨.relative, ["a.java"]⟩
    let long : Issue := ⟨"a.java", 1, "Method 'm' is too long (3 lines). Consider refactoring.",
      .style, .medium, "STY_LONG_METHOD_001", "a.java"⟩
    (2 : Int) ≤ 3 ∧ body.start ≤ body.stop ∧ (method.rows source : Int) = 3 ∧
      ∃ two three : Logged Review,
        (ofConfig (Config.withMethodLines {} 2)).analyzePath fs path = .ok two ∧
        (ofConfig (Config.withMethodLines {} 3)).analyzePath fs path = .ok three ∧
        two.value.issues.filter Issue.isLongMethod = [long] ∧
        three.value = two.value.without (·.isLongBetween 2 3) ∧
        three.value.issues.filter Issue.isLongMethod = [] := by
  intro body declaration source method fs path long
  have hlookup : fs.lookup path = .ok (.file source.bytes (some ⟨false, source.root⟩)) := by cbv
  have hfile : fs.isFile path = true := FileSystem.isFile_iff.mpr ⟨_, _, hlookup⟩
  have hunits : Loading.unitsAt fs {} path = .ok ⟨[], [⟨path, some source⟩]⟩ := by
    have hdir : fs.isDirectory path = false := by cbv
    rw [Loading.unitsAt, hdir,
      Loading.load_of_parsed hfile (by decide) (Loading.parse_of_lookup hlookup)]
    rfl
  have hover : SourceUnit.longMethodIssues 2 ⟨path, some source⟩ = [long] := by decide +kernel
  have hwithin : SourceUnit.longMethodIssues 3 ⟨path, some source⟩ = [] := by decide +kernel
  obtain ⟨hframe, hreports, hrows⟩ := method_length_limit {} fs path
  obtain ⟨two, htwo⟩ := analyzePath_of_pathExists (ofConfig (Config.withMethodLines {} 2))
    (Loading.pathExists_of_isFile hfile)
  have hthree := hframe 2 3 (by decide)
  have htwoReports := hreports 2
  have hthreeReports := hreports 3
  rw [htwo] at hthree
  rw [htwo, hunits] at htwoReports
  rw [hthree, hunits] at hthreeReports
  refine ⟨by decide, by decide, ?_, two, _, htwo, hthree, ?_, rfl, ?_⟩
  · rw [hrows source method (by decide)]
    decide
  · simpa [Except.map, hover] using htwoReports
  · simpa only [Except.map, List.flatMap_cons, List.flatMap_nil, hwithin, List.append_nil,
      Except.ok.injEq] using hthreeReports

end JavaLint
