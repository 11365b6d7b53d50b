import JavaLint.Proofs.Acceptance
import JavaLint.Proofs.DirectoryAnalysis
import JavaLint.Proofs.Grouping
import JavaLint.Validation
import Mathlib.Algebra.Order.BigOperators.Group.List

/-! The document of a review satisfies the bundled schema exactly when the review can be reported:
its count is not negative, its version not empty, and every issue says where it is, on a line from
one on, with a message and a well-formed rule identifier or none. Every review that the service
makes of its own is such a review. -/
namespace JavaLint

structure Issue.Reportable (issue : Issue) : Prop where
  file_ne : issue.fileName ≠ ""
  line_pos : 1 ≤ issue.line
  message_ne : issue.message ≠ ""
  rule_form : Rule.isOptionalIdentifier issue.ruleId = true

structure Review.Reportable (review : Review) : Prop where
  count_nonneg : 0 ≤ review.filesAnalyzed
  version_ne : review.toolVersion ≠ ""
  issues : ∀ issue ∈ review.issues, issue.Reportable

namespace Review

theorem count_pos_of_mem_ranking {review : Review} {file : String × Nat}
    (h : file ∈ review.ranking) : 1 ≤ file.2 := by
  unfold ranking at h
  rw [List.mem_mergeSort, countBy_eq_map] at h
  obtain ⟨group, hg, rfl⟩ := List.mem_map.mp h
  exact List.length_pos_iff.mpr (groupBy_nonempty group hg)

theorem topFiles_eq_take (review : Review) :
    review.topFiles topFilesLimit = review.ranking.take 5 := by
  simp [topFiles, takeUpTo, topFilesLimit]

theorem countByCategory_names_nodup (review : Review) :
    (review.countByCategory.map fun entry => entry.1.name).Nodup := by
  simp [countByCategory, Category.all, Category.name]

theorem countBySeverity_names_nodup (review : Review) :
    (review.countBySeverity.map fun entry => entry.1.name).Nodup := by
  simp [countBySeverity, Severity.all, Severity.name]

end Review

namespace Schema

def issueRows (issue : Issue) : List Field :=
  [("file_name", nonEmptyText, .str issue.fileName),
   ("path", nonEmptyText, .str issue.location),
   ("line_number", count 1, .int issue.line),
   ("message", nonEmptyText, .str issue.message),
   ("type", [.oneOf categoryNames], .str issue.category.name),
   ("severity", [.oneOf severityNames], .str issue.severity.name),
   ("rule_id", [.type .string, .form .optionalRuleId], .str issue.ruleId)]

theorem location_ne_empty {issue : Issue} (h : issue.fileName ≠ "") : issue.location ≠ "" := by
  unfold Issue.location
  split
  · exact h
  next hp => simpa using hp

theorem category_name_mem (category : Category) : category.name ∈ categoryNames := by
  cases category <;> decide

theorem severity_name_mem (severity : Severity) : severity.name ∈ severityNames := by
  cases severity <;> decide

theorem satisfies_issue {issue : Issue} :
    Schema.issue.Satisfies issue.document ↔ issue.Reportable := by
  change (recordOf (issueRows issue)).Satisfies (objectOf (issueRows issue)) ↔ _
  have hkeys : ((issueRows issue).map (·.1)).Nodup := by simp [issueRows]
  rw [satisfies_recordOf hkeys]
  simp only [issueRows, List.forall_mem_cons, satisfies_nonEmptyText, satisfies_count,
    satisfies_oneOf, satisfies_form, category_name_mem, severity_name_mem, true_and]
  constructor
  · rintro ⟨hf, -, hl, hm, hr, -⟩
    exact ⟨hf, hl, hm, hr⟩
  · rintro ⟨hf, hl, hm, hr⟩
    exact ⟨hf, location_ne_empty hf, hl, hm, hr, by simp⟩

def topFileRows (file : String × Nat) : List Field :=
  [("file_name", [.type .string], .str file.1), ("count", count 1, .nat file.2)]

theorem satisfies_topFile {file : String × Nat} (h : 1 ≤ file.2) :
    topFile.Satisfies (.obj [("file_name", .str file.1), ("count", .nat file.2)]) := by
  change (recordOf (topFileRows file)).Satisfies (objectOf (topFileRows file))
  have hkeys : ((topFileRows file).map (·.1)).Nodup := by simp [topFileRows]
  rw [satisfies_recordOf hkeys]
  simp only [topFileRows, List.forall_mem_cons, Json.nat, satisfies_count]
  exact ⟨satisfies_text file.1, by omega, by simp⟩

def countRows {α : Type} (name : α → String) (counts : List (α × Nat)) : List Field :=
  counts.map fun entry => (name entry.1, count 0, .nat entry.2)

theorem satisfies_counts {α : Type} {name : α → String} {counts : List (α × Nat)}
    (hn : (counts.map fun entry => name entry.1).Nodup) :
    (record (counts.map fun entry => (name entry.1, count 0))).Satisfies
      (.obj (counts.map fun entry => (name entry.1, .nat entry.2))) := by
  have hkeys : ((countRows name counts).map (·.1)).Nodup := by
    simpa only [countRows, List.map_map, Function.comp_def] using hn
  have h := (satisfies_recordOf hkeys).mpr (by
    intro row hrow
    obtain ⟨entry, -, rfl⟩ := List.mem_map.mp hrow
    exact satisfies_count.mpr (Int.natCast_nonneg _))
  simpa only [recordOf, objectOf, countRows, List.map_map, Function.comp_def] using h

theorem satisfies_countByCategory (review : Review) :
    (record (categoryNames.map fun name => (name, count 0))).Satisfies
      (.obj (review.countByCategory.map fun (category, n) => (category.name, .nat n))) :=
  satisfies_counts review.countByCategory_names_nodup

theorem satisfies_countBySeverity (review : Review) :
    (record (severityNames.map fun name => (name, count 0))).Satisfies
      (.obj (review.countBySeverity.map fun (severity, n) => (severity.name, .nat n))) :=
  satisfies_counts review.countBySeverity_names_nodup

theorem satisfies_topFiles (review : Review) :
    Satisfies [.type .array, .maxItems 5, .items topFile]
      (.arr ((review.topFiles Review.topFilesLimit).map fun (name, n) =>
        .obj [("file_name", .str name), ("count", .nat n)])) := by
  rw [satisfies_shortArray, List.length_map, review.topFiles_eq_take]
  refine ⟨by simp, ?_⟩
  intro item hmem
  obtain ⟨file, hfile, rfl⟩ := List.mem_map.mp hmem
  exact satisfies_topFile (Review.count_pos_of_mem_ranking (List.mem_of_mem_take hfile))

def summaryRows (review : Review) : List Field :=
  [("files_analyzed", count 0, .int review.filesAnalyzed),
   ("total_issues", count 0, .nat review.issues.length),
   ("by_type", record (categoryNames.map fun name => (name, count 0)),
    .obj (review.countByCategory.map fun (category, n) => (category.name, .nat n))),
   ("by_severity", record (severityNames.map fun name => (name, count 0)),
    .obj (review.countBySeverity.map fun (severity, n) => (severity.name, .nat n))),
   ("top_files", [.type .array, .maxItems 5, .items topFile],
    .arr ((review.topFiles Review.topFilesLimit).map fun (name, n) =>
      .obj [("file_name", .str name), ("count", .nat n)]))]

/-- Of the summary only the number of files is not counted from the issues. -/
theorem satisfies_summary {review : Review} :
    Schema.summary.Satisfies review.summaryDocument ↔ 0 ≤ review.filesAnalyzed := by
  change (recordOf (summaryRows review)).Satisfies (objectOf (summaryRows review)) ↔ _
  have hkeys : ((summaryRows review).map (·.1)).Nodup := by simp [summaryRows]
  rw [satisfies_recordOf hkeys]
  simp only [summaryRows, List.forall_mem_cons, satisfies_count, Json.nat]
  constructor
  · intro h
    exact h.1
  · intro h
    exact ⟨h, Int.natCast_nonneg _, satisfies_countByCategory review,
      satisfies_countBySeverity review, satisfies_topFiles review, by simp⟩

def reviewRows (review : Review) : List Field :=
  [("schema_version", [.const Review.schemaVersion], .str Review.schemaVersion),
   ("tool_version", nonEmptyText, .str review.toolVersion),
   ("summary", summary, review.summaryDocument),
   ("issues", [.type .array, .items [.reference "issue" issue]],
    .arr (review.issues.map Issue.document))]

/-- The document of a review satisfies the schema exactly when the review can be reported. -/
theorem satisfies_review {review : Review} :
    Schema.review.Satisfies review.document ↔ review.Reportable := by
  change (recordOf (reviewRows review)).Satisfies (objectOf (reviewRows review)) ↔ _
  have hkeys : ((reviewRows review).map (·.1)).Nodup := by simp [reviewRows]
  rw [satisfies_recordOf hkeys]
  simp only [reviewRows, List.forall_mem_cons, satisfies_const, satisfies_nonEmptyText,
    satisfies_summary, satisfies_array, satisfies_reference, List.forall_mem_map,
    satisfies_issue, true_and]
  constructor
  · rintro ⟨hv, hc, hi, -⟩
    exact ⟨hc, hv, hi⟩
  · rintro ⟨hc, hv, hi⟩
    exact ⟨hv, hc, hi, by simp⟩

theorem validate_review_eq_ok_iff {review : Review} :
    Schema.review.validate review.document = .ok () ↔ review.Reportable :=
  validate_eq_ok_iff.trans satisfies_review

end Schema

theorem Rule.id_form (rule : Rule) : Rule.isOptionalIdentifier rule.id = true := by
  cases rule <;> decide

theorem programVersion_ne_empty : programVersion ≠ "" := by
  decide

/-- A path that leads to a file has a last component: the working directory is no file. -/
theorem FileSystem.name_ne_empty_of_isFile {fs : FileSystem} {path : Path}
    (h : fs.isFile path = true) : path.name ≠ "" := by
  obtain ⟨bytes, tree, hl⟩ := isFile_iff.mp h
  obtain ⟨place, hr, hg⟩ := resolve_of_lookup hl
  have hne : path.parts ≠ [] := by
    intro hnil
    obtain ⟨start, hs, hf⟩ := bind_eq_ok.mp hr
    rw [hnil, followFrom] at hf
    cases hf
    rw [(directory_of_startOf hs).1] at hg
    cases hg
  unfold Path.name
  rw [List.getLast?_eq_some_getLast hne]
  exact (isStep_of_isFile h _ (List.getLast_mem hne)).ne_empty

namespace Service

variable {fs : FileSystem} {config : Config}

theorem reportable_of_mem_analyzeUnit {unit : SourceUnit} (hn : unit.path.name ≠ "") {issue : Issue}
    (h : issue ∈ ((ofConfig config).analyzeUnit unit).value) : issue.Reportable := by
  obtain ⟨hs, analyzer, ha, issues, hrun, hi⟩ := mem_analyzeUnit.mp h
  obtain ⟨source, hs⟩ := Option.isSome_iff_exists.mp hs
  obtain ⟨found, hall, rfl⟩ := Analyzer.found_of_run ha hs hrun
  obtain ⟨finding, hf, rfl⟩ := List.mem_map.mp hi
  have hr := hall finding hf
  exact ⟨hn, Int.ofNat_le.mpr hr.one_le_line, hr.message_ne, finding.rule.id_form⟩

theorem fileReview_reportable {file : Path} (h : fs.isFile file = true) :
    ((ofConfig config).fileReview fs file).Reportable := by
  cases hp : Loading.parse fs file with
  | error error =>
    rw [fileReview_of_error _ hp]
    exact ⟨le_rfl, programVersion_ne_empty, by simp⟩
  | ok source =>
    rw [fileReview_of_parsed _ hp]
    refine ⟨Int.one_nonneg, programVersion_ne_empty, ?_⟩
    intro issue hmem
    exact reportable_of_mem_analyzeUnit (FileSystem.name_ne_empty_of_isFile h) hmem

theorem analyzeFile_reportable {path : Path} (h : fs.pathExists path = true) :
    ∃ result, (ofConfig config).analyzeFile fs path = .ok result ∧ result.value.Reportable := by
  by_cases hs : fs.isFile path = true ∧ path.hasExtension config.extensions = true
  · obtain ⟨log, hlog⟩ := analyzeFile_of_source (ofConfig config) hs.1 hs.2
    exact ⟨_, hlog, fileReview_reportable hs.1⟩
  · -- What is no source file is loaded without a source, and so has no issues.
    have hload : Loading.load fs config path = .ok ⟨[], path, none⟩ := by
      unfold Loading.load
      rw [if_pos h, if_neg (by rw [Bool.and_eq_true]; exact hs)]
    unfold analyzeFile
    rw [show (ofConfig config).config = config from rfl, hload]
    exact ⟨_, rfl, le_rfl, programVersion_ne_empty, by simp [analyzeUnit]⟩

theorem analyzeDirectory_reportable {root : Path} (shown : String)
    (h : fs.pathExists root = true) :
    ∃ result, (ofConfig config).analyzeDirectory fs root shown = .ok result ∧
      result.value.Reportable := by
  have hall : ∀ file ∈ fs.sources config root,
      ((ofConfig config).fileReview fs file).Reportable := by
    intro file hmem
    obtain ⟨-, -, -, -, hf, -⟩ := FileSystem.source_of_mem_sources hmem
    exact fileReview_reportable hf
  obtain ⟨log, hlog⟩ := analyzeDirectory_eq (ofConfig config) shown h
  refine ⟨_, hlog, ?_, programVersion_ne_empty, ?_⟩
  · apply List.sum_nonneg
    intro count hmem
    obtain ⟨file, hfile, rfl⟩ := List.mem_map.mp hmem
    exact (hall file hfile).count_nonneg
  · intro issue hmem
    obtain ⟨file, hfile, hi⟩ := List.mem_flatMap.mp hmem
    exact (hall file hfile).issues issue hi

end Service

theorem Review.checkedDocument_of_reportable {review : Review} (h : review.Reportable) :
    review.checkedDocument = .ok review.document := by
  unfold checkedDocument
  rw [Schema.validate_review_eq_ok_iff.mpr h]
  rfl

/-- The schemas lie in the working directory of their file system. -/
theorem Catalog.resolve_here : Catalog.files.resolve .here = .ok Catalog.directory := by
  have hroot : Catalog.files.resolve ⟨.root, []⟩ = .ok [] := FileSystem.followFrom.eq_1 ..
  have hprogram : Catalog.files.resolve ⟨.root, ["code_quality"]⟩ = .ok ["code_quality"] :=
    FileSystem.resolve_child hroot rfl rfl (by simp)
  have hdata : Catalog.files.resolve ⟨.root, ["code_quality", "data"]⟩ =
      .ok ["code_quality", "data"] :=
    FileSystem.resolve_child hprogram rfl rfl (by simp)
  have hschemas : Catalog.files.resolve ⟨.root, Catalog.directory⟩ = .ok Catalog.directory :=
    FileSystem.resolve_child hdata rfl rfl (by simp)
  refine bind_eq_ok.mpr ⟨Catalog.directory, ?_, FileSystem.followFrom.eq_1 ..⟩
  exact bind_eq_ok.mpr ⟨Catalog.directory, hschemas, rfl⟩

theorem Catalog.resolve_review :
    Catalog.files.resolve ⟨.relative, [Catalog.reviewName]⟩ =
      .ok (Catalog.directory ++ [Catalog.reviewName]) :=
  FileSystem.resolve_child Catalog.resolve_here rfl rfl (by simp)

theorem Catalog.find?_reviewName : Catalog.find? Catalog.reviewName = some .review := by
  have hparse : Path.parse Catalog.reviewName = ⟨.relative, [Catalog.reviewName]⟩ := by decide
  simp only [Catalog.find?, hparse, Catalog.resolve_review, if_true]

theorem Review.validateValue_of_reportable {review : Review} (h : review.Reportable) :
    validateValue review.document Catalog.reviewName = .ok () := by
  unfold validateValue
  rw [Catalog.find?_reviewName]
  exact congrArg (Except.mapError DocumentError.violation)
    (Schema.validate_review_eq_ok_iff.mpr h)

/-- Whatever stands in the file system, the analysis of a path that exists gives a review whose
document the bundled schema accepts, and which is therefore handed out as it is. -/
theorem service_review_satisfies_schema (environment : Environment) (fs : FileSystem)
    (config : Config) (path : Path) (h : fs.pathExists path = true) :
    ∃ result : Logged Review,
      Analysis.ofPath environment fs (some config) path = .ok result ∧
      validateValue result.value.document Catalog.reviewName = .ok () ∧
      result.value.checkedDocument = .ok result.value.document := by
  have hreview : ∃ result, (Service.ofConfig config).analyzePath fs path = .ok result ∧
      result.value.Reportable := by
    unfold Service.analyzePath
    split
    · exact Service.analyzeDirectory_reportable path.text h
    · exact Service.analyzeFile_reportable h
  obtain ⟨result, hok, hr⟩ := hreview
  refine ⟨result, ?_, Review.validateValue_of_reportable hr,
    Review.checkedDocument_of_reportable hr⟩
  unfold Analysis.ofPath
  rw [if_pos h]
  exact hok

/-- A class in lower case that stands below a link to a directory: the review has issues, and its
document is accepted. -/
theorem review_of_linked_class :
    let name : Node := ⟨"identifier", true, false, 6, 9, some "name", []⟩
    let bytes : Text.Bytes := [99, 108, 97, 115, 115, 32, 102, 111, 111, 32, 123, 125]
    let source : Source := ⟨bytes, ⟨"class_declaration", true, false, 0, 12, none, [name]⟩⟩
    let fs : FileSystem := ⟨[(["src"], .directory), (["main"], .link "src"),
      (["src", "Foo.java"], .file bytes (some ⟨false, source.root⟩))], []⟩
    let file : Path := ⟨.relative, ["main", "Foo.java"]⟩
    fs.pathExists file = true ∧
      ∃ result : Logged Review,
        Analysis.ofPath [] fs (some {}) file = .ok result ∧
        result.value.issues.length = 2 ∧
        validateValue result.value.document Catalog.reviewName = .ok () ∧
        result.value.checkedDocument = .ok result.value.document := by
  intro name bytes source fs file
  have hlookup : fs.lookup file = .ok (.file bytes (some ⟨false, source.root⟩)) := by cbv
  have hfile : fs.isFile file = true := FileSystem.isFile_iff.mpr ⟨_, _, hlookup⟩
  have hexists : fs.pathExists file = true := FileSystem.pathExists_iff.mpr ⟨_, hlookup⟩
  have hparse : Loading.parse fs file = .ok source := Loading.parse_of_lookup hlookup
  have hissues : ((Service.ofConfig {}).analyzeUnit ⟨file, some source⟩).value.length = 2 := by
    decide +kernel
  obtain ⟨result, hok, hvalid, hchecked⟩ := service_review_satisfies_schema [] fs {} file hexists
  refine ⟨hexists, result, hok, ?_, hvalid, hchecked⟩
  obtain ⟨log, hown⟩ := Service.analyzeFile_of_source (Service.ofConfig {}) hfile (by decide)
  have hdir : ¬fs.isDirectory file = true := Bool.eq_false_iff.mp (by cbv)
  unfold Analysis.ofPath at hok
  rw [if_pos hexists] at hok
  have hpath : (Service.ofConfig {}).analyzePath fs file = .ok result := hok
  rw [Service.analyzePath, if_neg hdir, hown, Service.fileReview_of_parsed _ hparse] at hpath
  cases hpath
  exact hissues

end JavaLint
