import JavaLint.Proofs.Discovery
import JavaLint.Proofs.Findings
import JavaLint.Service
import Mathlib.Algebra.Ring.Int.Defs

/-! The analysis of a directory is the analysis of its files, one after the other. Two ways lead
through the code: a file is loaded on its own, or with all others that a search finds. Both come to
the same review of the file, which `fileReview` gives at once. -/
namespace JavaLint

/-- Paths of the same anchor with components free of slashes are told apart by their texts. -/
theorem Path.eq_of_text_eq {a b : Path} (ha : a.anchor = b.anchor) (hpa : a.parts ≠ [])
    (hpb : b.parts ≠ []) (hsa : ∀ part ∈ a.parts, '/' ∉ part.toList)
    (hsb : ∀ part ∈ b.parts, '/' ∉ part.toList) (h : a.text = b.text) : a = b := by
  have hha : a ≠ Path.here := fun h => hpa (congrArg Path.parts h)
  have hhb : b ≠ Path.here := fun h => hpb (congrArg Path.parts h)
  have htext : "/".intercalate a.parts = "/".intercalate b.parts := by
    unfold text at h
    rw [if_neg hha, if_neg hhb, ha] at h
    exact String.append_right_inj _ |>.mp h
  have hchars : ['/'].intercalate (a.parts.map String.toList) =
      ['/'].intercalate (b.parts.map String.toList) := by
    simpa using congrArg String.toList htext
  have hsplit := congrArg (List.splitOn '/') hchars
  rw [List.splitOn_intercalate _ (by simpa using hsa) (by simpa using hpa),
    List.splitOn_intercalate _ (by simpa using hsb) (by simpa using hpb)] at hsplit
  have hparts : a.parts = b.parts :=
    List.map_injective_iff.mpr (fun _ _ => String.toList_inj.mp) hsplit
  cases a
  cases b
  simp_all

namespace Loading

variable {fs : FileSystem} {file : Path}

theorem pathExists_of_isFile (h : fs.isFile file = true) : fs.pathExists file = true := by
  obtain ⟨bytes, tree, hl⟩ := FileSystem.isFile_iff.mp h
  exact FileSystem.pathExists_iff.mpr ⟨_, hl⟩

/-- A file can always be read. -/
theorem parse_of_lookup {bytes : Text.Bytes} {tree : Option Tree}
    (h : fs.lookup file = .ok (.file bytes tree)) :
    parse fs file = (parseContent file bytes tree).mapError .refused := by
  unfold parse
  rw [if_pos (FileSystem.pathExists_iff.mpr ⟨_, h⟩), FileSystem.content_of_lookup h]

theorem parse_of_isFile (h : fs.isFile file = true) :
    (∃ source, parse fs file = .ok source) ∨ ∃ cause, parse fs file = .error (.refused cause) := by
  obtain ⟨bytes, tree, hl⟩ := FileSystem.isFile_iff.mp h
  rw [parse_of_lookup hl]
  cases parseContent file bytes tree with
  | ok source => exact Or.inl ⟨source, rfl⟩
  | error cause => exact Or.inr ⟨cause, rfl⟩

theorem load_of_parsed {config : Config} {source : Source} (hf : fs.isFile file = true)
    (hx : file.hasExtension config.extensions = true) (hp : parse fs file = .ok source) :
    load fs config file = .ok ⟨[], file, some source⟩ := by
  simp [load, pathExists_of_isFile hf, hf, hx, hp]

theorem load_of_refused {config : Config} {cause : ParseError} (hf : fs.isFile file = true)
    (hx : file.hasExtension config.extensions = true)
    (hp : parse fs file = .error (.refused cause)) :
    ∃ log, load fs config file = .ok ⟨log, file, none⟩ := by
  simp [load, pathExists_of_isFile hf, hf, hx, hp]

def parsedUnits (fs : FileSystem) (files : List Path) : List SourceUnit :=
  files.filterMap fun file => (loadOrSkip fs file).value

theorem parsedUnits_of_parsed {source : Source} {rest : List Path}
    (hp : parse fs file = .ok source) :
    parsedUnits fs (file :: rest) = ⟨file, some source⟩ :: parsedUnits fs rest := by
  simp [parsedUnits, loadOrSkip, hp]

theorem parsedUnits_of_error {error : AnalysisError} {rest : List Path}
    (hp : parse fs file = .error error) :
    parsedUnits fs (file :: rest) = parsedUnits fs rest := by
  simp [parsedUnits, loadOrSkip, hp]

theorem source_of_mem_parsedUnits {files : List Path} {unit : SourceUnit}
    (h : unit ∈ parsedUnits fs files) : unit.source.isSome = true := by
  obtain ⟨file, -, hload⟩ := List.mem_filterMap.mp h
  rw [loadOrSkip] at hload
  split at hload
  · cases hload
    rfl
  · cases hload

/-- The number of workers does not show in what a walk loads. -/
theorem walk_of_pathExists (config : Config) {root : Path} (workers : Option Int)
    (h : fs.pathExists root = true) :
    ∃ log, walk fs config root workers = .ok ⟨log, parsedUnits fs (fs.sources config root)⟩ := by
  unfold walk
  rw [if_pos h]
  simp only [Workers.mapAll_eq_map, Logged.collect, Logged.map, List.filterMap_map]
  exact ⟨_, rfl⟩

end Loading

def Analyzer.SetsPath (analyzer : Analyzer) : Prop :=
  ∀ unit issues, analyzer.run unit = .ok issues → ∀ issue ∈ issues, issue.path = unit.path.text

theorem Analyzer.setsPath_ofCheck (category : Category)
    (check : Source → Except Fault (List Finding)) : (ofCheck category check).SetsPath := by
  intro unit issues hrun issue hmem
  cases hs : unit.source with
  | none =>
    simp only [ofCheck, hs] at hrun
    cases hrun
    cases hmem
  | some source =>
    obtain ⟨found, -, rfl⟩ := run_ofCheck hs hrun
    obtain ⟨finding, -, rfl⟩ := List.mem_map.mp hmem
    rfl

namespace Service

variable {fs : FileSystem} {file : Path}

/-- The review of one source file; there is nothing in it if the file cannot be parsed. -/
def fileReview (service : Service) (fs : FileSystem) (file : Path) : Review :=
  match Loading.parse fs file with
  | .ok source => { issues := (service.analyzeUnit ⟨file, some source⟩).value, filesAnalyzed := 1 }
  | .error _ => {}

theorem fileReview_of_parsed {source : Source} (service : Service)
    (hp : Loading.parse fs file = .ok source) :
    service.fileReview fs file =
      { issues := (service.analyzeUnit ⟨file, some source⟩).value, filesAnalyzed := 1 } := by
  simp [fileReview, hp]

theorem fileReview_of_error {error : AnalysisError} (service : Service)
    (hp : Loading.parse fs file = .error error) : service.fileReview fs file = {} := by
  simp [fileReview, hp]

theorem analyzeFile_of_source (service : Service) (hf : fs.isFile file = true)
    (hx : file.hasExtension service.config.extensions = true) :
    ∃ log, service.analyzeFile fs file = .ok ⟨log, service.fileReview fs file⟩ := by
  unfold analyzeFile
  rcases Loading.parse_of_isFile hf with ⟨source, hp⟩ | ⟨cause, hp⟩
  · rw [Loading.load_of_parsed hf hx hp, fileReview_of_parsed service hp]
    exact ⟨_, rfl⟩
  · obtain ⟨log, hload⟩ := Loading.load_of_refused hf hx hp
    rw [hload, fileReview_of_error service hp]
    exact ⟨_, rfl⟩

/-- What a walk loads has the issues of the files, and counts those that can be parsed. The
induction is over the files; one that is refused drops out of both sides. -/
theorem parsedUnits_reviews (service : Service) (fs : FileSystem) (files : List Path) :
    (Loading.parsedUnits fs files).flatMap (fun unit => (service.analyzeUnit unit).value) =
        files.flatMap (fun file => (service.fileReview fs file).issues) ∧
      ((Loading.parsedUnits fs files).length : Int) =
        (files.map fun file => (service.fileReview fs file).filesAnalyzed).sum := by
  induction files with
  | nil => exact ⟨rfl, rfl⟩
  | cons file rest ih =>
    obtain ⟨hissues, hcount⟩ := ih
    rw [List.flatMap_cons, List.map_cons, List.sum_cons, ← hissues, ← hcount]
    cases hp : Loading.parse fs file with
    | error error =>
      rw [Loading.parsedUnits_of_error hp, fileReview_of_error service hp]
      exact ⟨rfl, (Int.zero_add _).symm⟩
    | ok source =>
      rw [Loading.parsedUnits_of_parsed hp, fileReview_of_parsed service hp]
      refine ⟨rfl, ?_⟩
      rw [List.length_cons, Int.natCast_succ, Int.add_comm]

/-- The review of a directory: what a walk loads, one unit after the other. -/
theorem analyzeDirectory_units (service : Service) {root : Path} (shown : String)
    (h : fs.pathExists root = true) :
    ∃ log, service.analyzeDirectory fs root shown = .ok ⟨log,
      { issues := (Loading.parsedUnits fs (fs.sources service.config root)).flatMap fun unit =>
          (service.analyzeUnit unit).value
        filesAnalyzed := (Loading.parsedUnits fs (fs.sources service.config root)).length }⟩ := by
  obtain ⟨log, hwalk⟩ :=
    Loading.walk_of_pathExists service.config (some service.config.maxWorkers) h
  rw [analyzeDirectory]
  dsimp only
  rw [hwalk]
  simp only [Workers.mapAll_eq_map, Logged.collect, List.map_map, List.flatMap_def]
  exact ⟨_, rfl⟩

/-- The review of a directory: the reviews of its files put together. -/
theorem analyzeDirectory_eq (service : Service) {root : Path} (shown : String)
    (h : fs.pathExists root = true) :
    ∃ log, service.analyzeDirectory fs root shown = .ok ⟨log,
      { issues := (fs.sources service.config root).flatMap fun file =>
          (service.fileReview fs file).issues
        filesAnalyzed := ((fs.sources service.config root).map fun file =>
          (service.fileReview fs file).filesAnalyzed).sum }⟩ := by
  obtain ⟨hissues, hcount⟩ := parsedUnits_reviews service fs (fs.sources service.config root)
  rw [← hissues, ← hcount]
  exact analyzeDirectory_units service shown h

/-- The issues of a unit are those of the analyzers that do not give up on it. -/
theorem mem_analyzeUnit {service : Service} {unit : SourceUnit} {issue : Issue} :
    issue ∈ (service.analyzeUnit unit).value ↔
      unit.source.isSome = true ∧ ∃ analyzer ∈ service.analyzers, ∃ issues,
        analyzer.run unit = .ok issues ∧ issue ∈ issues := by
  unfold analyzeUnit
  cases hs : unit.source with
  | none => simp
  | some source =>
    have hrun : ∀ analyzer : Analyzer, issue ∈ (runAnalyzer unit analyzer).value ↔
        ∃ issues, analyzer.run unit = .ok issues ∧ issue ∈ issues := by
      intro analyzer
      unfold runAnalyzer
      cases analyzer.run unit with
      | error fault => simp
      | ok issues => simp
    simp [Logged.map, Logged.collect, hrun]

theorem path_of_mem_analyzeUnit {service : Service} {unit : SourceUnit} {issue : Issue}
    (h : ∀ analyzer ∈ service.analyzers, analyzer.SetsPath)
    (hmem : issue ∈ (service.analyzeUnit unit).value) : issue.path = unit.path.text := by
  obtain ⟨-, analyzer, ha, issues, hrun, hi⟩ := mem_analyzeUnit.mp hmem
  exact h analyzer ha unit issues hrun issue hi

theorem path_of_mem_fileReview {service : Service} {issue : Issue}
    (h : ∀ analyzer ∈ service.analyzers, analyzer.SetsPath)
    (hmem : issue ∈ (service.fileReview fs file).issues) : issue.path = file.text := by
  cases hp : Loading.parse fs file with
  | error error =>
    rw [fileReview_of_error service hp] at hmem
    cases hmem
  | ok source =>
    rw [fileReview_of_parsed service hp] at hmem
    exact path_of_mem_analyzeUnit h hmem

/-- Where texts tell files apart, the issues that carry the text of a file are its own. -/
theorem filter_path_flatMap {files : List Path} {issuesOf : Path → List Issue}
    (hn : (files.map Path.text).Nodup)
    (hpath : ∀ file ∈ files, ∀ issue ∈ issuesOf file, issue.path = file.text)
    (hf : file ∈ files) :
    (files.flatMap issuesOf).filter (·.path == file.text) = issuesOf file := by
  induction files with
  | nil => cases hf
  | cons first rest ih =>
    obtain ⟨hnot, hrest⟩ := List.nodup_cons.mp hn
    rw [List.flatMap_cons, List.filter_append]
    have hfirst := hpath first List.mem_cons_self
    have hothers : ∀ other ∈ rest, ∀ issue ∈ issuesOf other, issue.path = other.text :=
      fun other ho => hpath other (List.mem_cons_of_mem _ ho)
    rcases List.mem_cons.mp hf with rfl | hf
    · rw [List.filter_eq_self.mpr fun issue hi => beq_iff_eq.mpr (hfirst issue hi),
        List.filter_eq_nil_iff.mpr, List.append_nil]
      intro issue hi
      obtain ⟨other, ho, hi⟩ := List.mem_flatMap.mp hi
      rw [hothers other ho issue hi, beq_iff_eq]
      intro heq
      exact hnot (heq ▸ List.mem_map_of_mem ho)
    · rw [ih hrest hothers hf, List.filter_eq_nil_iff.mpr, List.nil_append]
      intro issue hi
      rw [hfirst issue hi, beq_iff_eq]
      intro heq
      exact hnot (heq ▸ List.mem_map_of_mem hf)

theorem texts_of_sources_nodup (fs : FileSystem) (config : Config) (root : Path) :
    ((fs.sources config root).map Path.text).Nodup := by
  refine List.Nodup.map_on ?_ (FileSystem.sources_nodup fs config root)
  intro a ha b hb h
  obtain ⟨routeA, hneA, -, rfl, hfA, -⟩ := FileSystem.source_of_mem_sources ha
  obtain ⟨routeB, hneB, -, rfl, hfB, -⟩ := FileSystem.source_of_mem_sources hb
  refine Path.eq_of_text_eq rfl ?_ ?_ ?_ ?_ h
  · exact List.append_ne_nil_of_right_ne_nil _ hneA
  · exact List.append_ne_nil_of_right_ne_nil _ hneB
  · exact fun part hp => (FileSystem.isStep_of_isFile hfA part hp).slash_not_mem
  · exact fun part hp => (FileSystem.isStep_of_isFile hfB part hp).slash_not_mem

/-- The analysis of a directory succeeds, and so does that of every file in it. Its issues are those
of the files one after the other in the order of the search, and its count is the sum of theirs; a
file that cannot be parsed adds nothing to either. If every analyzer writes the path of the unit on
its issues, the issues with the path of a file are exactly those of the file. Neither the number of
workers nor the analyzers that give up on some of the files make a difference. -/
theorem directory_is_concatenation_of_files (service : Service) (fs : FileSystem) (root : Path)
    (shown : String) (h : fs.isDirectory root = true) :
    ∃ (whole : Logged Review) (parts : List (Logged Review)),
      service.analyzeDirectory fs root shown = .ok whole ∧
      (fs.sources service.config root).mapM (service.analyzeFile fs) = .ok parts ∧
      whole.value.issues = parts.flatMap (·.value.issues) ∧
      whole.value.filesAnalyzed = (parts.map (·.value.filesAnalyzed)).sum ∧
      (∀ file ∈ fs.sources service.config root, ∀ error, Loading.parse fs file = .error error →
        ∃ log, service.analyzeFile fs file = .ok ⟨log, { issues := [], filesAnalyzed := 0 }⟩) ∧
      ((∀ analyzer ∈ service.analyzers, analyzer.SetsPath) →
        ∀ file ∈ fs.sources service.config root, ∀ own,
          service.analyzeFile fs file = .ok own →
          whole.value.issues.filter (·.path == file.text) = own.value.issues) := by
  have hfile : ∀ file ∈ fs.sources service.config root,
      ∃ log, service.analyzeFile fs file = .ok ⟨log, service.fileReview fs file⟩ := by
    intro file hmem
    obtain ⟨-, -, -, -, hf, hx⟩ := FileSystem.source_of_mem_sources hmem
    exact analyzeFile_of_source service hf hx
  obtain ⟨log, hwhole⟩ := analyzeDirectory_eq service shown
    (FileSystem.pathExists_iff.mpr ⟨_, FileSystem.isDirectory_iff.mp h⟩)
  choose! logs hlogs using hfile
  refine ⟨_, (fs.sources service.config root).map fun file =>
    ⟨logs file, service.fileReview fs file⟩, hwhole, ?_, ?_, ?_, ?_, ?_⟩
  · rw [mapM_eq_ok_iff, List.forall₂_map_right_iff]
    exact List.forall₂_same.mpr hlogs
  · rw [List.flatMap_map]
  · rw [List.map_map]
    rfl
  · intro file hmem error hp
    refine ⟨logs file, ?_⟩
    rw [hlogs file hmem, fileReview_of_error service hp]
  · intro hset file hmem own hown
    rw [hlogs file hmem] at hown
    cases hown
    exact filter_path_flatMap (texts_of_sources_nodup fs service.config root)
      (fun _ _ _ hi => path_of_mem_fileReview hset hi) hmem

/-- A file with two issues and one that cannot be parsed, below a directory; four workers, and an
analyzer that always gives up. -/
theorem directory_with_refused_file :
    let name : Node := ⟨"identifier", true, false, 6, 9, some "name", []⟩
    let bytes : Text.Bytes := [99, 108, 97, 115, 115, 32, 102, 111, 111, 32, 123, 125]
    let source : Source := ⟨bytes, ⟨"class_declaration", true, false, 0, 12, none, [name]⟩⟩
    let fs : FileSystem := ⟨[(["src"], .directory), (["src", "b"], .directory),
      (["src", "b", "Foo.java"], .file bytes (some ⟨false, source.root⟩)),
      (["src", "a.java"], .file [123] none)], []⟩
    let failing : Analyzer := ⟨"failing", "0", .bug, fun _ => .error .missingOperand⟩
    let service : Service := ⟨{ maxWorkers := 4 }, [failing, .style 30]⟩
    let src : Path := ⟨.relative, ["src"]⟩
    let file : Path := ⟨.relative, ["src", "b", "Foo.java"]⟩
    fs.isDirectory src = true ∧ (∀ analyzer ∈ service.analyzers, analyzer.SetsPath) ∧
      ∃ whole own, service.analyzeDirectory fs src "src" = .ok whole ∧
        service.analyzeFile fs file = .ok own ∧ own.value.issues.length = 2 ∧
        whole.value.issues.filter (·.path == file.text) = own.value.issues := by
  intro name bytes source fs failing service src file
  have hdir : fs.isDirectory src = true := by cbv
  have hset : ∀ analyzer ∈ service.analyzers, analyzer.SetsPath := by
    intro analyzer ha
    rcases List.mem_cons.mp ha with rfl | ha
    · intro unit issues hrun
      cases hrun
    · rw [List.mem_singleton.mp ha]
      exact Analyzer.setsPath_ofCheck _ _
  have hmem : file ∈ fs.sources service.config src := by
    have hsrc : fs.resolve src = .ok ["src"] := by cbv
    rw [FileSystem.sources_eq_map]
    refine List.mem_map.mpr ⟨["b", "Foo.java"], ?_, rfl⟩
    refine (FileSystem.mem_routes_iff rfl hsrc rfl).mpr ⟨["b"], "Foo.java", rfl, ?_⟩
    refine FileSystem.leadsToSource_cons.mpr ⟨rfl, by decide, ?_⟩
    exact FileSystem.leadsToSource_nil.mpr ⟨⟨_, _, rfl⟩, by decide⟩
  have hlookup : fs.lookup file = .ok (.file bytes (some ⟨false, source.root⟩)) := by cbv
  have hfile : fs.isFile file = true := FileSystem.isFile_iff.mpr ⟨_, _, hlookup⟩
  have hparse : Loading.parse fs file = .ok source := Loading.parse_of_lookup hlookup
  have hissues : (service.analyzeUnit ⟨file, some source⟩).value.length = 2 := by decide +kernel
  obtain ⟨whole, parts, hwhole, -, -, -, -, hfilter⟩ :=
    directory_is_concatenation_of_files service fs src "src" hdir
  obtain ⟨log, hown⟩ := analyzeFile_of_source service hfile (by decide)
  refine ⟨hdir, hset, whole, _, hwhole, hown, ?_, hfilter hset file hmem _ hown⟩
  rw [fileReview_of_parsed service hparse]
  exact hissues

end Service

end JavaLint
