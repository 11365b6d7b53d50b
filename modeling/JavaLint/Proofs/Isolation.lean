import JavaLint.Proofs.DirectoryAnalysis

/-! Analyzers that give up. The issues of a unit fall into one block for each analyzer, and an
analyzer that gives up on the unit leaves its block empty. Whatever analyzers give up on whatever
units, no other block changes, and neither does the number of files. -/
namespace JavaLint

namespace Analyzer

variable {unit : SourceUnit} {analyzer : Analyzer}

def returnsOn (unit : SourceUnit) (analyzer : Analyzer) : Bool := (analyzer.run unit).isOk

def block (unit : SourceUnit) (analyzer : Analyzer) : List Issue :=
  (analyzer.run unit).toOption.getD []

def withFaults (faults : SourceUnit → Option Fault) (analyzer : Analyzer) : Analyzer :=
  { analyzer with
    run := fun unit =>
      match faults unit with
      | some fault => .error fault
      | none => analyzer.run unit }

theorem block_of_not_returnsOn (h : analyzer.returnsOn unit = false) :
    analyzer.block unit = [] := by
  rw [returnsOn] at h
  rw [block]
  cases hr : analyzer.run unit with
  | error fault => rfl
  | ok issues =>
    rw [hr] at h
    cases h

theorem block_withFaults (faults : SourceUnit → Option Fault) (unit : SourceUnit)
    (analyzer : Analyzer) :
    (analyzer.withFaults faults).block unit =
      if (faults unit).isSome then [] else analyzer.block unit := by
  cases hf : faults unit with
  | none => simp [block, withFaults, hf]
  | some fault => simp [block, withFaults, hf, Except.toOption]

/-- Leaving out the analyzers that give up leaves out empty blocks only. -/
theorem flatMap_block_filter (unit : SourceUnit) (analyzers : List Analyzer) :
    (analyzers.filter (·.returnsOn unit)).flatMap (·.block unit) =
      analyzers.flatMap (·.block unit) := by
  induction analyzers with
  | nil => rfl
  | cons first rest ih =>
    rw [List.flatMap_cons, ← ih]
    by_cases h : first.returnsOn unit = true
    · rw [List.filter_cons_of_pos h, List.flatMap_cons]
    · rw [List.filter_cons_of_neg h, block_of_not_returnsOn (by simpa using h), List.nil_append]

theorem flatten_filterMap_run (unit : SourceUnit) (analyzers : List Analyzer) :
    (analyzers.filterMap fun analyzer => (analyzer.run unit).toOption).flatten =
      analyzers.flatMap (·.block unit) := by
  induction analyzers with
  | nil => rfl
  | cons first rest ih =>
    rw [List.flatMap_cons, ← ih, List.filterMap_cons, block]
    cases first.run unit with
    | error fault => rfl
    | ok issues => rfl

end Analyzer

namespace Service

variable {fs : FileSystem} {root : Path} {unit : SourceUnit}

def blocks (service : Service) (unit : SourceUnit) : List (List Issue) :=
  service.analyzers.map (·.block unit)

def keeping (service : Service) (keep : Analyzer → Bool) : Service :=
  { service with analyzers := service.analyzers.filter keep }

/-- The service with faults: each says of an analyzer, by its position, and of a unit why the one
gives up on the other. -/
def withFaults (service : Service) (faults : Nat → SourceUnit → Option Fault) : Service :=
  { service with
    analyzers := service.analyzers.mapIdx fun position analyzer =>
      analyzer.withFaults (faults position) }

theorem value_runAnalyzer (unit : SourceUnit) (analyzer : Analyzer) :
    (runAnalyzer unit analyzer).value = analyzer.block unit := by
  rw [runAnalyzer, Analyzer.block]
  cases analyzer.run unit with
  | error fault => rfl
  | ok issues => rfl

theorem value_analyzeUnit (service : Service) (h : unit.source.isSome = true) :
    (service.analyzeUnit unit).value = (service.blocks unit).flatten := by
  obtain ⟨source, hs⟩ := Option.isSome_iff_exists.mp h
  rw [analyzeUnit, hs]
  simp only [Logged.map, Logged.collect, List.map_map, Function.comp_def, value_runAnalyzer, blocks]

theorem blocks_withFaults (service : Service) (faults : Nat → SourceUnit → Option Fault)
    (unit : SourceUnit) :
    (service.withFaults faults).blocks unit =
      (service.blocks unit).mapIdx fun position block =>
        if (faults position unit).isSome then [] else block := by
  apply List.ext_getElem?
  intro position
  simp only [blocks, withFaults, List.getElem?_map, List.getElem?_mapIdx, Option.map_map,
    Function.comp_def, Analyzer.block_withFaults]

theorem analyzeDirectory_blocks (service : Service) (shown : String)
    (h : fs.isDirectory root = true) :
    ∃ whole : Logged Review, service.analyzeDirectory fs root shown = .ok whole ∧
      whole.value.filesAnalyzed = (Loading.parsedUnits fs (fs.sources service.config root)).length ∧
      whole.value.issues = (Loading.parsedUnits fs (fs.sources service.config root)).flatMap
        fun unit => (service.blocks unit).flatten := by
  obtain ⟨log, hreview⟩ := analyzeDirectory_units service shown
    (FileSystem.pathExists_iff.mpr ⟨_, FileSystem.isDirectory_iff.mp h⟩)
  refine ⟨_, hreview, rfl, ?_⟩
  apply List.flatMap_congr
  intro unit hmem
  exact value_analyzeUnit service (Loading.source_of_mem_parsedUnits hmem)

/-- The issues of a unit are those of the analyzers that return, in the order of their registration,
as if the others were not there. In a directory, faults of any analyzers on any units change nothing
but the blocks that they empty. -/
theorem raising_analyzers_isolated (service : Service) :
    (∀ unit : SourceUnit, unit.source.isSome = true →
      (service.analyzeUnit unit).value =
        (service.analyzers.filterMap fun analyzer => (analyzer.run unit).toOption).flatten ∧
      (service.analyzeUnit unit).value =
        ((service.keeping (·.returnsOn unit)).analyzeUnit unit).value) ∧
    ∀ (fs : FileSystem) (root : Path) (shown : String), fs.isDirectory root = true →
      ∀ faults : Nat → SourceUnit → Option Fault, ∃ whole faulty : Logged Review,
        service.analyzeDirectory fs root shown = .ok whole ∧
        (service.withFaults faults).analyzeDirectory fs root shown = .ok faulty ∧
        faulty.value.filesAnalyzed = whole.value.filesAnalyzed ∧
        whole.value.issues = (Loading.parsedUnits fs (fs.sources service.config root)).flatMap
          (fun unit => (service.blocks unit).flatten) ∧
        faulty.value.issues = (Loading.parsedUnits fs (fs.sources service.config root)).flatMap
          (fun unit => ((service.blocks unit).mapIdx fun position block =>
            if (faults position unit).isSome then [] else block).flatten) := by
  constructor
  · intro unit hsource
    rw [value_analyzeUnit service hsource, value_analyzeUnit _ hsource,
      Analyzer.flatten_filterMap_run]
    exact ⟨rfl, (Analyzer.flatMap_block_filter unit service.analyzers).symm⟩
  · intro fs root shown hdir faults
    obtain ⟨whole, hwhole, hcount, hissues⟩ := service.analyzeDirectory_blocks shown hdir
    obtain ⟨faulty, hfaulty, hcount', hissues'⟩ :=
      (service.withFaults faults).analyzeDirectory_blocks shown hdir
    refine ⟨whole, faulty, hwhole, hfaulty, hcount'.trans hcount.symm, hissues, ?_⟩
    rw [hissues']
    simp only [blocks_withFaults]
    rfl

/-- Two analyzers of style, the first of which fails on the only file of a directory: the issue of
the second one stays. -/
theorem issue_beside_fault :
    let source : Source := ⟨[], ⟨"class_declaration", true, false, 0, 0, none, []⟩⟩
    let file : Path := ⟨.relative, ["src", "a.java"]⟩
    let fs : FileSystem := ⟨[(["src"], .directory),
      (["src", "a.java"], .file [] (some ⟨false, source.root⟩))], []⟩
    let src : Path := ⟨.relative, ["src"]⟩
    let service : Service := ⟨{ maxWorkers := 4 }, [.style 30, .style 30]⟩
    let faults : Nat → SourceUnit → Option Fault := fun position unit =>
      if position = 0 ∧ unit.path = file then some .missingOperand else none
    let issue : Issue := ⟨"a.java", 1, "Class '' is missing Javadoc comment", .style, .low,
      "STY_CLASS_JAVADOC_001", "src/a.java"⟩
    fs.isDirectory src = true ∧ ∃ whole faulty : Logged Review,
      service.analyzeDirectory fs src "src" = .ok whole ∧
      (service.withFaults faults).analyzeDirectory fs src "src" = .ok faulty ∧
      faulty.value.filesAnalyzed = whole.value.filesAnalyzed ∧
      issue ∈ whole.value.issues ∧ issue ∈ faulty.value.issues ∧
      ((service.withFaults faults).analyzeUnit ⟨file, some source⟩).value =
        (Analyzer.style 30).block ⟨file, some source⟩ := by
  intro source file fs src service faults issue
  have hdir : fs.isDirectory src = true := by cbv
  have hunit : (⟨file, some source⟩ : SourceUnit) ∈
      Loading.parsedUnits fs (fs.sources service.config src) := by
    have hsrc : fs.resolve src = .ok ["src"] := by cbv
    have hlookup : fs.lookup file = .ok (.file [] (some ⟨false, source.root⟩)) := by cbv
    have hmem : file ∈ fs.sources service.config src := by
      rw [FileSystem.sources_eq_map]
      refine List.mem_map.mpr ⟨["a.java"], ?_, rfl⟩
      refine (FileSystem.mem_routes_iff rfl hsrc rfl).mpr ⟨[], "a.java", rfl, ?_⟩
      exact FileSystem.leadsToSource_nil.mpr ⟨⟨_, _, rfl⟩, by decide⟩
    refine List.mem_filterMap.mpr ⟨file, hmem, ?_⟩
    rw [Loading.loadOrSkip, Loading.parse_of_lookup hlookup]
    rfl
  have hrun : (Analyzer.style 30).block ⟨file, some source⟩ =
      [⟨"a.java", 1, "Class name '' does not follow the PascalCase naming convention", .style, .low,
        "STY_CLASS_NAME_001", "src/a.java"⟩, issue] := by decide +kernel
  obtain ⟨whole, faulty, hwhole, hfaulty, hcount, hissues, hissues'⟩ :=
    (raising_analyzers_isolated service).2 fs src "src" hdir faults
  obtain ⟨hreturned, -⟩ :=
    (raising_analyzers_isolated (service.withFaults faults)).1 ⟨file, some source⟩ rfl
  refine ⟨hdir, whole, faulty, hwhole, hfaulty, hcount, ?_, ?_, ?_⟩
  · rw [hissues]
    refine List.mem_flatMap.mpr ⟨_, hunit, ?_⟩
    simp [blocks, service, hrun]
  · rw [hissues']
    refine List.mem_flatMap.mpr ⟨_, hunit, ?_⟩
    simp [blocks, service, faults, hrun]
  · rw [hreturned, Analyzer.flatten_filterMap_run]
    simp [withFaults, Analyzer.block_withFaults, service, faults]

end Service

end JavaLint
