import JavaLint.Proofs.DirectoryAnalysis

/-! The analysis of one path. Its units are loaded first and analyzed then, and only the second step
looks at the analyzers. A path that is there always has a review, one that is not is reported as
missing, and the number of workers shows neither in the review nor in the log. -/
namespace JavaLint

variable {fs : FileSystem} {path : Path}

theorem Service.analyzePath_of_pathExists (service : Service) (h : fs.pathExists path = true) :
    ∃ review, service.analyzePath fs path = .ok review := by
  unfold analyzePath
  by_cases hd : fs.isDirectory path = true
  · rw [if_pos hd]
    obtain ⟨log, hreview⟩ := service.analyzeDirectory_eq path.text h
    exact ⟨_, hreview⟩
  · rw [if_neg hd]
    by_cases hsource : fs.isFile path = true ∧ path.hasExtension service.config.extensions = true
    · obtain ⟨log, hreview⟩ := service.analyzeFile_of_source hsource.1 hsource.2
      exact ⟨_, hreview⟩
    · -- What is no source file is loaded without a source.
      have hload : Loading.load fs service.config path = .ok ⟨[], path, none⟩ := by
        unfold Loading.load
        rw [if_pos h, if_neg (by simpa using hsource)]
      unfold analyzeFile
      rw [hload]
      exact ⟨_, rfl⟩

structure Config.SameSearch (config other : Config) : Prop where
  extensions : config.extensions = other.extensions
  ignoredDirectories : config.ignoredDirectories = other.ignoredDirectories
  followLinks : config.followLinks = other.followLinks

section Search
variable {config other : Config} (h : config.SameSearch other)
include h

theorem FileSystem.sourcesWithin_congr (fuel : Nat) (path : Path) :
    fs.sourcesWithin config fuel path = fs.sourcesWithin other fuel path := by
  induction fuel generalizing path with
  | zero => rfl
  | succ fuel ih =>
    simp only [sourcesWithin, ih, h.extensions, h.ignoredDirectories, h.followLinks]

theorem Loading.walk_congr (root : Path) (told toldOther : Option Int) :
    walk fs config root told = walk fs other root toldOther := by
  have hsources : fs.sources config root = fs.sources other root :=
    FileSystem.sourcesWithin_congr h fs.searchBound root
  simp only [walk, hsources, Workers.mapAll_eq_map]

theorem Loading.load_congr (path : Path) : load fs config path = load fs other path := by
  simp only [load, h.extensions]

end Search

/-- The units of a path: all sources below a directory, or else what stands there, with a source or
without. -/
def Loading.unitsAt (fs : FileSystem) (config : Config) (path : Path) :
    Except AnalysisError (Logged (List SourceUnit)) :=
  if fs.isDirectory path then
    (walk fs config path).map fun units =>
      let progress : LogRecord := ⟨.info, Service.logger,
        s!"Analyzing {units.value.length} file(s) under " ++ path.text⟩
      ⟨units.log ++ [progress], units.value⟩
  else (load fs config path).map fun unit => ⟨unit.log, [unit.value]⟩

theorem Loading.unitsAt_congr {config other : Config} (h : config.SameSearch other) (path : Path) :
    unitsAt fs config path = unitsAt fs other path := by
  simp only [unitsAt, walk_congr h path none none, load_congr h]

def Service.analyzeUnits (service : Service) (units : Logged (List SourceUnit)) : Logged Review :=
  ⟨units.log ++ units.value.flatMap fun unit => (service.analyzeUnit unit).log,
    { issues := units.value.flatMap fun unit => (service.analyzeUnit unit).value
      filesAnalyzed := units.value.countP (·.source.isSome) }⟩

theorem Service.analyzeDirectory_eq_map (service : Service) (h : fs.isDirectory path = true) :
    service.analyzeDirectory fs path path.text =
      (Loading.unitsAt fs service.config path).map service.analyzeUnits := by
  have hexists : fs.pathExists path = true :=
    FileSystem.pathExists_iff.mpr ⟨_, FileSystem.isDirectory_iff.mp h⟩
  obtain ⟨log, hwalk⟩ := Loading.walk_of_pathExists service.config none hexists
  have hwalk' : Loading.walk fs service.config path (some service.config.maxWorkers) = _ :=
    (Loading.walk_congr ⟨rfl, rfl, rfl⟩ path _ none).trans hwalk
  have hcount : (Loading.parsedUnits fs (fs.sources service.config path)).countP
      (·.source.isSome) = (Loading.parsedUnits fs (fs.sources service.config path)).length :=
    List.countP_eq_length.mpr fun unit hmem => Loading.source_of_mem_parsedUnits hmem
  rw [analyzeDirectory, Loading.unitsAt, if_pos h, hwalk]
  dsimp only
  rw [hwalk']
  simp only [Workers.mapAll_eq_map, Logged.collect, Except.map, analyzeUnits, hcount,
    List.flatMap_def, List.map_map, bind, Except.bind, pure, Except.pure, List.append_assoc,
    List.singleton_append, Function.comp_def]

theorem Service.analyzeFile_eq_map (service : Service) (h : fs.isDirectory path = false) :
    service.analyzeFile fs path =
      (Loading.unitsAt fs service.config path).map service.analyzeUnits := by
  rw [analyzeFile, Loading.unitsAt, if_neg (by simp [h])]
  cases Loading.load fs service.config path with
  | error error => rfl
  | ok unit =>
    cases hs : unit.value.source with
    | none => simp [analyzeUnits, Except.map, bind, Except.bind, pure, Except.pure, hs]
    | some source => simp [analyzeUnits, Except.map, bind, Except.bind, pure, Except.pure, hs]

/-- An analysis loads and then analyzes. -/
theorem Service.analyzePath_eq_map (service : Service) (fs : FileSystem) (path : Path) :
    service.analyzePath fs path =
      (Loading.unitsAt fs service.config path).map service.analyzeUnits := by
  rw [analyzePath]
  by_cases h : fs.isDirectory path = true
  · rw [if_pos h, service.analyzeDirectory_eq_map h]
  · rw [if_neg h, service.analyzeFile_eq_map (by simpa using h)]

def Config.withWorkers (config : Config) (workers : Int) : Config :=
  { config with maxWorkers := workers }

theorem Service.analyzePath_withWorkers (config : Config) (workers : Int) (fs : FileSystem)
    (path : Path) :
    (ofConfig (config.withWorkers workers)).analyzePath fs path =
      (ofConfig config).analyzePath fs path := by
  have hsearch : (config.withWorkers workers).SameSearch config := ⟨rfl, rfl, rfl⟩
  rw [analyzePath_eq_map, analyzePath_eq_map]
  show (Loading.unitsAt fs (config.withWorkers workers) path).map _ = _
  rw [Loading.unitsAt_congr hsearch]
  rfl

namespace Analysis

theorem ofPath_of_pathExists (environment : Environment) (config : Config)
    (h : fs.pathExists path = true) :
    ∃ review, ofPath environment fs (some config) path = .ok review := by
  unfold ofPath
  rw [if_pos h]
  exact (Service.ofConfig config).analyzePath_of_pathExists h

theorem ofPath_of_missing (environment : Environment) (config : Config)
    (h : fs.pathExists path = false) :
    ofPath environment fs (some config) path = .error (.pathNotFound path) := by
  unfold ofPath
  rw [if_neg (by simp [h])]

theorem ofPath_withWorkers (environment : Environment) (config : Config) (workers : Int) :
    ofPath environment fs (some (config.withWorkers workers)) path =
      ofPath environment fs (some config) path := by
  unfold ofPath
  by_cases h : fs.pathExists path = true
  · rw [if_pos h, if_pos h]
    exact Service.analyzePath_withWorkers config workers fs path
  · rw [if_neg h, if_neg h]

end Analysis

end JavaLint
