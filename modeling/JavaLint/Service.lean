import JavaLint.Analyzer
import JavaLint.Loading
import JavaLint.Review.Basic

/-!
The analysis service: loads sources and runs every analyzer over each of them. An analyzer that
gives up on a source contributes nothing for it, and the others still run. Issues follow the order
of the files, and within a file the order of the analyzers.
-/
namespace JavaLint

structure Service where
  config : Config
  analyzers : List Analyzer

namespace Service

def logger : String := "code_quality.core.service"

def ofConfig (config : Config) : Service := ⟨config, Analyzer.defaults config.maxMethodLines⟩

def runAnalyzer (unit : SourceUnit) (analyzer : Analyzer) : Logged (List Issue) :=
  match analyzer.run unit with
  | .ok issues => ⟨[], issues⟩
  | .error _ =>
    ⟨[⟨.error, logger,
      "Analyzer '" ++ analyzer.name ++ "' raised on " ++ unit.path.text ++ "; skipped"⟩], []⟩

def analyzeUnit (service : Service) (unit : SourceUnit) : Logged (List Issue) :=
  match unit.source with
  | none => ⟨[], []⟩
  | some _ => (Logged.collect (service.analyzers.map (runAnalyzer unit))).map List.flatten

def analyzeFile (service : Service) (fs : FileSystem) (path : Path) :
    Except AnalysisError (Logged Review) := do
  let unit ← Loading.load fs service.config path
  let issues := service.analyzeUnit unit.value
  let count : Int := if unit.value.source.isSome then 1 else 0
  return ⟨unit.log ++ issues.log, { issues := issues.value, filesAnalyzed := count }⟩

/-- Analyzes every source file below a directory, which the log calls `shown`. -/
def analyzeDirectory (service : Service) (fs : FileSystem) (root : Path) (shown : String) :
    Except AnalysisError (Logged Review) := do
  let workers := service.config.maxWorkers
  let units ← Loading.walk fs service.config root workers
  let count := units.value.length
  let issues := Logged.collect (Workers.mapAll workers service.analyzeUnit units.value)
  let progress : LogRecord := ⟨.info, logger, s!"Analyzing {count} file(s) under " ++ shown⟩
  return ⟨units.log ++ progress :: issues.log,
    { issues := issues.value.flatten, filesAnalyzed := count }⟩

def analyzePath (service : Service) (fs : FileSystem) (path : Path) :
    Except AnalysisError (Logged Review) :=
  if fs.isDirectory path then service.analyzeDirectory fs path path.text
  else service.analyzeFile fs path

end Service

namespace Analysis

def service (environment : Environment) (config : Option Config) : Except AnalysisError Service :=
  match config with
  | some config => .ok (.ofConfig config)
  | none =>
    match Config.ofEnvironment environment {} with
    | .ok config => .ok (.ofConfig config)
    | .error cause => .error (.badNumber cause)

def ofFile (environment : Environment) (fs : FileSystem) (config : Option Config) (path : Path) :
    Except AnalysisError (Logged Review) := do
  (← service environment config).analyzeFile fs path

def ofDirectory (environment : Environment) (fs : FileSystem) (config : Option Config)
    (path : Path) : Except AnalysisError (Logged Review) := do
  (← service environment config).analyzeDirectory fs path path.text

def ofPath (environment : Environment) (fs : FileSystem) (config : Option Config) (path : Path) :
    Except AnalysisError (Logged Review) := do
  if fs.pathExists path then (← service environment config).analyzePath fs path
  else .error (.pathNotFound path)

end Analysis

end JavaLint
