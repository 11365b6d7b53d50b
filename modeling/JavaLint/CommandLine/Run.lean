import JavaLint.CommandLine.Command
import JavaLint.Service
import JavaLint.Validation

/-!
Running a command line on a file system. A run returns the changed file system, and either what it
prints and its exit code or the error that stops it.
-/
namespace JavaLint.CommandLine

/-- Stands in for the help and for the usage line of a refused command line, which are longer: only
when and where they are printed is described. -/
def usage : String :=
  "usage: code-quality [analyze] PATH [--format text|json|markdown|html] [--output FILE]\n" ++
  "         [--fail-on critical|high|medium|low|info|never] [--workers N]\n" ++
  "         [--max-method-lines N] [-v]\n" ++
  "       code-quality validate DOCUMENT [SCHEMA]\n" ++
  "       code-quality --help | --version\n"

def versionText : String := "code-quality " ++ programVersion ++ "\n"

structure Outcome where
  exit : ExitCode
  stdout : String := ""
  stderr : String := ""
  /-- The command line itself ended the run. -/
  endedByGrammar : Bool := false
  deriving DecidableEq, Repr

def Stop.outcome : Stop → Outcome
  | .usageError => { exit := .error, stderr := usage, endedByGrammar := true }
  | .help => { exit := .success, stdout := usage, endedByGrammar := true }
  | .version => { exit := .success, stdout := versionText, endedByGrammar := true }

def logger : String := "code_quality"

def shownLog (verbose : Bool) (log : Log) : String :=
  String.join ((log.atLeast (if verbose then .debug else .warning)).map fun entry =>
    entry.line ++ "\n")

def failure (message : String) : Outcome := { exit := .error, stderr := message ++ "\n" }

def AnalyzeCommand.config (command : AnalyzeCommand) (environment : Environment) :
    Except Numeral.IntegerError Config :=
  Config.ofEnvironment environment
    { maxWorkers := command.workers, maxMethodLines := command.maxMethodLines }

/-- Prints or writes the report of a review. The directories made for it stay even if it cannot be
written. -/
def AnalyzeCommand.deliver (command : AnalyzeCommand) (fs : FileSystem) (review : Logged Review) :
    FileSystem × Except AnalysisError Outcome :=
  let report := review.value.report command.format exportLimit
  let exit := review.value.exitCode command.failOn
  match command.output with
  | none => (fs, .ok ⟨exit, report, shownLog command.verbose review.log, false⟩)
  | some path =>
    let edited := fs.writeFileWithParents path (Text.encode report.toList) none
    match edited.result with
    | .error cause => (edited.fs, .error (.system cause))
    | .ok () =>
      let written : LogRecord :=
        ⟨.info, logger, "Wrote " ++ command.format.name ++ " report to " ++ path.text⟩
      (edited.fs, .ok ⟨exit, "", shownLog command.verbose (review.log ++ [written]), false⟩)

def AnalyzeCommand.run (command : AnalyzeCommand) (environment : Environment) (fs : FileSystem) :
    FileSystem × Except AnalysisError Outcome :=
  if command.workers.any (· < 1) then (fs, .ok (failure "error: --workers must be at least 1"))
  else
    match command.config environment with
    | .error cause => (fs, .error (.badNumber cause))
    | .ok config =>
      match Analysis.ofPath environment fs (some config) command.path with
      | .error error =>
        if error.isNotFound then (fs, .ok (failure ("error: " ++ error.message)))
        else (fs, .error error)
      | .ok review => command.deliver fs review

def ValidateCommand.run (command : ValidateCommand) (fs : FileSystem) : Outcome :=
  match validateFile fs command.document command.schemaName with
  | .ok () => { exit := .success, stdout := "OK\n" }
  | .error (.violation first) => { exit := .violation, stderr := "FAIL: " ++ first.message ++ "\n" }
  | .error error => failure ("ERROR: " ++ error.message)

def run (arguments : List String) (environment : Environment) (fs : FileSystem) :
    FileSystem × Except AnalysisError Outcome :=
  match parse arguments with
  | .error stop => (fs, .ok stop.outcome)
  | .ok none => (fs, .ok { exit := .error, stderr := usage })
  | .ok (some (.validate command)) => (fs, .ok (command.run fs))
  | .ok (some (.analyze command)) => command.run environment fs

end JavaLint.CommandLine
