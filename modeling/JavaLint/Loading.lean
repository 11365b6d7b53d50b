import JavaLint.FileSystem.Discovery
import JavaLint.Log
import JavaLint.Numeral.Integer
import JavaLint.Workers

/-!
Loading sources from a file system. A single file that cannot be parsed is loaded without a source;
in a directory such files are left out.
-/
namespace JavaLint

inductive AnalysisError where
  | fileNotFound (path : Path)
  | directoryNotFound (path : Path)
  | pathNotFound (path : Path)
  | system (cause : SystemError)
  | refused (cause : ParseError)
  | badNumber (cause : Numeral.IntegerError)

def AnalysisError.message : AnalysisError → String
  | .fileNotFound path => "File not found: " ++ path.text
  | .directoryNotFound path => "Directory not found: " ++ path.text
  | .pathNotFound path => "analyze_path: path does not exist: " ++ path.text
  | .system cause => cause.message
  | .refused cause => cause.message
  | .badNumber cause => cause.message

def AnalysisError.isNotFound : AnalysisError → Bool
  | .fileNotFound _ | .directoryNotFound _ | .pathNotFound _ => true
  | .system cause => cause.fault == .notFound
  | _ => false

namespace Loading

def logger : String := "code_quality.core.parser"

def parseContent (path : Path) (bytes : Text.Bytes) (tree : Option Tree) :
    Except ParseError Source :=
  match tree with
  | some tree => tree.parse path bytes
  | none => .error ⟨path, none⟩

def parse (fs : FileSystem) (path : Path) : Except AnalysisError Source :=
  if fs.pathExists path then
    match fs.content path with
    | .error cause => .error (.system cause)
    | .ok (bytes, tree) => (parseContent path bytes tree).mapError .refused
  else .error (.fileNotFound path)

/-- Loads one file. What is not a source file has no source, and neither has one that is refused. -/
def load (fs : FileSystem) (config : Config) (path : Path) :
    Except AnalysisError (Logged SourceUnit) :=
  if fs.pathExists path then
    if fs.isFile path && path.hasExtension config.extensions then
      match parse fs path with
      | .ok source => .ok ⟨[], path, some source⟩
      | .error (.refused cause) =>
        .ok ⟨[⟨.debug, logger, "Could not parse " ++ path.text ++ ": " ++ cause.detail⟩],
          path, none⟩
      | .error error => .error error
    else .ok ⟨[], path, none⟩
  else .error (.fileNotFound path)

def loadOrSkip (fs : FileSystem) (path : Path) : Logged (Option SourceUnit) :=
  match parse fs path with
  | .ok source => ⟨[], some ⟨path, some source⟩⟩
  | .error error =>
    ⟨[⟨.warning, logger, "Skipping " ++ path.text ++ ": " ++ error.message⟩], none⟩

/-- Loads every source file below a directory that can be parsed, with as many workers as told or
else as the configuration says. -/
def walk (fs : FileSystem) (config : Config) (root : Path) (workers : Option Int := none) :
    Except AnalysisError (Logged (List SourceUnit)) :=
  if fs.pathExists root then
    let files := fs.sources config root
    let loaded := Workers.mapAll (workers.getD config.maxWorkers) (loadOrSkip fs) files
    .ok ((Logged.collect loaded).map (·.filterMap fun unit => unit))
  else .error (.directoryNotFound root)

end Loading

end JavaLint
