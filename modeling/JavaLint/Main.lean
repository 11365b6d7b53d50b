import JavaLint.CommandLine.Run
import JavaLint.Snapshot

/-!
The command line. The project, its sources already parsed, is read from standard input as JSON; the
report goes to standard output or to the file that the command names.
-/
namespace JavaLint.Main

partial def readAll (input : IO.FS.Stream) (read : String) : IO String := do
  let line ← input.getLine
  if line.isEmpty then return read else readAll input (read ++ line)

/-- The way from one place to another: up as far as needed, and down again. -/
def way : (start target : Place) → List String
  | a :: start, b :: target =>
    if a == b then way start target else (a :: start).map (fun _ => "..") ++ b :: target
  | start, target => start.map (fun _ => "..") ++ target

def store (fs : FileSystem) (files : List (Place × Text.Bytes)) : IO Unit := do
  for (place, bytes) in files do
    let path : Path := ⟨.relative, way fs.workingDirectory place⟩
    IO.FS.createDirAll path.parent.text
    IO.FS.writeBinFile path.text (ByteArray.mk bytes.toArray)

def runOn (arguments : List String) (environment : Environment) (fs : FileSystem) :
    IO UInt32 := do
  let (changed, result) := CommandLine.run arguments environment fs
  store fs (fs.newFiles changed)
  match result with
  | .error error =>
    IO.eprintln error.message
    return 1
  | .ok outcome =>
    IO.print outcome.stdout
    IO.eprint outcome.stderr
    return outcome.exit.number.toUInt32

def run (arguments : List String) : IO UInt32 := do
  let text ← readAll (← IO.getStdin) ""
  match Snapshot.project? text.toList with
  | some (fs, environment) => runOn arguments environment fs
  | none =>
    IO.eprintln "error: standard input holds no project"
    return 2

end JavaLint.Main

def main (arguments : List String) : IO UInt32 := JavaLint.Main.run arguments
