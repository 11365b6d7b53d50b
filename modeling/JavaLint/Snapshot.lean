import JavaLint.Config
import JavaLint.FileSystem.Edit
import JavaLint.Json.Reader
import JavaLint.Text.Base64
import JavaLint.Tree.Rows

/-!
Projects given as JSON: a file system with its syntax trees, a working directory, and an
environment. A tree is listed row by row, and the content of a file is given as text or in base64.
-/
namespace JavaLint.Snapshot

/-- A row `[depth, kind, flags, start, end]` or `[depth, kind, flags, start, end, field]`. The
lowest flag marks a named node, the next one a missing node. -/
def row? : Json → Option Row
  | .arr (.int depth :: .str kind :: .int flags :: .int start :: .int stop :: more) =>
    let field := more.head?.bind Json.str?
    some ⟨depth.toNat, kind, flags.toNat % 2 == 1, flags.toNat / 2 % 2 == 1, start.toNat,
      stop.toNat, field⟩
  | _ => none

def tree? (value : Json) : Option Tree := do
  let hasError := ((value.get? "has_error").bind Json.bool?).getD false
  let rows ← (← (← value.get? "nodes").items?).mapM row?
  return ⟨hasError, ← Row.toTree? rows⟩

def bytes? (value : Json) : Option Text.Bytes :=
  match value.get? "source", value.get? "b64" with
  | some (.str text), _ => some (Text.encode text.toList)
  | _, some (.str text) => some (Text.decodeBase64 text.toList)
  | _, _ => none

def entry? (value : Json) : Option (Path × Entry) := do
  let path := Path.parse (← (← value.get? "path").str?)
  match (value.get? "dir").bind Json.bool?, (value.get? "symlink").bind Json.str? with
  | some true, _ => return (path, .directory)
  | _, some target => return (path, .link target)
  | _, _ => return (path, .file (← bytes? value) ((value.get? "tree").bind tree?))

def emptyDirectory (place : Place) : FileSystem :=
  { (FileSystem.empty.makeDirectories ⟨.root, place⟩).fs with workingDirectory := place }

def fileSystem? (workingDirectory : Place) (value : Json) : Option FileSystem := do
  let entries ← (← value.items?).mapM entry?
  return entries.foldl (fun fs (path, entry) => (fs.put path entry).fs)
    (emptyDirectory workingDirectory)

def environment? (value : Json) : Option Environment := do
  (← value.members?).mapM fun (name, text) => do return (name, ← text.str?)

/-- A project `{"cwd": path, "fs": [entry, ...], "env": {name: value, ...}}`; each part may be left
out, and the working directory is the root then. -/
def project? (text : List Char) : Option (FileSystem × Environment) := do
  let value ← (Json.read text).toOption
  let workingDirectory := (Path.parse (((value.get? "cwd").bind Json.str?).getD "/")).parts
  let fs ← fileSystem? workingDirectory ((value.get? "fs").getD (.arr []))
  let environment ← environment? ((value.get? "env").getD (.obj []))
  return (fs, environment)

end JavaLint.Snapshot
