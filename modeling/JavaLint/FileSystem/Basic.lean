import JavaLint.Path
import JavaLint.Text.Quoted
import JavaLint.Tree.Parse

/-!
File systems. A file system is a list of entries, each at the components that lead to it from the
root, and a working directory, where relative paths start; the root itself is the empty list. An
absent entry is an error of its own, and links are followed up to a bound on their number. Every
entry can be read and written by everyone, and names have any length.
-/
namespace JavaLint

/-- What stands at a place. A file that can be parsed carries its syntax tree. -/
inductive Entry where
  | file (bytes : Text.Bytes) (tree : Option Tree)
  | directory
  | link (target : String)
  deriving Repr

abbrev Place := List String

def Anchor.start (place : Place) : Anchor → Place
  | .relative => place
  | .root | .doubleRoot => []

structure FileSystem where
  entries : List (Place × Entry)
  workingDirectory : Place := []
  deriving Repr

inductive SystemFault where
  | notFound
  | exists
  | notDirectory
  | isDirectory
  | tooManyLinks
  /-- The path has a null character in it. -/
  | nullCharacter
  deriving DecidableEq, Repr

def SystemFault.number : SystemFault → Nat
  | .notFound => 2
  | .exists => 17
  | .notDirectory => 20
  | .isDirectory => 21
  | .tooManyLinks => 40
  | .nullCharacter => 22

def SystemFault.reason : SystemFault → String
  | .notFound => "No such file or directory"
  | .exists => "File exists"
  | .notDirectory => "Not a directory"
  | .isDirectory => "Is a directory"
  | .tooManyLinks => "Too many levels of symbolic links"
  | .nullCharacter => "embedded null byte"

structure SystemError where
  fault : SystemFault
  path : Path
  target : Option String := none
  deriving DecidableEq, Repr

/-- What the error says of its path; a path with a null character is not shown. -/
def SystemError.message (error : SystemError) : String :=
  let target :=
    match error.target with
    | some target => Text.quote target ++ " -> "
    | none => ""
  if error.fault = .nullCharacter then error.fault.reason
  else
    s!"[Errno {error.fault.number}] {error.fault.reason}: " ++ target ++ Text.quote error.path.text

namespace FileSystem

def empty : FileSystem := ⟨[], []⟩

def isName (text : String) : Bool :=
  text != "" && text != "." && text != ".." && !text.toList.contains '/' &&
    !text.toList.contains '\x00'

/-- What stands at a place, links not followed. Only names lead to a place. -/
def get? (fs : FileSystem) (place : Place) : Option Entry :=
  if place = [] then some .directory
  else if place.all isName then (fs.entries.find? (·.1 == place)).map (·.2)
  else none

def isDirectoryAt (fs : FileSystem) (place : Place) : Bool :=
  match fs.get? place with
  | some .directory => true
  | _ => false

def linkLimit : Nat := 40

/-- A step from a directory into a component: the place it leads to and what stands there. Above the
root stands the root itself. -/
def enter (fs : FileSystem) (place : Place) (component : String) :
    Except SystemFault (Place × Entry) :=
  if fs.isDirectoryAt place then
    if component == ".." then .ok (place.dropLast, .directory)
    else match fs.get? (place ++ [component]) with
      | some entry => .ok (place ++ [component], entry)
      | none => .error .notFound
  else .error .notDirectory

def followFrom (fs : FileSystem) (links : Nat) (place : Place) (rest : List String) :
    Except SystemFault Place :=
  match rest with
  | [] => .ok place
  | component :: rest =>
    match fs.enter place component with
    | .error fault => .error fault
    | .ok (_, .link target) =>
      match links with
      | 0 => .error .tooManyLinks
      | links + 1 =>
        let path := Path.parse target
        followFrom fs links (path.anchor.start place) (path.parts ++ rest)
    | .ok (next, _) => followFrom fs links next rest
termination_by (links, rest.length)

/-- The directory that paths of an anchor start in. The working directory may be gone. -/
def startOf (fs : FileSystem) : Anchor → Except SystemFault Place
  | .relative => do
    let place ← fs.followFrom linkLimit [] fs.workingDirectory
    if fs.isDirectoryAt place then .ok place else .error .notDirectory
  | .root | .doubleRoot => .ok []

def resolve (fs : FileSystem) (path : Path) : Except SystemFault Place := do
  let place ← fs.startOf path.anchor
  fs.followFrom linkLimit place path.parts

def lookup (fs : FileSystem) (path : Path) : Except SystemFault Entry :=
  match fs.resolve path with
  | .error fault => .error fault
  | .ok place =>
    match fs.get? place with
    | some entry => .ok entry
    | none => .error .notFound

/-- A directory that may not be searched and a name that is too long do not occur. -/
def pathExists (fs : FileSystem) (path : Path) : Bool := (fs.lookup path).isOk

def isDirectory (fs : FileSystem) (path : Path) : Bool :=
  match fs.lookup path with
  | .ok .directory => true
  | _ => false

def isFile (fs : FileSystem) (path : Path) : Bool :=
  match fs.lookup path with
  | .ok (.file ..) => true
  | _ => false

def isLinkAt (fs : FileSystem) (place : Place) : Bool :=
  match fs.get? place with
  | some (.link _) => true
  | _ => false

def namesAt (fs : FileSystem) (place : Place) : List String :=
  ((fs.entries.filterMap fun (other, _) =>
    if other.dropLast == place then other.getLast? else none).filter isName).eraseDups.mergeSort
      fun a b => !decide (b < a)

def depth (fs : FileSystem) : Nat := (fs.entries.map (·.1.length)).foldl max 0

/-- The bytes and the syntax tree of a file. Every file can be read. -/
def content (fs : FileSystem) (path : Path) :
    Except SystemError (Text.Bytes × Option Tree) :=
  if path.hasNull then .error ⟨.nullCharacter, path, none⟩ else
  match fs.lookup path with
  | .error fault => .error ⟨fault, path, none⟩
  | .ok (.file bytes tree) => .ok (bytes, tree)
  | .ok _ => .error ⟨.isDirectory, path, none⟩

end FileSystem

end JavaLint
