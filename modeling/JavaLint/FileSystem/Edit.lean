import JavaLint.FileSystem.Basic

/-!
Changing a file system: making directories, writing files, making links, and deleting. An edit of
several steps that fails keeps what the steps before the failure have changed.
-/
namespace JavaLint

structure Edited where
  fs : FileSystem
  result : Except SystemError Unit

namespace Edited

/-- An edit of one step: where it fails, nothing has changed. -/
def ofStep (fs : FileSystem) : Except SystemError FileSystem → Edited
  | .ok changed => ⟨changed, .ok ()⟩
  | .error error => ⟨fs, .error error⟩

def andThen (first : Edited) (next : FileSystem → Edited) : Edited :=
  match first.result with
  | .ok () => next first.fs
  | .error _ => first

end Edited

namespace FileSystem

/-- Puts an entry at a place, in the position of what stood there. -/
def set (fs : FileSystem) (place : Place) (entry : Entry) : FileSystem :=
  if fs.entries.any (·.1 == place) then
    { fs with entries := fs.entries.map fun old => if old.1 == place then (place, entry) else old }
  else { fs with entries := fs.entries ++ [(place, entry)] }

def remove (fs : FileSystem) (place : Place) : FileSystem :=
  { fs with entries := fs.entries.filter fun old => !place.isPrefixOf old.1 }

/-- The directory that holds the last component of a path, and that component. There is none for a
path that ends in the directory itself. -/
def locateParent (fs : FileSystem) (path : Path) : Except SystemFault (Option (Place × String)) :=
  if path.hasNull then .error .nullCharacter else
  match path.parts.getLast? with
  | none => .ok none
  | some name =>
    match fs.resolve path.parent with
    | .error fault => .error fault
    | .ok place =>
      if fs.isDirectoryAt place then
        if name == ".." then .ok none else .ok (some (place, name))
      else .error .notDirectory

def create (fs : FileSystem) (path : Path) (entry : Entry) : Except SystemFault FileSystem :=
  match fs.locateParent path with
  | .error fault => .error fault
  | .ok none => .error .exists
  | .ok (some (place, name)) =>
    match fs.get? (place ++ [name]) with
    | some _ => .error .exists
    | none => .ok (fs.set (place ++ [name]) entry)

def makeDirectory (fs : FileSystem) (path : Path) : Except SystemError FileSystem :=
  match fs.create path .directory with
  | .ok changed => .ok changed
  | .error .notFound => .error ⟨.notFound, path, none⟩
  | .error fault => if fs.isDirectory path then .ok fs else .error ⟨fault, path, none⟩

/-- Makes a directory whose ancestors are given, nearest first, making those that are missing. -/
def makeDirectoriesFrom (fs : FileSystem) (anchor : Anchor) : List String → Edited
  | [] => .ofStep fs (fs.makeDirectory ⟨anchor, []⟩)
  | name :: ancestors =>
    let path : Path := ⟨anchor, (name :: ancestors).reverse⟩
    match fs.makeDirectory path with
    | .error ⟨.notFound, _, _⟩ =>
      (makeDirectoriesFrom fs anchor ancestors).andThen fun fs => .ofStep fs (fs.makeDirectory path)
    | result => .ofStep fs result

def makeDirectories (fs : FileSystem) (path : Path) : Edited :=
  fs.makeDirectoriesFrom path.anchor path.parts.reverse

/-- Where a file is written that a path names: links are followed, and the last component need not
be there yet. -/
def targetFrom (fs : FileSystem) (links : Nat) (place : Place) (rest : List String) :
    Except SystemFault Place :=
  match rest with
  | [] => .ok place
  | component :: rest =>
    match fs.enter place component with
    | .error .notFound =>
      if rest = [] && isName component && fs.isDirectoryAt place then .ok (place ++ [component])
      else .error .notFound
    | .error fault => .error fault
    | .ok (_, .link target) =>
      match links with
      | 0 => .error .tooManyLinks
      | links + 1 =>
        let path := Path.parse target
        targetFrom fs links (path.anchor.start place) (path.parts ++ rest)
    | .ok (next, _) => targetFrom fs links next rest
termination_by (links, rest.length)

def writeFile (fs : FileSystem) (path : Path) (bytes : Text.Bytes) (tree : Option Tree) :
    Except SystemError FileSystem :=
  if path.hasNull then .error ⟨.nullCharacter, path, none⟩
  else
    match fs.startOf path.anchor >>= (fs.targetFrom linkLimit · path.parts) with
    | .error fault => .error ⟨fault, path, none⟩
    | .ok place =>
      if fs.isDirectoryAt place then .error ⟨.isDirectory, path, none⟩
      else .ok (fs.set place (.file bytes tree))

def writeFileWithParents (fs : FileSystem) (path : Path) (bytes : Text.Bytes)
    (tree : Option Tree) : Edited :=
  (fs.makeDirectories path.parent).andThen fun fs => .ofStep fs (fs.writeFile path bytes tree)

def makeLink (fs : FileSystem) (path : Path) (target : String) : Except SystemError FileSystem :=
  match fs.create path (.link target) with
  | .ok changed => .ok changed
  | .error fault => .error ⟨fault, path, some target⟩

def put (fs : FileSystem) (path : Path) : Entry → Edited
  | .directory => fs.makeDirectories path
  | .file bytes tree => fs.writeFileWithParents path bytes tree
  | .link target =>
    (fs.makeDirectories path.parent).andThen fun fs => .ofStep fs (fs.makeLink path target)

def delete (fs : FileSystem) (path : Path) : Edited :=
  match fs.locateParent path with
  | .error fault => ⟨fs, .error ⟨fault, path, none⟩⟩
  | .ok none => ⟨fs, .error ⟨.isDirectory, path, none⟩⟩
  | .ok (some (place, name)) =>
    match fs.get? (place ++ [name]) with
    | some _ => ⟨fs.remove (place ++ [name]), .ok ()⟩
    | none => ⟨fs, .error ⟨.notFound, path, none⟩⟩

/-- The files of a file system that an older one does not have, or has with other bytes. -/
def newFiles (old fs : FileSystem) : List (Place × Text.Bytes) :=
  fs.entries.filterMap fun (place, entry) =>
    match entry, old.get? place with
    | .file bytes _, some (.file known _) => if bytes = known then none else some (place, bytes)
    | .file bytes _, _ => some (place, bytes)
    | _, _ => none

end FileSystem

end JavaLint
