import JavaLint.Config
import JavaLint.FileSystem.Basic

/-!
Finding source files below a directory. The entries of a directory are visited in the order of
their names, and a directory is searched where it stands. Links are skipped unless they are to be
followed. A path that passes through too many links leads nowhere, which ends every cycle of links.
-/
namespace JavaLint.FileSystem

def sourcesWithin (fs : FileSystem) (config : Config) : (fuel : Nat) → Path → List Path
  | 0, _ => []
  | fuel + 1, path =>
    match fs.resolve path with
    | .error _ => []
    | .ok place =>
      if fs.isDirectoryAt place then
        (fs.namesAt place).flatMap fun name =>
          let entry := path.child name
          if fs.isLinkAt (place ++ [name]) && !config.followLinks then []
          else if fs.isDirectory entry then
            if config.ignoredDirectories.contains name then []
            else sourcesWithin fs config fuel entry
          else if fs.isFile entry && entry.hasExtension config.extensions then [entry]
          else []
      else []

/-- More components than a path below a directory can have: between two links it goes down at most
`depth` directories. -/
def searchBound (fs : FileSystem) : Nat := (linkLimit + 1) * (fs.depth + 1) + 1

def sources (fs : FileSystem) (config : Config) (root : Path) : List Path :=
  fs.sourcesWithin config fs.searchBound root

end JavaLint.FileSystem
