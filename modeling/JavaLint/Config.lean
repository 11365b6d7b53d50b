import JavaLint.Check.Convention
import JavaLint.Json.Basic
import JavaLint.Numeral.Integer
import JavaLint.Rule.Registry

/-!
What an analysis is told: which files to read, how many workers to use and how long a method may
be. An explicit choice goes before the environment, and the environment before the defaults.
-/
namespace JavaLint

abbrev Environment := List (String × String)

structure Config where
  /-- File name extensions of sources, in lower case and with the dot. -/
  extensions : List String := [".java"]
  /-- Directories that are not searched, by name. -/
  ignoredDirectories : List String := [".git", ".hg", ".svn"]
  followLinks : Bool := false
  maxWorkers : Int := 1
  maxMethodLines : Int := Check.Convention.defaultMaxLines
  deriving DecidableEq, Repr

structure Overrides where
  extensions : Option (List String) := none
  ignoredDirectories : Option (List String) := none
  followLinks : Option Bool := none
  maxWorkers : Option Int := none
  maxMethodLines : Option Int := none
  deriving DecidableEq, Repr

namespace Config

def ofOverrides (choices : Overrides) : Config :=
  let base : Config := {}
  { extensions := choices.extensions.getD base.extensions
    ignoredDirectories := choices.ignoredDirectories.getD base.ignoredDirectories
    followLinks := choices.followLinks.getD base.followLinks
    maxWorkers := choices.maxWorkers.getD base.maxWorkers
    maxMethodLines := choices.maxMethodLines.getD base.maxMethodLines }

def workersVariable : String := "CODE_QUALITY_MAX_WORKERS"

def methodLinesVariable : String := "CODE_QUALITY_MAX_METHOD_LINES"

/-- The number that a variable gives; an empty variable gives none. -/
def numberIn (environment : Environment) (variableName : String) :
    Except Numeral.IntegerError (Option Int) :=
  match environment.lookup variableName with
  | none => .ok none
  | some "" => .ok none
  | some text => (Numeral.readInteger text).map some

/-- An explicit choice, or else the number that a variable gives, or else the default. The variable
is not read when there is a choice. -/
def choose (choice : Option Int) (environment : Environment) (variableName : String)
    (adjust : Int → Int) (default : Int) : Except Numeral.IntegerError Int :=
  match choice with
  | some n => .ok n
  | none => (numberIn environment variableName).map fun found => (found.map adjust).getD default

/-- The configuration in an environment. There is at least one worker, unless chosen otherwise. -/
def ofEnvironment (environment : Environment) (choices : Overrides) :
    Except Numeral.IntegerError Config := do
  let base := ofOverrides choices
  let workers ← choose choices.maxWorkers environment workersVariable (max 1) base.maxWorkers
  let lines ← choose choices.maxMethodLines environment methodLinesVariable (fun n => n)
    base.maxMethodLines
  return { base with maxWorkers := workers, maxMethodLines := lines }

def document (config : Config) : Json :=
  .obj [
    ("extensions", .strings config.extensions),
    ("ignore_dirs", .strings config.ignoredDirectories),
    ("follow_symlinks", .bool config.followLinks),
    ("max_workers", .int config.maxWorkers),
    ("max_method_lines", .int config.maxMethodLines)]

def sorted (config : Config) : Config :=
  { config with ignoredDirectories := sortTexts config.ignoredDirectories.eraseDups }

end Config

end JavaLint
