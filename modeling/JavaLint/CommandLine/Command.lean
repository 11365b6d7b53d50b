import JavaLint.CommandLine.Grammar
import JavaLint.Numeral.Integer
import JavaLint.Path
import JavaLint.Review.Export
import JavaLint.Schema.Catalog

/-!
The commands of the program. A command may stand after options, which then belong to it; a first
argument that names no command is the path of an analysis.
-/
namespace JavaLint.CommandLine

structure AnalyzeCommand where
  path : Path := .here
  format : ReportFormat := .text
  output : Option Path := none
  /-- The severity that fails the run, if any does. -/
  failOn : Option Severity := some .high
  workers : Option Int := none
  maxMethodLines : Option Int := none
  verbose : Bool := false
  deriving DecidableEq, Repr

structure ValidateCommand where
  document : Path := .here
  schemaName : String := Catalog.reviewName
  deriving DecidableEq, Repr

inductive Command where
  | analyze (command : AnalyzeCommand)
  | validate (command : ValidateCommand)
  deriving DecidableEq, Repr

/-- A threshold by name; `never` stands for none. -/
def threshold? (name : String) : Option (Option Severity) :=
  if name == "never" then some none else (Severity.ofName? name).map some

def helpOption {σ : Type} : OptionSpec σ := ⟨["-h", "--help"], .stop .help⟩

def single {σ : Type} (set : String → σ → σ) : Positional σ where
  arity := .one
  take arguments values :=
    match arguments with
    | [text] => .ok (set text values)
    | _ => .error .usageError

def analyzeGrammar : Grammar AnalyzeCommand where
  options := [
    helpOption,
    ⟨["--format"], .value fun text command =>
      (ReportFormat.ofName? text).map fun format => { command with format := format }⟩,
    ⟨["--output", "-o"], .value fun text command =>
      some { command with output := some (Path.parse text) }⟩,
    ⟨["--fail-on"], .value fun text command =>
      (threshold? text).map fun failOn => { command with failOn := failOn }⟩,
    ⟨["--workers"], .value fun text command =>
      (Numeral.readInteger text).toOption.map fun n => { command with workers := some n }⟩,
    ⟨["--max-method-lines"], .value fun text command =>
      (Numeral.readInteger text).toOption.map fun n => { command with maxMethodLines := some n }⟩,
    ⟨["-v", "--verbose"], .flag fun command => { command with verbose := true }⟩]
  positionals := [single fun text command => { command with path := Path.parse text }]

def validateGrammar : Grammar ValidateCommand where
  options := [helpOption]
  positionals := [
    single fun text command => { command with document := Path.parse text },
    { arity := .atMostOne
      take := fun arguments command =>
        match arguments with
        | [] => .ok command
        | [name] => .ok { command with schemaName := name }
        | _ => .error .usageError }]

/-- What the grammar of the whole program reads: a command and what it leaves over. -/
structure Selection where
  command : Option Command := none
  unread : List String := []

def select (arguments : List String) (selection : Selection) : Except Stop Selection :=
  match arguments with
  | "analyze" :: rest => do
    let (command, extra) ← analyzeGrammar.parse rest {}
    return { command := some (.analyze command), unread := selection.unread ++ extra }
  | "validate" :: rest => do
    let (command, extra) ← validateGrammar.parse rest {}
    return { command := some (.validate command), unread := selection.unread ++ extra }
  | _ => .error .usageError

def programGrammar : Grammar Selection where
  options := [helpOption, ⟨["--version"], .stop .version⟩]
  positionals := [⟨.remainder, select⟩]

def parseProgram (arguments : List String) : Except Stop (Option Command) := do
  let (selection, extra) ← programGrammar.parse arguments {}
  if (extra ++ selection.unread).isEmpty then return selection.command else .error .usageError

def parseAnalysis (arguments : List String) : Except Stop (Option Command) := do
  let (command, extra) ← analyzeGrammar.parse arguments {}
  if extra.isEmpty then return some (.analyze command) else .error .usageError

def valueOptions : List String :=
  ["--format", "--output", "-o", "--fail-on", "--workers", "--max-method-lines"]

/-- The arguments before the first one that is neither an option nor the value of an option, that
one, and those after it. -/
def splitAtFirstPositional : List String → Option (List String × String × List String)
  | [] => none
  | first :: rest =>
    if Text.startsWith first "-" then
      match valueOptions.contains first, rest with
      | true, [] => none
      | true, value :: rest =>
        (splitAtFirstPositional rest).map fun (before, found, after) =>
          (first :: value :: before, found, after)
      | false, rest =>
        (splitAtFirstPositional rest).map fun (before, found, after) =>
          (first :: before, found, after)
    else some ([], first, rest)

def commandNames : List String := ["analyze", "validate"]

/-- Reads a command line. Options written before a command belong to it. -/
def parse (arguments : List String) : Except Stop (Option Command) :=
  match splitAtFirstPositional arguments with
  | none => parseProgram arguments
  | some (before, found, after) =>
    if commandNames.contains found then parseProgram (found :: before ++ after)
    else parseAnalysis arguments

end JavaLint.CommandLine
