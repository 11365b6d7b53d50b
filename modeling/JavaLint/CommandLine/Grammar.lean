import JavaLint.Text.DecimalDigit
import JavaLint.Text.Search

/-!
Command-line grammars. Options and positional arguments mix freely. First every argument is read as
an option, an argument or the separator after which all are arguments; then they are taken from left
to right, and the first one that cannot be taken, or that asks to stop, decides.
-/
namespace JavaLint.CommandLine

inductive Stop where
  | usageError
  | help
  | version
  deriving DecidableEq, Repr

inductive Action (σ : Type) where
  | stop (reason : Stop)
  | flag (set : σ → σ)
  /-- Takes one value and may refuse it. -/
  | value (set : String → σ → Option σ)

structure OptionSpec (σ : Type) where
  names : List String
  action : Action σ

inductive Arity where
  | one
  | atMostOne
  /-- One argument and everything after it. -/
  | remainder
  deriving DecidableEq, Repr

structure Positional (σ : Type) where
  arity : Arity
  take : List String → σ → Except Stop σ

structure Grammar (σ : Type) where
  options : List (OptionSpec σ)
  positionals : List (Positional σ)

structure Attached where
  afterEquals : Bool
  text : List Char
  deriving DecidableEq, Repr

inductive Reading (σ : Type) where
  | separator
  | argument
  | unknownOption
  | option (action : Action σ) (isShort : Bool) (attached : Option Attached)

structure Token (σ : Type) where
  text : String
  reading : Reading σ

def Token.isOption {σ : Type} (token : Token σ) : Bool :=
  match token.reading with
  | .unknownOption => true
  | .option .. => true
  | _ => false

/-- A digit run after a minus, or one with a point before it. -/
def looksNegative (text : List Char) : Bool :=
  match text with
  | '-' :: rest =>
    let body := Text.dropFinalBreak rest
    Text.isDigitRun body ||
      (match body.dropWhile Text.isDecimalDigit with
      | '.' :: fraction => Text.isDigitRun fraction
      | _ => false)
  | _ => false

namespace Grammar

variable {σ : Type}

def find? (grammar : Grammar σ) (name : String) : Option (Action σ) :=
  (grammar.options.find? (·.names.contains name)).map (·.action)

def startingWith (grammar : Grammar σ) (start : String) : List (Action σ) :=
  grammar.options.flatMap fun spec =>
    (spec.names.filter (Text.startsWith · start)).map fun _ => spec.action

def splitEquals (text : List Char) : List Char × Option (List Char) :=
  match text.dropWhile (· != '=') with
  | [] => (text, none)
  | _ :: value => (text.takeWhile (· != '='), some value)

/-- Reads what starts with a minus and is no option: a negative number and a text with a space are
arguments. -/
def readUnknown (text : List Char) : Reading σ :=
  if looksNegative text || text.contains ' ' then .argument else .unknownOption

/-- Reads an argument that starts with two minuses: an option may be cut short if that leaves one
option only. -/
def readLong (grammar : Grammar σ) (text : List Char) : Except Stop (Reading σ) :=
  let (name, value) := splitEquals text
  match grammar.startingWith (String.ofList name) with
  | [] => .ok (readUnknown text)
  | [action] => .ok (.option action false (value.map (⟨true, ·⟩)))
  | _ => .error .usageError

def readShort (grammar : Grammar σ) (text : List Char) : Reading σ :=
  match grammar.find? (String.ofList (text.take 2)) with
  | some action => .option action true (some ⟨false, text.drop 2⟩)
  | none => readUnknown text

def readOne (grammar : Grammar σ) (text : String) : Except Stop (Reading σ) :=
  match text.toList with
  | [] => .ok .argument
  | '-' :: rest =>
    let isShort := rest.head? != some '-'
    match grammar.find? text with
    | some action => .ok (.option action isShort none)
    | none =>
      if rest.isEmpty then .ok .argument
      else
        let (name, value) := splitEquals text.toList
        match grammar.find? (String.ofList name), value with
        | some action, some value => .ok (.option action isShort (some ⟨true, value⟩))
        | _, _ => if isShort then .ok (grammar.readShort text.toList)
                  else grammar.readLong text.toList
  | _ => .ok .argument

/-- Reads all arguments. Those after the first separator are arguments as they stand. -/
def readAll (grammar : Grammar σ) : List String → Except Stop (List (Token σ))
  | [] => .ok []
  | "--" :: rest => .ok (⟨"--", .separator⟩ :: rest.map (⟨·, .argument⟩))
  | text :: rest => do return ⟨text, ← grammar.readOne text⟩ :: (← grammar.readAll rest)

/-- What an option takes: the actions of its argument in order with their values, the letters that
are no option, and how many of the following arguments. -/
structure Taken (σ : Type) where
  actions : List (Action σ × Option String)
  extra : List String
  following : Nat

def Taken.cons (first : Action σ) (rest : Taken σ) : Taken σ :=
  { rest with actions := (first, none) :: rest.actions }

def takeAlone (action : Action σ) (next : Option (Token σ)) : Except Stop (Taken σ) :=
  match action, next with
  | .value _, some ⟨text, .argument⟩ => .ok ⟨[(action, some text)], [], 1⟩
  | .value _, _ => .error .usageError
  | _, _ => .ok ⟨[(action, none)], [], 0⟩

/-- An option with an attached text. After a short option that takes no value the text is read as
further one-letter options. -/
def takeAttached (grammar : Grammar σ) (action : Action σ) (isShort : Bool) (afterEquals : Bool)
    (text : List Char) (next : Option (Token σ)) : Except Stop (Taken σ) :=
  match action, text with
  | .value _, _ => .ok ⟨[(action, some (String.ofList text))], [], 0⟩
  | _, [] => .error .usageError
  | _, letter :: rest =>
    if !isShort || afterEquals || letter == '-' then .error .usageError
    else match grammar.find? (String.ofList ['-', letter]) with
      | none => .ok ⟨[(action, none)], [String.ofList ('-' :: text)], 0⟩
      | some following =>
        (match rest with
        | [] => takeAlone following next
        | '=' :: value => grammar.takeAttached following true true value next
        | first :: more => grammar.takeAttached following true false (first :: more) next).map
          (Taken.cons action)
termination_by text.length

def act : List (Action σ × Option String) → σ → Except Stop σ
  | [], values => .ok values
  | (.stop reason, _) :: _, _ => .error reason
  | (.flag set, _) :: rest, values => act rest (set values)
  | (.value _, none) :: _, _ => .error .usageError
  | (.value set, some text) :: rest, values =>
    match set text values with
    | some values => act rest values
    | none => .error .usageError

structure State (σ : Type) where
  positionals : List (Positional σ)
  extra : List String
  values : σ

def takeOption (grammar : Grammar σ) (token : Token σ) (rest : List (Token σ))
    (state : State σ) : Except Stop (State σ × Nat) := do
  match token.reading with
  | .option action isShort attached =>
    let taken ←
      match attached with
      | none => takeAlone action rest.head?
      | some ⟨afterEquals, text⟩ =>
        grammar.takeAttached action isShort afterEquals text rest.head?
    let values ← act taken.actions state.values
    return ({ state with extra := state.extra ++ taken.extra, values := values }, taken.following)
  | _ => return ({ state with extra := state.extra ++ [token.text] }, 0)

def isSeparator (token : Token σ) : Bool :=
  match token.reading with
  | .separator => true
  | _ => false

def isArgument (token : Token σ) : Bool :=
  match token.reading with
  | .argument => true
  | _ => false

def countFor (arity : Arity) (tokens : List (Token σ)) : Option Nat :=
  let leading := (tokens.takeWhile isSeparator).length
  match arity, tokens.drop leading with
  | .remainder, first :: _ => if isArgument first then some tokens.length else none
  | .remainder, [] => none
  | .one, [] => none
  | .atMostOne, [] => some leading
  | arity, first :: rest =>
    if isArgument first then some (leading + 1 + (rest.takeWhile isSeparator).length)
    else if arity = .atMostOne then some leading else none

/-- The arguments of a positional: the first separator among its tokens is dropped, but a
positional that takes everything keeps it. -/
def argumentsOf (arity : Arity) (tokens : List (Token σ)) : List String :=
  let texts := tokens.map (·.text)
  if arity = .remainder then texts else texts.erase "--"

def takePositionals (tokens : List (Token σ)) (extra : List String) (values : σ) :
    List (Positional σ) → Except Stop (State σ × Nat)
  | [] => .ok (⟨[], extra, values⟩, 0)
  | positional :: rest =>
    match countFor positional.arity tokens with
    | none => .ok (⟨positional :: rest, extra, values⟩, 0)
    | some count => do
      let values ← positional.take (argumentsOf positional.arity (tokens.take count)) values
      let (state, used) ← takePositionals (tokens.drop count) extra values rest
      return (state, count + used)

def takeAll (grammar : Grammar σ) (tokens : List (Token σ)) (state : State σ) :
    Except Stop (State σ) :=
  match tokens with
  | [] => return (← takePositionals [] state.extra state.values state.positionals).1
  | token :: rest =>
    if !(token :: rest).any Token.isOption then do
      let (state, used) ←
        takePositionals (token :: rest) state.extra state.values state.positionals
      return { state with extra := state.extra ++ ((token :: rest).drop used).map (·.text) }
    else if token.isOption then do
      let (state, used) ← grammar.takeOption token rest state
      grammar.takeAll (rest.drop used) state
    else do
      let (state, used) ←
        takePositionals (token :: rest) state.extra state.values state.positionals
      match used with
      | 0 => grammar.takeAll rest { state with extra := state.extra ++ [token.text] }
      | used + 1 => grammar.takeAll (rest.drop used) state
termination_by tokens.length
decreasing_by
  all_goals simp only [List.length_drop, List.length_cons]
  all_goals omega

/-- Reads a command line: the values, and the arguments that nothing takes. A positional that takes
one argument has to be there. -/
def parse (grammar : Grammar σ) (arguments : List String) (initial : σ) :
    Except Stop (σ × List String) := do
  let tokens ← grammar.readAll arguments
  let state ← grammar.takeAll tokens ⟨grammar.positionals, [], initial⟩
  if state.positionals.any (·.arity == .one) then .error .usageError
  else return (state.values, state.extra)

end Grammar

end JavaLint.CommandLine
