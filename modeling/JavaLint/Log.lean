/-!
Logs as values. A computation that logs returns its records beside its value.
-/
namespace JavaLint

inductive LogLevel where
  | debug
  | info
  | warning
  | error
  deriving DecidableEq, Repr

namespace LogLevel

def name : LogLevel → String
  | .debug => "DEBUG"
  | .info => "INFO"
  | .warning => "WARNING"
  | .error => "ERROR"

def rank : LogLevel → Nat
  | .debug => 10
  | .info => 20
  | .warning => 30
  | .error => 40

end LogLevel

structure LogRecord where
  level : LogLevel
  /-- The part of the program that logs. -/
  logger : String
  message : String
  deriving DecidableEq, Repr

def LogRecord.line (entry : LogRecord) : String :=
  entry.level.name ++ " " ++ entry.logger ++ ": " ++ entry.message

abbrev Log := List LogRecord

def Log.atLeast (level : LogLevel) (log : Log) : Log :=
  log.filter fun entry => level.rank ≤ entry.level.rank

structure Logged (α : Type) where
  log : Log
  value : α
  deriving Repr

namespace Logged

def map {α β : Type} (f : α → β) (logged : Logged α) : Logged β := ⟨logged.log, f logged.value⟩

def collect {α : Type} (all : List (Logged α)) : Logged (List α) :=
  ⟨all.flatMap (·.log), all.map (·.value)⟩

end Logged

end JavaLint
