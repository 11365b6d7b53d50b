import JavaLint.Issue

/-!
Reviews: the issues of one run in the order in which they were found, and the views on them. Every
view keeps that order.
-/
namespace JavaLint

def programVersion : String := "0.1.0"

structure Review where
  issues : List Issue := []
  filesAnalyzed : Int := 0
  toolVersion : String := programVersion
  deriving DecidableEq, Repr

def addToGroup {κ α : Type} [BEq κ] (key : κ) (value : α) : List (κ × List α) → List (κ × List α)
  | [] => [(key, [value])]
  | (other, values) :: rest =>
    if other == key then (other, values ++ [value]) :: rest
    else (other, values) :: addToGroup key value rest

def groupBy {κ α : Type} [BEq κ] (key : α → κ) (values : List α) : List (κ × List α) :=
  values.foldl (fun groups value => addToGroup (key value) value groups) []

def addToCount {κ : Type} [BEq κ] (key : κ) : List (κ × Nat) → List (κ × Nat)
  | [] => [(key, 1)]
  | (other, count) :: rest =>
    if other == key then (other, count + 1) :: rest else (other, count) :: addToCount key rest

def countBy {κ α : Type} [BEq κ] (key : α → κ) (values : List α) : List (κ × Nat) :=
  values.foldl (fun counts value => addToCount (key value) counts) []

/-- The first `limit` values, or all but the last `-limit` if the limit is negative. -/
def takeUpTo {α : Type} (limit : Int) (values : List α) : List α :=
  if limit ≥ 0 then values.take limit.toNat else values.take (values.length - limit.natAbs)

@[simp] theorem takeUpTo_natCast {α : Type} (limit : Nat) (values : List α) :
    takeUpTo limit values = values.take limit := by
  simp [takeUpTo]

theorem takeUpTo_of_neg {α : Type} {limit : Int} (h : limit < 0) (values : List α) :
    takeUpTo limit values = values.take (values.length - limit.natAbs) := by
  rw [takeUpTo, if_neg (by omega)]

namespace Review

def groupByFile (review : Review) : List (String × List Issue) :=
  groupBy Issue.fileName review.issues

def groupByCategory (review : Review) : List (Category × List Issue) :=
  groupBy Issue.category review.issues

def groupBySeverity (review : Review) : List (Severity × List Issue) :=
  groupBy Issue.severity review.issues

def withSeverity (review : Review) (severity : Severity) : List Issue :=
  review.issues.filter (·.severity == severity)

def countByCategory (review : Review) : List (Category × Nat) :=
  Category.all.map fun category => (category, review.issues.countP (·.category == category))

def countBySeverity (review : Review) : List (Severity × Nat) :=
  Severity.all.map fun severity => (severity, review.issues.countP (·.severity == severity))

/-- Every file with its number of issues, most issues first; ties keep the order of first
occurrence. -/
def ranking (review : Review) : List (String × Nat) :=
  (countBy Issue.fileName review.issues).mergeSort fun a b => b.2 ≤ a.2

def topFilesLimit : Int := 5

def topFiles (review : Review) (limit : Int) : List (String × Nat) :=
  takeUpTo limit review.ranking

def worstFirst (review : Review) : List Issue :=
  review.issues.mergeSort fun a b => b.severity.rank ≤ a.severity.rank

/-- One review after another; the version of the first stays. -/
def extend (review other : Review) : Review :=
  { review with
    issues := review.issues ++ other.issues
    filesAnalyzed := review.filesAnalyzed + other.filesAnalyzed }

end Review

inductive ExitCode where
  /-- No issue is at or above the threshold. -/
  | success
  /-- Some issue is at or above the threshold, or a document breaks its schema. -/
  | violation
  /-- The run could not be carried out. -/
  | error
  deriving DecidableEq, Repr

def ExitCode.number : ExitCode → Nat
  | .success => 0
  | .violation => 1
  | .error => 2

/-- A review fails a threshold when some issue is at least as urgent. Without one it never fails. -/
def Review.exitCode (review : Review) (failOn : Option Severity) : ExitCode :=
  match failOn with
  | none => .success
  | some threshold =>
    if review.issues.any fun issue => threshold.rank ≤ issue.severity.rank then .violation
    else .success

end JavaLint
