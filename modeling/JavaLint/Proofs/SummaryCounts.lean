import JavaLint.Proofs.CommandEffects
import JavaLint.Proofs.FileRanking
import JavaLint.Review.Document
import Mathlib.Algebra.GroupWithZero.Nat

/-! What the summary of a report says. Apart from the number of files it is counted from the issues:
a reader who has only the array of issues counts the same totals, ranks the same files, and knows
from the severities whether a threshold fails. -/
namespace JavaLint

theorem Category.name_injective : Function.Injective Category.name := by
  intro a b
  cases a <;> cases b <;> decide

theorem Severity.name_injective : Function.Injective Severity.name := by
  intro a b
  cases a <;> cases b <;> decide

section Counting
variable {α κ : Type} [DecidableEq κ] {keys : List κ} {key : α → κ} {values : List α}

/-- The counts of keys that cover the values add up to their number. -/
theorem sum_countP_eq_length (hn : keys.Nodup) (h : ∀ value ∈ values, key value ∈ keys) :
    (keys.map fun k => values.countP (key · == k)).sum = values.length := by
  have hlength := (flatMap_filter_perm hn h).length_eq
  rw [List.length_flatMap] at hlength
  simp only [List.countP_eq_length_filter]
  exact hlength

/-- Values counted by the name of their key are counted by their key. -/
theorem count_names {name : κ → String} (hname : Function.Injective name) (key : α → κ)
    (values : List α) (k : κ) :
    (values.map fun value => name (key value)).count (name k) = values.countP (key · == k) := by
  rw [count_map_eq_countP]
  refine List.countP_congr fun value _ => ?_
  simp [hname.eq_iff]

end Counting

theorem Review.exitCode_number_eq_one_iff (review : Review) (threshold : Severity) :
    (review.exitCode (some threshold)).number = 1 ↔
      0 < ((Severity.all.filter fun severity => threshold.rank ≤ severity.rank).map
        fun severity => review.issues.countP (·.severity == severity)).sum := by
  have hviolation : (review.exitCode (some threshold)).number = 1 ↔
      review.exitCode (some threshold) = .violation := by
    cases review.exitCode (some threshold) <;> decide
  rw [hviolation, exitCode_eq_violation_iff, List.sum_pos_iff_exists_pos_nat]
  constructor
  · rintro ⟨chosen, hchosen, issue, hissue, hrank⟩
    obtain rfl : threshold = chosen := Option.mem_some_iff.mp hchosen
    refine ⟨review.issues.countP (·.severity == issue.severity), ?_, ?_⟩
    · exact List.mem_map.mpr ⟨issue.severity,
        List.mem_filter.mpr ⟨issue.severity.mem_all, by simpa using hrank⟩, rfl⟩
    · exact List.countP_pos_iff.mpr ⟨issue, hissue, by simp⟩
  · rintro ⟨count, hcount, hpos⟩
    obtain ⟨severity, hseverity, rfl⟩ := List.mem_map.mp hcount
    obtain ⟨issue, hissue, heq⟩ := List.countP_pos_iff.mp hpos
    have hrank : threshold.rank ≤ severity.rank := by
      simpa using (List.mem_filter.mp hseverity).2
    exact ⟨threshold, rfl, issue, hissue, by rwa [eq_of_beq heq]⟩

def textsOf (key : String) (items : List Json) : List String :=
  items.filterMap fun item => (item.get? key).bind Json.str?

/-- The summary that a reader makes of an array of issues, with a ranking of the files named there
and the number of files analyzed. -/
def summaryOf (files : Int) (items : List Json) (ranking : List (String × Nat)) : Json :=
  .obj [
    ("files_analyzed", .int files),
    ("total_issues", .nat items.length),
    ("by_type", .obj (Category.all.map fun category =>
      (category.name, .nat ((textsOf "type" items).count category.name)))),
    ("by_severity", .obj (Severity.all.map fun severity =>
      (severity.name, .nat ((textsOf "severity" items).count severity.name)))),
    ("top_files", .arr ((ranking.take 5).map fun (name, count) =>
      .obj [("file_name", .str name), ("count", .nat count)]))]

theorem textsOf_documents {key : String} {text : Issue → String}
    (h : ∀ issue : Issue, (issue.document.get? key).bind Json.str? = some (text issue))
    (issues : List Issue) : textsOf key (issues.map Issue.document) = issues.map text := by
  rw [textsOf, List.filterMap_map, ← List.filterMap_eq_map]
  exact congrArg (List.filterMap · issues) (funext h)

namespace Review

variable (review : Review)

theorem fileNames_of_document :
    textsOf "file_name" (review.issues.map Issue.document) = review.issues.map Issue.fileName :=
  textsOf_documents (fun _ => rfl) review.issues

theorem count_types (category : Category) :
    (textsOf "type" (review.issues.map Issue.document)).count category.name =
      review.issues.countP (·.category == category) := by
  rw [textsOf_documents (fun _ => rfl)]
  exact count_names Category.name_injective Issue.category review.issues category

theorem count_severities (severity : Severity) :
    (textsOf "severity" (review.issues.map Issue.document)).count severity.name =
      review.issues.countP (·.severity == severity) := by
  rw [textsOf_documents (fun _ => rfl)]
  exact count_names Severity.name_injective Issue.severity review.issues severity

theorem summaryDocument_eq :
    review.summaryDocument =
      summaryOf review.filesAnalyzed (review.issues.map Issue.document) review.ranking := by
  simp only [summaryDocument, summaryOf, count_types, count_severities, countByCategory,
    countBySeverity, List.map_map, Function.comp_def, List.length_map, topFiles, topFilesLimit]
  rfl

/-- The items of a report decide about its summary, the number of files apart: the total, a count
for each category and each severity that add up to it, and the five first files of their ranking. A
threshold fails exactly when the counts of the severities from it upwards are not all zero. -/
theorem summary_recounted_from_issues :
    ∃ (items : List Json) (ranking : List (String × Nat)),
      review.document.get? "issues" = some (.arr items) ∧
      IsRanking (textsOf "file_name" items) ranking ∧
      review.document.get? "summary" = some (summaryOf review.filesAnalyzed items ranking) ∧
      ((∀ category, category ∈ Category.all) ∧
        (Category.all.map fun category => (textsOf "type" items).count category.name).sum =
          items.length) ∧
      ((∀ severity, severity ∈ Severity.all) ∧
        (Severity.all.map fun severity => (textsOf "severity" items).count severity.name).sum =
          items.length) ∧
      (∀ threshold : Severity, (review.exitCode (some threshold)).number = 1 ↔
        0 < ((Severity.all.filter fun severity => threshold.rank ≤ severity.rank).map
          fun severity => (textsOf "severity" items).count severity.name).sum) ∧
      ∀ other : Review, other.document.get? "issues" = review.document.get? "issues" →
        other.document.get? "summary" =
          some (summaryOf other.filesAnalyzed items ranking) := by
  refine ⟨review.issues.map Issue.document, review.ranking, rfl, ?_, ?_, ⟨Category.mem_all, ?_⟩,
    ⟨Severity.mem_all, ?_⟩, ?_, ?_⟩
  · rw [fileNames_of_document]
    exact review.ranking_isRanking
  · exact congrArg some review.summaryDocument_eq
  · simp only [count_types, List.length_map]
    exact sum_countP_eq_length (by decide) fun issue _ => issue.category.mem_all
  · simp only [count_severities, List.length_map]
    exact sum_countP_eq_length (by decide) fun issue _ => issue.severity.mem_all
  · intro threshold
    simp only [count_severities]
    exact review.exitCode_number_eq_one_iff threshold
  · intro other hsame
    have hitems : other.issues.map Issue.document = review.issues.map Issue.document :=
      Json.arr.inj (Option.some.inj hsame)
    -- Equal items name the same files, and these have one ranking.
    have hranking : other.ranking = review.ranking := by
      have hother := other.ranking_isRanking
      rw [← fileNames_of_document, hitems, fileNames_of_document] at hother
      exact hother.unique review.ranking_isRanking
    rw [← hitems, ← hranking]
    exact congrArg some other.summaryDocument_eq

end Review

end JavaLint
