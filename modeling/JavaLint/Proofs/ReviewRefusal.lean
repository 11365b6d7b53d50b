import JavaLint.Proofs.ReportFile
import JavaLint.Proofs.RuleIdentifier
import Mathlib.Data.Nat.Basic
import Mathlib.Order.RelClasses

/-! Which reviews are handed out as documents. What can go wrong lies in the count of files, the
version, and four fields of each issue; the summary is counted from the issues and cannot. Any other
review is refused with a violation of its document, and of these with one that lies least deep. -/
namespace JavaLint

namespace Violation

variable {a b best : Violation} {found : List Violation}

theorem length_le_of_compare_gt (h : a.compare b = .gt) : a.path.length ≤ b.path.length := by
  rw [compare] at h
  by_contra hlt
  rw [Nat.compare_eq_lt.mpr (by omega)] at h
  cases h

theorem length_le_of_compare_ne_gt (h : a.compare b ≠ .gt) : b.path.length ≤ a.path.length := by
  by_contra hlt
  apply h
  rw [compare, Nat.compare_eq_gt.mpr (by omega)]
  rfl

def better (best next : Violation) : Violation := if next.compare best == .gt then next else best

theorem better_cases (best next : Violation) :
    (better best next = next ∧ next.path.length ≤ best.path.length) ∨
      (better best next = best ∧ best.path.length ≤ next.path.length) := by
  by_cases h : next.compare best = .gt
  · exact Or.inl ⟨if_pos (by rw [h]; rfl), length_le_of_compare_gt h⟩
  · exact Or.inr ⟨if_neg (by simpa using h), length_le_of_compare_ne_gt h⟩

theorem foldl_better (first : Violation) (rest : List Violation) :
    rest.foldl better first ∈ first :: rest ∧
      ∀ other ∈ first :: rest, (rest.foldl better first).path.length ≤ other.path.length := by
  induction rest generalizing first with
  | nil => simp
  | cons next rest ih =>
    obtain ⟨hmem, hleast⟩ := ih (better first next)
    rw [List.forall_mem_cons] at hleast
    rw [List.foldl_cons, List.forall_mem_cons, List.forall_mem_cons]
    rcases better_cases first next with ⟨heq, hle⟩ | ⟨heq, hle⟩
    · rw [heq] at hmem hleast ⊢
      exact ⟨List.mem_cons_of_mem _ hmem, hleast.1.trans hle, hleast⟩
    · rw [heq] at hmem hleast ⊢
      refine ⟨?_, hleast.1, hleast.1.trans hle, hleast.2⟩
      rcases List.mem_cons.mp hmem with hfirst | hrest
      · rw [hfirst]
        exact List.mem_cons_self
      · exact List.mem_cons_of_mem _ (List.mem_cons_of_mem _ hrest)

/-- The violation to report is one of those found, and none of them lies less deep. -/
theorem worst?_least (h : worst? found = some best) :
    best ∈ found ∧ ∀ other ∈ found, best.path.length ≤ other.path.length := by
  cases found with
  | nil => cases h
  | cons first rest =>
    cases h
    exact foldl_better first rest

end Violation

theorem Schema.validate_eq_error {schema : Schema} {value : Json} {violation : Violation}
    (h : schema.validate value = .error violation) :
    violation ∈ schema.violations value ∧
      ∀ other ∈ schema.violations value, violation.path.length ≤ other.path.length := by
  rw [validate] at h
  split at h
  · rename_i worst hworst
    cases h
    exact Violation.worst?_least hworst
  · cases h

theorem Issue.reportable_iff {issue : Issue} :
    issue.Reportable ↔
      issue.fileName ≠ "" ∧ 1 ≤ issue.line ∧ issue.message ≠ "" ∧
        ∃ core, (issue.ruleId.toList = core ∨ issue.ruleId.toList = core ++ ['\n']) ∧
          (core = [] ∨ Rule.IsForm core) := by
  constructor
  · rintro ⟨hfile, hline, hmessage, hrule⟩
    exact ⟨hfile, hline, hmessage, Rule.isOptionalIdentifier_iff.mp hrule⟩
  · rintro ⟨hfile, hline, hmessage, hrule⟩
    exact ⟨hfile, hline, hmessage, Rule.isOptionalIdentifier_iff.mpr hrule⟩

namespace Review

theorem checkedDocument_cases (review : Review) :
    (review.Reportable ∧ review.checkedDocument = .ok review.document) ∨
      ∃ violation, review.checkedDocument = .error violation ∧
        Schema.review.validate review.document = .error violation := by
  cases hvalid : Schema.review.validate review.document with
  | ok accepted =>
    have hr := Schema.validate_review_eq_ok_iff.mp hvalid
    exact Or.inl ⟨hr, checkedDocument_of_reportable hr⟩
  | error violation =>
    refine Or.inr ⟨violation, ?_, rfl⟩
    rw [checkedDocument, hvalid]
    rfl

/-- A review is handed out, and then as its own document, exactly when its count is not negative,
its version not empty, and every issue names a file, a line from one on, a message, and a rule that
is an identifier or empty, with or without a line break at its end. Otherwise it is refused with a
violation of the schema of which none lies less deep. -/
theorem checkedDocument_refuses_exactly (review : Review) :
    ((∃ document, review.checkedDocument = .ok document) ↔
      0 ≤ review.filesAnalyzed ∧ review.toolVersion ≠ "" ∧
        ∀ issue ∈ review.issues,
          issue.fileName ≠ "" ∧ 1 ≤ issue.line ∧ issue.message ≠ "" ∧
            ∃ core, (issue.ruleId.toList = core ∨ issue.ruleId.toList = core ++ ['\n']) ∧
              (core = [] ∨ Rule.IsForm core)) ∧
    (∀ document, review.checkedDocument = .ok document → document = review.document) ∧
    ((¬∃ document, review.checkedDocument = .ok document) →
      ∃ violation, review.checkedDocument = .error violation ∧
        violation ∈ Schema.review.violations review.document ∧
        ∀ other ∈ Schema.review.violations review.document,
          violation.path.length ≤ other.path.length) := by
  refine ⟨?_, ?_, ?_⟩
  · rw [checkedDocument_isOk_iff]
    simp only [← Issue.reportable_iff]
    constructor
    · rintro ⟨hcount, hversion, hissues⟩
      exact ⟨hcount, hversion, hissues⟩
    · rintro ⟨hcount, hversion, hissues⟩
      exact ⟨hcount, hversion, hissues⟩
  · intro document hdocument
    rcases review.checkedDocument_cases with ⟨-, hown⟩ | ⟨violation, hrefused, -⟩
    · exact Except.ok.inj (hdocument.symm.trans hown)
    · cases hdocument.symm.trans hrefused
  · intro hnone
    rcases review.checkedDocument_cases with ⟨-, hown⟩ | ⟨violation, hrefused, hvalid⟩
    · exact absurd ⟨_, hown⟩ hnone
    · exact ⟨violation, hrefused, Schema.validate_eq_error hvalid⟩

end Review

end JavaLint
