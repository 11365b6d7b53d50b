import JavaLint.Proofs.PageTemplate
import Mathlib.Data.List.Forall2
import Mathlib.Tactic.SplitIfs

/-! The markup of a page. A tag runs from an opening bracket to the next closing one. A text that
closes all its tags keeps them whatever stands behind it, so the tags of a page are those of its
lines, and a line has the tags of its parts. Escaped texts have none, so an issue decides about the
tags of its line by its severity alone. -/
namespace JavaLint

namespace Markup

def throughClosing : List Char → Option (List Char)
  | [] => none
  | c :: rest => if c = '>' then some [c] else (throughClosing rest).map (c :: ·)

/-- The tags of a text: from each opening bracket, what stands up to the next closing one. -/
def tags : List Char → List (List Char)
  | [] => []
  | c :: rest =>
    if c = '<' then ((throughClosing rest).map (c :: ·)).toList ++ tags rest else tags rest

def Closed : List Char → Prop
  | [] => True
  | c :: rest => (c = '<' → '>' ∈ rest) ∧ Closed rest

instance decidableClosed : (text : List Char) → Decidable (Closed text)
  | [] => isTrue trivial
  | c :: rest =>
    have := decidableClosed rest
    inferInstanceAs (Decidable ((c = '<' → '>' ∈ rest) ∧ Closed rest))

theorem throughClosing_append {text : List Char} (h : '>' ∈ text) (more : List Char) :
    throughClosing (text ++ more) = throughClosing text := by
  induction text with
  | nil => cases h
  | cons c rest ih =>
    by_cases hc : c = '>'
    · simp [throughClosing, hc]
    · have hrest : '>' ∈ rest := by
        rcases List.mem_cons.mp h with hm | hm
        · exact absurd hm.symm hc
        · exact hm
      simp [throughClosing, hc, ih hrest]

theorem Closed.append {text more : List Char} (h : Closed text) (hm : Closed more) :
    Closed (text ++ more) := by
  induction text with
  | nil => exact hm
  | cons c rest ih => exact ⟨fun hc => List.mem_append_left _ (h.1 hc), ih h.2⟩

/-- A text that closes its tags has the same ones with more text behind it. -/
theorem tags_append {text : List Char} (h : Closed text) (more : List Char) :
    tags (text ++ more) = tags text ++ tags more := by
  induction text with
  | nil => rfl
  | cons c rest ih =>
    by_cases hc : c = '<'
    · simp [tags, hc, throughClosing_append (h.1 hc), ih h.2]
    · simp [tags, hc, ih h.2]

theorem closed_of_not_mem {text : List Char} (h : '<' ∉ text) : Closed text := by
  induction text with
  | nil => trivial
  | cons c rest ih =>
    rw [List.mem_cons, not_or] at h
    exact ⟨fun hc => absurd hc.symm h.1, ih h.2⟩

theorem tags_of_not_mem {text : List Char} (h : '<' ∉ text) : tags text = [] := by
  induction text with
  | nil => rfl
  | cons c rest ih =>
    rw [List.mem_cons, not_or] at h
    rw [tags, if_neg (Ne.symm h.1), ih h.2]

structure Same (text other : String) : Prop where
  left : Closed text.toList
  right : Closed other.toList
  tags_eq : tags text.toList = tags other.toList

namespace Same
variable {text other more rest : String}

theorem refl (h : Closed text.toList) : Same text text := ⟨h, h, rfl⟩

theorem plain (h : '<' ∉ text.toList) (ho : '<' ∉ other.toList) : Same text other :=
  ⟨closed_of_not_mem h, closed_of_not_mem ho, by rw [tags_of_not_mem h, tags_of_not_mem ho]⟩

theorem append (h : Same text other) (hr : Same more rest) :
    Same (text ++ more) (other ++ rest) := by
  constructor
  · rw [String.toList_append]
    exact h.left.append hr.left
  · rw [String.toList_append]
    exact h.right.append hr.right
  · rw [String.toList_append, String.toList_append, tags_append h.left, tags_append h.right,
      h.tags_eq, hr.tags_eq]

/-- What opens no tag may be put between texts that close theirs. -/
theorem between {before after : String} (hb : Closed before.toList) (ha : Closed after.toList)
    (h : '<' ∉ text.toList) (ho : '<' ∉ other.toList) :
    Same (before ++ text ++ after) (before ++ other ++ after) :=
  ((refl hb).append (plain h ho)).append (refl ha)

end Same

abbrev SameLines : List String → List String → Prop := List.Forall₂ Same

theorem SameLines.refl {lines : List String} (h : ∀ line ∈ lines, Closed line.toList) :
    SameLines lines lines :=
  List.forall₂_same.mpr fun line hl => .refl (h line hl)

theorem SameLines.append {lines others more rest : List String} (h : SameLines lines others)
    (hr : SameLines more rest) : SameLines (lines ++ more) (others ++ rest) := by
  induction h with
  | nil => exact hr
  | cons hline _ ih => exact .cons hline ih

/-- The tags of lines are those of the text they are joined to. -/
theorem SameLines.join {lines others : List String} (h : SameLines lines others) :
    Same (Text.joinLines lines) (Text.joinLines others) := by
  induction h with
  | nil => exact .refl (by decide)
  | @cons line other lines others hline hrest ih =>
    cases hrest with
    | nil => simpa only [Text.joinLines, String.intercalate_singleton] using hline
    | cons hnext hrest =>
      simp only [Text.joinLines, String.intercalate_cons_cons] at ih ⊢
      exact (hline.append (.refl (by decide))).append ih

end Markup

namespace Review

open Markup

theorem opening_not_mem_escapeHtmlChar (c : Char) : '<' ∉ escapeHtmlChar c := by
  unfold escapeHtmlChar
  split_ifs with hamp hopen hclose hquote hmark
  · decide
  · decide
  · decide
  · decide
  · decide
  · intro hmem
    rw [List.mem_singleton] at hmem
    exact hopen (by rw [← hmem]; rfl)

theorem opening_not_mem_escapeHtml (text : String) : '<' ∉ (escapeHtml text).toList := by
  simp [escapeHtml, opening_not_mem_escapeHtmlChar]

theorem opening_not_mem_toDigits (n : Nat) : '<' ∉ Nat.toDigits 10 n := by
  intro hmem
  exact absurd (Nat.isDigit_of_mem_toDigits (by decide) (by decide) hmem) (by decide)

theorem opening_not_mem_nat (n : Nat) : '<' ∉ (toString n).toList := by
  simpa using opening_not_mem_toDigits n

theorem opening_not_mem_int (n : Int) : '<' ∉ (toString n).toList := by
  cases n with
  | ofNat n => exact opening_not_mem_nat n
  | negSucc n => simpa [toString, Int.repr] using opening_not_mem_toDigits (n + 1)

theorem closed_badge (severity : Severity) : Closed (badge severity).toList := by
  cases severity <;> decide +kernel

/-- The line of an issue has the tags that its severity gives it. -/
theorem sameMarkup_htmlEntry {issue other : Issue} (h : issue.severity = other.severity) :
    Same (htmlEntry issue) (htmlEntry other) := by
  have hescaped : ∀ text text', Same (escapeHtml text) (escapeHtml text') :=
    fun text text' => .plain (opening_not_mem_escapeHtml text) (opening_not_mem_escapeHtml text')
  unfold htmlEntry
  rw [h]
  refine .append (.append (.append (.append (.append (.append ?_ ?_) ?_) ?_) ?_) ?_) ?_
  · exact .refl (by decide)
  · exact .refl (closed_badge other.severity)
  · exact .refl (by decide)
  · exact hescaped _ _
  · exact .refl (by decide)
  · exact hescaped _ _
  · exact .refl (by decide)

theorem closed_htmlHead : ∀ line ∈ htmlHead, Closed line.toList := by
  rw [htmlHead]
  repeat rw [List.forall_mem_cons]
  repeat rw [String.toList_append]
  repeat rw [String.toList_ofList]
  decide +kernel

theorem sameLines_htmlIssues {issues others : List Issue}
    (h : issues.map Issue.severity = others.map Issue.severity) :
    SameLines (htmlIssues issues) (htmlIssues others) := by
  have hlines : SameLines (issues.map htmlEntry) (others.map htmlEntry) := by
    induction issues generalizing others with
    | nil =>
      cases others with
      | nil => exact .nil
      | cons => cases h
    | cons issue issues ih =>
      cases others with
      | nil => cases h
      | cons other others =>
        rw [List.map_cons, List.map_cons, List.cons.injEq] at h
        exact .cons (sameMarkup_htmlEntry h.1) (ih h.2)
  have hempty : issues.isEmpty = others.isEmpty := by simpa using congrArg List.isEmpty h
  unfold htmlIssues
  rw [hempty]
  split
  · exact .nil
  · refine .cons (.between ?_ ?_ (opening_not_mem_nat _) (opening_not_mem_nat _)) hlines
    · decide
    · decide

theorem countBySeverity_congr {review other : Review}
    (h : review.issues.map Issue.severity = other.issues.map Issue.severity) :
    review.countBySeverity = other.countBySeverity := by
  have hcount : ∀ (issues : List Issue) (severity : Severity),
      issues.countP (·.severity == severity) =
        (issues.map Issue.severity).countP (· == severity) := by
    intro issues severity
    rw [List.countP_map]
    rfl
  simp only [countBySeverity, hcount, h]

theorem worstFirst_severities (review : Review) :
    review.worstFirst.map Issue.severity =
      (review.issues.map Issue.severity).mergeSort fun a b => b.rank ≤ a.rank := by
  unfold worstFirst
  exact List.map_mergeSort fun _ _ _ _ => rfl

theorem map_takeUpTo {α β : Type} (f : α → β) (limit : Int) (values : List α) :
    (takeUpTo limit values).map f = takeUpTo limit (values.map f) := by
  unfold takeUpTo
  split
  · rw [List.map_take]
  · rw [List.map_take, List.length_map]

theorem closed_breakdownRow (severity : Severity) (count : Nat) :
    Closed ("<tr><td>" ++ badge severity ++ s!"</td><td>{count}</td></tr>").toList := by
  have hcount : Same s!"</td><td>{count}</td></tr>" s!"</td><td>{count}</td></tr>" :=
    .between (by decide) (by decide) (opening_not_mem_nat count) (opening_not_mem_nat count)
  have hbadge : Same ("<tr><td>" ++ badge severity) ("<tr><td>" ++ badge severity) :=
    .append (.refl (by decide)) (.refl (closed_badge severity))
  exact (hbadge.append hcount).left

theorem sameLines_htmlBreakdown {review other : Review}
    (h : review.issues.map Issue.severity = other.issues.map Issue.severity) :
    SameLines review.htmlBreakdown other.htmlBreakdown := by
  have hempty : review.issues.isEmpty = other.issues.isEmpty := by
    simpa using congrArg List.isEmpty h
  unfold htmlBreakdown
  rw [hempty, countBySeverity_congr h]
  split
  · exact .nil
  · refine .append (.append (.refl ?_) (.refl ?_)) (.refl ?_)
    · decide +kernel
    · rw [List.forall_mem_map]
      rintro ⟨severity, count⟩ hmem
      exact closed_breakdownRow severity count
    · decide

theorem sameLines_htmlBody {review other : Review}
    (h : review.issues.map Issue.severity = other.issues.map Issue.severity) (limit : Int) :
    SameLines (review.htmlBody limit) (other.htmlBody limit) := by
  have htop : (takeUpTo limit review.worstFirst).map Issue.severity =
      (takeUpTo limit other.worstFirst).map Issue.severity := by
    rw [map_takeUpTo, map_takeUpTo, worstFirst_severities, worstFirst_severities, h]
  have hcounts : SameLines
      ["<h1>Code Analysis Report</h1>", "<div class=\"summary\">",
        s!"<p><strong>Files analyzed:</strong> {review.filesAnalyzed}</p>",
        s!"<p><strong>Issues:</strong> {review.issues.length}</p>", "</div>"]
      ["<h1>Code Analysis Report</h1>", "<div class=\"summary\">",
        s!"<p><strong>Files analyzed:</strong> {other.filesAnalyzed}</p>",
        s!"<p><strong>Issues:</strong> {other.issues.length}</p>", "</div>"] := by
    refine .cons (.refl ?_) (.cons (.refl ?_) (.cons ?_ (.cons ?_ (.cons (.refl ?_) .nil))))
    · decide
    · decide
    · exact .between (by decide) (by decide) (opening_not_mem_int _) (opening_not_mem_int _)
    · exact .between (by decide) (by decide) (opening_not_mem_nat _) (opening_not_mem_nat _)
    · decide
  have hfooter : Same ("<footer>Exported by code-quality " ++ escapeHtml review.toolVersion ++
      "</footer>") ("<footer>Exported by code-quality " ++ escapeHtml other.toolVersion ++
      "</footer>") :=
    .between (by decide) (by decide) (opening_not_mem_escapeHtml _) (opening_not_mem_escapeHtml _)
  unfold htmlBody
  exact .append (.append (.append hcounts (sameLines_htmlBreakdown h)) (sameLines_htmlIssues htop))
    (.cons hfooter .nil)

/-- Reviews whose issues have the same severities one by one have pages of the same markup, whatever
their texts and numbers are and however many issues are listed. -/
theorem html_tags_of_severities (review other : Review) (limit : Int)
    (h : review.issues.map Issue.severity = other.issues.map Issue.severity) :
    tags (review.html limit).toList = tags (other.html limit).toList := by
  have hlines : SameLines (htmlHead ++ review.htmlBody limit ++ htmlFoot)
      (htmlHead ++ other.htmlBody limit ++ htmlFoot) :=
    .append (.append (.refl closed_htmlHead) (sameLines_htmlBody h limit)) (.refl (by decide))
  rw [html_eq_joinLines, html_eq_joinLines]
  exact hlines.join.tags_eq

def hostile : Review where
  issues := [
    { fileName := "<b>.java", line := 1
      message := "</div><script>alert(\"\x7bbody\x7d\")</script>"
      category := .style, severity := .low },
    { fileName := "&lt;", line := -7, message := "<!--", category := .bug, severity := .critical }]
  toolVersion := "<0>"

def harmless : Review where
  issues := [
    { fileName := "A.java", line := 3, message := "name", category := .bug, severity := .low },
    { fileName := "B.java", line := 4, message := "null", category := .bug, severity := .critical }]
  filesAnalyzed := 2

theorem hostile_page_has_harmless_tags :
    hostile.issues.map Issue.severity = harmless.issues.map Issue.severity ∧
      tags (hostile.html htmlLimit).toList = tags (harmless.html htmlLimit).toList :=
  ⟨rfl, html_tags_of_severities hostile harmless htmlLimit rfl⟩

end Review

end JavaLint
