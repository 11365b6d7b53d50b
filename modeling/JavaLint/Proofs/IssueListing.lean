import JavaLint.Proofs.Digits
import JavaLint.Proofs.PageTemplate
import JavaLint.Proofs.StableOrder
import JavaLint.Review.Markdown

/-! The issues that a report lists. They are sorted by urgency, which is to list the critical ones
first, then the high ones, and so on, each in the order in which they were found. A limit cuts that
list at the same place in Markdown and in HTML. The list stands under a heading that gives the
number of its issues, and where it is empty there is no heading. -/
namespace JavaLint

namespace Text

variable {text mark : String}

def Diverges (text mark : String) : Prop :=
  ¬mark.toList <+: text.toList ∧ ¬text.toList <+: mark.toList

instance : Decidable (Diverges text mark) := inferInstanceAs (Decidable (_ ∧ _))

theorem Diverges.append (h : Diverges text mark) (more : String) :
    Diverges (text ++ more) mark := by
  have htext : text.toList <+: (text ++ more).toList := by
    rw [String.toList_append]
    exact List.prefix_append _ _
  constructor
  · intro hmark
    rcases List.prefix_or_prefix_of_prefix hmark htext with hm | ht
    · exact h.1 hm
    · exact h.2 ht
  · intro hmore
    exact h.2 (htext.trans hmore)

theorem Diverges.startsWith_eq_false (h : Diverges text mark) : startsWith text mark = false := by
  rw [startsWith, Bool.eq_false_iff, ne_eq, List.isPrefixOf_iff_prefix]
  exact h.1

theorem startsWith_append (h : startsWith text mark = true) (more : String) :
    startsWith (text ++ more) mark = true := by
  rw [startsWith, List.isPrefixOf_iff_prefix] at h ⊢
  rw [String.toList_append]
  exact h.trans (List.prefix_append _ _)

end Text

open Text (Diverges)

/-- How a kind of report writes a list of issues: a heading with their number, and an entry for
each, which may use its place in the list. -/
structure ListStyle where
  heading : Nat → String
  above : List String
  entry : Nat → Issue → String
  below : List String

namespace ListStyle

variable {style : ListStyle} {mark : String} {before after : List String}

/-- The lines of a list of issues. Without issues there are none, not even the heading. -/
def lines (style : ListStyle) (issues : List Issue) : List String :=
  if issues.isEmpty then []
  else
    [style.heading issues.length] ++ style.above ++
      issues.zipIdx.map (fun (issue, index) => style.entry (index + 1) issue) ++ style.below

/-- A beginning that all headings have, which differ by their numbers, and no other line of a list
has. -/
structure Marks (style : ListStyle) (mark : String) : Prop where
  heading : ∀ count, Text.startsWith (style.heading count) mark = true
  heading_injective : Function.Injective style.heading
  above : ∀ line ∈ style.above, Text.startsWith line mark = false
  entry : ∀ number issue, Text.startsWith (style.entry number issue) mark = false
  below : ∀ line ∈ style.below, Text.startsWith line mark = false

theorem Marks.ne_heading (h : style.Marks mark) {line : String} {count : Nat}
    (hline : Text.startsWith line mark = false) : style.heading count ≠ line := by
  rintro rfl
  rw [h.heading] at hline
  cases hline

theorem Marks.not_mem (h : style.Marks mark) {others : List String}
    (ho : ∀ line ∈ others, Text.startsWith line mark = false) (count : Nat) :
    style.heading count ∉ others :=
  fun hmem => h.ne_heading (ho _ hmem) rfl

theorem Marks.heading_mem_lines_iff (h : style.Marks mark) (issues : List Issue) (count : Nat) :
    style.heading count ∈ style.lines issues ↔ 0 < count ∧ count = issues.length := by
  have hentries : style.heading count ∉
      issues.zipIdx.map fun (issue, index) => style.entry (index + 1) issue := by
    refine h.not_mem ?_ count
    intro line hmem
    obtain ⟨⟨issue, index⟩, -, rfl⟩ := List.mem_map.mp hmem
    exact h.entry (index + 1) issue
  cases issues with
  | nil =>
    simp only [lines, List.isEmpty_nil, if_true, List.not_mem_nil, List.length_nil, false_iff]
    omega
  | cons issue rest =>
    simp only [lines, List.isEmpty_cons, Bool.false_eq_true, if_false, List.mem_append,
      List.mem_singleton, h.heading_injective.eq_iff, h.not_mem h.above, h.not_mem h.below,
      hentries, or_false]
    constructor
    · rintro rfl
      exact ⟨Nat.succ_pos _, rfl⟩
    · exact And.right

/-- A report lists issues: the lines of these issues stand between the others, and a line that the
report puts down is a heading exactly when it gives their number and there are some. -/
structure Lists (style : ListStyle) (before after : List String) (text : String)
    (issues : List Issue) : Prop where
  text_eq : text = Text.joinLines (before ++ style.lines issues ++ after)
  heading_iff : ∀ count, style.heading count ∈ before ++ style.lines issues ++ after ↔
    0 < count ∧ count = issues.length

theorem Marks.lists (h : style.Marks mark)
    (hbefore : ∀ line ∈ before, Text.startsWith line mark = false)
    (hafter : ∀ line ∈ after, Text.startsWith line mark = false) {text : String}
    {issues : List Issue} (htext : text = Text.joinLines (before ++ style.lines issues ++ after)) :
    style.Lists before after text issues := by
  refine ⟨htext, fun count => ?_⟩
  rw [List.mem_append, List.mem_append, h.heading_mem_lines_iff]
  simp only [h.not_mem hbefore, h.not_mem hafter, false_or, or_false]

def markdown : ListStyle where
  heading count := s!"## Top {count} Issues"
  above := [""]
  entry := Review.markdownEntry
  below := [""]

def html : ListStyle where
  heading count := s!"<h2>Top {count} Issues</h2>"
  above := []
  entry _ := Review.htmlEntry
  below := []

theorem markdown_lines (issues : List Issue) :
    markdown.lines issues = Review.markdownIssues issues := rfl

theorem html_lines (issues : List Issue) : html.lines issues = Review.htmlIssues issues := by
  have hentries : issues.zipIdx.map (fun (issue, _) => Review.htmlEntry issue) =
      issues.map Review.htmlEntry := by
    conv_rhs => rw [← List.zipIdx_map_fst 0 issues, List.map_map]
    rfl
  simp only [lines, html, hentries, Review.htmlIssues, List.append_nil, List.singleton_append]

/-- Texts around a number tell the number. -/
theorem injective_of_number (start stop : String) :
    Function.Injective fun count : Nat => start ++ toString count ++ stop := by
  intro a b heq
  have hnumber := (String.append_right_inj start).mp ((String.append_left_inj stop).mp heq)
  exact Numeral.toDigits_injective (by simpa using congrArg String.toList hnumber)

theorem diverges_number (n : Nat) : Diverges (toString n) "## T" := by
  obtain ⟨k, hk, more, hdigits, -⟩ := Numeral.toDigits_head n
  have hchar : ∀ k < 10, k.digitChar ≠ '#' := by decide
  have hlist : (toString n).toList = k.digitChar :: more := by simpa using hdigits
  rw [Diverges, hlist]
  simp [List.cons_prefix_cons, hchar k hk, Ne.symm (hchar k hk)]

theorem markdown_marks : markdown.Marks "## T" where
  heading count := Text.startsWith_append (Text.startsWith_append (by decide) _) _
  heading_injective := injective_of_number "## Top " " Issues"
  above := by decide
  entry number issue := by
    have hentry : Diverges (Review.markdownEntry number issue) "## T" := by
      unfold Review.markdownEntry
      iterate 8 apply Diverges.append
      exact diverges_number number
    exact hentry.startsWith_eq_false
  below := by decide

theorem html_marks : html.Marks "<h2>T" where
  heading count := Text.startsWith_append (Text.startsWith_append (by decide) _) _
  heading_injective := injective_of_number "<h2>Top " " Issues</h2>"
  above := by decide
  entry number issue := by
    have hbox : Diverges "<div class=\"issue\">" "<h2>T" := by decide
    exact ((((((hbox.append _).append _).append _).append _).append _).append _).startsWith_eq_false
  below := by decide

end ListStyle

theorem Severity.all_by_rank : Severity.all.Pairwise fun a b => b.rank < a.rank := by decide

theorem Severity.rank_injective : Function.Injective Severity.rank := by
  intro a b
  cases a <;> cases b <;> decide

namespace Review

variable (review : Review)

/-- The issues one severity after another. -/
theorem worstFirst_eq : review.worstFirst = Severity.all.flatMap review.withSeverity :=
  mergeSort_eq_flatMap_filter Severity.all_by_rank fun issue _ => issue.severity.mem_all

def markdownAbove : List String :=
  ["# Code Analysis Results", "", s!"**Files analyzed:** {review.filesAnalyzed}  ",
    s!"**Issues:** {review.issues.length}", ""] ++ review.markdownTables

def markdownBelow : List String := ["---", s!"*Exported by code-quality {review.toolVersion}*", ""]

def htmlAbove : List String :=
  htmlHead ++ (["<h1>Code Analysis Report</h1>", "<div class=\"summary\">",
    s!"<p><strong>Files analyzed:</strong> {review.filesAnalyzed}</p>",
    s!"<p><strong>Issues:</strong> {review.issues.length}</p>", "</div>"] ++ review.htmlBreakdown)

def htmlBelow : List String :=
  ("<footer>Exported by code-quality " ++ escapeHtml review.toolVersion ++ "</footer>") :: htmlFoot

theorem markdown_eq (limit : Nat) :
    review.markdown limit = Text.joinLines (review.markdownAbove ++
      ListStyle.markdown.lines (review.worstFirst.take limit) ++ review.markdownBelow) := by
  rw [markdown, takeUpTo_natCast, ListStyle.markdown_lines]
  rfl

theorem html_eq (limit : Nat) :
    review.html limit = Text.joinLines (review.htmlAbove ++
      ListStyle.html.lines (review.worstFirst.take limit) ++ review.htmlBelow) := by
  rw [html_eq_joinLines, htmlBody, takeUpTo_natCast, ListStyle.html_lines]
  simp only [htmlAbove, htmlBelow, List.append_assoc, List.cons_append, List.nil_append]

theorem markdownTables_unmarked :
    ∀ line ∈ review.markdownTables, Text.startsWith line "## T" = false := by
  have hbar : Diverges "| " "## T" := by decide
  unfold markdownTables
  split
  · exact List.forall_mem_nil _
  · simp only [List.forall_mem_append, List.forall_mem_map]
    refine ⟨⟨⟨⟨?_, ?_⟩, ?_⟩, ?_⟩, ?_⟩
    · decide
    · intro entry _
      exact ((((hbar.append _).append _).append _).append _).startsWith_eq_false
    · decide
    · intro entry _
      exact ((((hbar.append _).append _).append _).append _).startsWith_eq_false
    · decide

theorem markdownAbove_unmarked :
    ∀ line ∈ review.markdownAbove, Text.startsWith line "## T" = false := by
  have hfiles : Diverges "**Files analyzed:** " "## T" := by decide
  have hissues : Diverges "**Issues:** " "## T" := by decide
  unfold markdownAbove
  simp only [List.forall_mem_append, List.forall_mem_cons]
  refine ⟨⟨?_, ?_, ?_, ?_, ?_, ?_⟩, review.markdownTables_unmarked⟩
  · decide
  · decide
  · exact ((hfiles.append _).append _).startsWith_eq_false
  · exact (hissues.append _).startsWith_eq_false
  · decide
  · exact List.forall_mem_nil _

theorem markdownBelow_unmarked :
    ∀ line ∈ review.markdownBelow, Text.startsWith line "## T" = false := by
  have hversion : Diverges "*Exported by code-quality " "## T" := by decide
  unfold markdownBelow
  simp only [List.forall_mem_cons]
  refine ⟨?_, ?_, ?_, ?_⟩
  · decide
  · exact ((hversion.append _).append _).startsWith_eq_false
  · decide
  · exact List.forall_mem_nil _

theorem htmlHead_unmarked : ∀ line ∈ htmlHead, Text.startsWith line "<h2>T" = false := by
  rw [htmlHead]
  simp only [Text.startsWith]
  repeat rw [List.forall_mem_cons]
  repeat rw [String.toList_append]
  repeat rw [String.toList_ofList]
  decide +kernel

theorem htmlBreakdown_unmarked :
    ∀ line ∈ review.htmlBreakdown, Text.startsWith line "<h2>T" = false := by
  have hrow : Diverges "<tr><td>" "<h2>T" := by decide
  unfold htmlBreakdown
  split
  · exact List.forall_mem_nil _
  · simp only [List.forall_mem_append, List.forall_mem_map]
    refine ⟨⟨?_, ?_⟩, ?_⟩
    · decide
    · intro entry _
      exact ((hrow.append _).append _).startsWith_eq_false
    · decide

theorem htmlAbove_unmarked :
    ∀ line ∈ review.htmlAbove, Text.startsWith line "<h2>T" = false := by
  have hfiles : Diverges "<p><strong>Files analyzed:</strong> " "<h2>T" := by decide
  have hissues : Diverges "<p><strong>Issues:</strong> " "<h2>T" := by decide
  unfold htmlAbove
  simp only [List.forall_mem_append, List.forall_mem_cons]
  refine ⟨htmlHead_unmarked, ⟨?_, ?_, ?_, ?_, ?_, ?_⟩, review.htmlBreakdown_unmarked⟩
  · decide
  · decide
  · exact ((hfiles.append _).append _).startsWith_eq_false
  · exact ((hissues.append _).append _).startsWith_eq_false
  · decide
  · exact List.forall_mem_nil _

theorem htmlBelow_unmarked :
    ∀ line ∈ review.htmlBelow, Text.startsWith line "<h2>T" = false := by
  have hfooter : Diverges "<footer>Exported by code-quality " "<h2>T" := by decide
  unfold htmlBelow
  rw [List.forall_mem_cons]
  refine ⟨?_, ?_⟩
  · exact ((hfooter.append _).append _).startsWith_eq_false
  · decide

theorem markdown_lists (limit : Nat) :
    ListStyle.markdown.Lists review.markdownAbove review.markdownBelow (review.markdown limit)
      (review.worstFirst.take limit) :=
  ListStyle.markdown_marks.lists review.markdownAbove_unmarked review.markdownBelow_unmarked
    (review.markdown_eq limit)

theorem html_lists (limit : Nat) :
    ListStyle.html.Lists review.htmlAbove review.htmlBelow (review.html limit)
      (review.worstFirst.take limit) :=
  ListStyle.html_marks.lists review.htmlAbove_unmarked review.htmlBelow_unmarked
    (review.html_eq limit)

/-- Sorted by urgency the issues stand one severity after another, each in the order in which they
were found. Both reports list the first of them up to the limit, with their number in the heading;
an issue left out is less urgent than every one listed, or as urgent and found later. -/
theorem reports_list_worst_first :
    review.worstFirst = Severity.all.flatMap review.withSeverity ∧
    ∃ order : List (Fin review.issues.length),
      order.Perm (List.finRange review.issues.length) ∧
      order.map review.issues.get = review.worstFirst ∧
      ∀ limit : Nat,
        ((order.take limit).map review.issues.get).length = min limit review.issues.length ∧
        ListStyle.markdown.Lists review.markdownAbove review.markdownBelow (review.markdown limit)
          ((order.take limit).map review.issues.get) ∧
        ListStyle.html.Lists review.htmlAbove review.htmlBelow (review.html limit)
          ((order.take limit).map review.issues.get) ∧
        ∀ listed ∈ order.take limit, ∀ omitted ∈ order.drop limit,
          (review.issues.get omitted).severity.rank < (review.issues.get listed).severity.rank ∨
            (review.issues.get listed).severity = (review.issues.get omitted).severity ∧
              listed < omitted := by
  have hperm := positionsByMeasure_perm (fun issue => issue.severity.rank) review.issues
  have hworst : (positionsByMeasure (fun issue => issue.severity.rank) review.issues).map
      review.issues.get = review.worstFirst :=
    map_get_positionsByMeasure (fun issue => issue.severity.rank) review.issues
  refine ⟨review.worstFirst_eq, _, hperm, hworst, fun limit => ⟨?_, ?_, ?_, ?_⟩⟩
  · rw [List.length_map, List.length_take, hperm.length_eq, List.length_finRange]
  · rw [List.map_take, hworst]
    exact review.markdown_lists limit
  · rw [List.map_take, hworst]
    exact review.html_lists limit
  · intro listed hlisted omitted homitted
    have horder := positionsByMeasure_precedes (fun issue => issue.severity.rank) review.issues
    rcases horder.rel_of_mem_take_of_mem_drop hlisted homitted with hlt | ⟨heq, hfirst⟩
    · exact Or.inl hlt
    · exact Or.inr ⟨Severity.rank_injective heq, hfirst⟩

end Review

end JavaLint
