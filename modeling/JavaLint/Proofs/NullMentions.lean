import JavaLint.Proofs.Findings
import JavaLint.Proofs.TextSearch
import Mathlib.Order.Defs.Unbundled

/-! Where a mention of null keeps a method from being reported. The word is searched in the comment
before the method and the method joined without a gap. So it is found in the one, in the other, or
across the seam, where neither mentions it. -/
namespace JavaLint

open scoped List

/-- The pattern, cut in two, ends the first text and begins the second. -/
def Text.Straddles (pattern before behind : List Char) : Prop :=
  ∃ cut, 0 < cut ∧ cut < pattern.length ∧
    pattern.take cut <:+ before ∧ pattern.drop cut <+: behind

theorem Text.straddles_iff {pattern before behind : List Char} :
    Straddles pattern before behind ↔
      ∃ first rest, first ≠ [] ∧ rest ≠ [] ∧ pattern = first ++ rest ∧
        first <:+ before ∧ rest <+: behind := by
  constructor
  · rintro ⟨cut, hpos, hlt, hfirst, hrest⟩
    refine ⟨pattern.take cut, pattern.drop cut, ?_, ?_, ?_, hfirst, hrest⟩
    · apply List.ne_nil_of_length_pos
      rw [List.length_take]
      omega
    · apply List.ne_nil_of_length_pos
      rw [List.length_drop]
      omega
    · exact (List.take_append_drop cut pattern).symm
  · rintro ⟨first, rest, hfirst, hrest, rfl, hends, hbegins⟩
    refine ⟨first.length, List.length_pos_iff.mpr hfirst, ?_, ?_, ?_⟩
    · have := List.length_pos_iff.mpr hrest
      rw [List.length_append]
      omega
    · rwa [List.take_left]
    · rwa [List.drop_left]

/-- What is found in joined texts is in one of them or straddles the seam. -/
theorem Text.infix_append_iff_straddles {pattern before behind : List Char} :
    pattern <:+: before ++ behind ↔
      pattern <:+: before ∨ pattern <:+: behind ∨ Straddles pattern before behind := by
  rw [List.infix_append_iff_ne_nil, straddles_iff]

namespace Check

structure Method.NeverMentionsNull (source : Source) (method : Method) : Prop where
  access : ".".toList <:+: (method.bodyText source).toList
  comment : ∀ comment ∈ method.site.comment?, ¬ "null".toList <:+: (source.text comment).toList
  own : ¬ "null".toList <:+: (source.text method.site.node).toList

/-- The comment before the method ends in the first letters of null, and the method begins with the
others. -/
def Method.SplitsNull (source : Source) (method : Method) : Prop :=
  ∃ comment ∈ method.site.comment?, Text.Straddles "null".toList (source.text comment).toList
    (source.text method.site.node).toList

namespace Defect

variable {source : Source} {method : Method}

theorem mentions_null_iff :
    Text.contains (source.textOf method.site.comment? ++ source.text method.site.node) "null" =
        true ↔
      (∃ comment ∈ method.site.comment?, "null".toList <:+: (source.text comment).toList) ∨
      "null".toList <:+: (source.text method.site.node).toList ∨ method.SplitsNull source := by
  rw [Text.contains_iff_isInfix, String.toList_append]
  cases hcomment : method.site.comment? with
  | none => simp [Source.textOf, Method.SplitsNull, hcomment]
  | some comment =>
    rw [Text.infix_append_iff_straddles]
    simp [Source.textOf, Method.SplitsNull, hcomment]

theorem mayDereferenceNull_iff :
    mayDereferenceNull source method = true ↔
      method.NeverMentionsNull source ∧ ¬ method.SplitsNull source := by
  rw [mayDereferenceNull, Bool.and_eq_true, Bool.not_eq_true', ← Bool.not_eq_true,
    mentions_null_iff, Text.contains_iff_isInfix]
  constructor
  · rintro ⟨haccess, hnull⟩
    rw [not_or, not_or] at hnull
    obtain ⟨hcomment, hown, hsplit⟩ := hnull
    exact ⟨⟨haccess, fun comment hc hin => hcomment ⟨comment, hc, hin⟩, hown⟩, hsplit⟩
  · rintro ⟨⟨haccess, hcomment, hown⟩, hsplit⟩
    refine ⟨haccess, ?_⟩
    rintro (⟨comment, hc, hin⟩ | hin | hin)
    · exact hcomment comment hc hin
    · exact hown hin
    · exact hsplit hin

end Defect

end Check

namespace Analyzer

open Check

/-- The issues on null stand for methods with a body, in the order of the walk. A method is among
them exactly when its body accesses a member and null stands neither in the comment before it nor in
the method nor across the seam of the two. -/
theorem null_dereference_reported_iff (path : Path) (source : Source) :
    ∃ issues, bug.run ⟨path, some source⟩ = .ok issues ∧
      ∃ reported, reported <+ methodsWithBody source ∧
        (issues.filter (·.ruleId == Rule.nullDereference.id) = reported.map fun method =>
          (method.finding source .nullDereference
            ("Method might contain null pointer dereference: " ++ method.name source)).issue
              ⟨path, some source⟩) ∧
        ∀ method ∈ methodsWithBody source, method ∈ reported ↔
          method.NeverMentionsNull source ∧ ¬ method.SplitsNull source := by
  obtain ⟨issues, hrun, hparts⟩ := defect_issues_of_rule path source
  refine ⟨issues, hrun, (methodsWithBody source).filter (Defect.mayDereferenceNull source),
    List.filter_sublist, ?_, ?_⟩
  · rw [hparts _ List.mem_cons_self, Defect.nullDereferences, List.map_map]
    rfl
  · intro method hmethod
    rw [List.mem_filter, Defect.mayDereferenceNull_iff]
    exact and_iff_right hmethod

end Analyzer

namespace NullMentions

open Check

def comment : Node := ⟨"line_comment", true, false, 0, 6, none, []⟩

def body : Node := ⟨"block", true, false, 12, 20, some "body", []⟩

def declaration : Node :=
  ⟨"method_declaration", true, false, 7, 20, none,
    [⟨"identifier", true, false, 9, 10, some "name", []⟩, body]⟩

def root : Node := ⟨"program", true, false, 0, 20, none, [comment, declaration]⟩

def method : Method := ⟨⟨declaration, some root, some comment, [1]⟩, body⟩

/-- The comment `// nul` before a method `f` whose type is the letter, with the body `{a.b();}`. -/
def typed (letter : UInt8) : Source :=
  ⟨[47, 47, 32, 110, 117, 108, 10] ++
    [letter, 32, 102, 40, 41, 123, 97, 46, 98, 40, 41, 59, 125], root⟩

theorem methodsWithBody_typed (letter : UInt8) : methodsWithBody (typed letter) = [method] := by
  cbv

/-- Behind the comment `// nul` a method of the type `k` is reported. -/
theorem other_letter_reported :
    let source := typed 107
    let path : Path := ⟨.relative, ["A.java"]⟩
    method.NeverMentionsNull source ∧ ¬ method.SplitsNull source ∧
      ∃ issues, Analyzer.bug.run ⟨path, some source⟩ = .ok issues ∧
        (issues.filter (·.ruleId == Rule.nullDereference.id)).map (fun issue =>
          (issue.line, issue.message)) =
            [(2, "Method might contain null pointer dereference: f")] := by
  intro source path
  have hmethod : method.NeverMentionsNull source ∧ ¬ method.SplitsNull source :=
    Defect.mayDereferenceNull_iff.mp (by decide +kernel)
  obtain ⟨issues, hrun, reported, hsublist, hissues, hreported⟩ :=
    Analyzer.null_dereference_reported_iff path source
  rw [methodsWithBody_typed] at hsublist hreported
  have hmem : method ∈ reported := (hreported method List.mem_cons_self).mpr hmethod
  have hall : reported = [method] :=
    hsublist.antisymm (List.singleton_sublist.mpr hmem)
  refine ⟨hmethod.1, hmethod.2, issues, hrun, ?_⟩
  rw [hissues, hall]
  decide +kernel

/-- Behind the same comment a method of the type `l` is not, though neither mentions null. -/
theorem seam_hides_dereference :
    let source := typed 108
    method ∈ methodsWithBody source ∧ method.NeverMentionsNull source ∧
      ∃ issues, Analyzer.bug.run ⟨⟨.relative, ["A.java"]⟩, some source⟩ = .ok issues ∧
        issues.filter (·.ruleId == Rule.nullDereference.id) = [] := by
  intro source
  refine ⟨?_, ⟨?_, ?_, ?_⟩, ?_⟩
  · rw [methodsWithBody_typed]
    exact List.mem_cons_self
  · exact Text.contains_iff_isInfix.mp (by decide +kernel)
  · rintro _ ⟨⟩
    rw [← Text.contains_iff_isInfix, Bool.not_eq_true]
    decide +kernel
  · rw [← Text.contains_iff_isInfix, Bool.not_eq_true]
    decide +kernel
  · obtain ⟨issues, hrun, hparts⟩ :=
      Analyzer.defect_issues_of_rule ⟨.relative, ["A.java"]⟩ source
    refine ⟨issues, hrun, ?_⟩
    rw [hparts _ List.mem_cons_self]
    decide +kernel

end NullMentions

end JavaLint
