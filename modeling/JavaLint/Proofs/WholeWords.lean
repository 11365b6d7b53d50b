import JavaLint.Check.Wording
import JavaLint.Proofs.SearchPatterns
import Mathlib.Tactic.SplitIfs

/-! SQL keywords as whole words. A text is cut into runs of word characters, each as long as it can
be. The check finds a keyword exactly when one of these runs spells it, since every character that
may stand for a letter of a keyword is a word character, the ones beyond ASCII included. -/
namespace JavaLint

open scoped List

namespace Text

/-- The lower-case letter that a character stands for, if it stands for one. -/
def letterOf (c : Char) : Char :=
  if c = '\u017F' then 's'
  else if c = '\u212A' then 'k'
  else if c = '\u0130' ∨ c = '\u0131' then 'i'
  else c.toLower

theorem matchesLetter_iff {letter c : Char} (hl : letter.isLower = true) :
    matchesLetter letter c = true ↔ letter = letterOf c := by
  have hne : ∀ d : Char, d.isLower = false → d ≠ letter := by
    rintro d hd rfl
    rw [hl] at hd
    cases hd
  simp only [matchesLetter, letterOf, Bool.or_eq_true, Bool.and_eq_true, beq_iff_eq]
  split_ifs with hs hk hi
  · subst hs
    simp [hne '\u017F' (by decide)]
  · subst hk
    simp [hne '\u212A' (by decide)]
  · rcases hi with rfl | rfl
    · simp [hne '\u0130' (by decide)]
    · simp [hne '\u0131' (by decide)]
  · simp [hs, hk, hi, eq_comm]

theorem isWord_of_isAlpha {c : Char} (h : c.isAlpha = true) : isWord c = true := by
  have hrange : (65 ≤ c.toNat ∧ c.toNat ≤ 90) ∨ (97 ≤ c.toNat ∧ c.toNat ≤ 122) := by
    unfold Char.isAlpha Char.isUpper Char.isLower at h
    simpa [UInt32.le_iff_toNat_le] using h
  have hascii : c.toNat < 128 := by omega
  have hcases : isAsciiAlphanumeric c = true := by
    simp only [isAsciiAlphanumeric, Char.le_def, UInt32.le_iff_toNat_le, Bool.or_eq_true,
      Bool.and_eq_true, decide_eq_true_eq]
    rcases hrange with h | h
    · exact Or.inl (Or.inr h)
    · exact Or.inr h
  simp [isWord, isAlphanumeric, hascii, hcases]

/-- What stands for a lower-case letter is a word character. -/
theorem isWord_of_matchesLetter {letter c : Char} (hl : letter.isLower = true)
    (h : matchesLetter letter c = true) : isWord c = true := by
  simp only [matchesLetter, Bool.or_eq_true, Bool.and_eq_true, beq_iff_eq] at h
  rcases h with ((rfl | ⟨-, rfl⟩) | ⟨-, rfl⟩) | ⟨-, rfl | rfl⟩
  · refine isWord_of_isAlpha (Bool.or_eq_true_iff.mpr ?_)
    by_cases hu : c.isUpper = true
    · exact Or.inl hu
    · right
      have hsame : c.toLower = c := dif_neg fun h => hu (decide_eq_true h)
      rwa [hsame] at hl
  all_goals decide +kernel

variable {word text : List Char}

theorem Spells.eq_map (h : Spells word text) (hl : ∀ letter ∈ word, letter.isLower = true) :
    word = text.map letterOf := by
  induction h with
  | nil => rfl
  | cons hletter _ ih =>
    rw [List.forall_mem_cons] at hl
    rw [List.map_cons, ← (matchesLetter_iff hl.1).mp hletter, ← ih hl.2]

theorem Spells.isWord (h : Spells word text) (hl : ∀ letter ∈ word, letter.isLower = true) :
    ∀ c ∈ text, isWord c = true := by
  induction h with
  | nil => simp
  | cons hletter _ ih =>
    rw [List.forall_mem_cons] at hl
    rw [List.forall_mem_cons]
    exact ⟨isWord_of_matchesLetter hl.1 hletter, ih hl.2⟩

def wordRuns (text : List Char) : List (List Char) :=
  (text.splitOnP (!isWord ·)).filter (!·.isEmpty)

/-- A run is not empty, holds word characters only, and has none beside it. -/
theorem mem_wordRuns_iff {run : List Char} :
    run ∈ wordRuns text ↔ run ≠ [] ∧ ∃ before after, IsPiece (!isWord ·) text before run after := by
  rw [wordRuns, List.mem_filter, mem_splitOnP_iff, and_comm]
  simp

end Text

namespace Check.Wording

open Text

def sqlPattern : Pattern := .next .wordEdge (.next (.oneOf sqlKeywords) .wordEdge)

theorem sqlKeywords_lower :
    ∀ keyword ∈ sqlKeywords, keyword.toList ≠ [] ∧ ∀ c ∈ keyword.toList, c.isLower = true := by
  simp only [sqlKeywords, List.forall_mem_cons]
  simp

/-- No keyword is a part of another. -/
theorem sqlKeywords_apart :
    ∀ keyword ∈ sqlKeywords, ∀ other ∈ sqlKeywords, keyword.toList <:+: other.toList →
      keyword = other := by
  decide +kernel

variable {keyword : String} {text : List Char}

theorem isWordBreak_iff {c : Option Char} :
    isWordBreak c = true ↔ ∀ d ∈ c, (!isWord d) = true := by
  cases c with
  | none => simp [isWordBreak]
  | some d => simp [isWordBreak]

theorem keywordAt_iff :
    keywordAt text = true ↔ ∃ keyword ∈ sqlKeywords, ∃ found after, Spells keyword.toList found ∧
      text = found ++ after ∧ isWordBreak after.head? = true :=
  any_dropWord?_iff

theorem keywordAt_nil : keywordAt [] = false := by decide

/-- The reader remembers one character of what it has passed. -/
theorem keywordFrom_iff (front : List Char) :
    keywordFrom front.getLast? text = true ↔
      ∃ before rest, text = before ++ rest ∧ isWordBreak (front ++ before).getLast? = true ∧
        keywordAt rest = true := by
  induction text generalizing front with
  | nil => simp [keywordFrom, keywordAt_nil]
  | cons c text ih =>
    have hlast : some c = (front ++ [c]).getLast? := by simp
    rw [keywordFrom, Bool.or_eq_true, Bool.and_eq_true, hlast, ih, exists_cut_cons]
    simp only [List.append_nil, List.append_assoc, List.singleton_append]

theorem hasSqlKeyword_iff {text : String} :
    hasSqlKeyword text = true ↔ ∃ keyword ∈ sqlKeywords, ∃ before found after,
      Spells keyword.toList found ∧ text.toList = before ++ (found ++ after) ∧
        isWordBreak before.getLast? = true ∧ isWordBreak after.head? = true := by
  rw [hasSqlKeyword, ← List.getLast?_nil, keywordFrom_iff]
  constructor
  · rintro ⟨before, rest, htext, hbreak, hat⟩
    obtain ⟨keyword, hkeyword, found, after, hspells, rfl, hafter⟩ := keywordAt_iff.mp hat
    exact ⟨keyword, hkeyword, before, found, after, hspells, htext, hbreak, hafter⟩
  · rintro ⟨keyword, hkeyword, before, found, after, hspells, htext, hbreak, hafter⟩
    exact ⟨before, found ++ after, htext, hbreak,
      keywordAt_iff.mpr ⟨keyword, hkeyword, found, after, hspells, rfl, hafter⟩⟩

section Edges
variable {before found after : List Char}

/-- Before word characters there is an edge exactly where none stands before them. -/
theorem edge_before_iff (hne : found ≠ []) (hword : ∀ c ∈ found, isWord c = true) :
    before.getLast?.any isWord ≠ (found ++ after).head?.any isWord ↔
      isWordBreak before.getLast? = true := by
  obtain ⟨c, more, rfl⟩ := List.exists_cons_of_ne_nil hne
  simp [isWordBreak, hword c List.mem_cons_self]

theorem edge_after_iff (hne : found ≠ []) (hword : ∀ c ∈ found, isWord c = true) :
    (before ++ found).getLast?.any isWord ≠ after.head?.any isWord ↔
      isWordBreak after.head? = true := by
  obtain ⟨front, c, rfl⟩ := found.eq_nil_or_concat'.resolve_left hne
  have hlast : (before ++ (front ++ [c])).getLast? = some c := by
    rw [← List.append_assoc, List.getLast?_concat]
  rw [hlast, Option.any_some, hword c (by simp), isWordBreak]
  simp

end Edges

theorem sqlPattern_found_iff {text : String} :
    sqlPattern.Found text.toList ↔ hasSqlKeyword text = true := by
  rw [hasSqlKeyword_iff]
  constructor
  · rintro ⟨before, rest, htext, hstarts⟩
    obtain ⟨hbefore, hstarts⟩ := Pattern.starts_wordEdge_next.mp hstarts
    obtain ⟨keyword, hkeyword, found, after, hspells, rfl, hedge⟩ :=
      Pattern.starts_oneOf_next.mp hstarts
    obtain ⟨hne, hlower⟩ := sqlKeywords_lower keyword hkeyword
    have hword := hspells.isWord hlower
    refine ⟨keyword, hkeyword, before, found, after, hspells, htext, ?_, ?_⟩
    · exact (edge_before_iff (hspells.ne_nil hne) hword).mp hbefore
    · exact (edge_after_iff (hspells.ne_nil hne) hword).mp (Pattern.starts_wordEdge.mp hedge)
  · rintro ⟨keyword, hkeyword, before, found, after, hspells, htext, hbefore, hafter⟩
    obtain ⟨hne, hlower⟩ := sqlKeywords_lower keyword hkeyword
    have hword := hspells.isWord hlower
    have hedge : Pattern.wordEdge.Starts ⟨before ++ found, after⟩ :=
      Pattern.starts_wordEdge.mpr ((edge_after_iff (hspells.ne_nil hne) hword).mpr hafter)
    refine ⟨before, found ++ after, htext, Pattern.starts_wordEdge_next.mpr ⟨?_, ?_⟩⟩
    · exact (edge_before_iff (hspells.ne_nil hne) hword).mpr hbefore
    · exact Pattern.starts_oneOf_next.mpr ⟨keyword, hkeyword, found, after, hspells, rfl, hedge⟩

theorem hasSqlKeyword_iff_wordRuns {text : String} :
    hasSqlKeyword text = true ↔
      ∃ run ∈ wordRuns text.toList, ∃ keyword ∈ sqlKeywords, Spells keyword.toList run := by
  rw [hasSqlKeyword_iff]
  constructor
  · rintro ⟨keyword, hkeyword, before, found, after, hspells, htext, hbefore, hafter⟩
    obtain ⟨hne, hlower⟩ := sqlKeywords_lower keyword hkeyword
    have hpiece : IsPiece (!isWord ·) text.toList before found after :=
      ⟨htext, isWordBreak_iff.mp hbefore, by simpa using hspells.isWord hlower,
        isWordBreak_iff.mp hafter⟩
    exact ⟨found, mem_wordRuns_iff.mpr ⟨hspells.ne_nil hne, before, after, hpiece⟩, keyword,
      hkeyword, hspells⟩
  · rintro ⟨run, hrun, keyword, hkeyword, hspells⟩
    obtain ⟨-, before, after, hpiece⟩ := mem_wordRuns_iff.mp hrun
    exact ⟨keyword, hkeyword, before, run, after, hspells, hpiece.joined,
      isWordBreak_iff.mpr hpiece.opened, isWordBreak_iff.mpr hpiece.closed⟩

/-- What spells a keyword has no keyword as a part of it. -/
theorem eq_of_spells_part {keyword other : String} {found run : List Char}
    (hk : keyword ∈ sqlKeywords) (ho : other ∈ sqlKeywords) (hspells : Spells keyword.toList found)
    (hrun : Spells other.toList run) (hin : found <:+: run) : found = run := by
  have hfound := hspells.eq_map (sqlKeywords_lower keyword hk).2
  have hother := hrun.eq_map (sqlKeywords_lower other ho).2
  have hpart : keyword.toList <:+: other.toList := by
    rw [hfound, hother]
    exact hin.map letterOf
  cases sqlKeywords_apart keyword hk other ho hpart
  exact hin.eq_of_length (hspells.length_eq.symm.trans hrun.length_eq)

/-- A keyword is found exactly when one of the runs of word characters, taken whole, spells it; and
this is where the pattern of a keyword between two edges matches. A run with a keyword in it and
more beside that, such as an underscore or a digit, spells no keyword. -/
theorem keyword_found_iff_whole_run (text : String) :
    (hasSqlKeyword text = true ↔ sqlPattern.Found text.toList) ∧
    (hasSqlKeyword text = true ↔
      ∃ run ∈ wordRuns text.toList, ∃ keyword ∈ sqlKeywords, Spells keyword.toList run) ∧
    ∀ run ∈ wordRuns text.toList, ∀ found, found <:+: run → found ≠ run →
      (∃ keyword ∈ sqlKeywords, Spells keyword.toList found) →
        ¬ ∃ keyword ∈ sqlKeywords, Spells keyword.toList run := by
  refine ⟨sqlPattern_found_iff.symm, hasSqlKeyword_iff_wordRuns, ?_⟩
  rintro run - found hin hne ⟨keyword, hkeyword, hspells⟩ ⟨other, hother, hrun⟩
  exact hne (eq_of_spells_part hkeyword hother hspells hrun hin)

/-- A keyword with a long s, glued to a number, and another keyword in capitals. -/
theorem glued_and_whole_keyword :
    let text := "\u017Felect_1 DROP"
    let glued := "\u017Felect_1".toList
    let part := "\u017Felect".toList
    wordRuns text.toList = [glued, "DROP".toList] ∧ part <:+: glued ∧
      Spells "select".toList part ∧ (¬ ∃ keyword ∈ sqlKeywords, Spells keyword.toList glued) ∧
      hasSqlKeyword text = true := by
  intro text glued part
  have hruns : wordRuns text.toList = [glued, "DROP".toList] := by decide +kernel
  have hin : part <:+: glued := by decide +kernel
  have hspells : Spells "select".toList part := by decide +kernel
  obtain ⟨-, hfound, hparts⟩ := keyword_found_iff_whole_run text
  rw [hruns] at hfound hparts
  refine ⟨hruns, hin, hspells, ?_, ?_⟩
  · exact hparts glued (by simp) part hin (by decide +kernel) ⟨"select", by decide, hspells⟩
  · exact hfound.mpr ⟨"DROP".toList, by simp, "drop", by decide, by decide +kernel⟩

end Check.Wording

end JavaLint
