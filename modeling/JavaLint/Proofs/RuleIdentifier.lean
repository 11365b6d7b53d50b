import JavaLint.Rule.Identifier
import Mathlib.Data.Char
import Mathlib.Data.List.Basic
import Mathlib.Data.List.TakeWhile

/-! The form of rule identifiers by its parts. The reader of identifiers works from both ends of a
text; what it accepts are exactly the texts put together from a family, a name and a number. -/
namespace JavaLint.Rule

structure HasForm (text family : List Char) (first : Char) (middle number : List Char) : Prop where
  joined : text = family ++ '_' :: first :: (middle ++ '_' :: number)
  family_length : 2 ≤ family.length ∧ family.length ≤ 4
  family_capitals : ∀ c ∈ family, 'A' ≤ c ∧ c ≤ 'Z'
  first_capital : 'A' ≤ first ∧ first ≤ 'Z'
  middle_chars : ∀ c ∈ middle, ('A' ≤ c ∧ c ≤ 'Z') ∨ ('0' ≤ c ∧ c ≤ '9') ∨ c = '_'
  number_length : number.length = 3
  number_figures : ∀ c ∈ number, '0' ≤ c ∧ c ≤ '9'

def IsForm (text : List Char) : Prop :=
  ∃ family first middle number, HasForm text family first middle number

theorem isCapital_iff {c : Char} : isCapital c = true ↔ 'A' ≤ c ∧ c ≤ 'Z' := by
  simp [isCapital]

theorem isFigure_iff {c : Char} : isFigure c = true ↔ '0' ≤ c ∧ c ≤ '9' := by
  simp [isFigure]

theorem isNameChar_iff {c : Char} :
    isNameChar c = true ↔ ('A' ≤ c ∧ c ≤ 'Z') ∨ ('0' ≤ c ∧ c ≤ '9') ∨ c = '_' := by
  simp [isNameChar, isCapital_iff, isFigure_iff, or_assoc]

/-- The number is read from the end of the text, and so are the characters before it. -/
theorem isNumberedTail_iff {text : List Char} :
    isNumberedTail text = true ↔
      ∃ middle number, text = middle ++ '_' :: number ∧ number.length = 3 ∧
        (∀ c ∈ number, isFigure c = true) ∧ ∀ c ∈ middle, isNameChar c = true := by
  constructor
  · intro h
    rw [isNumberedTail] at h
    split at h
    · rename_i a b c middle hreverse
      simp only [Bool.and_eq_true, List.all_eq_true] at h
      obtain ⟨⟨⟨ha, hb⟩, hc⟩, hmiddle⟩ := h
      refine ⟨middle.reverse, [c, b, a], ?_, rfl, by simp [ha, hb, hc], ?_⟩
      · rw [← text.reverse_reverse, hreverse]
        simp
      · intro d hd
        exact hmiddle d (List.mem_reverse.mp hd)
    · cases h
  · rintro ⟨middle, number, rfl, hlength, hnumber, hmiddle⟩
    obtain ⟨c, b, a, rfl⟩ := List.length_eq_three.mp hlength
    simp only [List.forall_mem_cons] at hnumber
    simpa [isNumberedTail, hnumber] using hmiddle

theorem isExactIdentifier_iff {text : List Char} :
    isExactIdentifier text = true ↔ IsForm text := by
  constructor
  · intro h
    rw [isExactIdentifier, Bool.and_eq_true, Bool.and_eq_true, decide_eq_true_iff,
      decide_eq_true_iff] at h
    obtain ⟨hlength, h⟩ := h
    split at h
    · rename_i first tail hrest
      obtain ⟨hfirst, htail⟩ := Bool.and_eq_true_iff.mp h
      obtain ⟨middle, number, rfl, hthree, hnumber, hmiddle⟩ := isNumberedTail_iff.mp htail
      refine ⟨text.takeWhile isCapital, first, middle, number, ?_⟩
      constructor
      · rw [← hrest, List.takeWhile_append_dropWhile]
      · exact hlength
      · intro c hc
        exact isCapital_iff.mp (List.mem_takeWhile_imp hc)
      · exact isCapital_iff.mp hfirst
      · intro c hc
        exact isNameChar_iff.mp (hmiddle c hc)
      · exact hthree
      · intro c hc
        exact isFigure_iff.mp (hnumber c hc)
    · cases h
  · rintro ⟨family, first, middle, number, hform⟩
    -- The underscore is no capital, so the run of capitals ends with the family.
    have hfamily : ∀ c ∈ family, isCapital c = true :=
      fun c hc => isCapital_iff.mpr (hform.family_capitals c hc)
    have htake : text.takeWhile isCapital = family := by
      rw [hform.joined, List.takeWhile_append_of_pos hfamily,
        List.takeWhile_cons_of_neg (by decide), List.append_nil]
    have hdrop : text.dropWhile isCapital = '_' :: first :: (middle ++ '_' :: number) := by
      rw [hform.joined, List.dropWhile_append_of_pos hfamily,
        List.dropWhile_cons_of_neg (by decide)]
    have htail : isNumberedTail (middle ++ '_' :: number) = true :=
      isNumberedTail_iff.mpr ⟨middle, number, rfl, hform.number_length,
        fun c hc => isFigure_iff.mpr (hform.number_figures c hc),
        fun c hc => isNameChar_iff.mpr (hform.middle_chars c hc)⟩
    rw [isExactIdentifier, htake, hdrop]
    simp [hform.family_length, isCapital_iff.mpr hform.first_capital, htail]

theorem IsForm.getLast?_ne {text : List Char} (h : IsForm text) : text.getLast? ≠ some '\n' := by
  obtain ⟨family, first, middle, number, hform⟩ := h
  obtain ⟨c, b, a, hnumber⟩ := List.length_eq_three.mp hform.number_length
  have hlast : text.getLast? = some a := by
    apply List.getLast?_eq_some_iff.mpr
    exact ⟨family ++ '_' :: first :: (middle ++ ['_', c, b]), by simp [hform.joined, hnumber]⟩
  rw [hlast, Ne, Option.some_inj]
  rintro rfl
  have hbreak := hform.number_figures '\n' (by simp [hnumber])
  exact absurd hbreak (by decide)

/-- A text without its final line break, if there is one, said without looking at its end. -/
theorem dropFinalBreak_iff {text : List Char} (test : List Char → Prop)
    (h : ∀ core, test core → core.getLast? ≠ some '\n') :
    test (Text.dropFinalBreak text) ↔
      ∃ core, (text = core ∨ text = core ++ ['\n']) ∧ test core := by
  constructor
  · intro hcore
    refine ⟨Text.dropFinalBreak text, ?_, hcore⟩
    rw [Text.dropFinalBreak]
    split
    · rename_i hlast
      obtain ⟨front, hfront⟩ := List.getLast?_eq_some_iff.mp (beq_iff_eq.mp hlast)
      exact Or.inr (by simp [hfront])
    · exact Or.inl rfl
  · rintro ⟨core, rfl | rfl, hcore⟩
    · rw [Text.dropFinalBreak, if_neg (by simpa using h _ hcore)]
      exact hcore
    · simpa [Text.dropFinalBreak] using hcore

theorem isOptionalIdentifier_iff {text : String} :
    isOptionalIdentifier text = true ↔
      ∃ core, (text.toList = core ∨ text.toList = core ++ ['\n']) ∧ (core = [] ∨ IsForm core) := by
  rw [← dropFinalBreak_iff fun core => core = [] ∨ IsForm core]
  · simp [isOptionalIdentifier, isExactIdentifier_iff]
  · rintro core (rfl | hform)
    · simp
    · exact hform.getLast?_ne

theorem isIdentifier_iff {text : String} :
    isIdentifier text = true ↔
      ∃ core, (text.toList = core ∨ text.toList = core ++ ['\n']) ∧ IsForm core := by
  rw [← dropFinalBreak_iff IsForm fun _ hform => hform.getLast?_ne, isIdentifier,
    isExactIdentifier_iff]

end JavaLint.Rule
