import JavaLint.Text.Caseless
import JavaLint.Text.Search
import JavaLint.Text.Word
import Mathlib.Data.List.Forall2
import Mathlib.Data.List.TakeWhile

/-! What a search pattern finds. A pattern leads from one position of a text to another, and a
search succeeds if the pattern leads on from some position, in whatever order positions and
alternatives are tried. The checks do not interpret patterns; each has a reader of its own, to be
compared with the pattern it stands for. -/
namespace JavaLint.Text

/-- A text spells a word, letter by letter and without regard to case. -/
def Spells (word text : List Char) : Prop :=
  List.Forall₂ (fun letter c => matchesLetter letter c = true) word text

instance (word text : List Char) : Decidable (Spells word text) :=
  inferInstanceAs (Decidable (List.Forall₂ _ word text))

theorem Spells.ne_nil {word text : List Char} (h : Spells word text) (hw : word ≠ []) :
    text ≠ [] := by
  rintro rfl
  exact hw (List.forall₂_nil_right_iff.mp h)

theorem dropWord?_eq_some_iff {word text rest : List Char} :
    dropWord? word text = some rest ↔ ∃ found, text = found ++ rest ∧ Spells word found := by
  constructor
  · intro h
    fun_induction dropWord? word text with
    | case1 text =>
      cases h
      exact ⟨[], rfl, .nil⟩
    | case2 => cases h
    | case3 p word c text hletter ih =>
      obtain ⟨found, rfl, hspells⟩ := ih h
      exact ⟨c :: found, rfl, .cons hletter hspells⟩
    | case4 => cases h
  · rintro ⟨found, rfl, hspells⟩
    induction hspells with
    | nil => rfl
    | cons hletter _ ih => rw [List.cons_append, dropWord?, if_pos hletter, ih]

/-- The form of the readers of words: one of some words starts here, and a test lets through what is
behind it. -/
theorem any_dropWord?_iff {words : List String} {test : List Char → Bool} {text : List Char} :
    (words.any fun word =>
        match dropWord? word.toList text with
        | some rest => test rest
        | none => false) = true ↔
      ∃ word ∈ words, ∃ found rest, Spells word.toList found ∧ text = found ++ rest ∧
        test rest = true := by
  rw [List.any_eq_true]
  refine exists_congr fun word => and_congr_right fun _ => ?_
  constructor
  · intro h
    split at h
    · rename_i rest hdrop
      obtain ⟨found, htext, hspells⟩ := dropWord?_eq_some_iff.mp hdrop
      exact ⟨found, rest, hspells, htext, h⟩
    · cases h
  · rintro ⟨found, rest, hspells, htext, hrest⟩
    rw [dropWord?_eq_some_iff.mpr ⟨found, htext, hspells⟩]
    exact hrest

/-- A text is cut before its first character or behind it. -/
theorem exists_cut_cons {motive : List Char → List Char → Prop} {c : Char} {text : List Char} :
    (∃ before rest, c :: text = before ++ rest ∧ motive before rest) ↔
      motive [] (c :: text) ∨ ∃ before rest, text = before ++ rest ∧ motive (c :: before) rest := by
  constructor
  · rintro ⟨before, rest, htext, h⟩
    rcases List.cons_eq_append_iff.mp htext with ⟨rfl, rfl⟩ | ⟨more, rfl, rfl⟩
    · exact Or.inl h
    · exact Or.inr ⟨more, rest, rfl, h⟩
  · rintro (h | ⟨before, rest, rfl, h⟩)
    · exact ⟨[], c :: text, rfl, h⟩
    · exact ⟨c :: before, rest, rfl, h⟩

theorem someSuffix_iff {test : List Char → Bool} {text : List Char} :
    someSuffix test text = true ↔ ∃ before rest, text = before ++ rest ∧ test rest = true := by
  induction text with
  | nil => simp [someSuffix]
  | cons c text ih => rw [someSuffix, Bool.or_eq_true, ih, exists_cut_cons]

/-- A piece of a text that stands between breaks, or at an end of the text, and holds none. -/
structure IsPiece (breaks : Char → Bool) (text before piece after : List Char) : Prop where
  joined : text = before ++ (piece ++ after)
  opened : ∀ c ∈ before.getLast?, breaks c = true
  whole : ∀ c ∈ piece, breaks c = false
  closed : ∀ c ∈ after.head?, breaks c = true

section Pieces
variable {breaks : Char → Bool} {text piece : List Char}

theorem eq_takeWhile_iff :
    piece = text.takeWhile (!breaks ·) ↔
      ∃ after, text = piece ++ after ∧ (∀ c ∈ piece, breaks c = false) ∧
        ∀ c ∈ after.head?, breaks c = true := by
  constructor
  · rintro rfl
    refine ⟨text.dropWhile (!breaks ·), List.takeWhile_append_dropWhile.symm, ?_, ?_⟩
    · intro c hc
      simpa using List.mem_takeWhile_imp hc
    · intro c hc
      have hhead := List.head?_dropWhile_not (!breaks ·) text
      rw [Option.mem_def.mp hc] at hhead
      simpa using hhead
  · rintro ⟨after, rfl, hwhole, hclosed⟩
    rw [List.takeWhile_append_of_pos (by simpa using hwhole)]
    cases after with
    | nil => simp
    | cons c after => rw [List.takeWhile_cons_of_neg (by simp [hclosed c rfl]), List.append_nil]

theorem splitOnP_eq_cons (breaks : Char → Bool) (text : List Char) :
    text.splitOnP breaks = text.takeWhile (!breaks ·) :: (text.splitOnP breaks).tail := by
  induction text with
  | nil => rfl
  | cons c rest ih =>
    rw [List.splitOnP_cons_eq_if_modifyHead]
    by_cases hc : breaks c = true
    · rw [if_pos hc, List.takeWhile_cons_of_neg (by simp [hc]), List.tail_cons]
    · rw [if_neg hc, List.takeWhile_cons_of_pos (by simp [hc]), ih, List.modifyHead_cons,
        List.tail_cons]

/-- Every piece but the first begins behind a break. -/
theorem mem_tail_splitOnP :
    piece ∈ (text.splitOnP breaks).tail ↔
      ∃ before rest, text = before ++ rest ∧
        rest.head?.any breaks = true ∧ piece = rest.tail.takeWhile (!breaks ·) := by
  induction text with
  | nil => simp
  | cons c text ih =>
    rw [List.splitOnP_cons_eq_if_modifyHead, exists_cut_cons, ← ih]
    by_cases hc : breaks c = true
    · rw [if_pos hc, List.tail_cons, splitOnP_eq_cons, List.mem_cons]
      simp [hc]
    · rw [if_neg hc, splitOnP_eq_cons, List.modifyHead_cons, List.tail_cons]
      simp [hc]

theorem mem_tail_splitOnP_iff :
    piece ∈ (text.splitOnP breaks).tail ↔
      ∃ before after, before ≠ [] ∧ IsPiece breaks text before piece after := by
  rw [mem_tail_splitOnP]
  constructor
  · rintro ⟨front, rest, rfl, hbreak, hpiece⟩
    cases rest with
    | nil => cases hbreak
    | cons c rest =>
      obtain ⟨after, rfl, hwhole, hclosed⟩ := eq_takeWhile_iff.mp hpiece
      exact ⟨front ++ [c], after, by simp, by simp, by simpa using hbreak, hwhole, hclosed⟩
  · rintro ⟨before, after, hne, rfl, hopened, hwhole, hclosed⟩
    obtain ⟨front, c, rfl⟩ := before.eq_nil_or_concat'.resolve_left hne
    exact ⟨front, c :: (piece ++ after), by simp, hopened c (by simp),
      eq_takeWhile_iff.mpr ⟨after, rfl, hwhole, hclosed⟩⟩

theorem mem_splitOnP_iff :
    piece ∈ text.splitOnP breaks ↔ ∃ before after, IsPiece breaks text before piece after := by
  rw [splitOnP_eq_cons, List.mem_cons, mem_tail_splitOnP_iff, eq_takeWhile_iff]
  constructor
  · rintro (⟨after, htext, hwhole, hclosed⟩ | ⟨before, after, -, hpiece⟩)
    · exact ⟨[], after, htext, by simp, hwhole, hclosed⟩
    · exact ⟨before, after, hpiece⟩
  · rintro ⟨before, after, hpiece⟩
    by_cases hnil : before = []
    · subst hnil
      exact Or.inl ⟨after, hpiece.joined, hpiece.whole, hpiece.closed⟩
    · exact Or.inr ⟨before, after, hnil, hpiece⟩

end Pieces

/-- A position in a text: what stands before it and what stands behind it. -/
structure Position where
  before : List Char
  after : List Char

inductive Pattern where
  /-- One of some words, without regard to case. -/
  | oneOf (words : List String)
  /-- A character that has no case. -/
  | mark (c : Char)
  | textStart
  /-- The end of the text, or the place before its final line break. -/
  | textEnd
  /-- A place with a word character on one side only. -/
  | wordEdge
  | either (first second : Pattern)
  | next (first second : Pattern)

namespace Pattern

def Leads : Pattern → Position → Position → Prop
  | oneOf words, start, stop => ∃ word ∈ words, ∃ found, Spells word.toList found ∧
      start.after = found ++ stop.after ∧ stop.before = start.before ++ found
  | mark c, start, stop => start.after = c :: stop.after ∧ stop.before = start.before ++ [c]
  | textStart, start, stop => start.before = [] ∧ stop = start
  | textEnd, start, stop => atEnd start.after = true ∧ stop = start
  | wordEdge, start, stop =>
      start.before.getLast?.any isWord ≠ start.after.head?.any isWord ∧ stop = start
  | either first second, start, stop => first.Leads start stop ∨ second.Leads start stop
  | next first second, start, stop => ∃ middle, first.Leads start middle ∧ second.Leads middle stop

def Starts (pattern : Pattern) (start : Position) : Prop := ∃ stop, pattern.Leads start stop

def Found (pattern : Pattern) (text : List Char) : Prop :=
  ∃ before after, text = before ++ after ∧ pattern.Starts ⟨before, after⟩

variable {first second : Pattern} {words : List String} {c : Char} {before after : List Char}
  {start : Position}

theorem starts_either : (either first second).Starts start ↔
    first.Starts start ∨ second.Starts start :=
  exists_or

theorem starts_next : (next first second).Starts start ↔
    ∃ middle, first.Leads start middle ∧ second.Starts middle := by
  constructor
  · rintro ⟨stop, middle, hfirst, hsecond⟩
    exact ⟨middle, hfirst, stop, hsecond⟩
  · rintro ⟨middle, hfirst, stop, hsecond⟩
    exact ⟨stop, middle, hfirst, hsecond⟩

theorem starts_either_next {third : Pattern} : (next (either first second) third).Starts start ↔
    (next first third).Starts start ∨ (next second third).Starts start := by
  simp only [starts_next, Leads, or_and_right, exists_or]

/-- An assertion holds of a position and leads nowhere else. -/
theorem starts_assertion_next (holds : Position → Prop)
    (h : ∀ start stop, first.Leads start stop ↔ holds start ∧ stop = start) :
    (next first second).Starts start ↔ holds start ∧ second.Starts start := by
  rw [starts_next]
  constructor
  · rintro ⟨middle, hfirst, hsecond⟩
    obtain ⟨hholds, rfl⟩ := (h start middle).mp hfirst
    exact ⟨hholds, hsecond⟩
  · rintro ⟨hholds, hsecond⟩
    exact ⟨start, (h start start).mpr ⟨hholds, rfl⟩, hsecond⟩

theorem starts_textStart_next : (next textStart second).Starts start ↔
    start.before = [] ∧ second.Starts start :=
  starts_assertion_next (fun position => position.before = []) fun _ _ => Iff.rfl

theorem starts_wordEdge_next : (next wordEdge second).Starts start ↔
    start.before.getLast?.any isWord ≠ start.after.head?.any isWord ∧ second.Starts start :=
  starts_assertion_next (fun position =>
    position.before.getLast?.any isWord ≠ position.after.head?.any isWord) fun _ _ => Iff.rfl

theorem starts_oneOf_next : (next (oneOf words) second).Starts ⟨before, after⟩ ↔
    ∃ word ∈ words, ∃ found rest, Spells word.toList found ∧ after = found ++ rest ∧
      second.Starts ⟨before ++ found, rest⟩ := by
  rw [starts_next]
  constructor
  · rintro ⟨⟨front, rest⟩, ⟨word, hword, found, hspells, hafter, hfront⟩, hsecond⟩
    cases hfront
    exact ⟨word, hword, found, rest, hspells, hafter, hsecond⟩
  · rintro ⟨word, hword, found, rest, hspells, rfl, hsecond⟩
    exact ⟨⟨before ++ found, rest⟩, ⟨word, hword, found, hspells, rfl, rfl⟩, hsecond⟩

theorem starts_mark_next : (next (mark c) second).Starts ⟨before, after⟩ ↔
    ∃ rest, after = c :: rest ∧ second.Starts ⟨before ++ [c], rest⟩ := by
  rw [starts_next]
  constructor
  · rintro ⟨⟨front, rest⟩, ⟨hafter, hfront⟩, hsecond⟩
    cases hfront
    exact ⟨rest, hafter, hsecond⟩
  · rintro ⟨rest, rfl, hsecond⟩
    exact ⟨⟨before ++ [c], rest⟩, ⟨rfl, rfl⟩, hsecond⟩

theorem starts_wordEdge : wordEdge.Starts start ↔
    start.before.getLast?.any isWord ≠ start.after.head?.any isWord :=
  ⟨fun ⟨_, hedge, _⟩ => hedge, fun hedge => ⟨start, hedge, rfl⟩⟩

end Pattern

end JavaLint.Text
