import JavaLint.Check.Wording
import JavaLint.Proofs.SearchPatterns

/-! Weak ciphers by component. The name of a transformation is cut at its slashes, without a final
line break. The check finds a weak cipher exactly when it is one of the components, and the ECB mode
when it is one of those behind the first. -/
namespace JavaLint

namespace Text

/-- A mark without a case stands for itself alone. -/
theorem matchesLetter_mark {letter mark : Char} (hascii : mark.toNat < 128)
    (hmark : mark.toLower = mark) : matchesLetter letter mark = true ↔ letter = mark := by
  have hbeyond : ∀ c : Char, 128 ≤ c.toNat → (mark == c) = false := by
    intro c hc
    rw [beq_eq_false_iff_ne]
    rintro rfl
    omega
  rw [matchesLetter, hmark, hbeyond '\u017F' (by decide), hbeyond '\u212A' (by decide),
    hbeyond '\u0130' (by decide), hbeyond '\u0131' (by decide)]
  simp only [Bool.or_false, Bool.and_false, beq_iff_eq]
  exact eq_comm

theorem Spells.mark_mem {word text : List Char} {mark : Char} (h : Spells word text)
    (hascii : mark.toNat < 128) (hmark : mark.toLower = mark) (hm : mark ∈ text) :
    mark ∈ word := by
  induction h with
  | nil => cases hm
  | cons hletter _ ih =>
    rcases List.mem_cons.mp hm with rfl | hm
    · rw [(matchesLetter_mark hascii hmark).mp hletter]
      exact List.mem_cons_self
    · exact List.mem_cons_of_mem _ (ih hm)

theorem dropFinalBreak_append {front : List Char} (h : front.getLast? ≠ some '\n')
    (rest : List Char) : dropFinalBreak (front ++ rest) = front ++ dropFinalBreak rest := by
  by_cases hnil : rest = []
  · subst hnil
    simp [dropFinalBreak, h]
  · rw [dropFinalBreak, dropFinalBreak, List.getLast?_append_of_ne_nil _ hnil]
    split
    · rw [List.dropLast_append_of_ne_nil hnil]
    · rfl

theorem exists_eq_dropFinalBreak_append (text : List Char) :
    ∃ rest, text = dropFinalBreak text ++ rest := by
  rw [dropFinalBreak]
  split
  · exact ⟨text.drop (text.length - 1), by rw [List.dropLast_eq_take, List.take_append_drop]⟩
  · exact ⟨[], (List.append_nil _).symm⟩

end Text

namespace Check.Wording

open Text

def components (text : List Char) : List (List Char) := (dropFinalBreak text).splitOn '/'

/-- A name that is not empty and has neither a slash nor a line break in it. -/
structure Plain (name : String) : Prop where
  ne_nil : name.toList ≠ []
  no_slash : '/' ∉ name.toList
  no_break : '\n' ∉ name.toList

/-- A component ends where, but for a final line break, a slash or nothing follows. -/
theorem endsComponent_iff {rest : List Char} :
    endsComponent rest = true ↔ ∀ c ∈ (dropFinalBreak rest).head?, (c == '/') = true := by
  match rest with
  | [] => simp [endsComponent, atEnd, dropFinalBreak]
  | [c] =>
    by_cases hc : c = '\n'
    · subst hc
      simp [endsComponent, atEnd, dropFinalBreak]
    · simp [endsComponent, atEnd, dropFinalBreak, hc]
  | c :: d :: more =>
    have hhead : (dropFinalBreak (c :: d :: more)).head? = some c := by
      rw [dropFinalBreak]
      split <;> rfl
    simp [hhead, endsComponent, atEnd]

theorem componentAt_iff {names : List String} {text : List Char} :
    componentAt names text = true ↔ ∃ name ∈ names, ∃ found rest, Spells name.toList found ∧
      text = found ++ rest ∧ endsComponent rest = true :=
  any_dropWord?_iff

section Components
variable {names : List String} {text : List Char}

theorem Plain.getLast?_ne {name : String} {before found : List Char} (hp : Plain name)
    (hspells : Spells name.toList found) : (before ++ found).getLast? ≠ some '\n' := by
  rw [List.getLast?_append_of_ne_nil _ (hspells.ne_nil hp.ne_nil)]
  intro hlast
  exact hp.no_break (hspells.mark_mem (by decide) (by decide) (List.mem_of_getLast? hlast))

/-- What the reader accepts at a position is a component that starts there. -/
theorem componentAt_iff_isPiece (hp : ∀ name ∈ names, Plain name) (before : List Char)
    (hbefore : ∀ c ∈ before.getLast?, (c == '/') = true) :
    (∃ rest, text = before ++ rest ∧ componentAt names rest = true) ↔
      ∃ part after, IsPiece (· == '/') (dropFinalBreak text) before part after ∧
        ∃ name ∈ names, Spells name.toList part := by
  constructor
  · rintro ⟨_, rfl, hat⟩
    obtain ⟨name, hname, found, rest, hspells, rfl, hends⟩ := componentAt_iff.mp hat
    refine ⟨found, dropFinalBreak rest, ⟨?_, hbefore, ?_, endsComponent_iff.mp hends⟩, name, hname,
      hspells⟩
    · rw [← List.append_assoc, dropFinalBreak_append ((hp name hname).getLast?_ne hspells),
        List.append_assoc]
    · rintro c hc
      rw [beq_eq_false_iff_ne]
      rintro rfl
      exact (hp name hname).no_slash (hspells.mark_mem (by decide) (by decide) hc)
  · rintro ⟨part, after, hpiece, name, hname, hspells⟩
    obtain ⟨final, hfinal⟩ := exists_eq_dropFinalBreak_append text
    have htext : text = (before ++ part) ++ (after ++ final) := by
      nth_rewrite 1 [hfinal]
      rw [hpiece.joined]
      simp only [List.append_assoc]
    -- The break that is dropped from the whole is dropped from what follows the component.
    have hafter : dropFinalBreak (after ++ final) = after := by
      have hdrop := hpiece.joined
      rw [htext, dropFinalBreak_append ((hp name hname).getLast?_ne hspells), ← List.append_assoc]
        at hdrop
      exact List.append_cancel_left hdrop
    refine ⟨part ++ (after ++ final), by rw [htext, List.append_assoc], ?_⟩
    apply componentAt_iff.mpr
    refine ⟨name, hname, part, after ++ final, hspells, rfl, endsComponent_iff.mpr ?_⟩
    rw [hafter]
    exact hpiece.closed

theorem component_behind_slash_iff (hp : ∀ name ∈ names, Plain name) :
    (∃ front rest, text = front ++ '/' :: rest ∧ componentAt names rest = true) ↔
      ∃ part ∈ (components text).tail, ∃ name ∈ names, Spells name.toList part := by
  simp only [components, List.splitOn_eq_splitOnP, mem_tail_splitOnP_iff]
  constructor
  · rintro ⟨front, rest, rfl, hat⟩
    have hrest : ∃ more, front ++ '/' :: rest = (front ++ ['/']) ++ more ∧
        componentAt names more = true := ⟨rest, by simp, hat⟩
    obtain ⟨part, after, hpiece, hname⟩ :=
      (componentAt_iff_isPiece hp (front ++ ['/']) (by simp)).mp hrest
    exact ⟨part, ⟨front ++ ['/'], after, by simp, hpiece⟩, hname⟩
  · rintro ⟨part, ⟨before, after, hne, hpiece⟩, hname⟩
    obtain ⟨front, c, rfl⟩ := before.eq_nil_or_concat'.resolve_left hne
    obtain ⟨rest, rfl, hat⟩ :=
      (componentAt_iff_isPiece hp _ hpiece.opened).mpr ⟨part, after, hpiece, hname⟩
    have hc : c = '/' := beq_iff_eq.mp (hpiece.opened c (by simp))
    exact ⟨front, rest, by simp [hc], hat⟩

theorem component_iff (hp : ∀ name ∈ names, Plain name) :
    (componentAt names text = true ∨
        ∃ front rest, text = front ++ '/' :: rest ∧ componentAt names rest = true) ↔
      ∃ part ∈ components text, ∃ name ∈ names, Spells name.toList part := by
  rw [component_behind_slash_iff hp]
  constructor
  · rintro (hat | ⟨part, hpart, hname⟩)
    · obtain ⟨part, after, hpiece, hname⟩ :=
        (componentAt_iff_isPiece hp [] (by simp)).mp ⟨text, rfl, hat⟩
      exact ⟨part, mem_splitOnP_iff.mpr ⟨[], after, hpiece⟩, hname⟩
    · exact ⟨part, List.mem_of_mem_tail hpart, hname⟩
  · rintro ⟨part, hpart, hname⟩
    obtain ⟨before, after, hpiece⟩ := mem_splitOnP_iff.mp hpart
    by_cases hnil : before = []
    · subst hnil
      obtain ⟨rest, rfl, hat⟩ :=
        (componentAt_iff_isPiece hp [] (by simp)).mpr ⟨part, after, hpiece, hname⟩
      exact Or.inl hat
    · exact Or.inr ⟨part, mem_tail_splitOnP_iff.mpr ⟨before, after, hnil, hpiece⟩, hname⟩

end Components

theorem plain_weakCiphers : ∀ name ∈ weakCiphers, Plain name := by
  simp only [weakCiphers, List.forall_mem_cons]
  refine ⟨⟨?_, ?_, ?_⟩, ⟨?_, ?_, ?_⟩, ⟨?_, ?_, ?_⟩, ⟨?_, ?_, ?_⟩, by simp⟩ <;> decide

theorem plain_ecb : ∀ name ∈ ["ecb"], Plain name := by
  simp only [List.forall_mem_singleton]
  refine ⟨?_, ?_, ?_⟩ <;> decide

theorem isWeakCipher_iff {name : String} :
    isWeakCipher name = true ↔
      (componentAt weakCiphers name.toList = true ∨
        ∃ front rest, name.toList = front ++ '/' :: rest ∧ componentAt weakCiphers rest = true) ∨
      ∃ front rest, name.toList = front ++ '/' :: rest ∧ componentAt ["ecb"] rest = true := by
  rw [isWeakCipher, Bool.or_eq_true, or_assoc, someSuffix_iff]
  refine or_congr_right ?_
  constructor
  · rintro ⟨front, rest, hname, htest⟩
    split at htest
    · rename_i more
      rcases Bool.or_eq_true_iff.mp htest with hat | hat
      · exact Or.inl ⟨front, more, hname, hat⟩
      · exact Or.inr ⟨front, more, hname, hat⟩
    · cases htest
  · rintro (⟨front, rest, hname, hat⟩ | ⟨front, rest, hname, hat⟩)
    · exact ⟨front, '/' :: rest, hname, Bool.or_eq_true_iff.mpr (Or.inl hat)⟩
    · exact ⟨front, '/' :: rest, hname, Bool.or_eq_true_iff.mpr (Or.inr hat)⟩

def componentEnd : Pattern := .either (.mark '/') .textEnd

/-- A weak cipher at the start or behind a slash, or the ECB mode behind a slash, as a whole
component. -/
def weakCipherPattern : Pattern :=
  .either
    (.next (.either .textStart (.mark '/')) (.next (.oneOf weakCiphers) componentEnd))
    (.next (.mark '/') (.next (.oneOf ["ecb"]) componentEnd))

theorem starts_componentEnd {before after : List Char} :
    componentEnd.Starts ⟨before, after⟩ ↔ endsComponent after = true := by
  rw [componentEnd, Pattern.starts_either, endsComponent, Bool.or_eq_true]
  refine or_congr ?_ ?_
  · constructor
    · rintro ⟨⟨_, rest⟩, hafter, -⟩
      change after = '/' :: rest at hafter
      rw [hafter]
      rfl
    · intro hhead
      obtain ⟨rest, hafter⟩ := List.head?_eq_some_iff.mp (beq_iff_eq.mp hhead)
      exact ⟨⟨before ++ ['/'], rest⟩, hafter, rfl⟩
  · exact ⟨fun ⟨_, hend, _⟩ => hend, fun hend => ⟨_, hend, rfl⟩⟩

theorem starts_component {names : List String} {before after : List Char} :
    (Pattern.next (.oneOf names) componentEnd).Starts ⟨before, after⟩ ↔
      componentAt names after = true := by
  rw [Pattern.starts_oneOf_next, componentAt_iff]
  simp only [starts_componentEnd]

theorem weakCipherPattern_found_iff {name : String} :
    weakCipherPattern.Found name.toList ↔ isWeakCipher name = true := by
  rw [isWeakCipher_iff, Pattern.Found]
  simp only [weakCipherPattern, Pattern.starts_either, Pattern.starts_either_next,
    Pattern.starts_textStart_next, Pattern.starts_mark_next, starts_component]
  constructor
  · rintro ⟨before, after, hname, (⟨rfl, hat⟩ | ⟨rest, rfl, hat⟩) | ⟨rest, rfl, hat⟩⟩
    · exact Or.inl (Or.inl (hname ▸ hat))
    · exact Or.inl (Or.inr ⟨before, rest, hname, hat⟩)
    · exact Or.inr ⟨before, rest, hname, hat⟩
  · rintro ((hat | ⟨front, rest, hname, hat⟩) | ⟨front, rest, hname, hat⟩)
    · exact ⟨[], name.toList, rfl, Or.inl (Or.inl ⟨rfl, hat⟩)⟩
    · exact ⟨front, '/' :: rest, hname, Or.inl (Or.inr ⟨rest, rfl, hat⟩)⟩
    · exact ⟨front, '/' :: rest, hname, Or.inr ⟨rest, rfl, hat⟩⟩

/-- A transformation is weak exactly when its pattern matches somewhere in the name; and this is so
exactly when one of its components spells a weak cipher or one behind the first spells the ECB
mode. -/
theorem weak_cipher_iff_component (name : String) :
    (isWeakCipher name = true ↔ weakCipherPattern.Found name.toList) ∧
    (isWeakCipher name = true ↔
      (∃ part ∈ components name.toList, ∃ cipher ∈ weakCiphers, Spells cipher.toList part) ∨
        ∃ part ∈ (components name.toList).tail, Spells "ecb".toList part) := by
  refine ⟨weakCipherPattern_found_iff.symm, ?_⟩
  rw [isWeakCipher_iff, component_iff plain_weakCiphers, component_behind_slash_iff plain_ecb]
  simp

example : components "AES/Ecb\n".toList = ["AES".toList, "Ecb".toList] := by decide

example : isWeakCipher "AES/Ecb\n" = true ∧ isWeakCipher "ECB" = false := by decide

end Check.Wording

end JavaLint
