import JavaLint.Text.Utf8
import Mathlib.Data.List.Count
import Mathlib.Data.Nat.Basic
import Mathlib.Tactic.Ring
import Mathlib.Tactic.SplitIfs

/-! Reading bytes that need not be UTF-8. An unfinished character can only become one beyond ASCII,
and an ASCII byte always ends it. So every ASCII byte is read as itself, and no ASCII character
comes from anything else, however ill-formed the bytes are. -/
namespace JavaLint.Text

namespace Partial

def least (p : Partial) : Nat := (p.collected * 64 + (p.low.toNat - 0x80)) * 64 ^ p.remaining

def bound (p : Partial) : Nat := (p.collected * 64 + (p.high.toNat - 0x80) + 1) * 64 ^ p.remaining

/-- Every code that the unfinished character can come to is that of a character beyond ASCII. -/
structure Sound (p : Partial) : Prop where
  low_ge : 0x80 ≤ p.low.toNat
  least_ge : 0x80 ≤ p.least
  valid : p.bound ≤ 0xD800 ∨ 0xE000 ≤ p.least ∧ p.bound ≤ 0x110000

end Partial

variable {b : UInt8} {p : Partial}

theorem lead_ascii (h : b.toNat < 0x80) : lead b = .single (Char.ofNat b.toNat) := by
  have hb : b < 0x80 := UInt8.lt_iff_toNat_lt.mpr h
  rw [lead, if_pos hb]

theorem lead_beyond (h : 0x80 ≤ b.toNat) :
    lead b = .invalid ∨ ∃ p : Partial, lead b = .opens p ∧ p.Sound := by
  have hfirst : ¬b < 0x80 := by
    rw [UInt8.lt_iff_toNat_lt]
    exact Nat.not_lt.mpr h
  rw [lead, if_neg hfirst]
  -- The first and the last range are invalid, and each of the others opens a character.
  split_ifs with hC2 hE0 h0 hD hF0 hF hF4 h4
  on_goal 9 => exact Or.inl rfl
  on_goal 1 => exact Or.inl rfl
  all_goals
    simp only [UInt8.lt_iff_toNat_lt, beq_iff_eq, ← UInt8.toNat_inj, UInt8.reduceToNat] at *
    refine Or.inr ⟨_, rfl, ?_, ?_, ?_⟩
  all_goals simp [Partial.least, Partial.bound] <;> omega

theorem toNat_ofNat_of_valid {n : Nat} (h : n < 0xD800 ∨ 0xE000 ≤ n ∧ n < 0x110000) :
    (Char.ofNat n).toNat = n := by
  have hvalid : n.isValidChar := by
    rcases h with h | ⟨hlow, hhigh⟩
    · exact Or.inl h
    · exact Or.inr ⟨by omega, hhigh⟩
  rw [Char.ofNat, dif_pos hvalid]
  rfl

namespace Partial

theorem least_le (p : Partial) (hlow : p.low ≤ b) :
    p.least ≤ (p.collected * 64 + (b.toNat - 0x80)) * 64 ^ p.remaining := by
  have hl : p.low.toNat ≤ b.toNat := UInt8.le_iff_toNat_le.mp hlow
  exact Nat.mul_le_mul_right _ (by omega)

theorem le_bound (p : Partial) (hhigh : b ≤ p.high) :
    (p.collected * 64 + (b.toNat - 0x80) + 1) * 64 ^ p.remaining ≤ p.bound := by
  have hh : b.toNat ≤ p.high.toNat := UInt8.le_iff_toNat_le.mp hhigh
  exact Nat.mul_le_mul_right _ (by omega)

/-- Where the next byte is free, so are all the bits that are missing. -/
theorem least_open (collected more : Nat) :
    least ⟨collected, more, 0x80, 0xBF⟩ = collected * 64 ^ (more + 1) := by
  simp only [least, UInt8.reduceToNat, Nat.sub_self, Nat.add_zero]
  ring

theorem bound_open (collected more : Nat) :
    bound ⟨collected, more, 0x80, 0xBF⟩ = (collected + 1) * 64 ^ (more + 1) := by
  simp only [bound, UInt8.reduceToNat]
  ring

end Partial

section Continuation
variable (h : p.Sound) (hlow : p.low ≤ b) (hhigh : b ≤ p.high)
include h hlow hhigh

theorem Partial.Sound.last (hm : p.remaining = 0) :
    0x80 ≤ (Char.ofNat (p.collected * 64 + (b.toNat - 0x80))).toNat := by
  have hl : p.low.toNat ≤ b.toNat := UInt8.le_iff_toNat_le.mp hlow
  have hh : b.toNat ≤ p.high.toNat := UInt8.le_iff_toNat_le.mp hhigh
  obtain ⟨-, hleast, hvalid⟩ := h
  simp only [Partial.least, Partial.bound, hm, pow_zero, Nat.mul_one] at hleast hvalid
  rw [toNat_ofNat_of_valid (by omega)]
  omega

/-- A byte that continues a character narrows what it can come to. -/
theorem Partial.Sound.next {more : Nat} (hm : p.remaining = more + 1) :
    Partial.Sound ⟨p.collected * 64 + (b.toNat - 0x80), more, 0x80, 0xBF⟩ := by
  have hleast := p.least_le hlow
  have hbound := p.le_bound hhigh
  rw [hm] at hleast hbound
  obtain ⟨-, hge, hvalid⟩ := h
  refine ⟨by simp, ?_, ?_⟩
  · rw [Partial.least_open]
    omega
  · rw [Partial.least_open, Partial.bound_open]
    omega

end Continuation

def broken (state : Option Partial) : List (Option Char) := if state.isSome then [none] else []

section Byte
variable {state : Option Partial} (hs : ∀ p ∈ state, p.Sound)
include hs

theorem readByte_ascii (hb : b.toNat < 0x80) :
    readByte state b = (broken state ++ [some (Char.ofNat b.toNat)], none) := by
  cases state with
  | none => simp [readByte, lead_ascii hb, broken]
  | some p =>
    have hlow : ¬p.low ≤ b := by
      have := (hs p rfl).low_ge
      rw [UInt8.le_iff_toNat_le]
      omega
    simp [readByte, lead_ascii hb, broken, hlow]

theorem readByte_beyond (hb : 0x80 ≤ b.toNat) :
    (∀ c, some c ∈ (readByte state b).1 → 0x80 ≤ c.toNat) ∧
      ∀ p ∈ (readByte state b).2, p.Sound := by
  cases state with
  | none =>
    rcases lead_beyond hb with hlead | ⟨q, hlead, hq⟩
    · simp [readByte, hlead]
    · simp [readByte, hlead, hq]
  | some p =>
    have hp := hs p rfl
    by_cases hrange : p.low ≤ b ∧ b ≤ p.high
    · obtain ⟨hlow, hhigh⟩ := hrange
      cases hm : p.remaining with
      | zero => simpa [readByte, hlow, hhigh, hm] using hp.last hlow hhigh hm
      | succ more => simpa [readByte, hlow, hhigh, hm] using hp.next hlow hhigh hm
    · have hout : (decide (p.low ≤ b) && decide (b ≤ p.high)) = false := by simpa using hrange
      rcases lead_beyond hb with hlead | ⟨q, hlead, hq⟩
      · simp [readByte, hout, hlead]
      · simp [readByte, hout, hlead, hq]

end Byte

theorem ofNat_toNat_eq_iff {c : Char} (hc : c.toNat < 0x80) (hb : b.toNat < 0x80) :
    Char.ofNat b.toNat = c ↔ b = UInt8.ofNat c.toNat := by
  rw [← UInt8.toNat_inj, UInt8.toNat_ofNat', Nat.mod_eq_of_lt (by omega)]
  constructor
  · rintro rfl
    rw [toNat_ofNat_of_valid (by omega)]
  · intro h
    rw [h, Char.ofNat_toNat]

/-- The induction is over the bytes, with a sound character left unfinished before them. -/
theorem count_unitsFrom {c : Char} (hc : c.toNat < 0x80) (bytes : Bytes) {state : Option Partial}
    (hs : ∀ p ∈ state, p.Sound) :
    (unitsFrom state bytes).count (some c) = bytes.count (UInt8.ofNat c.toNat) := by
  induction bytes generalizing state with
  | nil =>
    rw [unitsFrom]
    split
    · rfl
    · rfl
  | cons b rest ih =>
    rw [unitsFrom, List.count_append, List.count_cons]
    by_cases hb : b.toNat < 0x80
    · have hbroken : (broken state).count (some c) = 0 := by
        rw [broken]
        split
        · rfl
        · rfl
      rw [readByte_ascii hs hb]
      simp only [List.count_append, hbroken, List.count_singleton, Nat.zero_add]
      rw [ih (by simp), Nat.add_comm]
      congr 1
      simp [ofNat_toNat_eq_iff hc hb]
    · obtain ⟨hdone, hnext⟩ := readByte_beyond hs (Nat.not_lt.mp hb)
      have hnone : (readByte state b).1.count (some c) = 0 := by
        rw [List.count_eq_zero]
        intro hmem
        have := hdone c hmem
        omega
      have hne : b ≠ UInt8.ofNat c.toNat := by
        rintro rfl
        rw [UInt8.toNat_ofNat', Nat.mod_eq_of_lt (by omega)] at hb
        exact hb hc
      rw [hnone, ih hnext, Nat.zero_add]
      simp [hne]

/-- The lossy reading keeps every ASCII character and adds none. -/
theorem count_decodeLossy {c : Char} (hc : c.toNat < 0x80) (bytes : Bytes) :
    (decodeLossy bytes).count c = bytes.count (UInt8.ofNat c.toNat) := by
  have hreplacement : replacement ≠ c := by
    rintro rfl
    exact absurd hc (by decide)
  have hunits : (decodeLossy bytes).count c = (units bytes).count (some c) := by
    rw [decodeLossy, List.count, List.count, List.countP_map]
    apply List.countP_congr
    intro unit _
    cases unit with
    | none => simp [hreplacement]
    | some d => simp
  rw [hunits, units, count_unitsFrom hc bytes (by simp)]

end JavaLint.Text
