import JavaLint.Text.Search
import JavaLint.Text.Utf8
import Mathlib.Tactic.IntervalCases
import Mathlib.Tactic.SplitIfs

/-! Text in files. Decoding the bytes of a text gives the text: the first byte of each character
fixes how many follow and in what range, and the reader collects from them the number the bytes were
made of. A text without carriage returns is not changed when its line breaks are unified. -/
namespace JavaLint.Text

theorem lead_two {n : Nat} (h : n < 32) (hn : 2 ≤ n) :
    lead (UInt8.ofNat (n + 0xC0)) = .opens ⟨n, 0, 0x80, 0xBF⟩ := by
  interval_cases n <;> rfl

/-- The narrower ranges shut out longer forms and surrogates. -/
theorem lead_three {n : Nat} (h : n < 16) :
    lead (UInt8.ofNat (n + 0xE0)) =
      .opens ⟨n, 1, if n = 0 then 0xA0 else 0x80, if n = 13 then 0x9F else 0xBF⟩ := by
  interval_cases n <;> rfl

/-- The narrower ranges shut out longer forms and what lies beyond the last code point. -/
theorem lead_four {n : Nat} (h : n < 5) :
    lead (UInt8.ofNat (n + 0xF0)) =
      .opens ⟨n, 2, if n = 0 then 0x90 else 0x80, if n = 4 then 0x8F else 0xBF⟩ := by
  interval_cases n <;> rfl

section Steps
variable {b : UInt8} {p : Partial} (rest : Bytes)

theorem unitsFrom_single {c : Char} (h : lead b = .single c) :
    unitsFrom none (b :: rest) = some c :: unitsFrom none rest := by
  simp [unitsFrom, readByte, h]

theorem unitsFrom_opens (h : lead b = .opens p) :
    unitsFrom none (b :: rest) = unitsFrom (some p) rest := by
  simp [unitsFrom, readByte, h]

/-- The last byte in range completes the code with six bits. -/
theorem unitsFrom_completed (hlow : p.low ≤ b) (hhigh : b ≤ p.high) (hm : p.remaining = 0) :
    unitsFrom (some p) (b :: rest) =
      some (Char.ofNat (p.collected * 64 + (b.toNat - 0x80))) :: unitsFrom none rest := by
  simp [unitsFrom, readByte, hlow, hhigh, hm]

/-- A byte in range before the last adds six bits to the code. -/
theorem unitsFrom_extended {more : Nat} (hlow : p.low ≤ b) (hhigh : b ≤ p.high)
    (hm : p.remaining = more + 1) :
    unitsFrom (some p) (b :: rest) =
      unitsFrom (some ⟨p.collected * 64 + (b.toNat - 0x80), more, 0x80, 0xBF⟩) rest := by
  simp [unitsFrom, readByte, hlow, hhigh, hm]

end Steps

theorem unitsFrom_next {p : Partial} {n : Nat} (hn : n < 64) (hlow : p.low.toNat ≤ n + 0x80)
    (hhigh : n + 0x80 ≤ p.high.toNat) (rest : Bytes) :
    unitsFrom (some p) (UInt8.ofNat (n + 0x80) :: rest) =
      match p.remaining with
      | 0 => some (Char.ofNat (p.collected * 64 + n)) :: unitsFrom none rest
      | more + 1 => unitsFrom (some ⟨p.collected * 64 + n, more, 0x80, 0xBF⟩) rest := by
  have hb : (UInt8.ofNat (n + 0x80)).toNat = n + 0x80 := by
    rw [UInt8.toNat_ofNat']
    omega
  have hl : p.low ≤ UInt8.ofNat (n + 0x80) := by rwa [UInt8.le_iff_toNat_le, hb]
  have hh : UInt8.ofNat (n + 0x80) ≤ p.high := by rwa [UInt8.le_iff_toNat_le, hb]
  cases hm : p.remaining with
  | zero => rw [unitsFrom_completed rest hl hh hm, hb, Nat.add_sub_cancel]
  | succ more => rw [unitsFrom_extended rest hl hh hm, hb, Nat.add_sub_cancel]

/-- A byte in the whole range of those that go on with a character. -/
theorem unitsFrom_continued {n collected remaining : Nat} (hn : n < 64) (rest : Bytes) :
    unitsFrom (some ⟨collected, remaining, 0x80, 0xBF⟩) (UInt8.ofNat (n + 0x80) :: rest) =
      match remaining with
      | 0 => some (Char.ofNat (collected * 64 + n)) :: unitsFrom none rest
      | more + 1 => unitsFrom (some ⟨collected * 64 + n, more, 0x80, 0xBF⟩) rest := by
  have hlow : (0x80 : UInt8).toNat ≤ n + 0x80 := Nat.le_add_left 0x80 n
  have hhigh : n + 0x80 ≤ (0xBF : UInt8).toNat := Nat.add_le_add_right (Nat.le_of_lt_succ hn) 0x80
  exact unitsFrom_next hn hlow hhigh rest

section Characters
variable {n : Nat} (rest : Bytes)

theorem unitsFrom_one (hmax : n ≤ 0x7F) :
    unitsFrom none (UInt8.ofNat n :: rest) = some (Char.ofNat n) :: unitsFrom none rest := by
  have hb : (UInt8.ofNat n).toNat = n := by
    rw [UInt8.toNat_ofNat']
    omega
  have hlt : UInt8.ofNat n < 0x80 := by
    rw [UInt8.lt_iff_toNat_lt, hb]
    exact Nat.lt_succ_of_le hmax
  have hlead : lead (UInt8.ofNat n) = .single (Char.ofNat n) := by rw [lead, if_pos hlt, hb]
  exact unitsFrom_single rest hlead

theorem unitsFrom_two (hmin : 0x80 ≤ n) (hmax : n ≤ 0x7FF) :
    unitsFrom none (UInt8.ofNat (n / 64 % 0x20 + 0xC0) :: UInt8.ofNat (n % 0x40 + 0x80) :: rest) =
      some (Char.ofNat n) :: unitsFrom none rest := by
  have hn : n / 64 % 0x20 * 64 + n % 0x40 = n := by omega
  rw [unitsFrom_opens _ (lead_two (by omega) (by omega)), unitsFrom_continued (by omega), hn]

theorem unitsFrom_three (hmin : 0x800 ≤ n) (hmax : n ≤ 0xFFFF)
    (hvalid : n < 0xD800 ∨ 0xDFFF < n) :
    unitsFrom none (UInt8.ofNat (n / 4096 % 0x10 + 0xE0) :: UInt8.ofNat (n / 64 % 0x40 + 0x80) ::
      UInt8.ofNat (n % 0x40 + 0x80) :: rest) = some (Char.ofNat n) :: unitsFrom none rest := by
  have hn : (n / 4096 % 0x10 * 64 + n / 64 % 0x40) * 64 + n % 0x40 = n := by omega
  have hlow : (if n / 4096 % 0x10 = 0 then (0xA0 : UInt8) else 0x80).toNat ≤
      n / 64 % 0x40 + 0x80 := by
    split
    · show 0xA0 ≤ _
      omega
    · show 0x80 ≤ _
      omega
  have hhigh : n / 64 % 0x40 + 0x80 ≤
      (if n / 4096 % 0x10 = 13 then (0x9F : UInt8) else 0xBF).toNat := by
    split
    · show _ ≤ 0x9F
      omega
    · show _ ≤ 0xBF
      omega
  rw [unitsFrom_opens _ (lead_three (by omega)), unitsFrom_next (by omega) hlow hhigh]
  dsimp only
  rw [unitsFrom_continued (by omega), hn]

theorem unitsFrom_four (hmin : 0x10000 ≤ n) (hmax : n < 0x110000) :
    unitsFrom none (UInt8.ofNat (n / 262144 % 0x08 + 0xF0) ::
      UInt8.ofNat (n / 4096 % 0x40 + 0x80) :: UInt8.ofNat (n / 64 % 0x40 + 0x80) ::
      UInt8.ofNat (n % 0x40 + 0x80) :: rest) = some (Char.ofNat n) :: unitsFrom none rest := by
  have hn : ((n / 262144 % 0x08 * 64 + n / 4096 % 0x40) * 64 + n / 64 % 0x40) * 64 + n % 0x40 =
      n := by
    omega
  have hlow : (if n / 262144 % 0x08 = 0 then (0x90 : UInt8) else 0x80).toNat ≤
      n / 4096 % 0x40 + 0x80 := by
    split
    · show 0x90 ≤ _
      omega
    · show 0x80 ≤ _
      omega
  have hhigh : n / 4096 % 0x40 + 0x80 ≤
      (if n / 262144 % 0x08 = 4 then (0x8F : UInt8) else 0xBF).toNat := by
    split
    · show _ ≤ 0x8F
      omega
    · show _ ≤ 0xBF
      omega
  rw [unitsFrom_opens _ (lead_four (by omega)), unitsFrom_next (by omega) hlow hhigh]
  dsimp only
  rw [unitsFrom_continued (by omega)]
  dsimp only
  rw [unitsFrom_continued (by omega), hn]

end Characters

/-- The bytes of one character are read as that character. -/
theorem unitsFrom_utf8EncodeChar (c : Char) (rest : Bytes) :
    unitsFrom none (String.utf8EncodeChar c ++ rest) = some c :: unitsFrom none rest := by
  have hvalid : c.toNat < 0xD800 ∨ 0xDFFF < c.toNat ∧ c.toNat < 0x110000 := c.valid
  have hc : some (Char.ofNat c.toNat) :: unitsFrom none rest = some c :: unitsFrom none rest := by
    rw [Char.ofNat_toNat]
  rw [← hc]
  unfold String.utf8EncodeChar
  simp only [show c.val.toNat = c.toNat from rfl]
  split_ifs with hone htwo hthree
  · exact unitsFrom_one rest hone
  · exact unitsFrom_two rest (by omega) htwo
  · exact unitsFrom_three rest (by omega) hthree (by omega)
  · exact unitsFrom_four rest (by omega) (by omega)

theorem units_encode (text : List Char) : units (encode text) = text.map some := by
  induction text with
  | nil => rfl
  | cons c text ih =>
    rw [units, encode] at ih
    rw [units, encode, List.flatMap_cons, unitsFrom_utf8EncodeChar, ih, List.map_cons]

/-- A text is read back from its bytes. -/
theorem decode?_encode (text : List Char) : decode? (encode text) = some text := by
  rw [decode?, units_encode]
  induction text with
  | nil => rfl
  | cons c text ih => simp [ih]

theorem unifyBreaks_eq_self {text : List Char} (h : '\r' ∉ text) : unifyBreaks text = text := by
  fun_induction unifyBreaks text with
  | case1 => rfl
  | case2 => simp at h
  | case3 => simp at h
  | case4 c rest _ _ ih =>
    rw [List.mem_cons, not_or] at h
    rw [ih h.2]

end JavaLint.Text
