import JavaLint.Proofs.Encoding
import JavaLint.Proofs.TextSearch
import Mathlib.Data.Nat.SuccPred

/-! What the text of a span is. Reading goes from left to right: where a character is encoded it is
taken, and elsewhere the longest start of one, or else a single byte, is replaced. The reader keeps
its place in the unfinished character and never goes back, but comes to the same text. So every
ASCII byte stands for itself, and an ASCII text is found exactly where its bytes are. -/
namespace JavaLint.Text

def Begins (part : Bytes) : Prop := ∃ c, part <+: String.utf8EncodeChar c

/-- A part that is replaced as one, before the rest. No character is encoded at its place, and it
is the longest start of one there, or a single byte that starts none. -/
structure Replaced (part rest : Bytes) : Prop where
  undecodable : ∀ c, ¬String.utf8EncodeChar c <+: part ++ rest
  nonempty : part ≠ []
  begins : Begins part ∨ part.length = 1
  maximal : ∀ longer, longer <+: part ++ rest → Begins longer → longer.length ≤ part.length

inductive Rendering : Bytes → List Char → Prop where
  | nil : Rendering [] []
  | char (c : Char) {rest : Bytes} {text : List Char} : Rendering rest text →
      Rendering (String.utf8EncodeChar c ++ rest) (c :: text)
  | replaced {part rest : Bytes} {text : List Char} : Replaced part rest →
      Rendering rest text → Rendering (part ++ rest) (replacement :: text)

variable {b : UInt8} {p : Partial} {c : Char} {part rest bytes : Bytes} {text : List Char}

theorem units_of_encoded (h : String.utf8EncodeChar c <+: bytes) :
    ∃ more, unitsFrom none bytes = some c :: more := by
  obtain ⟨rest, rfl⟩ := h
  exact ⟨_, unitsFrom_utf8EncodeChar c rest⟩

theorem Replaced.length_le {other others : Bytes} (h : Replaced part rest)
    (ho : Replaced other others) (heq : part ++ rest = other ++ others) :
    part.length ≤ other.length := by
  rcases h.begins with hbegins | hone
  · exact ho.maximal part (heq ▸ List.prefix_append part rest) hbegins
  · rw [hone]
    exact List.length_pos_iff.mpr ho.nonempty

theorem Rendering.unique {other : List Char} (h : Rendering bytes text)
    (ho : Rendering bytes other) : text = other := by
  induction h generalizing other with
  | nil =>
    generalize hbytes : ([] : Bytes) = bytes at ho
    cases ho with
    | nil => rfl
    | char c _ =>
      exact absurd (List.append_eq_nil_iff.mp hbytes.symm).1 String.utf8EncodeChar_ne_nil
    | replaced hpart _ => exact absurd (List.append_eq_nil_iff.mp hbytes.symm).1 hpart.nonempty
  | @char c rest text _ ih =>
    generalize hbytes : String.utf8EncodeChar c ++ rest = bytes at ho
    cases ho with
    | nil => exact absurd (List.append_eq_nil_iff.mp hbytes).1 String.utf8EncodeChar_ne_nil
    | @char d others other hothers =>
      have hunits := unitsFrom_utf8EncodeChar c rest
      rw [hbytes, unitsFrom_utf8EncodeChar] at hunits
      obtain rfl : d = c := Option.some.inj (List.cons.inj hunits).1
      rw [ih (List.append_cancel_left hbytes ▸ hothers)]
    | @replaced part others other hpart _ =>
      exact absurd (hbytes ▸ List.prefix_append _ _) (hpart.undecodable c)
  | @replaced part rest text hpart _ ih =>
    generalize hbytes : part ++ rest = bytes at ho
    cases ho with
    | nil => exact absurd (List.append_eq_nil_iff.mp hbytes).1 hpart.nonempty
    | char c _ => exact absurd (hbytes ▸ List.prefix_append _ _) (hpart.undecodable c)
    | @replaced part' others other hpart' hothers =>
      have hlength : part.length = part'.length :=
        le_antisymm (hpart.length_le hpart' hbytes) (hpart'.length_le hpart hbytes.symm)
      obtain ⟨rfl, rfl⟩ := List.append_inj hbytes hlength
      rw [ih hothers]

def continuation (n : Nat) : Nat → Bytes
  | 0 => []
  | k + 1 => UInt8.ofNat (n / 64 ^ k % 64 + 0x80) :: continuation n k

theorem utf8EncodeChar_two (hmin : 0x80 ≤ c.toNat) (hmax : c.toNat < 0x800) :
    String.utf8EncodeChar c = UInt8.ofNat (c.toNat / 64 + 0xC0) :: continuation c.toNat 1 := by
  have hlead : c.toNat / 64 % 32 = c.toNat / 64 := Nat.mod_eq_of_lt (by omega)
  unfold String.utf8EncodeChar
  simp only [show c.val.toNat = c.toNat from rfl]
  rw [if_neg (by omega), if_pos (by omega), hlead]
  simp [continuation]

theorem utf8EncodeChar_three (hmin : 0x800 ≤ c.toNat) (hmax : c.toNat < 0x10000) :
    String.utf8EncodeChar c = UInt8.ofNat (c.toNat / 4096 + 0xE0) :: continuation c.toNat 2 := by
  have hlead : c.toNat / 4096 % 16 = c.toNat / 4096 := Nat.mod_eq_of_lt (by omega)
  unfold String.utf8EncodeChar
  simp only [show c.val.toNat = c.toNat from rfl]
  rw [if_neg (by omega), if_neg (by omega), if_pos (by omega), hlead]
  simp [continuation]

theorem utf8EncodeChar_four (hmin : 0x10000 ≤ c.toNat) :
    String.utf8EncodeChar c = UInt8.ofNat (c.toNat / 262144 + 0xF0) :: continuation c.toNat 3 := by
  have hvalid : c.toNat < 0xD800 ∨ 0xDFFF < c.toNat ∧ c.toNat < 0x110000 := c.valid
  have hlead : c.toNat / 262144 % 8 = c.toNat / 262144 := Nat.mod_eq_of_lt (by omega)
  unfold String.utf8EncodeChar
  simp only [show c.val.toNat = c.toNat from rfl]
  rw [if_neg (by omega), if_neg (by omega), if_neg (by omega), hlead]
  simp [continuation]

theorem utf8EncodeChar_of_single (h : lead b = .single c) : String.utf8EncodeChar c = [b] := by
  by_cases hb : b.toNat < 0x80
  · rw [lead_ascii hb] at h
    obtain rfl := Lead.single.inj h
    have hn : (Char.ofNat b.toNat).val.toNat = b.toNat := toNat_ofNat_of_valid (by omega)
    unfold String.utf8EncodeChar
    simp only [hn]
    rw [if_pos (by omega), UInt8.ofNat_toNat]
  · rcases lead_beyond (Nat.not_lt.mp hb) with hlead | ⟨q, hlead, -⟩
    · rw [hlead] at h
      cases h
    · rw [hlead] at h
      cases h

theorem lead_opens_sound (h : lead b = .opens p) : p.Sound := by
  by_cases hb : b.toNat < 0x80
  · rw [lead_ascii hb] at h
    cases h
  · rcases lead_beyond (Nat.not_lt.mp hb) with hlead | ⟨q, hlead, hq⟩
    · rw [hlead] at h
      cases h
    · rw [hlead] at h
      cases h
      exact hq

theorem lead_opens_range (h : lead b = .opens p) : p.low ≤ p.high ∧ p.high ≤ 0xBF := by
  unfold lead at h
  split_ifs at h
  all_goals
    obtain rfl := Lead.opens.inj h
    dsimp only
    decide

/-- The codes that the first byte of a character leaves open are encoded with that byte first. -/
theorem utf8EncodeChar_of_opens (h : lead b = .opens p) {n : Nat} (hleast : p.least ≤ n)
    (hbound : n < p.bound) :
    String.utf8EncodeChar (Char.ofNat n) = b :: continuation n (p.remaining + 1) := by
  have hn : (Char.ofNat n).toNat = n := by
    have hvalid := (lead_opens_sound h).valid
    exact toNat_ofNat_of_valid (by omega)
  unfold lead at h
  split_ifs at h
  all_goals
    obtain rfl := Lead.opens.inj h
    simp only [UInt8.lt_iff_toNat_lt, beq_iff_eq, ← UInt8.toNat_inj, UInt8.reduceToNat,
      Partial.least, Partial.bound] at *
  -- One range opens two bytes, three open three bytes, and three open four.
  on_goal 1 =>
    have hlead : n / 64 + 0xC0 = b.toNat := by omega
    rw [utf8EncodeChar_two (by omega) (by omega), hn, hlead, UInt8.ofNat_toNat]
  iterate 3
    on_goal 1 =>
      have hlead : n / 4096 + 0xE0 = b.toNat := by omega
      rw [utf8EncodeChar_three (by omega) (by omega), hn, hlead, UInt8.ofNat_toNat]
  all_goals
    have hlead : n / 262144 + 0xF0 = b.toNat := by omega
    rw [utf8EncodeChar_four (by omega), hn, hlead, UInt8.ofNat_toNat]

theorem unitsFrom_invalid (h : lead b = .invalid) (rest : Bytes) :
    unitsFrom none (b :: rest) = none :: unitsFrom none rest := by
  simp [unitsFrom, readByte, h]

/-- A byte out of range ends the unfinished character and is read anew. -/
theorem unitsFrom_broken (h : ¬(p.low ≤ b ∧ b ≤ p.high)) (rest : Bytes) :
    unitsFrom (some p) (b :: rest) = none :: unitsFrom none (b :: rest) := by
  have hout : (decide (p.low ≤ b) && decide (b ≤ p.high)) = false := by simpa using h
  cases hlead : lead b with
  | single c => simp [unitsFrom, readByte, hout, hlead]
  | opens q => simp [unitsFrom, readByte, hout, hlead]
  | invalid => simp [unitsFrom, readByte, hout, hlead]

/-- Bytes behind which a character is left unfinished, with what can still come of it. -/
structure Leaves (part : Bytes) (p : Partial) : Prop where
  reads : ∀ rest, unitsFrom none (part ++ rest) = unitsFrom (some p) rest
  low_ge : 0x80 ≤ p.low.toNat
  low_le : p.low ≤ p.high
  high_le : p.high ≤ 0xBF
  encodes : ∀ n, p.least ≤ n → n < p.bound →
    String.utf8EncodeChar (Char.ofNat n) = part ++ continuation n (p.remaining + 1)

theorem leaves_of_opens (h : lead b = .opens p) : Leaves [b] p where
  reads rest := unitsFrom_opens rest h
  low_ge := (lead_opens_sound h).low_ge
  low_le := (lead_opens_range h).1
  high_le := (lead_opens_range h).2
  encodes _ hleast hbound := utf8EncodeChar_of_opens h hleast hbound

theorem Leaves.begins (h : Leaves part p) : Begins part := by
  have hrange : p.low.toNat ≤ p.high.toNat := UInt8.le_iff_toNat_le.mp h.low_le
  have hlt : p.least < p.bound :=
    Nat.mul_lt_mul_of_pos_right (by omega) (Nat.pow_pos (by decide))
  exact ⟨Char.ofNat p.least, h.encodes p.least le_rfl hlt ▸ List.prefix_append _ _⟩

theorem Leaves.nonempty (h : Leaves part p) : part ≠ [] := by
  rintro rfl
  have := h.reads []
  simp [unitsFrom] at this

section Continuation
variable (h : Leaves part p) (hlow : p.low ≤ b) (hhigh : b ≤ p.high)
include h hlow hhigh

/-- The codes that a byte in range leaves open are those with its six bits. -/
theorem Leaves.encodes_next {n : Nat}
    (hleast : (p.collected * 64 + (b.toNat - 0x80)) * 64 ^ p.remaining ≤ n)
    (hbound : n < (p.collected * 64 + (b.toNat - 0x80) + 1) * 64 ^ p.remaining) :
    String.utf8EncodeChar (Char.ofNat n) = part ++ [b] ++ continuation n p.remaining := by
  have hquotient : n / 64 ^ p.remaining = p.collected * 64 + (b.toNat - 0x80) :=
    Nat.div_eq_of_lt_le hleast hbound
  have hl : p.low.toNat ≤ b.toNat := UInt8.le_iff_toNat_le.mp hlow
  have hh : b.toNat ≤ 0xBF := UInt8.le_iff_toNat_le.mp (UInt8.le_trans hhigh h.high_le)
  have hlow_ge := h.low_ge
  have hbyte : n / 64 ^ p.remaining % 64 + 0x80 = b.toNat := by
    rw [hquotient]
    omega
  rw [h.encodes n ((p.least_le hlow).trans hleast) (hbound.trans_le (p.le_bound hhigh)),
    continuation, hbyte, UInt8.ofNat_toNat, List.append_assoc, List.singleton_append]

theorem Leaves.last (hm : p.remaining = 0) :
    String.utf8EncodeChar (Char.ofNat (p.collected * 64 + (b.toNat - 0x80))) = part ++ [b] := by
  have hnext := h.encodes_next hlow hhigh (n := p.collected * 64 + (b.toNat - 0x80))
    (by simp [hm]) (by simp [hm])
  rwa [hm, continuation, List.append_nil] at hnext

theorem Leaves.next {more : Nat} (hm : p.remaining = more + 1) :
    Leaves (part ++ [b]) ⟨p.collected * 64 + (b.toNat - 0x80), more, 0x80, 0xBF⟩ where
  reads rest := by
    rw [List.append_assoc, h.reads, List.singleton_append, unitsFrom_extended rest hlow hhigh hm]
  low_ge := by simp
  low_le := show (0x80 : UInt8) ≤ 0xBF by decide
  high_le := UInt8.le_refl _
  encodes n hleast hbound := by
    rw [Partial.least_open, ← hm] at hleast
    rw [Partial.bound_open, ← hm] at hbound
    rw [h.encodes_next hlow hhigh hleast hbound, hm]

end Continuation

/-- A part for which the reader puts one mark, whatever comes behind the byte that follows. -/
theorem replaced_of_units (hne : part ≠ []) (hbegins : Begins part ∨ part.length = 1)
    (h : ∀ more : Bytes, more.head? = rest.head? →
      unitsFrom none (part ++ more) = none :: unitsFrom none more) :
    Replaced part rest := by
  have hencoded (more : Bytes) (hmore : more.head? = rest.head?) (c : Char) :
      ¬String.utf8EncodeChar c <+: part ++ more := by
    intro hprefix
    obtain ⟨units, hunits⟩ := units_of_encoded hprefix
    rw [h more hmore] at hunits
    cases hunits
  refine ⟨hencoded rest rfl, hne, hbegins, ?_⟩
  rintro longer hlonger ⟨c, hc⟩
  by_contra hlength
  -- A longer start goes on with the byte that follows, and the reader sees no more than that.
  obtain ⟨tail, rfl⟩ : part <+: longer :=
    List.prefix_of_prefix_length_le (List.prefix_append part rest) hlonger (by omega)
  have htail : tail ≠ [] := by
    rintro rfl
    simp at hlength
  obtain ⟨first, others, rfl⟩ := List.exists_cons_of_ne_nil htail
  obtain ⟨behind, hrest⟩ := (List.prefix_append_right_inj part).mp hlonger
  obtain ⟨more, hmore⟩ := hc
  rw [List.append_assoc] at hmore
  refine hencoded (first :: others ++ more) ?_ c (hmore ▸ List.prefix_rfl)
  rw [← hrest]
  rfl

theorem Leaves.replaced (h : Leaves part p) (hrest : ∀ b ∈ rest.head?, ¬(p.low ≤ b ∧ b ≤ p.high)) :
    Replaced part rest := by
  refine replaced_of_units h.nonempty (Or.inl h.begins) ?_
  intro more hmore
  rw [h.reads]
  cases more with
  | nil => rfl
  | cons b more => exact unitsFrom_broken (hrest b (hmore ▸ rfl)) more

/-- The induction is over the bytes, for a fresh start and behind an unfinished character. -/
theorem rendering_charsFrom (bytes : Bytes) :
    Rendering bytes (charsFrom none bytes) ∧
      ∀ part p, Leaves part p → Rendering (part ++ bytes) (charsFrom (some p) bytes) := by
  induction bytes with
  | nil =>
    refine ⟨.nil, fun part p h => ?_⟩
    exact .replaced (h.replaced (by simp)) .nil
  | cons b rest ih =>
    obtain ⟨hrest, hunfinished⟩ := ih
    have hfresh : Rendering (b :: rest) (charsFrom none (b :: rest)) := by
      cases hlead : lead b with
      | single c =>
        rw [charsFrom, unitsFrom_single rest hlead, ← List.singleton_append,
          ← utf8EncodeChar_of_single hlead]
        exact .char c hrest
      | opens p =>
        rw [charsFrom, unitsFrom_opens rest hlead]
        exact hunfinished [b] p (leaves_of_opens hlead)
      | invalid =>
        have hpart : Replaced [b] rest :=
          replaced_of_units (by simp) (Or.inr rfl) fun more _ => unitsFrom_invalid hlead more
        rw [charsFrom, unitsFrom_invalid hlead rest]
        exact .replaced hpart hrest
    refine ⟨hfresh, fun part p h => ?_⟩
    by_cases hrange : p.low ≤ b ∧ b ≤ p.high
    · obtain ⟨hlow, hhigh⟩ := hrange
      cases hm : p.remaining with
      | zero =>
        rw [charsFrom, unitsFrom_completed rest hlow hhigh hm, List.append_cons,
          ← h.last hlow hhigh hm, List.map_cons, Option.getD_some]
        exact .char _ hrest
      | succ more =>
        rw [charsFrom, unitsFrom_extended rest hlow hhigh hm, List.append_cons]
        exact hunfinished _ _ (h.next hlow hhigh hm)
    · rw [charsFrom, unitsFrom_broken hrange rest]
      refine .replaced (h.replaced ?_) hfresh
      intro first hfirst
      cases hfirst
      exact hrange

/-- The reader puts the marks where they belong, and there is no other way to put them. -/
theorem rendering_iff : Rendering bytes text ↔ text = decodeLossy bytes := by
  constructor
  · intro h
    exact h.unique (rendering_charsFrom bytes).1
  · rintro rfl
    exact (rendering_charsFrom bytes).1

/-- The ASCII characters of the reading are the ASCII bytes, in the same order. -/
theorem ascii_charsFrom (bytes : Bytes) {state : Option Partial} (hs : ∀ p ∈ state, p.Sound) :
    (charsFrom state bytes).filter (·.toNat < 0x80) =
      (bytes.filter (·.toNat < 0x80)).map fun b => Char.ofNat b.toNat := by
  have hlost {chars : List Char} (h : ∀ d ∈ chars, 0x80 ≤ d.toNat) :
      chars.filter (·.toNat < 0x80) = [] := by
    simpa [List.filter_eq_nil_iff] using h
  induction bytes generalizing state with
  | nil =>
    cases state with
    | none => rfl
    | some p => rfl
  | cons b rest ih =>
    by_cases hb : b.toNat < 0x80
    · obtain ⟨lost, hbeyond, heq⟩ := charsFrom_ascii hs hb
      have hchar : (Char.ofNat b.toNat).toNat = b.toNat := toNat_ofNat_of_valid (by omega)
      rw [heq, List.filter_append, hlost hbeyond, List.nil_append, charsFrom_none_ascii hb,
        List.filter_cons_of_pos (by simpa [hchar] using hb), ih sound_none,
        List.filter_cons_of_pos (by simpa using hb), List.map_cons]
    · have hbeyond := Nat.not_lt.mp hb
      rw [charsFrom_cons, List.filter_append, hlost (settled_beyond hs hbeyond), List.nil_append,
        ih (readByte_beyond hs hbeyond).2, List.filter_cons_of_neg (by simpa using hb)]

end JavaLint.Text

namespace JavaLint.Source

/-- The text of a span is its bytes with ill-formed parts replaced. An ASCII text stands in it
exactly if its bytes stand in the span, it has as many line feeds as the span, and its ASCII
characters are the ASCII bytes of the span in their order. -/
theorem text_keeps_ascii (source : Source) (node : Node) :
    (∀ text : List Char,
      Text.Rendering (source.span node) text ↔ text = (source.text node).toList) ∧
    (∀ pattern : String, pattern ≠ "" → Text.IsAscii pattern.toList →
      (pattern.toList <:+: (source.text node).toList ↔
        Text.asciiBytes pattern.toList <:+: source.span node) ∧
      (Text.contains (source.text node) pattern = true ↔
        Text.asciiBytes pattern.toList <:+: source.span node)) ∧
    (source.text node).toList.count '\n' = (source.span node).count lineFeed ∧
    (source.text node).toList.filter (·.toNat < 0x80) =
      ((source.span node).filter (·.toNat < 0x80)).map fun b => Char.ofNat b.toNat := by
  have htext : (source.text node).toList = Text.decodeLossy (source.span node) :=
    String.toList_ofList
  rw [htext]
  refine ⟨fun text => Text.rendering_iff, ?_, ?_, ?_⟩
  · intro pattern _ hascii
    exact ⟨Text.infix_decodeLossy_iff hascii _, contains_text_iff hascii⟩
  · exact Text.count_decodeLossy (by decide) _
  · exact Text.ascii_charsFrom _ Text.sound_none

end JavaLint.Source

namespace JavaLint.ReplacedBytes

/-- A character cut short before `null`, half a surrogate, and a character that breaks off at a line
feed. -/
def damaged : Source :=
  ⟨[0xE2, 0x82, 110, 117, 108, 108, 0xED, 0xA0, 10, 0xF0, 0x90, 10, 0xC3, 0xA9],
    ⟨"program", true, false, 0, 14, none, []⟩⟩

/-- The word `null` and both line feeds are still there. -/
theorem null_in_damaged_text :
    damaged.text damaged.root = "\uFFFDnull\uFFFD\uFFFD\n\uFFFD\né" ∧
      Text.asciiBytes "null".toList <:+: damaged.span damaged.root ∧
      Text.contains (damaged.text damaged.root) "null" = true ∧
      (damaged.text damaged.root).toList.count '\n' = 2 := by
  obtain ⟨-, hpatterns, hbreaks, -⟩ := Source.text_keeps_ascii damaged damaged.root
  have hbytes : Text.asciiBytes "null".toList <:+: damaged.span damaged.root := by decide
  obtain ⟨-, hfound⟩ := hpatterns "null" (by decide) (by decide)
  exact ⟨by decide +kernel, hbytes, hfound.mpr hbytes, hbreaks.trans (by decide)⟩

end JavaLint.ReplacedBytes
