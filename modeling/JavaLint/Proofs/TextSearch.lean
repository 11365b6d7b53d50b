import JavaLint.Proofs.LossyReading
import JavaLint.Text.Search
import JavaLint.Tree.Source
import Mathlib.Data.List.Infix

/-! Searching in the text of a span. An ASCII pattern stands in the lossy reading of bytes exactly
where its own bytes stand among them, however ill-formed the others are. So what is found in a part
of a span is found in the whole span, wherever the part is cut out. -/
namespace JavaLint

open scoped List

namespace Text

theorem occurs_iff_isInfix {pattern text : List Char} :
    occurs pattern text = true ↔ pattern <:+: text := by
  induction text with
  | nil => simp [occurs]
  | cons c rest ih =>
    rw [occurs, Bool.or_eq_true, List.isPrefixOf_iff_prefix, ih, List.infix_cons_iff]

theorem contains_iff_isInfix {text pattern : String} :
    contains text pattern = true ↔ pattern.toList <:+: text.toList :=
  occurs_iff_isInfix

def IsAscii (text : List Char) : Prop := ∀ c ∈ text, c.toNat < 0x80

instance (text : List Char) : Decidable (IsAscii text) :=
  decidable_of_iff (text.all (·.toNat < 0x80) = true) (by simp [IsAscii])

def asciiBytes (text : List Char) : Bytes := text.map fun c => UInt8.ofNat c.toNat

def charsFrom (state : Option Partial) (bytes : Bytes) : List Char :=
  (unitsFrom state bytes).map (·.getD replacement)

/-- The characters that are certain once a byte is read. -/
def settled (state : Option Partial) (b : UInt8) : List Char :=
  (readByte state b).1.map (·.getD replacement)

theorem charsFrom_cons (state : Option Partial) (b : UInt8) (rest : Bytes) :
    charsFrom state (b :: rest) =
      settled state b ++ charsFrom (readByte state b).2 rest := by
  rw [charsFrom, unitsFrom, List.map_append]
  rfl

variable {b : UInt8} {c : Char} {pattern : List Char} {state : Option Partial} {bytes rest : Bytes}

theorem replacement_beyond : 0x80 ≤ replacement.toNat := by decide

theorem sound_none : ∀ p ∈ (none : Option Partial), p.Sound := by simp

theorem charsFrom_none_ascii (hb : b.toNat < 0x80) :
    charsFrom none (b :: rest) = Char.ofNat b.toNat :: charsFrom none rest := by
  rw [charsFrom_cons, settled, readByte_ascii sound_none hb]
  rfl

/-- An ASCII byte stands for itself behind whatever it has broken off. -/
theorem charsFrom_ascii (hs : ∀ p ∈ state, p.Sound) (hb : b.toNat < 0x80) :
    ∃ lost, (∀ d ∈ lost, 0x80 ≤ d.toNat) ∧
      charsFrom state (b :: rest) = lost ++ charsFrom none (b :: rest) := by
  refine ⟨(broken state).map (·.getD replacement), ?_, ?_⟩
  · intro d hd
    obtain ⟨unit, hunit, rfl⟩ := List.mem_map.mp hd
    rw [broken] at hunit
    split at hunit
    · rw [List.mem_singleton.mp hunit]
      exact replacement_beyond
    · cases hunit
  · rw [charsFrom_none_ascii hb, charsFrom_cons, settled, readByte_ascii hs hb, List.map_append,
      List.append_assoc]
    rfl

theorem settled_beyond (hs : ∀ p ∈ state, p.Sound) (hb : 0x80 ≤ b.toNat) :
    ∀ d ∈ settled state b, 0x80 ≤ d.toNat := by
  intro d hd
  obtain ⟨unit, hunit, rfl⟩ := List.mem_map.mp hd
  cases unit with
  | none => exact replacement_beyond
  | some d => exact (readByte_beyond hs hb).1 d hunit

/-- A byte that settles nothing leaves a character unfinished. -/
theorem isSome_of_settled_eq_nil (h : settled state b = []) :
    (readByte state b).2.isSome = true := by
  have hdone : (readByte state b).1 = [] := List.map_eq_nil_iff.mp h
  cases state with
  | none =>
    cases hlead : lead b with
    | single c => simp [readByte, hlead] at hdone
    | opens p => simp [readByte, hlead]
    | invalid => simp [readByte, hlead] at hdone
  | some p =>
    by_cases hrange : (decide (p.low ≤ b) && decide (b ≤ p.high)) = true
    · cases hm : p.remaining with
      | zero => simp [readByte, hrange, hm] at hdone
      | succ more => simp [readByte, hrange, hm]
    · cases hlead : lead b with
      | single c => simp [readByte, hrange, hlead] at hdone
      | opens q => simp [readByte, hrange, hlead]
      | invalid => simp [readByte, hrange, hlead] at hdone

theorem head_charsFrom_cons (hs : ∀ p ∈ state, p.Sound) (hb : 0x80 ≤ b.toNat)
    (hrest : ∀ p : Partial, p.Sound → ∀ d ∈ (charsFrom (some p) rest).head?, 0x80 ≤ d.toNat) :
    ∀ d ∈ (charsFrom state (b :: rest)).head?, 0x80 ≤ d.toNat := by
  intro d hd
  rw [charsFrom_cons] at hd
  cases hsettled : settled state b with
  | nil =>
    obtain ⟨p, hp⟩ := Option.isSome_iff_exists.mp (isSome_of_settled_eq_nil hsettled)
    rw [hsettled, hp, List.nil_append] at hd
    exact hrest p ((readByte_beyond hs hb).2 p hp) d hd
  | cons first more =>
    rw [hsettled, List.cons_append, List.head?_cons, Option.mem_some] at hd
    exact hd ▸ settled_beyond hs hb first (hsettled ▸ List.mem_cons_self)

theorem head_charsFrom_some {p : Partial} (hp : p.Sound) (bytes : Bytes) :
    ∀ d ∈ (charsFrom (some p) bytes).head?, 0x80 ≤ d.toNat := by
  induction bytes generalizing p with
  | nil =>
    intro d hd
    cases hd
    exact replacement_beyond
  | cons b rest ih =>
    have hs : ∀ q ∈ some p, q.Sound := by
      intro q hq
      cases hq
      exact hp
    by_cases hb : b.toNat < 0x80
    · intro d hd
      rw [charsFrom_cons, settled, readByte_ascii hs hb] at hd
      cases hd
      exact replacement_beyond
    · exact head_charsFrom_cons hs (Nat.not_lt.mp hb) fun q hq => ih hq

theorem toNat_asciiByte (hc : c.toNat < 0x80) : (UInt8.ofNat c.toNat).toNat = c.toNat := by
  rw [UInt8.toNat_ofNat', Nat.mod_eq_of_lt (by omega)]

theorem prefix_charsFrom_iff (hp : IsAscii pattern) :
    pattern <+: charsFrom none bytes ↔ asciiBytes pattern <+: bytes := by
  induction pattern generalizing bytes with
  | nil => simp [asciiBytes]
  | cons c more ih =>
    rw [IsAscii, List.forall_mem_cons] at hp
    obtain ⟨hc, hmore⟩ := hp
    cases bytes with
    | nil => simp [asciiBytes, charsFrom, unitsFrom]
    | cons b rest =>
      rw [asciiBytes, List.map_cons, List.cons_prefix_cons]
      by_cases hb : b.toNat < 0x80
      · rw [charsFrom_none_ascii hb, List.cons_prefix_cons, ih hmore, eq_comm,
          ofNat_toNat_eq_iff hc hb, eq_comm]
        rfl
      · have hbeyond := Nat.not_lt.mp hb
        constructor
        · rintro ⟨tail, htail⟩
          have hhead := head_charsFrom_cons sound_none hbeyond
            (fun p hp => head_charsFrom_some hp rest) c (by rw [← htail]; rfl)
          omega
        · rintro ⟨rfl, -⟩
          rw [toNat_asciiByte hc] at hb
          exact absurd hc hb

theorem infix_append_of_beyond (hp : IsAscii pattern) (hne : pattern ≠ []) {lost text : List Char}
    (hl : ∀ d ∈ lost, 0x80 ≤ d.toNat) : pattern <:+: lost ++ text ↔ pattern <:+: text := by
  induction lost with
  | nil => rfl
  | cons d more ih =>
    rw [List.forall_mem_cons] at hl
    rw [List.cons_append, List.infix_cons_iff, ih hl.2, or_iff_right]
    cases pattern with
    | nil => exact absurd rfl hne
    | cons c others =>
      rw [List.cons_prefix_cons]
      rintro ⟨rfl, -⟩
      have hc := hp c List.mem_cons_self
      omega

/-- The induction is over the bytes, with a sound character left unfinished before them: a match
that starts at an ASCII byte is one of bytes, and none starts elsewhere. -/
theorem infix_charsFrom_iff (hp : IsAscii pattern) (hne : pattern ≠ []) (bytes : Bytes)
    (hs : ∀ p ∈ state, p.Sound) :
    pattern <:+: charsFrom state bytes ↔ asciiBytes pattern <:+: bytes := by
  induction bytes generalizing state with
  | nil =>
    have hlost : ∀ d ∈ charsFrom state [], 0x80 ≤ d.toNat := by
      intro d hd
      cases state with
      | none => cases hd
      | some p =>
        rw [List.mem_singleton.mp hd]
        exact replacement_beyond
    rw [← List.append_nil (charsFrom state []), infix_append_of_beyond hp hne hlost]
    simp [asciiBytes]
  | cons b rest ih =>
    rw [List.infix_cons_iff]
    by_cases hb : b.toNat < 0x80
    · obtain ⟨lost, hlost, heq⟩ := charsFrom_ascii hs hb
      have hrest := ih sound_none
      rw [heq, infix_append_of_beyond hp hne hlost, ← hrest, ← prefix_charsFrom_iff hp,
        charsFrom_none_ascii hb, List.infix_cons_iff]
    · have hbeyond := Nat.not_lt.mp hb
      rw [charsFrom_cons, infix_append_of_beyond hp hne (settled_beyond hs hbeyond),
        ih (readByte_beyond hs hbeyond).2, or_iff_right]
      cases pattern with
      | nil => exact absurd rfl hne
      | cons c more =>
        have hc := hp c List.mem_cons_self
        rw [asciiBytes, List.map_cons, List.cons_prefix_cons]
        rintro ⟨rfl, -⟩
        rw [toNat_asciiByte hc] at hb
        exact hb hc

/-- An ASCII pattern is found in the reading of bytes exactly where it stands among them. -/
theorem infix_decodeLossy_iff (hp : IsAscii pattern) (bytes : Bytes) :
    pattern <:+: decodeLossy bytes ↔ asciiBytes pattern <:+: bytes := by
  by_cases hne : pattern = []
  · simp [hne, asciiBytes]
  · exact infix_charsFrom_iff hp hne bytes sound_none

end Text

structure Node.Inside (inner outer : Node) : Prop where
  start_le : outer.start ≤ inner.start
  stop_le : inner.stop ≤ outer.stop

namespace Source

variable {source : Source} {inner outer node : Node} {pattern : String}

theorem span_isInfix (h : inner.Inside outer) : source.span inner <:+: source.span outer := by
  have hprefix : source.span inner <+: (source.bytes.take outer.stop).drop inner.start :=
    (List.take_prefix_take_left h.stop_le).drop inner.start
  have hsuffix : (source.bytes.take outer.stop).drop inner.start <:+ source.span outer :=
    List.drop_suffix_drop_left _ h.start_le
  exact hprefix.isInfix.trans hsuffix.isInfix

theorem contains_text_iff (hp : Text.IsAscii pattern.toList) :
    Text.contains (source.text node) pattern = true ↔
      Text.asciiBytes pattern.toList <:+: source.span node := by
  rw [Text.contains_iff_isInfix, text, String.toList_ofList, Text.infix_decodeLossy_iff hp]

/-- What is found in a part of a span is found in the whole. -/
theorem contains_text_of_inside (hp : Text.IsAscii pattern.toList) (hin : inner.Inside outer)
    (h : Text.contains (source.text inner) pattern = true) :
    Text.contains (source.text outer) pattern = true := by
  rw [contains_text_iff hp] at h ⊢
  exact h.trans (span_isInfix hin)

end Source

end JavaLint
