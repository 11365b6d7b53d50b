import Mathlib.Data.List.Basic
import Mathlib.Data.List.FinRange
import Mathlib.Data.List.Induction
import Mathlib.Order.Nat

/-! Orders that values bring with them. A list without its repetitions is in the order of first
occurrence. Values taken apart by key are all still there. A sort by a measure is stable: ties stay
in the order they had before, so it leaves the only arrangement in which the greater measure comes
first and the earlier value among equals. Texts are sorted by code point. -/
namespace JavaLint

section FirstOccurrence
variable {κ : Type} [BEq κ] [LawfulBEq κ]

theorem eraseDups_concat (values : List κ) (value : κ) :
    (values ++ [value]).eraseDups =
      if value ∈ values then values.eraseDups else values.eraseDups ++ [value] := by
  rw [List.eraseDups_append]
  by_cases h : value ∈ values
  · simp [List.removeAll, h]
  · simp [List.removeAll, h, List.eraseDups_cons]

theorem pairwise_idxOf_eraseDups (values : List κ) :
    values.eraseDups.Pairwise fun a b => values.idxOf a < values.idxOf b := by
  -- Values are added at the end: that moves no first occurrence.
  induction values using List.reverseRecOn with
  | nil => simp
  | append_singleton values value ih =>
    have hkept : values.eraseDups.Pairwise fun a b =>
        (values ++ [value]).idxOf a < (values ++ [value]).idxOf b := by
      refine ih.imp_of_mem ?_
      intro a b ha hb hlt
      rw [List.mem_eraseDups] at ha hb
      rwa [List.idxOf_append_of_mem ha, List.idxOf_append_of_mem hb]
    rw [eraseDups_concat]
    split
    · exact hkept
    · rename_i hnew
      rw [List.pairwise_append]
      refine ⟨hkept, List.pairwise_singleton _ _, ?_⟩
      intro a ha b hb
      rw [List.mem_eraseDups] at ha
      rw [List.mem_singleton.mp hb, List.idxOf_append_of_mem ha, List.idxOf_append, if_neg hnew]
      have hlt := List.idxOf_lt_length_iff.mpr ha
      omega

theorem nodup_eraseDups (values : List κ) : values.eraseDups.Nodup := by
  refine (pairwise_idxOf_eraseDups values).imp ?_
  rintro a b hlt rfl
  exact Nat.lt_irrefl _ hlt

theorem eraseDups_filter (test : κ → Bool) (values : List κ) :
    (values.filter test).eraseDups = values.eraseDups.filter test := by
  induction values using List.reverseRecOn with
  | nil => simp
  | append_singleton values value ih =>
    rw [eraseDups_concat]
    by_cases ht : test value = true
    · have hlast : (values ++ [value]).filter test = values.filter test ++ [value] := by simp [ht]
      rw [hlast, eraseDups_concat, ih]
      by_cases hv : value ∈ values
      · simp [hv, ht]
      · simp [hv, ht]
    · have hlast : (values ++ [value]).filter test = values.filter test := by simp [ht]
      rw [hlast, ih]
      by_cases hv : value ∈ values
      · simp [hv]
      · simp [hv, ht]

end FirstOccurrence

section Partition
variable {α κ : Type} [BEq κ] [LawfulBEq κ] {key : α → κ} {keys : List κ} {values : List α}

/-- Values that are taken apart by key, for keys that cover them, are the same values. -/
theorem flatMap_filter_perm (hn : keys.Nodup) (h : ∀ value ∈ values, key value ∈ keys) :
    (keys.flatMap fun k => values.filter (key · == k)).Perm values := by
  induction keys generalizing values with
  | nil =>
    cases values with
    | nil => exact .refl []
    | cons value rest => exact absurd (h value List.mem_cons_self) List.not_mem_nil
  | cons k rest ih =>
    rw [List.nodup_cons] at hn
    have hothers : ∀ value ∈ values.filter (fun value => !(key value == k)), key value ∈ rest := by
      intro value hmem
      obtain ⟨hv, hk⟩ := List.mem_filter.mp hmem
      rcases List.mem_cons.mp (h value hv) with heq | hrest
      · simp [heq] at hk
      · exact hrest
    -- The later groups do not see what belongs to the first key.
    have hgroups : (rest.flatMap fun k' => values.filter (key · == k')) =
        rest.flatMap fun k' => (values.filter fun value => !(key value == k)).filter
          (key · == k') := by
      refine List.flatMap_congr fun k' hk' => ?_
      rw [List.filter_filter]
      refine List.filter_congr fun value _ => ?_
      by_cases heq : key value = k'
      · have hne : k' ≠ k := fun hkk => hn.1 (hkk ▸ hk')
        simp [heq, hne]
      · simp [heq]
    rw [List.flatMap_cons, hgroups]
    exact ((ih hn.2 hothers).append_left _).trans (List.filter_append_perm _ values)

end Partition

section Sorting
variable {α : Type} {measure : α → Nat} {before : α → α → Prop} {values others : List α} {a b : α}

/-- The greater measure comes first, and among equals what was there before. -/
def Precedes (measure : α → Nat) (before : α → α → Prop) (a b : α) : Prop :=
  measure b < measure a ∨ measure a = measure b ∧ before a b

theorem Precedes.measure_le (h : Precedes measure before a b) : measure b ≤ measure a := by
  rcases h with hlt | ⟨heq, -⟩
  · exact hlt.le
  · exact heq.ge

theorem Precedes.before_of_measure_eq (h : Precedes measure before a b)
    (heq : measure a = measure b) : before a b := by
  rcases h with hlt | ⟨-, hbefore⟩
  · omega
  · exact hbefore

/-- Sorting by falling measure moves no value past an equal one. -/
theorem pairwise_mergeSort_precedes (h : values.Pairwise before) :
    (values.mergeSort fun a b => measure b ≤ measure a).Pairwise (Precedes measure before) := by
  have htrans : ∀ a b c : α, decide (measure b ≤ measure a) = true →
      decide (measure c ≤ measure b) = true → decide (measure c ≤ measure a) = true := by
    intro a b c hab hbc
    rw [decide_eq_true_eq] at hab hbc ⊢
    exact hbc.trans hab
  have htotal : ∀ a b : α,
      (decide (measure b ≤ measure a) || decide (measure a ≤ measure b)) = true := by
    intro a b
    rw [Bool.or_eq_true, decide_eq_true_eq, decide_eq_true_eq]
    exact Nat.le_total _ _
  induction values with
  | nil => simp
  | cons value rest ih =>
    obtain ⟨hvalue, hrest⟩ := List.pairwise_cons.mp h
    obtain ⟨front, back, hsort, hsplit, hfront⟩ := List.mergeSort_cons htrans htotal value rest
    have hsorted := List.pairwise_mergeSort htrans htotal (value :: rest)
    have ih := ih hrest
    rw [hsort] at hsorted ⊢
    rw [hsplit] at ih
    have hback : ∀ other ∈ back, other ∈ rest := by
      intro other hmem
      have hsorted : other ∈ rest.mergeSort fun a b => measure b ≤ measure a := by
        rw [hsplit]
        exact List.mem_append_right front hmem
      exact List.mem_mergeSort.mp hsorted
    -- The first value goes behind those that are strictly greater, and before all others.
    obtain ⟨hf, hb, hfb⟩ := List.pairwise_append.mp ih
    refine List.pairwise_append.mpr ⟨hf, List.pairwise_cons.mpr ⟨?_, hb⟩, ?_⟩
    · intro other hmem
      have hle : measure other ≤ measure value := by
        have hcons := List.pairwise_cons.mp (List.pairwise_append.mp hsorted).2.1
        simpa using hcons.1 other hmem
      rcases hle.lt_or_eq with hlt | heq
      · exact Or.inl hlt
      · exact Or.inr ⟨heq.symm, hvalue other (hback other hmem)⟩
    · intro greater hg other hmem
      rcases List.mem_cons.mp hmem with rfl | hmem
      · have hlt := hfront greater hg
        simp only [Bool.not_eq_true', decide_eq_false_iff_not, not_le] at hlt
        exact Or.inl hlt
      · exact hfb greater hg other hmem

/-- Two arrangements of the same values that both follow the order are one. -/
theorem eq_of_pairwise_precedes (hasymm : ∀ a b, before a b → ¬before b a)
    (hv : values.Pairwise (Precedes measure before))
    (ho : others.Pairwise (Precedes measure before)) (h : values.Perm others) :
    values = others := by
  refine List.Perm.eq_of_pairwise ?_ hv ho h
  rintro a b - - hab hba
  have heq : measure a = measure b := le_antisymm hba.measure_le hab.measure_le
  exact absurd (hba.before_of_measure_eq heq.symm) (hasymm a b (hab.before_of_measure_eq heq))

def positionsByMeasure (measure : α → Nat) (values : List α) : List (Fin values.length) :=
  (List.finRange values.length).mergeSort fun i j => measure (values.get j) ≤ measure (values.get i)

theorem positionsByMeasure_perm (measure : α → Nat) (values : List α) :
    (positionsByMeasure measure values).Perm (List.finRange values.length) :=
  List.mergeSort_perm _ _

theorem positionsByMeasure_precedes (measure : α → Nat) (values : List α) :
    (positionsByMeasure measure values).Pairwise
      (Precedes (fun i => measure (values.get i)) fun i j => i < j) :=
  pairwise_mergeSort_precedes (List.pairwise_lt_finRange _)

theorem map_get_positionsByMeasure (measure : α → Nat) (values : List α) :
    (positionsByMeasure measure values).map values.get =
      values.mergeSort fun a b => measure b ≤ measure a := by
  have hsort := List.map_mergeSort (l := List.finRange values.length) (f := values.get)
    (r := fun i j => decide (measure (values.get j) ≤ measure (values.get i)))
    (s := fun a b => decide (measure b ≤ measure a)) fun _ _ _ _ => rfl
  rwa [List.map_get_finRange] at hsort

variable {κ : Type} [BEq κ] {keys : List κ} {key : α → κ} {rank : κ → Nat} {k : κ}

def positionsWith (key : α → κ) (values : List α) (k : κ) : List (Fin values.length) :=
  (List.finRange values.length).filter fun i => key (values.get i) == k

theorem map_get_positionsWith (key : α → κ) (values : List α) (k : κ) :
    (positionsWith key values k).map values.get = values.filter (key · == k) := by
  conv_rhs => rw [← List.map_get_finRange values]
  rw [List.filter_map]
  rfl

variable [LawfulBEq κ]

theorem mem_positionsWith {i : Fin values.length} :
    i ∈ positionsWith key values k ↔ key (values.get i) = k := by
  simp [positionsWith]

theorem flatMap_positionsWith_precedes (hkeys : keys.Pairwise fun k k' => rank k' < rank k) :
    (keys.flatMap (positionsWith key values)).Pairwise
      (Precedes (fun i => rank (key (values.get i))) fun i j => i < j) := by
  refine List.pairwise_flatMap.mpr ⟨fun k _ => ?_, hkeys.imp fun {k k'} hlt => ?_⟩
  · refine ((List.pairwise_lt_finRange _).filter _).imp_of_mem ?_
    intro i j hi hj hij
    have hrank : rank (key (values.get i)) = rank (key (values.get j)) := by
      rw [mem_positionsWith.mp hi, mem_positionsWith.mp hj]
    exact Or.inr ⟨hrank, hij⟩
  · intro i hi j hj
    have hrank : rank (key (values.get j)) < rank (key (values.get i)) := by
      rw [mem_positionsWith.mp hi, mem_positionsWith.mp hj]
      exact hlt
    exact Or.inl hrank

/-- To sort by the falling rank of a key is to put the values of one key after those of another. -/
theorem mergeSort_eq_flatMap_filter (hkeys : keys.Pairwise fun k k' => rank k' < rank k)
    (h : ∀ value ∈ values, key value ∈ keys) :
    (values.mergeSort fun a b => rank (key b) ≤ rank (key a)) =
      keys.flatMap fun k => values.filter (key · == k) := by
  have hdistinct : keys.Nodup := hkeys.imp fun hlt heq => by simp [heq] at hlt
  have hperm : (keys.flatMap (positionsWith key values)).Perm (List.finRange values.length) :=
    flatMap_filter_perm hdistinct fun i _ => h _ (List.get_mem values i)
  -- Equal values are told apart by their positions, so these can be arranged in one way only.
  have hsame := eq_of_pairwise_precedes (fun _ _ => Fin.lt_asymm)
    (positionsByMeasure_precedes (fun value => rank (key value)) values)
    (flatMap_positionsWith_precedes hkeys)
    ((positionsByMeasure_perm _ values).trans hperm.symm)
  rw [← map_get_positionsByMeasure fun value => rank (key value), hsame, List.map_flatMap]
  exact List.flatMap_congr fun k _ => map_get_positionsWith key values k

end Sorting

/-- Sorting by a text leaves no greater text before a smaller one. -/
theorem pairwise_mergeSort_texts {α : Type} (key : α → String) (values : List α) :
    (values.mergeSort fun a b => !decide (key b < key a)).Pairwise fun a b => key a ≤ key b := by
  have h : (values.mergeSort fun a b => !decide (key b < key a)).Pairwise
      fun a b => (!decide (key b < key a)) = true := by
    refine List.pairwise_mergeSort ?_ ?_ values
    · intro a b c hab hbc
      simp only [Bool.not_eq_true', decide_eq_false_iff_not, String.not_lt] at hab hbc ⊢
      exact String.le_trans hab hbc
    · intro a b
      simp only [Bool.or_eq_true, Bool.not_eq_true', decide_eq_false_iff_not, String.not_lt]
      exact String.le_total _ _
  refine h.imp ?_
  intro a b hle
  simp only [Bool.not_eq_true', decide_eq_false_iff_not, String.not_lt] at hle
  exact hle

end JavaLint
