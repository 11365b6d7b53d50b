import JavaLint.Json.Printer
import JavaLint.Proofs.StableOrder
import Mathlib.Data.List.Forall2
import Mathlib.Data.List.Nodup

/-! The order of object members. Two values are the same up to that order when a rearrangement of
the members, at every level, makes them equal. Sorting the members of every object by key picks one
value among those: values without repeated keys are the same exactly when they sort to one value. -/
namespace JavaLint.Json

@[simp] def children : Json → List Json
  | .arr items => items
  | .obj members => members.map (·.2)
  | .null | .bool _ | .int _ | .real _ | .str _ => []

theorem sizeOf_child {value child : Json} (h : child ∈ value.children) :
    sizeOf child < sizeOf value := by
  cases value with
  | arr items =>
    have := List.sizeOf_lt_of_mem (show child ∈ items from h)
    simp only [arr.sizeOf_spec]
    omega
  | obj members =>
    obtain ⟨⟨key, value⟩, hm, rfl⟩ := List.mem_map.mp h
    have := List.sizeOf_lt_of_mem hm
    simp only [Prod.mk.sizeOf_spec, obj.sizeOf_spec] at this ⊢
    omega
  | null | bool | int | real | str => simp at h

/-- What holds of a value whenever it holds of the values directly inside it holds of all values. -/
theorem inside_out {motive : Json → Prop}
    (step : ∀ value, (∀ child ∈ value.children, motive child) → motive value) (value : Json) :
    motive value :=
  step value fun child _ => inside_out step child
termination_by value
decreasing_by exact sizeOf_child ‹_›

/-- A value is part of itself and of what its container is part of. -/
inductive PartOf : Json → Json → Prop
  | self (value : Json) : PartOf value value
  | inside {part child value : Json} :
      child ∈ value.children → PartOf part child → PartOf part value

def Everywhere (P : Json → Prop) (value : Json) : Prop := ∀ part, PartOf part value → P part

theorem everywhere_iff {P : Json → Prop} {value : Json} :
    value.Everywhere P ↔ P value ∧ ∀ child ∈ value.children, child.Everywhere P := by
  constructor
  · intro h
    exact ⟨h value (.self value), fun child hc part hp => h part (.inside hc hp)⟩
  · rintro ⟨hself, hinside⟩ part hp
    cases hp with
    | self => exact hself
    | inside hc hp => exact hinside _ hc part hp

theorem everywhere_leaf {P : Json → Prop} {value : Json} (h : value.children = []) :
    value.Everywhere P ↔ P value := by
  rw [everywhere_iff, h]
  simp

theorem everywhere_int {P : Json → Prop} {n : Int} : Everywhere P (.int n) ↔ P (.int n) :=
  everywhere_leaf rfl

theorem everywhere_str {P : Json → Prop} {text : String} :
    Everywhere P (.str text) ↔ P (.str text) :=
  everywhere_leaf rfl

theorem everywhere_arr {P : Json → Prop} {items : List Json} :
    Everywhere P (.arr items) ↔ P (.arr items) ∧ ∀ item ∈ items, item.Everywhere P :=
  everywhere_iff

theorem everywhere_obj {P : Json → Prop} {members : List (String × Json)} :
    Everywhere P (.obj members) ↔ P (.obj members) ∧ ∀ m ∈ members, m.2.Everywhere P := by
  rw [everywhere_iff, children, List.forall_mem_map]

theorem Everywhere.self {P : Json → Prop} {value : Json} (h : value.Everywhere P) : P value :=
  h value (.self value)

theorem Everywhere.child {P : Json → Prop} {value child : Json} (h : value.Everywhere P)
    (hc : child ∈ value.children) : child.Everywhere P :=
  (everywhere_iff.mp h).2 child hc

/-- Equal up to the order of the members of objects, at every level. -/
inductive Same : Json → Json → Prop
  | refl (value : Json) : Same value value
  | arr {items others : List Json} (length : items.length = others.length)
      (same : ∀ {item other}, (item, other) ∈ items.zip others → Same item other) :
      Same (.arr items) (.arr others)
  | obj {members others first second : List (String × Json)}
      (left : members.Perm first) (right : others.Perm second)
      (keys : first.map (·.1) = second.map (·.1))
      (same : ∀ {member other}, (member, other) ∈ first.zip second → Same member.2 other.2) :
      Same (.obj members) (.obj others)

def DistinctKeys : Json → Prop
  | .obj members => (members.map (·.1)).Nodup
  | _ => True

def Increasing : Json → Prop
  | .obj members => members.Pairwise (·.1 < ·.1)
  | _ => True

section SortByKey
variable {α β : Type} {members others : List (String × α)}

theorem sortByKey_perm (members : List (String × α)) : (sortByKey members).Perm members :=
  List.mergeSort_perm _ _

theorem sortByKey_pairwise (members : List (String × α)) :
    (sortByKey members).Pairwise (·.1 ≤ ·.1) :=
  pairwise_mergeSort_texts _ _

theorem sortByKey_increasing (h : (members.map (·.1)).Nodup) :
    (sortByKey members).Pairwise (·.1 < ·.1) := by
  have hn : ((sortByKey members).map (·.1)).Nodup :=
    ((sortByKey_perm members).map _).nodup_iff.mpr h
  have hne : (sortByKey members).Pairwise (·.1 ≠ ·.1) := List.pairwise_map.mp hn
  refine ((sortByKey_pairwise members).and hne).imp ?_
  rintro a b ⟨hle, hab⟩
  exact String.not_le.mp fun hba => hab (String.le_antisymm hle hba)

theorem sortByKey_of_increasing (h : members.Pairwise (·.1 < ·.1)) :
    sortByKey members = members := by
  refine List.mergeSort_of_pairwise (h.imp ?_)
  intro a b hlt
  simp only [Bool.not_eq_true', decide_eq_false_iff_not]
  exact String.lt_asymm hlt

/-- Sorting by key does not look at what the keys lead to. -/
theorem sortByKey_map (f : α → β) (members : List (String × α)) :
    sortByKey (members.map fun m => (m.1, f m.2)) =
      (sortByKey members).map fun m => (m.1, f m.2) := by
  have hkeys : ∀ a ∈ members, ∀ b ∈ members,
      (!decide (b.1 < a.1)) = !decide ((b.1, f b.2).1 < (a.1, f a.2).1) := fun _ _ _ _ => rfl
  exact (List.map_mergeSort hkeys).symm

theorem sortByKey_eq_of_perm (hp : members.Perm others) (h : (members.map (·.1)).Nodup) :
    sortByKey members = sortByKey others := by
  have hother : (others.map (·.1)).Nodup := (hp.map _).nodup_iff.mp h
  have hsorted : (sortByKey members).Perm (sortByKey others) :=
    (sortByKey_perm members).trans (hp.trans (sortByKey_perm others).symm)
  refine hsorted.eq_of_pairwise ?_ (sortByKey_increasing h) (sortByKey_increasing hother)
  intro a b _ _ hab hba
  exact absurd hba (String.lt_asymm hab)

end SortByKey

mutual

def inOrder : Json → Json
  | .arr items => .arr (itemsInOrder items)
  | .obj members => .obj (sortByKey (membersInOrder members))
  | value => value

def itemsInOrder : List Json → List Json
  | [] => []
  | item :: items => item.inOrder :: itemsInOrder items

def membersInOrder : List (String × Json) → List (String × Json)
  | [] => []
  | (key, value) :: members => (key, value.inOrder) :: membersInOrder members

end

theorem itemsInOrder_eq_map (items : List Json) : itemsInOrder items = items.map inOrder := by
  induction items with
  | nil => rfl
  | cons item items ih => rw [itemsInOrder, ih, List.map_cons]

theorem membersInOrder_eq_map (members : List (String × Json)) :
    membersInOrder members = members.map fun m => (m.1, m.2.inOrder) := by
  induction members with
  | nil => rfl
  | cons member members ih => rw [membersInOrder, ih, List.map_cons]

theorem inOrder_arr (items : List Json) : inOrder (.arr items) = .arr (items.map inOrder) := by
  rw [inOrder, itemsInOrder_eq_map]

theorem inOrder_obj (members : List (String × Json)) :
    inOrder (.obj members) = .obj ((sortByKey members).map fun m => (m.1, m.2.inOrder)) := by
  rw [inOrder, membersInOrder_eq_map, sortByKey_map]

theorem mem_children_inOrder {value child : Json} :
    child ∈ value.inOrder.children ↔ ∃ inner ∈ value.children, inner.inOrder = child := by
  cases value with
  | arr items => simp [inOrder_arr]
  | obj members =>
    simp only [inOrder_obj, children, List.map_map, List.mem_map, Function.comp_apply,
      (sortByKey_perm members).mem_iff, exists_exists_and_eq_and]
  | null | bool | int | real | str => simp [inOrder]

/-- What does not look at the order of members holds everywhere before and after sorting. -/
theorem everywhere_inOrder_iff {P : Json → Prop} (hP : ∀ value, P value.inOrder ↔ P value)
    {value : Json} : value.inOrder.Everywhere P ↔ value.Everywhere P := by
  induction value using inside_out with
  | step value ih =>
    rw [everywhere_iff, everywhere_iff, hP]
    refine and_congr_right fun _ => ?_
    constructor
    · intro h child hc
      exact (ih child hc).mp (h child.inOrder (mem_children_inOrder.mpr ⟨child, hc, rfl⟩))
    · intro h child hc
      obtain ⟨inner, hi, rfl⟩ := mem_children_inOrder.mp hc
      exact (ih inner hi).mpr (h inner hi)

theorem everywhere_increasing_inOrder {value : Json} (h : value.Everywhere DistinctKeys) :
    value.inOrder.Everywhere Increasing := by
  induction value using inside_out with
  | step value ih =>
    refine everywhere_iff.mpr ⟨?_, ?_⟩
    · cases value with
      | obj members =>
        rw [inOrder_obj]
        exact List.pairwise_map.mpr (sortByKey_increasing h.self)
      | null | bool | int | real | str | arr => trivial
    · intro child hc
      obtain ⟨inner, hi, rfl⟩ := mem_children_inOrder.mp hc
      exact ih inner hi (h.child hi)

theorem inOrder_of_increasing {value : Json} (h : value.Everywhere Increasing) :
    value.inOrder = value := by
  induction value using inside_out with
  | step value ih =>
    have hin : ∀ child ∈ value.children, child.inOrder = child :=
      fun child hc => ih child hc (h.child hc)
    cases value with
    | arr items =>
      have hitems : items.map inOrder = items.map id := List.map_congr_left hin
      rw [inOrder_arr, hitems, List.map_id]
    | obj members =>
      have hmembers : members.map (fun m => (m.1, m.2.inOrder)) = members.map id :=
        List.map_congr_left fun member hm =>
          Prod.ext rfl (hin member.2 (List.mem_map.mpr ⟨member, hm, rfl⟩))
      rw [inOrder_obj, sortByKey_of_increasing h.self, hmembers, List.map_id]
    | null | bool | int | real | str => rfl

theorem map_eq_map_iff_zip {α β γ : Type} {f : α → γ} {g : β → γ} {first : List α}
    {second : List β} : first.map f = second.map g ↔
      first.length = second.length ∧ ∀ {a b}, (a, b) ∈ first.zip second → f a = g b := by
  rw [← List.forall₂_eq_eq_eq, List.forall₂_map_left_iff, List.forall₂_map_right_iff,
    List.forall₂_iff_zip]

theorem Same.inOrder_eq {value other : Json} (h : value.Same other)
    (hv : value.Everywhere DistinctKeys) (ho : other.Everywhere DistinctKeys) :
    value.inOrder = other.inOrder := by
  induction h with
  | refl => rfl
  | @arr items others hlength _ ih =>
    rw [inOrder_arr, inOrder_arr, map_eq_map_iff_zip.mpr ⟨hlength, ?_⟩]
    intro item other hmem
    obtain ⟨hi, hj⟩ := List.of_mem_zip hmem
    exact ih hmem (hv.child hi) (ho.child hj)
  | @obj members others first second left right keys _ ih =>
    -- sorting forgets the rearrangements, and the rearranged members agree pair by pair
    have hpairs : first.map (fun m => (m.1, m.2.inOrder)) =
        second.map (fun m => (m.1, m.2.inOrder)) := by
      obtain ⟨hlength, hkeys⟩ := map_eq_map_iff_zip.mp keys
      refine map_eq_map_iff_zip.mpr ⟨hlength, ?_⟩
      intro member other hmem
      obtain ⟨hm, ho'⟩ := List.of_mem_zip hmem
      have hkey : member.1 = other.1 := hkeys hmem
      refine Prod.ext hkey (ih hmem ?_ ?_)
      · exact hv.child (List.mem_map.mpr ⟨member, left.mem_iff.mpr hm, rfl⟩)
      · exact ho.child (List.mem_map.mpr ⟨other, right.mem_iff.mpr ho', rfl⟩)
    have hperm : (members.map fun m => (m.1, m.2.inOrder)).Perm
        (others.map fun m => (m.1, m.2.inOrder)) :=
      (left.map _).trans (hpairs ▸ (right.map _).symm)
    have hn : ((members.map fun m => (m.1, m.2.inOrder)).map (·.1)).Nodup := by
      rw [List.map_map]
      exact hv.self
    rw [inOrder_obj, inOrder_obj, ← sortByKey_map, ← sortByKey_map, sortByKey_eq_of_perm hperm hn]

theorem same_of_inOrder_eq {value other : Json} (h : value.inOrder = other.inOrder) :
    value.Same other := by
  induction value using inside_out generalizing other with
  | step value ih =>
    cases value with
    | arr items =>
      cases other with
      | arr others =>
        rw [inOrder_arr, inOrder_arr, Json.arr.injEq, map_eq_map_iff_zip] at h
        exact .arr h.1 fun hmem => ih _ (List.of_mem_zip hmem).1 (h.2 hmem)
      | null | bool | int | real | str | obj => simp [inOrder] at h
    | obj members =>
      cases other with
      | obj others =>
        rw [inOrder_obj, inOrder_obj, Json.obj.injEq, map_eq_map_iff_zip] at h
        refine .obj (sortByKey_perm members).symm (sortByKey_perm others).symm ?_ ?_
        · exact map_eq_map_iff_zip.mpr ⟨h.1, fun hmem => (Prod.ext_iff.mp (h.2 hmem)).1⟩
        · intro member other hmem
          have hm := (sortByKey_perm members).mem_iff.mp (List.of_mem_zip hmem).1
          exact ih _ (List.mem_map.mpr ⟨member, hm, rfl⟩) (Prod.ext_iff.mp (h.2 hmem)).2
      | null | bool | int | real | str | arr => simp [inOrder] at h
    | null | bool | int | real | str =>
      cases other with
      | arr | obj => simp [inOrder] at h
      | null | bool | int | real | str => simp_all [inOrder, Same.refl]

/-- Values without repeated keys are the same exactly when they sort to one value. -/
theorem same_iff_inOrder_eq {value other : Json} (hv : value.Everywhere DistinctKeys)
    (ho : other.Everywhere DistinctKeys) : value.Same other ↔ value.inOrder = other.inOrder :=
  ⟨fun h => h.inOrder_eq hv ho, same_of_inOrder_eq⟩

theorem inOrder_same {value : Json} (h : value.Everywhere DistinctKeys) :
    value.inOrder.Same value :=
  same_of_inOrder_eq (inOrder_of_increasing (everywhere_increasing_inOrder h))

end JavaLint.Json
