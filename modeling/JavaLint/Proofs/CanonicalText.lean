import JavaLint.Canonical
import JavaLint.Proofs.ReadBack

/-! Canonical documents of JSON values. A value without floating-point numbers is read back from its
canonical document up to the order of members, and the members of every object in the document stand
in increasing order of their keys. So two values have one document exactly when they are the same up
to the order of members. -/
namespace JavaLint

open Json

namespace Value

mutual

def ofJson : Json → Value
  | .null => .null
  | .bool value => .bool value
  | .int value => .int value
  | .real value => .real value
  | .str value => .text value
  | .arr items => .list (ofItems items)
  | .obj members => .map (ofMembers members)

def ofItems : List Json → List Value
  | [] => []
  | item :: items => ofJson item :: ofItems items

def ofMembers : List (String × Json) → List (Value × Value)
  | [] => []
  | (key, value) :: members => (.text key, ofJson value) :: ofMembers members

end

theorem normalizeItems_ofItems (items : List Json) :
    normalizeItems (ofItems items) = items.map fun item => (ofJson item).normalize := by
  induction items with
  | nil => rfl
  | cons item items ih => rw [ofItems, normalizeItems, ih, List.map_cons]

theorem normalizeEntries_ofMembers (members : List (String × Json)) :
    normalizeEntries (ofMembers members) = members.map fun m => (m.1, (ofJson m.2).normalize) := by
  induction members with
  | nil => rfl
  | cons member members ih =>
    rw [ofMembers, normalizeEntries, ih, List.map_cons]
    rfl

theorem normalize_ofJson {value : Json} (h : value.Everywhere DistinctKeys) :
    (ofJson value).normalize = value := by
  induction value using inside_out with
  | step value ih =>
    have hin : ∀ child ∈ value.children, (ofJson child).normalize = child :=
      fun child hc => ih child hc (h.child hc)
    cases value with
    | arr items =>
      have hitems : items.map (fun item => (ofJson item).normalize) = items.map id :=
        List.map_congr_left hin
      rw [ofJson, normalize, normalizeItems_ofItems, hitems, List.map_id]
    | obj members =>
      have hmembers : members.map (fun m => (m.1, (ofJson m.2).normalize)) = members.map id :=
        List.map_congr_left fun m hm => Prod.ext rfl (hin m.2 (List.mem_map.mpr ⟨m, hm, rfl⟩))
      rw [ofJson, normalize, normalizeEntries_ofMembers, hmembers, List.map_id, ofMembers_eq h.self]
    | null | bool | int | real | str => rfl

theorem canonicalText_ofJson {value : Json} (h : value.Everywhere DistinctKeys) (layout : Layout) :
    (ofJson value).canonicalText layout = value.document layout := by
  rw [canonicalText, normalize_ofJson h]

/-- What a document can carry: keys once, and no floating-point number. -/
structure Portable (value : Json) : Prop where
  keys : value.Everywhere DistinctKeys
  notReal : value.Everywhere NotReal

theorem read_canonicalText {value : Json} (h : Portable value) (layout : Layout) :
    Json.read ((ofJson value).canonicalText layout).toList = .ok value.inOrder := by
  rw [canonicalText_ofJson h.keys]
  exact read_document h.keys h.notReal layout

theorem canonicalText_eq_iff_same {value other : Json} (hv : Portable value) (ho : Portable other)
    (layout : Layout) :
    (ofJson value).canonicalText layout = (ofJson other).canonicalText layout ↔
      value.Same other := by
  rw [same_iff_inOrder_eq hv.keys ho.keys]
  constructor
  · intro heq
    have hread := read_canonicalText hv layout
    rw [heq, read_canonicalText ho] at hread
    exact (Except.ok.inj hread).symm
  · intro heq
    rw [canonicalText_ofJson hv.keys, canonicalText_ofJson ho.keys, document, document, render,
      render, ← renderAt_inOrder hv.keys, ← renderAt_inOrder ho.keys, heq]

/-- The canonical document of a value is read back as the same value with its members in order. Two
values have the same document exactly when they are the same up to the order of members. -/
theorem canonicalText_faithful (indent : Option Int) (value : Json) (h : Portable value) :
    (∃ found, Json.read ((ofJson value).canonicalText (.ofIndent indent)).toList = .ok found ∧
      found.Same value ∧ found.Everywhere Increasing) ∧
    ∀ other, Portable other →
      ((ofJson value).canonicalText (.ofIndent indent) =
        (ofJson other).canonicalText (.ofIndent indent) ↔ value.Same other) := by
  constructor
  · exact ⟨value.inOrder, read_canonicalText h _, inOrder_same h.keys,
      everywhere_increasing_inOrder h.keys⟩
  · intro other ho
    exact canonicalText_eq_iff_same h ho _

def nested : Json :=
  .obj [("b", .arr [.int (-7), .str "é"]), ("a", .obj [("y", .str "\"\n"), ("x", .int 0)])]

def rearranged : Json :=
  .obj [("a", .obj [("x", .int 0), ("y", .str "\"\n")]), ("b", .arr [.int (-7), .str "é"])]

theorem nested_portable : Portable nested where
  keys := by
    simp [nested, everywhere_obj, everywhere_arr, everywhere_int, everywhere_str, DistinctKeys]
  notReal := by
    simp [nested, everywhere_obj, everywhere_arr, everywhere_int, everywhere_str, NotReal]

theorem rearranged_portable : Portable rearranged where
  keys := by
    simp [rearranged, everywhere_obj, everywhere_arr, everywhere_int, everywhere_str, DistinctKeys]
  notReal := by
    simp [rearranged, everywhere_obj, everywhere_arr, everywhere_int, everywhere_str, NotReal]

theorem nested_same_rearranged : nested.Same rearranged := by
  refine .obj (.swap _ _ _) (.refl _) rfl ?_
  intro member other hmem
  simp only [List.zip_cons_cons, List.zip_nil_right, List.mem_cons, List.not_mem_nil, or_false,
    Prod.mk.injEq] at hmem
  rcases hmem with ⟨rfl, rfl⟩ | ⟨rfl, rfl⟩
  · refine .obj (.swap _ _ _) (.refl _) rfl ?_
    intro member other hmem
    simp only [List.zip_cons_cons, List.zip_nil_right, List.mem_cons, List.not_mem_nil, or_false,
      Prod.mk.injEq] at hmem
    rcases hmem with ⟨rfl, rfl⟩ | ⟨rfl, rfl⟩
    · exact .refl _
    · exact .refl _
  · exact .refl _

theorem canonicalText_of_rearranged_members :
    Portable nested ∧ Portable rearranged ∧
      (∃ found, Json.read ((ofJson nested).canonicalText (.ofIndent (some 2))).toList = .ok found ∧
        found.Same nested ∧ found.Everywhere Increasing) ∧
      (ofJson nested).canonicalText (.ofIndent (some 2)) =
        (ofJson rearranged).canonicalText (.ofIndent (some 2)) := by
  obtain ⟨hread, hsame⟩ := canonicalText_faithful (some 2) nested nested_portable
  exact ⟨nested_portable, rearranged_portable, hread,
    (hsame rearranged rearranged_portable).mpr nested_same_rearranged⟩

end Value

end JavaLint
