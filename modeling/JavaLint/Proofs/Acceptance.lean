import JavaLint.Proofs.Resolution
import JavaLint.Schema.Catalog

/-! When a value satisfies a schema. The checker collects violations along a path; beside it stands
what each keyword asks of a value, which has no path in it. Both agree, so a value passes the
checker exactly when every keyword of the schema holds. An object passes the schema of a record
exactly when its fields pass theirs. -/
namespace JavaLint

namespace Schema

attribute [simp] complaints JsonType.admits

mutual

@[simp] def Holds (schema : Schema) (value : Json) : Keyword → Prop
  | .properties members => MembersHold value members
  | .items inner => ∀ items, value = .arr items → ∀ item ∈ items, AllHold inner item inner
  | .reference _ inner => AllHold inner value inner
  | keyword => schema.complaints value keyword = []

@[simp] def AllHold (schema : Schema) (value : Json) : List Keyword → Prop
  | [] => True
  | keyword :: rest => Holds schema value keyword ∧ AllHold schema value rest

/-- The listed properties that an object has satisfy their schemas. -/
@[simp] def MembersHold (value : Json) : List (String × List Keyword) → Prop
  | [] => True
  | (name, inner) :: rest =>
    (∀ member, value.get? name = some member → AllHold inner member inner) ∧
      MembersHold value rest

end

def Satisfies (schema : Schema) (value : Json) : Prop := AllHold schema value schema

mutual

theorem keywordViolations_eq_nil_iff (schema : Schema) (path : List Step) (value : Json)
    (keyword : Keyword) :
    keywordViolations schema path value keyword = [] ↔ Holds schema value keyword := by
  cases keyword with
  | properties members => exact memberViolations_eq_nil_iff path value members
  | items inner =>
    cases value with
    | arr items =>
      simp only [keywordViolations, Holds, List.flatMap_eq_nil_iff, Json.arr.injEq, forall_eq']
      constructor
      · intro h item hmem
        obtain ⟨i, hi⟩ := List.mem_iff_getElem?.mp hmem
        have := h (item, i) (List.mem_zipIdx_iff_getElem?.mpr hi)
        exact (violationsOf_eq_nil_iff inner _ item inner).mp this
      · rintro h ⟨item, i⟩ hmem
        have hi := List.mem_of_getElem? (List.mem_zipIdx_iff_getElem?.mp hmem)
        exact (violationsOf_eq_nil_iff inner _ item inner).mpr (h item hi)
    | null | bool | int | real | str | obj => simp [keywordViolations]
  | reference name inner => exact violationsOf_eq_nil_iff inner path value inner
  | type | closed | required | const | oneOf | minLength | minimum | maxItems | form =>
    exact List.map_eq_nil_iff

theorem violationsOf_eq_nil_iff (schema : Schema) (path : List Step) (value : Json)
    (keywords : List Keyword) :
    violationsOf schema path value keywords = [] ↔ AllHold schema value keywords := by
  cases keywords with
  | nil => simp [violationsOf]
  | cons keyword rest =>
    rw [violationsOf, AllHold, List.append_eq_nil_iff]
    exact and_congr (keywordViolations_eq_nil_iff schema path value keyword)
      (violationsOf_eq_nil_iff schema path value rest)

theorem memberViolations_eq_nil_iff (path : List Step) (value : Json)
    (members : List (String × List Keyword)) :
    memberViolations path value members = [] ↔ MembersHold value members := by
  cases members with
  | nil => simp [memberViolations]
  | cons first rest =>
    obtain ⟨name, inner⟩ := first
    rw [memberViolations, MembersHold, List.append_eq_nil_iff]
    refine and_congr ?_ (memberViolations_eq_nil_iff path value rest)
    cases hg : value.get? name with
    | none => simp
    | some member => simpa using violationsOf_eq_nil_iff inner _ member inner

end

theorem violations_eq_nil_iff {schema : Schema} {value : Json} :
    schema.violations value = [] ↔ schema.Satisfies value :=
  violationsOf_eq_nil_iff schema [] value schema

theorem validate_eq_ok_iff {schema : Schema} {value : Json} :
    schema.validate value = .ok () ↔ schema.Satisfies value := by
  rw [← violations_eq_nil_iff]
  unfold validate
  cases schema.violations value with
  | nil => simp [Violation.worst?]
  | cons first rest => simp [Violation.worst?]

theorem membersHold_iff {value : Json} {members : List (String × Schema)} :
    MembersHold value members ↔
      ∀ listed ∈ members, ∀ member, value.get? listed.1 = some member →
        Satisfies listed.2 member := by
  induction members with
  | nil => simp
  | cons first rest ih =>
    obtain ⟨name, inner⟩ := first
    rw [MembersHold, ih, List.forall_mem_cons]
    rfl

theorem get?_of_mem {fields : List (String × Json)} (hn : (fields.map (·.1)).Nodup)
    {field : String × Json} (h : field ∈ fields) :
    Json.get? field.1 (.obj fields) = some field.2 := by
  rw [Json.get?, (find?_key_iff hn).mpr ⟨h, rfl⟩]
  rfl

/-- A row of a record: a name, what is asked of its value, and the value. -/
abbrev Field := String × Schema × Json

def recordOf (rows : List Field) : Schema := record (rows.map fun row => (row.1, row.2.1))

def objectOf (rows : List Field) : Json := .obj (rows.map fun row => (row.1, row.2.2))

theorem unexpected_recordOf (rows : List Field) :
    (recordOf rows).unexpected (objectOf rows) = [] := by
  have hlisted : (recordOf rows).propertyNames = rows.map (·.1) := by
    simp [recordOf, record, propertyNames, Function.comp_def]
  have hnone : (rows.map (·.1)).filter (!(recordOf rows).propertyNames.contains ·) = [] := by
    rw [hlisted, List.filter_eq_nil_iff]
    intro name hmem
    rw [List.contains_iff_mem.mpr hmem]
    decide
  have hkeys : (rows.map fun row => (row.1, row.2.2)).map (·.1) = rows.map (·.1) := by
    rw [List.map_map]
    rfl
  rw [objectOf, unexpected, hkeys, hnone, List.mergeSort_nil]

theorem complaints_required (schema : Schema) (rows : List Field) :
    schema.complaints (objectOf rows) (.required (rows.map (·.1))) = [] := by
  have hall : ∀ name ∈ rows.map (·.1),
      (rows.map fun row => (row.1, row.2.2)).any (·.1 == name) := by
    intro name hmem
    obtain ⟨row, hrow, rfl⟩ := List.mem_map.mp hmem
    exact List.any_eq_true.mpr ⟨_, List.mem_map_of_mem hrow, by simp⟩
  rw [objectOf, complaints, List.map_eq_nil_iff, List.filter_eq_nil_iff]
  intro name hmem
  rw [hall name hmem]
  decide

theorem membersHold_recordOf {rows : List Field} (hn : (rows.map (·.1)).Nodup) :
    MembersHold (objectOf rows) (rows.map fun row => (row.1, row.2.1)) ↔
      ∀ row ∈ rows, row.2.1.Satisfies row.2.2 := by
  rw [membersHold_iff, List.forall_mem_map]
  refine forall₂_congr fun row hrow => ?_
  have hfields : ((rows.map fun row => (row.1, row.2.2)).map (·.1)).Nodup := by
    simpa only [List.map_map, Function.comp_def] using hn
  have hget : (objectOf rows).get? row.1 = some row.2.2 :=
    get?_of_mem hfields (List.mem_map_of_mem hrow)
  simp [hget]

/-- An object with exactly the listed keys satisfies the schema of a record when each value
satisfies the schema of its key. -/
theorem satisfies_recordOf {rows : List Field} (hn : (rows.map (·.1)).Nodup) :
    (recordOf rows).Satisfies (objectOf rows) ↔ ∀ row ∈ rows, row.2.1.Satisfies row.2.2 := by
  have htype : (recordOf rows).Holds (objectOf rows) (.type .object) := rfl
  have hclosed : (recordOf rows).Holds (objectOf rows) .closed := by
    rw [Holds, complaints, unexpected_recordOf]
    · simp
    · simp
    · simp
  have hrequired : (recordOf rows).Holds (objectOf rows) (.required (rows.map (·.1))) :=
    complaints_required _ rows
  rw [← membersHold_recordOf hn]
  constructor
  · intro h
    exact h.2.2.2.1
  · intro h
    refine ⟨htype, hclosed, ?_, h, trivial⟩
    rw [List.map_map]
    exact hrequired

theorem satisfies_count {least n : Int} : (count least).Satisfies (.int n) ↔ least ≤ n := by
  simp [Satisfies, count]

theorem satisfies_text (text : String) : Satisfies [.type .string] (.str text) := by
  simp [Satisfies]

theorem satisfies_nonEmptyText {text : String} :
    nonEmptyText.Satisfies (.str text) ↔ text ≠ "" := by
  simp [Satisfies, nonEmptyText]

theorem satisfies_const {text other : String} :
    Satisfies [.const text] (.str other) ↔ other = text := by
  simp [Satisfies]

theorem satisfies_oneOf {texts : List String} {text : String} :
    Satisfies [.oneOf texts] (.str text) ↔ text ∈ texts := by
  simp [Satisfies]

theorem satisfies_form {form : TextForm} {text : String} :
    Satisfies [.type .string, .form form] (.str text) ↔ form.admits text = true := by
  simp [Satisfies]

theorem satisfies_array {inner : Schema} {items : List Json} :
    Satisfies [.type .array, .items inner] (.arr items) ↔
      ∀ item ∈ items, inner.Satisfies item := by
  simp [Satisfies]

theorem satisfies_shortArray {limit : Nat} {inner : Schema} {items : List Json} :
    Satisfies [.type .array, .maxItems limit, .items inner] (.arr items) ↔
      items.length ≤ limit ∧ ∀ item ∈ items, inner.Satisfies item := by
  simp [Satisfies]

theorem satisfies_reference {name : String} {inner : Schema} {value : Json} :
    Satisfies [.reference name inner] value ↔ inner.Satisfies value := by
  simp [Satisfies]

end Schema

end JavaLint
