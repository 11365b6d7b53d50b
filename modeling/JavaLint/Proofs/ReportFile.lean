import JavaLint.Proofs.Encoding
import JavaLint.Proofs.ReadBack
import JavaLint.Proofs.ReviewContract

/-! Reports in files. The text of a report has no carriage return in it, so it is read from its file
as it was written, and the value found there is the document of the review with its members in
order. No schema asks for an order of members, and the version is found by its key, so a report in a
file is accepted exactly when the review can be reported. -/
namespace JavaLint

namespace Json

theorem return_ne_hexDigit {d : Nat} (h : d < 16) : '\r' ≠ Text.hexDigit d := by
  interval_cases d <;> decide

theorem return_not_mem_escapeChar (c : Char) : '\r' ∉ escapeChar c := by
  unfold escapeChar
  split_ifs with hquote hback hline hreturn htab hbell hfeed hcontrol
  · decide
  · decide
  · decide
  · decide
  · decide
  · decide
  · decide
  · have hdigit : ∀ n, '\r' ≠ Text.hexDigit (n % 16) :=
      fun n => return_ne_hexDigit (Nat.mod_lt n (by decide))
    simp [Text.hexDigits, hdigit]
  · intro hmem
    rw [List.mem_singleton] at hmem
    exact hreturn (by rw [← hmem]; decide)

theorem return_not_mem_renderString (text : List Char) : '\r' ∉ renderString text := by
  simp [renderString, return_not_mem_escapeChar]

theorem return_not_mem_decimal (n : Int) : '\r' ∉ Numeral.decimal n := by
  have hdigits : ∀ n, '\r' ∉ Nat.toDigits 10 n := by
    intro n hmem
    have hdigit := isDigit_of_mem_toDigits hmem
    simp [isDigit] at hdigit
  cases n with
  | ofNat n => exact hdigits n
  | negSucc n => simp [Numeral.decimal, hdigits]

theorem return_not_mem_lineStart (layout : Layout) (level : Nat) :
    '\r' ∉ layout.lineStart level := by
  cases layout with
  | oneLine => simp [Layout.lineStart]
  | indented width => simp [Layout.lineStart, List.mem_replicate]

theorem return_not_mem_behind (layout : Layout) (level : Nat) {closing : Char}
    (hclose : '\r' ≠ closing) {entries : List (List Char)} (h : ∀ entry ∈ entries, '\r' ∉ entry) :
    '\r' ∉ layout.behind level closing [] entries := by
  have hgap : ∀ level, '\r' ∉ layout.gap level := by
    intro level
    cases layout with
    | oneLine => simp [Layout.gap]
    | indented width => exact return_not_mem_lineStart (.indented width) level
  induction entries with
  | nil => simp [Layout.behind, return_not_mem_lineStart, hclose]
  | cons entry entries ih =>
    rw [List.forall_mem_cons] at h
    simp [Layout.behind, hgap, h.1, ih h.2]

theorem return_not_mem_enclose (layout : Layout) (level : Nat) {opening closing : Char}
    (hopen : '\r' ≠ opening) (hclose : '\r' ≠ closing) {entries : List (List Char)}
    (h : ∀ entry ∈ entries, '\r' ∉ entry) :
    '\r' ∉ layout.enclose level opening closing entries := by
  cases entries with
  | nil => simp [Layout.enclose, hopen, hclose]
  | cons entry entries =>
    rw [List.forall_mem_cons] at h
    rw [← List.append_nil (layout.enclose level opening closing (entry :: entries)), enclose_cons]
    simp [hopen, return_not_mem_lineStart, h.1, return_not_mem_behind layout level hclose h.2]

theorem return_not_mem_renderAt {value : Json} (h : value.Everywhere NotReal) (layout : Layout)
    (level : Nat) : '\r' ∉ renderAt layout level value := by
  induction value using inside_out generalizing level with
  | step value ih =>
    have hin : ∀ child ∈ value.children, ∀ level, '\r' ∉ renderAt layout level child :=
      fun child hc => ih child hc (h.child hc)
    cases value with
    | null => simp [renderAt]
    | bool b => cases b with
      | true => simp [renderAt]
      | false => simp [renderAt]
    | int n => exact return_not_mem_decimal n
    | real x => exact h.self.elim
    | str text => exact return_not_mem_renderString text.toList
    | arr items =>
      rw [renderAt_arr]
      refine return_not_mem_enclose layout level (by decide) (by decide) ?_
      rw [List.forall_mem_map]
      exact fun item hi => hin item hi (level + 1)
    | obj members =>
      rw [renderAt_obj]
      refine return_not_mem_enclose layout level (by decide) (by decide) ?_
      rw [List.forall_mem_map]
      intro member hm
      have hchild : member.2 ∈ children (.obj members) :=
        List.mem_map.mpr ⟨member, (sortByKey_perm members).mem_iff.mp hm, rfl⟩
      simp [memberText, return_not_mem_renderString, hin _ hchild]

theorem unifyBreaks_document {value : Json} (h : value.Everywhere NotReal) (layout : Layout) :
    Text.unifyBreaks (value.document layout).toList = (value.document layout).toList := by
  apply Text.unifyBreaks_eq_self
  simp [document, render, return_not_mem_renderAt h]

theorem find?_sortByKey {members : List (String × Json)} (h : (members.map (·.1)).Nodup)
    (key : String) :
    (sortByKey members).find? (·.1 == key) = members.find? (·.1 == key) := by
  have hsorted : ((sortByKey members).map (·.1)).Nodup :=
    ((sortByKey_perm members).map _).nodup_iff.mpr h
  ext found
  rw [find?_key_iff hsorted, find?_key_iff h, (sortByKey_perm members).mem_iff]

theorem get?_inOrder {value : Json} (h : value.DistinctKeys) (key : String) :
    value.inOrder.get? key = (value.get? key).map inOrder := by
  cases value with
  | obj members =>
    rw [inOrder_obj, get?, get?, List.find?_map, Option.map_map, Option.map_map,
      ← find?_sortByKey h]
    rfl
  | null | bool | int | real | str | arr => rfl

theorem Everywhere.get? {P : Json → Prop} {value member : Json} (h : value.Everywhere P)
    {key : String} (hg : value.get? key = some member) : member.Everywhere P := by
  cases value with
  | obj members =>
    obtain ⟨found, hf, rfl⟩ := Option.map_eq_some_iff.mp hg
    exact h.child (List.mem_map.mpr ⟨found, List.mem_of_find?_eq_some hf, rfl⟩)
  | null | bool | int | real | str | arr => simp [Json.get?] at hg

theorem mem_keys_inOrder {members : List (String × Json)} {key : String} :
    key ∈ ((sortByKey members).map fun m => (m.1, m.2.inOrder)).map (·.1) ↔
      key ∈ members.map (·.1) := by
  rw [List.map_map]
  exact ((sortByKey_perm members).map _).mem_iff

end Json

namespace Schema

theorem complaints_closed_eq_nil_iff {schema : Schema} {members : List (String × Json)} :
    schema.complaints (.obj members) .closed = [] ↔
      ∀ key ∈ members.map (·.1), key ∈ schema.propertyNames := by
  have hkeys : schema.complaints (.obj members) .closed = [] ↔
      schema.unexpected (.obj members) = [] := by
    rw [complaints]
    split
    · simp_all
    · simp_all
  rw [hkeys, unexpected, ← List.length_eq_zero_iff, List.length_mergeSort,
    List.length_eq_zero_iff, List.filter_eq_nil_iff]
  simp

theorem complaints_required_eq_nil_iff {schema : Schema} {members : List (String × Json)}
    {names : List String} :
    schema.complaints (.obj members) (.required names) = [] ↔
      ∀ name ∈ names, name ∈ members.map (·.1) := by
  rw [complaints, List.map_eq_nil_iff, List.filter_eq_nil_iff]
  refine forall₂_congr fun name _ => ?_
  rw [Bool.not_eq_true, Bool.not_eq_false', List.any_eq_true, List.mem_map]
  simp

/-- No keyword that looks at a value as a whole asks for an order of members. -/
theorem complaints_inOrder (schema : Schema) (value : Json) (keyword : Keyword) :
    schema.complaints value.inOrder keyword = [] ↔ schema.complaints value keyword = [] := by
  cases value with
  | arr items =>
    rw [Json.inOrder_arr]
    cases keyword with
    | closed => rfl
    | type expected => cases expected with
      | object | array | string | integer => simp
    | required | properties | items | reference | const | oneOf | minLength | minimum | maxItems |
      form => simp
  | obj members =>
    rw [Json.inOrder_obj]
    cases keyword with
    | closed =>
      rw [complaints_closed_eq_nil_iff, complaints_closed_eq_nil_iff]
      exact forall_congr' fun key => imp_congr_left Json.mem_keys_inOrder
    | required names =>
      rw [complaints_required_eq_nil_iff, complaints_required_eq_nil_iff]
      exact forall₂_congr fun name _ => Json.mem_keys_inOrder
    | type expected => cases expected with
      | object | array | string | integer => simp
    | properties | items | reference | const | oneOf | minLength | minimum | maxItems | form => simp
  | null | bool | int | real | str => rfl

mutual

theorem holds_inOrder (schema : Schema) {value : Json} (h : value.Everywhere Json.DistinctKeys)
    (keyword : Keyword) : Holds schema value.inOrder keyword ↔ Holds schema value keyword := by
  cases keyword with
  | properties members => exact membersHold_inOrder h members
  | items inner =>
    cases value with
    | arr items =>
      simp only [Json.inOrder_arr, Holds, Json.arr.injEq, forall_eq', List.forall_mem_map]
      exact forall₂_congr fun item hi => allHold_inOrder inner (h.child hi) inner
    | null | bool | int | real | str | obj => simp [Json.inOrder]
  | reference name inner => exact allHold_inOrder inner h inner
  | type | closed | required | const | oneOf | minLength | minimum | maxItems | form =>
    exact complaints_inOrder schema value _

theorem allHold_inOrder (schema : Schema) {value : Json} (h : value.Everywhere Json.DistinctKeys)
    (keywords : List Keyword) :
    AllHold schema value.inOrder keywords ↔ AllHold schema value keywords := by
  cases keywords with
  | nil => rfl
  | cons keyword rest =>
    exact and_congr (holds_inOrder schema h keyword) (allHold_inOrder schema h rest)

theorem membersHold_inOrder {value : Json} (h : value.Everywhere Json.DistinctKeys)
    (members : List (String × List Keyword)) :
    MembersHold value.inOrder members ↔ MembersHold value members := by
  cases members with
  | nil => rfl
  | cons first rest =>
    obtain ⟨name, inner⟩ := first
    refine and_congr ?_ (membersHold_inOrder h rest)
    rw [Json.get?_inOrder h.self]
    cases hg : value.get? name with
    | none => simp
    | some member =>
      simp only [Option.map_some, Option.some.injEq, forall_eq']
      exact allHold_inOrder inner (h.get? hg) inner

end

/-- The order of members does not matter to a schema. -/
theorem satisfies_inOrder {schema : Schema} {value : Json}
    (h : value.Everywhere Json.DistinctKeys) :
    schema.Satisfies value.inOrder ↔ schema.Satisfies value :=
  allHold_inOrder schema h schema

end Schema

open Json

/-- A property of all texts, integers and arrays, and of every object without repeated keys. -/
structure Json.Usual (P : Json → Prop) : Prop where
  str : ∀ text, P (.str text)
  int : ∀ n, P (.int n)
  arr : ∀ items, P (.arr items)
  obj : ∀ members, (members.map (·.1)).Nodup → P (.obj members)

section Documents
variable {P : Json → Prop} (h : Usual P)
include h

theorem Issue.document_everywhere (issue : Issue) : issue.document.Everywhere P := by
  have hobj : P issue.document := h.obj _ (by simp)
  rw [Issue.document] at hobj ⊢
  simp [everywhere_obj, everywhere_int, everywhere_str, h.str, h.int, hobj]

theorem Review.counts_everywhere {α : Type} {name : α → String} {counts : List (α × Nat)}
    (hn : (counts.map fun entry => name entry.1).Nodup) :
    Everywhere P (.obj (counts.map fun entry => (name entry.1, .nat entry.2))) := by
  have hkeys : ((counts.map fun entry => (name entry.1, Json.nat entry.2)).map (·.1)).Nodup := by
    rw [List.map_map]
    exact hn
  rw [everywhere_obj, List.forall_mem_map]
  exact ⟨h.obj _ hkeys, fun entry _ => everywhere_int.mpr (h.int _)⟩

theorem Review.topFiles_everywhere (files : List (String × Nat)) :
    Everywhere P (.arr (files.map fun (name, count) =>
      .obj [("file_name", .str name), ("count", .nat count)])) := by
  rw [everywhere_arr, List.forall_mem_map]
  refine ⟨h.arr _, fun file _ => ?_⟩
  have hobj : P (.obj [("file_name", .str file.1), ("count", .int file.2)]) := h.obj _ (by simp)
  simp [everywhere_obj, everywhere_str, everywhere_int, h.str, h.int, hobj, Json.nat]

theorem Review.document_everywhere (review : Review) : review.document.Everywhere P := by
  have hissues : Everywhere P (.arr (review.issues.map Issue.document)) := by
    rw [everywhere_arr, List.forall_mem_map]
    exact ⟨h.arr _, fun issue _ => Issue.document_everywhere h issue⟩
  have hsummary : review.summaryDocument.Everywhere P := by
    have hcategories := Review.counts_everywhere h review.countByCategory_names_nodup
    have hseverities := Review.counts_everywhere h review.countBySeverity_names_nodup
    have hfiles := Review.topFiles_everywhere h (review.topFiles Review.topFilesLimit)
    rw [Review.summaryDocument, everywhere_obj, and_iff_right (h.obj _ (by simp))]
    simp only [List.forall_mem_cons, List.not_mem_nil, false_imp_iff, implies_true, and_true]
    exact ⟨everywhere_int.mpr (h.int _), everywhere_int.mpr (h.int _), hcategories, hseverities,
      hfiles⟩
  rw [Review.document, everywhere_obj, and_iff_right (h.obj _ (by simp))]
  simp [everywhere_str, h.str, hsummary, hissues]

end Documents

theorem Review.document_distinctKeys (review : Review) :
    review.document.Everywhere DistinctKeys :=
  Review.document_everywhere ⟨fun _ => trivial, fun _ => trivial, fun _ => trivial, fun _ h => h⟩
    review

theorem Review.document_notReal (review : Review) : review.document.Everywhere NotReal :=
  Review.document_everywhere
    ⟨fun _ => trivial, fun _ => trivial, fun _ => trivial, fun _ _ => trivial⟩ review

section Files
variable {fs : FileSystem} {path : Path} {tree : Option Tree} {layout : Layout}

theorem FileSystem.readText_document {value : Json} (hreal : value.Everywhere NotReal)
    (h : fs.content path = .ok (Text.encode (value.document layout).toList, tree)) :
    fs.readText path = .ok (value.document layout).toList := by
  simp only [FileSystem.readText, h, Text.decode?_encode, unifyBreaks_document hreal]

theorem FileSystem.readJson_document {value : Json} (hkeys : value.Everywhere DistinctKeys)
    (hreal : value.Everywhere NotReal)
    (h : fs.content path = .ok (Text.encode (value.document layout).toList, tree)) :
    fs.readJson path = .ok value.inOrder := by
  simp only [FileSystem.readJson, FileSystem.readText_document hreal h,
    read_document hkeys hreal layout, bind, Except.bind]

theorem Review.checkVersion_document (review : Review) (path : Path) :
    checkVersion path review.document.inOrder Catalog.reviewName = .ok () := by
  have hversion : review.document.inOrder.get? "schema_version" = some (.str schemaVersion) := by
    rw [get?_inOrder review.document_distinctKeys.self]
    rfl
  rw [Review.document, inOrder_obj] at hversion ⊢
  simp only [checkVersion, hversion]
  rfl

theorem validateValue_review_iff {value : Json} :
    validateValue value Catalog.reviewName = .ok () ↔ Schema.review.Satisfies value := by
  rw [validateValue, Catalog.find?_reviewName, ← Schema.validate_eq_ok_iff]
  show (Schema.review.validate value).mapError _ = .ok () ↔ _
  cases Schema.review.validate value with
  | error violation => simp [Except.mapError]
  | ok accepted => simp [Except.mapError]

theorem Review.checkedDocument_isOk_iff {review : Review} :
    (∃ document, review.checkedDocument = .ok document) ↔ review.Reportable := by
  constructor
  · rintro ⟨document, hdocument⟩
    obtain ⟨accepted, hvalid, -⟩ := bind_eq_ok.mp hdocument
    exact Schema.validate_review_eq_ok_iff.mp hvalid
  · intro hr
    exact ⟨_, Review.checkedDocument_of_reportable hr⟩

theorem Review.validateFile_iff {review : Review}
    (h : fs.content path = .ok (Text.encode (review.jsonText layout).toList, tree)) :
    validateFile fs path Catalog.reviewName = .ok () ↔ review.Reportable := by
  have hread : fs.readJson path = .ok review.document.inOrder :=
    FileSystem.readJson_document review.document_distinctKeys review.document_notReal h
  have hfile : validateFile fs path Catalog.reviewName =
      validateValue review.document.inOrder Catalog.reviewName := by
    simp only [validateFile, hread, review.checkVersion_document path, bind, Except.bind]
  rw [hfile, validateValue_review_iff, Schema.satisfies_inOrder review.document_distinctKeys,
    Schema.satisfies_review]

/-- A file that holds the report of a review is accepted exactly when the review itself passes its
check. -/
theorem Review.report_file_accepted_iff (fs : FileSystem) (path : Path) (tree : Option Tree)
    (review : Review) (indent : Option Int)
    (h : fs.content path = .ok (Text.encode (review.jsonText (.ofIndent indent)).toList, tree)) :
    validateFile fs path Catalog.reviewName = .ok () ↔
      ∃ document, review.checkedDocument = .ok document := by
  rw [Review.validateFile_iff h, Review.checkedDocument_isOk_iff]

end Files

def reportPath : Path := Path.here.child "report.json"

def Review.reportDirectory (review : Review) : FileSystem :=
  ⟨[(["report.json"], .file (Text.encode (review.jsonText (.ofIndent (some 2))).toList) none)], []⟩

theorem FileSystem.content_reportFile (bytes : Text.Bytes) :
    FileSystem.content ⟨[(["report.json"], .file bytes none)], []⟩ reportPath =
      .ok (bytes, none) := by
  have hroot : FileSystem.resolve ⟨[(["report.json"], .file bytes none)], []⟩ Path.here =
      .ok [] := by
    simp [FileSystem.resolve, FileSystem.startOf, Path.here, FileSystem.followFrom,
      FileSystem.isDirectoryAt, FileSystem.get?, bind, Except.bind]
  exact FileSystem.content_of_lookup (FileSystem.lookup_child hroot rfl rfl (by simp))

theorem Review.content_reportDirectory (review : Review) :
    review.reportDirectory.content reportPath =
      .ok (Text.encode (review.jsonText (.ofIndent (some 2))).toList, none) :=
  FileSystem.content_reportFile _

/-- A review with quotes, a backslash and both line ends in its only message. -/
def Review.escaping : Review where
  issues := [{
    fileName := "A.java"
    line := 3
    message := "\"a\\b\"\r\n"
    category := .bug
    severity := .high }]
  filesAnalyzed := 1

theorem Review.escaping_reportable : Review.escaping.Reportable := by
  refine ⟨by decide, by decide, ?_⟩
  intro issue hmem
  rw [List.mem_singleton.mp hmem]
  exact ⟨by decide, by decide, by decide, by decide⟩

/-- The characters that are escaped do no harm. -/
theorem Review.report_with_escapes_accepted :
    Review.escaping.reportDirectory.content reportPath =
      .ok (Text.encode (Review.escaping.jsonText (.ofIndent (some 2))).toList, none) ∧
    validateFile Review.escaping.reportDirectory reportPath Catalog.reviewName = .ok () := by
  have hcontent := Review.escaping.content_reportDirectory
  exact ⟨hcontent, (Review.report_file_accepted_iff _ _ _ _ _ hcontent).mpr
    ⟨_, Review.checkedDocument_of_reportable Review.escaping_reportable⟩⟩

end JavaLint
