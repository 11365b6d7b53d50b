import JavaLint.CommandLine.Run
import JavaLint.Proofs.CommandReading
import JavaLint.Proofs.ReportFile

/-! The verdict on a document. A document is read, its version is looked at, and then it is checked
against the schema; each of these can refuse it in its own way. Together they come to three exit
codes: the document is valid, it breaks the schema, or it is not a document of this version at
all. -/
namespace JavaLint

def FileSystem.HoldsValue (fs : FileSystem) (path : Path) (value : Json) : Prop :=
  ∃ bytes tree text, fs.content path = .ok (bytes, tree) ∧ Text.decode? bytes = some text ∧
    Json.read (Text.unifyBreaks text) = .ok value

/-- An object whose version is missing, or is not the one that the schema is for. -/
def Json.OtherVersion (value : Json) : Prop :=
  (∃ members, value = .obj members) ∧
    value.get? "schema_version" ≠ some (.str Review.schemaVersion)

section Reading
variable {fs : FileSystem} {path : Path} {value : Json}

theorem FileSystem.readText_eq_ok_iff {text : List Char} :
    fs.readText path = .ok text ↔
      ∃ bytes tree decoded, fs.content path = .ok (bytes, tree) ∧
        Text.decode? bytes = some decoded ∧ Text.unifyBreaks decoded = text := by
  rw [FileSystem.readText]
  cases hc : fs.content path with
  | error cause => simp
  | ok content =>
    obtain ⟨bytes, tree⟩ := content
    cases hd : Text.decode? bytes with
    | none => simp [hd]
    | some decoded => simp [hd]

theorem FileSystem.readJson_eq_ok_iff :
    fs.readJson path = .ok value ↔ fs.HoldsValue path value := by
  rw [FileSystem.readJson, bind_eq_ok]
  constructor
  · rintro ⟨text, htext, hvalue⟩
    obtain ⟨bytes, tree, decoded, hc, hd, rfl⟩ := FileSystem.readText_eq_ok_iff.mp htext
    split at hvalue
    next found hread =>
      cases hvalue
      exact ⟨bytes, tree, decoded, hc, hd, hread⟩
    next => cases hvalue
  · rintro ⟨bytes, tree, decoded, hc, hd, hread⟩
    refine ⟨_, FileSystem.readText_eq_ok_iff.mpr ⟨bytes, tree, decoded, hc, hd, rfl⟩, ?_⟩
    rw [hread]

theorem FileSystem.HoldsValue.unique {other : Json} (h : fs.HoldsValue path value)
    (h' : fs.HoldsValue path other) : other = value := by
  rw [← FileSystem.readJson_eq_ok_iff] at h h'
  exact Except.ok.inj (h'.symm.trans h)

/-- What cannot be read is refused before any schema is looked at. -/
theorem FileSystem.readJson_ne_violation (violation : Violation) :
    fs.readJson path ≠ .error (.violation violation) := by
  intro h
  rw [FileSystem.readJson, FileSystem.readText] at h
  cases hc : fs.content path with
  | error cause => simp [hc, bind, Except.bind] at h
  | ok content =>
    obtain ⟨bytes, tree⟩ := content
    cases hd : Text.decode? bytes with
    | none => simp [hc, hd, bind, Except.bind] at h
    | some decoded =>
      simp only [hc, hd, bind, Except.bind] at h
      split at h
      · cases h
      · cases h

end Reading

section Checking
variable {value : Json}

theorem checkVersion_of_otherVersion (path : Path) (h : value.OtherVersion) :
    ∃ found, checkVersion path value Catalog.reviewName = .error (.wrongVersion path found) := by
  obtain ⟨⟨members, rfl⟩, hversion⟩ := h
  refine ⟨((Json.obj members).get? "schema_version").getD .null, ?_⟩
  rw [checkVersion]
  cases hg : (Json.obj members).get? "schema_version" with
  | none => rfl
  | some found =>
    cases found with
    | str text =>
      have htext : text ≠ Review.schemaVersion := by
        rintro rfl
        exact hversion hg
      simp [htext]
    | null | bool | int | real | arr | obj => rfl

theorem checkVersion_of_not_otherVersion (path : Path) (h : ¬value.OtherVersion) :
    checkVersion path value Catalog.reviewName = .ok () := by
  cases value with
  | obj members =>
    have hversion :
        (Json.obj members).get? "schema_version" = some (.str Review.schemaVersion) := by
      by_contra hother
      exact h ⟨⟨members, rfl⟩, hother⟩
    rw [checkVersion, hversion]
    simp
  | null | bool | int | real | str | arr => rfl

/-- The schema asks for the version, so what satisfies it has passed the check of the version. -/
theorem not_otherVersion_of_satisfies (h : Schema.review.Satisfies value) :
    ¬value.OtherVersion := by
  rintro ⟨⟨members, rfl⟩, hversion⟩
  obtain ⟨-, -, hrequired, hproperties, -⟩ := h
  have hkey : "schema_version" ∈ members.map (·.1) :=
    Schema.complaints_required_eq_nil_iff.mp hrequired "schema_version" (by simp)
  obtain ⟨found, hfound⟩ : ∃ found, (Json.obj members).get? "schema_version" = some found := by
    obtain ⟨member, hmem, hname⟩ := List.mem_map.mp hkey
    have hsome : (members.find? (·.1 == "schema_version")).isSome = true :=
      List.find?_isSome.mpr ⟨member, hmem, beq_iff_eq.mpr hname⟩
    obtain ⟨first, hfirst⟩ := Option.isSome_iff_exists.mp hsome
    exact ⟨first.2, by rw [Json.get?, hfirst]; rfl⟩
  have hconst : Schema.Satisfies [.const Review.schemaVersion] found := hproperties.1 found hfound
  cases found with
  | str text =>
    rw [Schema.satisfies_const.mp hconst] at hfound
    exact hversion hfound
  | null | bool | int | real | arr | obj => simp [Schema.Satisfies] at hconst

theorem validateValue_review_cases (value : Json) :
    validateValue value Catalog.reviewName = .ok () ∨
      ∃ violation, validateValue value Catalog.reviewName = .error (.violation violation) := by
  rw [validateValue, Catalog.find?_reviewName]
  show (Schema.review.validate value).mapError _ = _ ∨ ∃ violation,
    (Schema.review.validate value).mapError _ = _
  cases Schema.review.validate value with
  | error violation => exact Or.inr ⟨violation, rfl⟩
  | ok accepted => exact Or.inl rfl

end Checking

namespace FileSystem

variable {fs : FileSystem} {path : Path}

def HoldsValid (fs : FileSystem) (path : Path) : Prop :=
  ∃ value, fs.HoldsValue path value ∧ validateValue value Catalog.reviewName = .ok ()

/-- The file holds a value that the schema rejects, and not for its version alone. -/
def HoldsInvalid (fs : FileSystem) (path : Path) (violation : Violation) : Prop :=
  ∃ value, fs.HoldsValue path value ∧ ¬value.OtherVersion ∧
    validateValue value Catalog.reviewName = .error (.violation violation)

theorem not_holdsValid_of_otherVersion {value : Json} (h : fs.HoldsValue path value)
    (ho : value.OtherVersion) : ¬fs.HoldsValid path := by
  rintro ⟨other, hother, hvalid⟩
  rw [h.unique hother] at hvalid
  exact not_otherVersion_of_satisfies (validateValue_review_iff.mp hvalid) ho

theorem HoldsInvalid.not_holdsValid {violation : Violation} (h : fs.HoldsInvalid path violation) :
    ¬fs.HoldsValid path := by
  obtain ⟨value, hvalue, -, hinvalid⟩ := h
  rintro ⟨other, hother, hvalid⟩
  rw [hvalue.unique hother, hinvalid] at hvalid
  cases hvalid

/-- All that the check of a file can come to. -/
theorem validateFile_cases (fs : FileSystem) (path : Path) :
    (fs.HoldsValid path ∧ validateFile fs path Catalog.reviewName = .ok ()) ∨
    (∃ violation, fs.HoldsInvalid path violation ∧
      validateFile fs path Catalog.reviewName = .error (.violation violation)) ∨
    (∃ error, ¬fs.HoldsValid path ∧ (∀ violation, ¬fs.HoldsInvalid path violation) ∧
      validateFile fs path Catalog.reviewName = .error error ∧
      ∀ violation, error ≠ .violation violation) := by
  cases hread : fs.readJson path with
  | error error =>
    have hnone : ∀ value, ¬fs.HoldsValue path value := by
      intro value hvalue
      rw [← readJson_eq_ok_iff, hread] at hvalue
      cases hvalue
    refine Or.inr (Or.inr ⟨error, ?_, ?_, ?_, ?_⟩)
    · rintro ⟨value, hvalue, -⟩
      exact hnone value hvalue
    · rintro violation ⟨value, hvalue, -⟩
      exact hnone value hvalue
    · simp only [validateFile, hread, bind, Except.bind]
    · rintro violation rfl
      exact readJson_ne_violation violation hread
  | ok value =>
    have hvalue := readJson_eq_ok_iff.mp hread
    by_cases hversion : value.OtherVersion
    · obtain ⟨found, hcheck⟩ := checkVersion_of_otherVersion path hversion
      refine Or.inr (Or.inr ⟨.wrongVersion path found,
        not_holdsValid_of_otherVersion hvalue hversion, ?_, ?_, ?_⟩)
      · rintro violation ⟨other, hother, hsame, -⟩
        rw [hvalue.unique hother] at hsame
        exact hsame hversion
      · simp only [validateFile, hread, hcheck, bind, Except.bind]
      · intro violation h
        cases h
    · have hfile : validateFile fs path Catalog.reviewName =
          validateValue value Catalog.reviewName := by
        simp only [validateFile, hread, checkVersion_of_not_otherVersion path hversion, bind,
          Except.bind]
      rw [hfile]
      rcases validateValue_review_cases value with hvalid | ⟨violation, hinvalid⟩
      · exact Or.inl ⟨⟨value, hvalue, hvalid⟩, hvalid⟩
      · exact Or.inr (Or.inl ⟨violation, ⟨value, hvalue, hversion, hinvalid⟩, hinvalid⟩)

end FileSystem

namespace CommandLine

theorem run_of_validate {arguments : List String} {command : ValidateCommand}
    (environment : Environment) (fs : FileSystem)
    (h : parse arguments = .ok (some (.validate command))) :
    run arguments environment fs = (fs, .ok (command.run fs)) := by
  rw [run, h]

theorem ValidateCommand.run_of_error {fs : FileSystem} (command : ValidateCommand)
    {error : DocumentError} (h : validateFile fs command.document command.schemaName = .error error)
    (herror : ∀ violation, error ≠ .violation violation) :
    command.run fs = failure ("ERROR: " ++ error.message) := by
  rw [ValidateCommand.run, h]
  cases error with
  | violation first => exact (herror first rfl).elim
  | system | notUtf8 | notJson | wrongVersion | unknownSchema => rfl

/-- The check of a document always returns and changes nothing. It ends with 0 and prints that all
is well exactly if the file holds a value that the schema accepts, with 1 exactly if the file holds
a value that the schema rejects, unless that is an object of another version, and with 2 otherwise.
The version is never a reason to refuse what the schema accepts, and the schema accepts what
satisfies its keywords. -/
theorem document_verdict (environment : Environment) (fs : FileSystem) (argument : String)
    (h : IsPlain argument) :
    (∃ outcome, run ["validate", argument] environment fs = (fs, .ok outcome) ∧
      outcome.endedByGrammar = false ∧
      (outcome.exit.number = 0 ↔ fs.HoldsValid (Path.parse argument)) ∧
      (outcome.exit.number = 1 ↔
        ∃ violation, fs.HoldsInvalid (Path.parse argument) violation) ∧
      (outcome.exit.number = 2 ↔ ¬fs.HoldsValid (Path.parse argument) ∧
        ¬∃ violation, fs.HoldsInvalid (Path.parse argument) violation) ∧
      outcome.stdout = if outcome.exit.number = 0 then "OK\n" else "") ∧
    ∀ value,
      (validateValue value Catalog.reviewName = .ok () ↔ Schema.review.Satisfies value) ∧
      (validateValue value Catalog.reviewName = .ok () →
        checkVersion (Path.parse argument) value Catalog.reviewName = .ok ()) := by
  refine ⟨?_, ?_⟩
  · refine ⟨_, run_of_validate environment fs (parse_validate h), ?_⟩
    rcases fs.validateFile_cases (Path.parse argument) with
      ⟨hvalid, hfile⟩ | ⟨violation, hinvalid, hfile⟩ | ⟨error, hnone, hnever, hfile, herror⟩
    · have hnever : ∀ violation, ¬fs.HoldsInvalid (Path.parse argument) violation :=
        fun violation hinvalid => hinvalid.not_holdsValid hvalid
      rw [ValidateCommand.run, hfile]
      simp [ExitCode.number, hvalid, hnever]
    · have hnone := hinvalid.not_holdsValid
      have hsome : ∃ violation, fs.HoldsInvalid (Path.parse argument) violation :=
        ⟨violation, hinvalid⟩
      rw [ValidateCommand.run, hfile]
      simp [ExitCode.number, hnone, hsome]
    · rw [ValidateCommand.run_of_error { document := Path.parse argument } hfile herror]
      simp [failure, ExitCode.number, hnone, hnever]
  · intro value
    refine ⟨validateValue_review_iff, ?_⟩
    intro hvalid
    exact checkVersion_of_not_otherVersion _
      (not_otherVersion_of_satisfies (validateValue_review_iff.mp hvalid))

def fragment : Json := .obj [("schema_version", .str Review.schemaVersion)]

def fragmentText : String := "\x7b\"schema_version\": \"analysis_result_v1\"\x7d"

def fragmentDirectory : FileSystem :=
  ⟨[(["report.json"], .file (Text.encode fragmentText.toList) none)], []⟩

theorem fragmentDirectory_holdsValue :
    fragmentDirectory.HoldsValue (Path.parse "report.json") fragment := by
  have hparse : Path.parse "report.json" = reportPath := by decide
  have hread : Json.read (Text.unifyBreaks fragmentText.toList) = .ok fragment := by cbv
  rw [hparse]
  exact ⟨_, none, fragmentText.toList, FileSystem.content_reportFile _, Text.decode?_encode _,
    hread⟩

theorem fragment_breaks_schema :
    IsPlain "report.json" ∧
      ∃ outcome, run ["validate", "report.json"] [] fragmentDirectory =
          (fragmentDirectory, .ok outcome) ∧
        outcome.exit.number = 1 ∧ outcome.stdout = "" := by
  have hplain : IsPlain "report.json" := by decide
  have hversion : ¬fragment.OtherVersion := by
    rintro ⟨-, hother⟩
    exact hother rfl
  obtain ⟨⟨outcome, hrun, -, -, hviolation, -, hstdout⟩, hvalues⟩ :=
    document_verdict [] fragmentDirectory "report.json" hplain
  have hrejected : validateValue fragment Catalog.reviewName ≠ .ok () := by
    rw [Ne, (hvalues fragment).1]
    rintro ⟨-, -, hrequired, -⟩
    have hmissing := Schema.complaints_required_eq_nil_iff.mp hrequired "issues" (by simp)
    simp at hmissing
  rcases validateValue_review_cases fragment with hvalid | ⟨violation, hinvalid⟩
  · exact (hrejected hvalid).elim
  · have hone := hviolation.mpr
      ⟨violation, fragment, fragmentDirectory_holdsValue, hversion, hinvalid⟩
    refine ⟨hplain, outcome, hrun, hone, ?_⟩
    rw [hstdout, hone]
    rfl

end CommandLine

end JavaLint
