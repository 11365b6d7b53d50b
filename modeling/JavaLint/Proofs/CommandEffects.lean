import JavaLint.CommandLine.Run
import JavaLint.Proofs.CommandReading
import JavaLint.Proofs.FileWriting
import JavaLint.Proofs.PathAnalysis

/-! What a command line changes, prints and returns. A run that ends in an error changes and prints
nothing. Any other run of an analysis delivers one report, to the output or to a file, which only
the analysed path, the format and the allowed length of methods decide. -/
namespace JavaLint

theorem Review.exitCode_eq_violation_iff (review : Review) (failOn : Option Severity) :
    review.exitCode failOn = .violation ↔
      ∃ threshold ∈ failOn, ∃ issue ∈ review.issues, threshold.rank ≤ issue.severity.rank := by
  cases failOn with
  | none => simp [exitCode]
  | some threshold =>
    have hany : (review.issues.any fun issue => threshold.rank ≤ issue.severity.rank) = true ↔
        ∃ issue ∈ review.issues, threshold.rank ≤ issue.severity.rank := by simp
    simp only [exitCode, Option.mem_def, Option.some.injEq, exists_eq_left']
    rw [← hany]
    split
    · simp [*]
    · simp [*]

theorem Review.exitCode_ne_error (review : Review) (failOn : Option Severity) :
    review.exitCode failOn ≠ .error := by
  cases failOn with
  | none => simp [exitCode]
  | some threshold =>
    simp only [exitCode]
    split
    · simp
    · simp

/-- Configurations of one environment whose choices differ in the workers differ in nothing else. -/
theorem Config.ofEnvironment_withWorkers {environment : Environment} {lines a b : Option Int}
    {config other : Config}
    (ha : ofEnvironment environment { maxWorkers := a, maxMethodLines := lines } = .ok config)
    (hb : ofEnvironment environment { maxWorkers := b, maxMethodLines := lines } = .ok other) :
    other = config.withWorkers other.maxWorkers := by
  unfold ofEnvironment at ha hb
  obtain ⟨workersA, -, ha⟩ := bind_eq_ok.mp ha
  obtain ⟨linesA, hlinesA, ha⟩ := bind_eq_ok.mp ha
  obtain ⟨workersB, -, hb⟩ := bind_eq_ok.mp hb
  obtain ⟨linesB, hlinesB, hb⟩ := bind_eq_ok.mp hb
  cases ha
  cases hb
  have hlines : linesA = linesB := Except.ok.inj (hlinesA.symm.trans hlinesB)
  subst hlines
  rfl

namespace FileSystem

def Writable (fs : FileSystem) (path : Path) : Prop :=
  ∀ bytes, (fs.writeFileWithParents path bytes none).result = .ok ()

end FileSystem

namespace CommandLine

variable {environment : Environment} {fs changed : FileSystem} {outcome : Outcome}

namespace AnalyzeCommand

def Reviews (command : AnalyzeCommand) (environment : Environment) (fs : FileSystem)
    (review : Review) : Prop :=
  ∃ config log, command.config environment = .ok config ∧
    Analysis.ofPath environment fs (some config) command.path = .ok ⟨log, review⟩

/-- A report is printed, or else written to the output file and nothing printed. -/
def Delivers (command : AnalyzeCommand) (fs changed : FileSystem) (stdout report : String) : Prop :=
  match command.output with
  | none => changed = fs ∧ stdout = report
  | some path => stdout = "" ∧ fs.Written changed path (Text.encode report.toList)

def HasWorkers (command : AnalyzeCommand) : Prop := ∀ n ∈ command.workers, 1 ≤ n

def SameSubject (command other : AnalyzeCommand) : Prop :=
  other.path = command.path ∧ other.maxMethodLines = command.maxMethodLines

theorem hasWorkers_iff (command : AnalyzeCommand) :
    command.HasWorkers ↔ ¬ command.workers.any (· < 1) = true := by
  unfold HasWorkers
  cases command.workers with
  | none => simp
  | some n => simp

theorem deliver_cases {command : AnalyzeCommand} {review : Logged Review}
    (h : command.deliver fs review = (changed, .ok outcome)) :
    outcome.exit = review.value.exitCode command.failOn ∧
      command.Delivers fs changed outcome.stdout
        (review.value.report command.format exportLimit) := by
  unfold deliver at h
  unfold Delivers
  cases ho : command.output with
  | none =>
    simp only [ho] at h
    cases h
    exact ⟨rfl, rfl, rfl⟩
  | some path =>
    simp only [ho] at h
    split at h
    next => cases h
    next hw =>
      cases h
      exact ⟨rfl, rfl, FileSystem.written_of_writeFileWithParents hw⟩

/-- All that a run that returns can have done. -/
theorem run_cases {command : AnalyzeCommand}
    (h : command.run environment fs = (changed, .ok outcome)) :
    (outcome.exit = .error ∧ changed = fs ∧ outcome.stdout = "" ∧
      (¬ command.HasWorkers ∨ fs.pathExists command.path = false)) ∨
    (command.HasWorkers ∧ fs.pathExists command.path = true ∧
      ∃ review, command.Reviews environment fs review ∧
        outcome.exit = review.exitCode command.failOn ∧
        command.Delivers fs changed outcome.stdout (review.report command.format exportLimit)) := by
  unfold run at h
  by_cases hw : command.workers.any (· < 1) = true
  · rw [if_pos hw] at h
    cases h
    exact Or.inl ⟨rfl, rfl, rfl, Or.inl fun hworkers => command.hasWorkers_iff.mp hworkers hw⟩
  rw [if_neg hw] at h
  cases hc : command.config environment with
  | error cause =>
    rw [hc] at h
    cases h
  | ok config =>
    rw [hc] at h
    by_cases hp : fs.pathExists command.path = true
    · obtain ⟨review, hr⟩ := Analysis.ofPath_of_pathExists environment config hp
      simp only [hr] at h
      exact Or.inr ⟨command.hasWorkers_iff.mpr hw, hp, review.value, ⟨config, review.log, hc, hr⟩,
        deliver_cases h⟩
    · rw [Bool.not_eq_true] at hp
      simp only [Analysis.ofPath_of_missing environment config hp] at h
      cases h
      exact Or.inl ⟨rfl, rfl, rfl, Or.inr hp⟩

/-- A run returns once its numbers can be read and its output can be written. -/
theorem run_returns (fs : FileSystem) {command : AnalyzeCommand} {config : Config}
    (hc : command.config environment = .ok config)
    (hw : ∀ path ∈ command.output, fs.Writable path) :
    ∃ changed outcome, command.run environment fs = (changed, .ok outcome) := by
  unfold run
  by_cases hworkers : command.workers.any (· < 1) = true
  · rw [if_pos hworkers]
    exact ⟨_, _, rfl⟩
  rw [if_neg hworkers, hc]
  by_cases hp : fs.pathExists command.path = true
  · obtain ⟨review, hr⟩ := Analysis.ofPath_of_pathExists environment config hp
    simp only [hr]
    unfold deliver
    cases ho : command.output with
    | none => exact ⟨_, _, rfl⟩
    | some path =>
      dsimp only
      rw [hw path ho]
      exact ⟨_, _, rfl⟩
  · rw [Bool.not_eq_true] at hp
    simp only [Analysis.ofPath_of_missing environment config hp]
    exact ⟨_, _, rfl⟩

theorem Reviews.unique {command other : AnalyzeCommand} {review another : Review}
    (hs : command.SameSubject other) (h : command.Reviews environment fs review)
    (h' : other.Reviews environment fs another) : another = review := by
  obtain ⟨config, log, hc, hr⟩ := h
  obtain ⟨config', log', hc', hr'⟩ := h'
  obtain ⟨hpath, hlines⟩ := hs
  unfold AnalyzeCommand.config at hc hc'
  rw [hlines] at hc'
  rw [hpath, Config.ofEnvironment_withWorkers hc hc', Analysis.ofPath_withWorkers, hr] at hr'
  cases hr'
  rfl

theorem exit_eq_error_iff {command : AnalyzeCommand}
    (h : command.run environment fs = (changed, .ok outcome)) :
    outcome.exit = .error ↔ ¬ command.HasWorkers ∨ fs.pathExists command.path = false := by
  rcases run_cases h with ⟨he, -, -, hcause⟩ | ⟨hworkers, hp, review, -, hexit, -⟩
  · exact ⟨fun _ => hcause, fun _ => he⟩
  · constructor
    · intro he
      exact (review.exitCode_ne_error command.failOn (hexit.symm.trans he)).elim
    · rintro (hnone | hmissing)
      · exact (hnone hworkers).elim
      · rw [hp] at hmissing
        cases hmissing

theorem delivers_of_exit {command : AnalyzeCommand}
    (h : command.run environment fs = (changed, .ok outcome)) (he : outcome.exit ≠ .error) :
    ∃ review, command.Reviews environment fs review ∧
      outcome.exit = review.exitCode command.failOn ∧
      command.Delivers fs changed outcome.stdout (review.report command.format exportLimit) := by
  rcases run_cases h with ⟨herror, -⟩ | ⟨-, -, hreview⟩
  · exact (he herror).elim
  · exact hreview

end AnalyzeCommand

theorem run_of_analyze {arguments : List String} {command : AnalyzeCommand}
    (h : parse arguments = .ok (some (.analyze command))) :
    run arguments environment fs = command.run environment fs := by
  unfold run
  rw [h]

/-- A command line of whatever form that ends in an error has changed and printed nothing. -/
theorem nothing_done_on_error {arguments : List String}
    (h : run arguments environment fs = (changed, .ok outcome)) (he : outcome.exit = .error) :
    changed = fs ∧ outcome.stdout = "" := by
  unfold run at h
  split at h
  next stop _ =>
    cases h
    cases stop with
    | usageError => exact ⟨rfl, rfl⟩
    | help | version => cases he
  next =>
    cases h
    exact ⟨rfl, rfl⟩
  next command _ =>
    cases h
    refine ⟨rfl, ?_⟩
    unfold ValidateCommand.run at he ⊢
    split at he
    · cases he
    · cases he
    · rfl
  next command _ =>
    rcases AnalyzeCommand.run_cases h with ⟨-, hsame, hout, -⟩ | ⟨-, -, review, -, hexit, -⟩
    · exact ⟨hsame, hout⟩
    · exact (review.exitCode_ne_error command.failOn (hexit.symm.trans he)).elim

/-- A run that ends in an error changes and prints nothing. An analysis returns whenever its numbers
can be read and its output can be written. It then ends in an error just when the number of workers
is refused or the path is missing, and else prints its report or writes it to the output file. Two
analyses of one subject fail together, end alike for one threshold and have one report in one
format. -/
theorem command_effects (environment : Environment) (fs : FileSystem) (arguments : List String) :
    (∀ changed outcome, run arguments environment fs = (changed, .ok outcome) →
      outcome.exit = .error → changed = fs ∧ outcome.stdout = "") ∧
    ∀ command, parse arguments = .ok (some (.analyze command)) →
      ((∃ config, command.config environment = .ok config) →
        (∀ path ∈ command.output, fs.Writable path) →
          ∃ changed outcome, run arguments environment fs = (changed, .ok outcome)) ∧
      ∀ changed outcome, run arguments environment fs = (changed, .ok outcome) →
        (outcome.exit = .error ↔
          ¬ command.HasWorkers ∨ fs.pathExists command.path = false) ∧
        (outcome.exit ≠ .error → ∃ review, command.Reviews environment fs review ∧
          command.Delivers fs changed outcome.stdout (review.report command.format exportLimit) ∧
          (outcome.exit = .violation ↔ ∃ threshold ∈ command.failOn,
            ∃ issue ∈ review.issues, threshold.rank ≤ issue.severity.rank)) ∧
        ∀ others other changed' outcome', parse others = .ok (some (.analyze other)) →
          run others environment fs = (changed', .ok outcome') →
          command.SameSubject other → command.HasWorkers → other.HasWorkers →
            (outcome'.exit = .error ↔ outcome.exit = .error) ∧
            (other.failOn = command.failOn → outcome'.exit = outcome.exit) ∧
            (other.format = command.format → outcome.exit ≠ .error →
              ∃ report, command.Delivers fs changed outcome.stdout report ∧
                other.Delivers fs changed' outcome'.stdout report) := by
  refine ⟨fun changed outcome => nothing_done_on_error, ?_⟩
  intro command hparse
  rw [run_of_analyze hparse]
  refine ⟨fun ⟨config, hc⟩ => AnalyzeCommand.run_returns fs hc, ?_⟩
  intro changed outcome hrun
  refine ⟨AnalyzeCommand.exit_eq_error_iff hrun, ?_, ?_⟩
  · intro he
    obtain ⟨review, hreview, hexit, hdelivers⟩ := AnalyzeCommand.delivers_of_exit hrun he
    exact ⟨review, hreview, hdelivers, hexit ▸ review.exitCode_eq_violation_iff command.failOn⟩
  · intro others other changed' outcome' hparse' hrun' hsame hworkers hworkers'
    rw [run_of_analyze hparse'] at hrun'
    have herror : outcome'.exit = .error ↔ outcome.exit = .error := by
      rw [AnalyzeCommand.exit_eq_error_iff hrun, AnalyzeCommand.exit_eq_error_iff hrun', hsame.1]
      simp [hworkers, hworkers']
    -- Where neither run fails, both follow from one review.
    have hboth (he : outcome.exit ≠ .error) : ∃ review : Review,
        (outcome.exit = review.exitCode command.failOn ∧
          outcome'.exit = review.exitCode other.failOn) ∧
        command.Delivers fs changed outcome.stdout (review.report command.format exportLimit) ∧
        other.Delivers fs changed' outcome'.stdout (review.report other.format exportLimit) := by
      obtain ⟨review, hreview, hexit, hdelivers⟩ := AnalyzeCommand.delivers_of_exit hrun he
      obtain ⟨another, hanother, hexit', hdelivers'⟩ :=
        AnalyzeCommand.delivers_of_exit hrun' (he ∘ herror.mp)
      rw [hreview.unique hsame hanother] at hexit' hdelivers'
      exact ⟨review, ⟨hexit, hexit'⟩, hdelivers, hdelivers'⟩
    refine ⟨herror, ?_, ?_⟩
    · intro hfail
      by_cases he : outcome.exit = .error
      · rw [he, herror.mpr he]
      · obtain ⟨review, ⟨hexit, hexit'⟩, -⟩ := hboth he
        rw [hexit, hexit', hfail]
    · intro hformat he
      obtain ⟨review, -, hdelivers, hdelivers'⟩ := hboth he
      exact ⟨_, hdelivers, hformat ▸ hdelivers'⟩

/-- A source file that cannot be parsed, alone in a file system. -/
def oneFile : FileSystem := ⟨[(["A.java"], .file [] none)], []⟩

def oneFileAndOut : FileSystem := ⟨oneFile.entries ++ [(["out"], .directory)], []⟩

theorem writable_below_oneFile : oneFile.Writable ⟨.relative, ["out", "B.java"]⟩ := by
  intro bytes
  have hmade : oneFile.makeDirectories ⟨.relative, ["out"]⟩ = ⟨oneFileAndOut, .ok ()⟩ := by cbv
  have htarget : (oneFileAndOut.startOf .relative >>=
      (oneFileAndOut.targetFrom FileSystem.linkLimit · ["out", "B.java"])) =
      .ok ["out", "B.java"] := by cbv
  unfold FileSystem.writeFileWithParents
  rw [show Path.parent ⟨.relative, ["out", "B.java"]⟩ = ⟨.relative, ["out"]⟩ from rfl, hmade]
  simp only [Edited.andThen]
  unfold FileSystem.writeFile
  rw [if_neg (by decide), htarget]
  simp only
  rw [if_neg (by decide)]
  rfl

/-- The report on a directory can be written into that directory. -/
theorem written_report_is_the_printed_one :
    ∃ changed printed written, run ["analyze", "."] [] oneFile = (oneFile, .ok printed) ∧
      run ["analyze", ".", "--output", "out/B.java", "--workers", "4", "-v"] [] oneFile =
        (changed, .ok written) ∧
      written.exit = printed.exit ∧ written.stdout = "" ∧
      oneFile.Written changed ⟨.relative, ["out", "B.java"]⟩
        (Text.encode printed.stdout.toList) := by
  have hprint : parse ["analyze", "."] = .ok (some (.analyze { path := .here })) := by
    have hg : ∀ one ∈ ([] : List Given), one.KnownTo analyzeGrammar := by decide
    exact (parse_given_analysis (by decide) hg).trans rfl
  have hwrite : parse ["analyze", ".", "--output", "out/B.java", "--workers", "4", "-v"] =
      .ok (some (.analyze
        { path := .here, output := some ⟨.relative, ["out", "B.java"]⟩, workers := some 4,
          verbose := true })) := by
    have hg : ∀ one ∈ ([⟨"--output", some "out/B.java"⟩, ⟨"--workers", some "4"⟩, ⟨"-v", none⟩] :
        List Given), one.KnownTo analyzeGrammar := by decide
    exact (parse_given_analysis (by decide) hg).trans rfl
  obtain ⟨-, heffects⟩ := command_effects [] oneFile ["analyze", "."]
  obtain ⟨hreturns, hrun⟩ := heffects _ hprint
  obtain ⟨-, heffects'⟩ := command_effects [] oneFile
    ["analyze", ".", "--output", "out/B.java", "--workers", "4", "-v"]
  obtain ⟨hreturns', -⟩ := heffects' _ hwrite
  obtain ⟨same, printed, hprinted⟩ := hreturns ⟨{}, rfl⟩ (by simp)
  obtain ⟨changed, written, hwritten⟩ := hreturns' ⟨{ maxWorkers := 4 }, rfl⟩
    (by simpa using writable_below_oneFile)
  obtain ⟨herror, -, hagree⟩ := hrun same printed hprinted
  have hhere : oneFile.pathExists .here = true := by cbv
  have hok : printed.exit ≠ .error := by
    rw [Ne, herror, not_or]
    exact ⟨by simp [AnalyzeCommand.HasWorkers], by simp [hhere]⟩
  obtain ⟨-, hexit, hreport⟩ := hagree _ _ _ _ hwrite hwritten ⟨rfl, rfl⟩
    (by simp [AnalyzeCommand.HasWorkers]) (by simp [AnalyzeCommand.HasWorkers])
  obtain ⟨report, ⟨rfl, rfl⟩, hout, hfile⟩ := hreport rfl hok
  exact ⟨changed, printed, written, hprinted, hwritten, hexit rfl, hout, hfile⟩

end CommandLine

end JavaLint
