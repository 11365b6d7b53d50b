import JavaLint.CommandLine.Run
import JavaLint.Proofs.CommandReading

/-! Options before the command. A scan for the first positional passes over options, and over the
values of those that take one in the next argument, whatever such a value looks like. So options
written before a command belong to it as if they stood behind it, and a first positional that names
no command leaves the whole line to the analysis. -/
namespace JavaLint.CommandLine

/-- Options each with all that belongs to it: a flag, an option with its value behind an equals
sign, or an option with its value in the next argument. -/
inductive CompleteOptions : List String → Prop where
  | nil : CompleteOptions []
  | flag {name : String} {rest : List String} : name = "-v" ∨ name = "--verbose" →
      CompleteOptions rest → CompleteOptions (name :: rest)
  | assigned (name value : String) {rest : List String} :
      CompleteOptions rest → CompleteOptions (("--" ++ name ++ "=" ++ value) :: rest)
  | valued {name : String} (value : String) {rest : List String} : name ∈ valueOptions →
      CompleteOptions rest → CompleteOptions (name :: value :: rest)

/-- What the scan passes over. An option that is not known to take a value is passed over alone. -/
inductive Skipped : List String → Prop where
  | nil : Skipped []
  | alone {name : String} {rest : List String} : Text.startsWith name "-" = true →
      name ∉ valueOptions → Skipped rest → Skipped (name :: rest)
  | valued {name : String} (value : String) {rest : List String} : name ∈ valueOptions →
      Skipped rest → Skipped (name :: value :: rest)

/-- A command line with its first positional, which is neither an option nor the value of one. -/
structure FirstPositional (arguments before : List String) (found : String)
    (after : List String) : Prop where
  split : arguments = before ++ found :: after
  skipped : Skipped before
  positional : Text.startsWith found "-" = false

variable {arguments options before after rest : List String} {name found command : String}

theorem startsWith_of_mem_valueOptions (h : name ∈ valueOptions) :
    Text.startsWith name "-" = true := by
  have hall : ∀ name ∈ valueOptions, Text.startsWith name "-" = true := by decide
  exact hall name h

theorem not_startsWith_of_mem_commandNames (h : command ∈ commandNames) :
    Text.startsWith command "-" = false := by
  have hall : ∀ command ∈ commandNames, Text.startsWith command "-" = false := by decide
  exact hall command h

theorem splitAtFirstPositional_alone (hstart : Text.startsWith name "-" = true)
    (hname : name ∉ valueOptions) :
    splitAtFirstPositional (name :: rest) =
      (splitAtFirstPositional rest).map fun (before, found, after) =>
        (name :: before, found, after) := by
  rw [splitAtFirstPositional.eq_def]
  simp only [if_pos hstart, List.contains_eq_mem, hname, decide_false]

theorem splitAtFirstPositional_valued (value : String) (hname : name ∈ valueOptions) :
    splitAtFirstPositional (name :: value :: rest) =
      (splitAtFirstPositional rest).map fun (before, found, after) =>
        (name :: value :: before, found, after) := by
  rw [splitAtFirstPositional.eq_def]
  simp only [if_pos (startsWith_of_mem_valueOptions hname), List.contains_eq_mem, hname,
    decide_true]

theorem FirstPositional.splitAtFirstPositional_eq
    (h : FirstPositional arguments before found after) :
    splitAtFirstPositional arguments = some (before, found, after) := by
  obtain ⟨rfl, hskipped, hpositional⟩ := h
  induction hskipped with
  | nil => exact splitAtFirstPositional_positional hpositional
  | alone hstart hname _ ih =>
    rw [List.cons_append, splitAtFirstPositional_alone hstart hname, ih]
    rfl
  | valued value hname _ ih =>
    rw [List.cons_append, List.cons_append, splitAtFirstPositional_valued value hname, ih]
    rfl

/-- The scan finds the first positional and nothing else. -/
theorem splitAtFirstPositional_eq_some_iff :
    splitAtFirstPositional arguments = some (before, found, after) ↔
      FirstPositional arguments before found after := by
  refine ⟨?_, FirstPositional.splitAtFirstPositional_eq⟩
  intro h
  fun_induction splitAtFirstPositional arguments generalizing before found after with
  | case1 => cases h
  | case2 => cases h
  | case3 name hstart value rest hname ih =>
    obtain ⟨⟨before, found, after⟩, hrest, hsplit⟩ := Option.map_eq_some_iff.mp h
    cases hsplit
    obtain ⟨rfl, hskipped, hpositional⟩ := ih hrest
    exact ⟨rfl, .valued value (by simpa using hname) hskipped, hpositional⟩
  | case4 name hstart rest hname ih =>
    obtain ⟨⟨before, found, after⟩, hrest, hsplit⟩ := Option.map_eq_some_iff.mp h
    cases hsplit
    obtain ⟨rfl, hskipped, hpositional⟩ := ih hrest
    exact ⟨rfl, .alone hstart (by simpa using hname) hskipped, hpositional⟩
  | case5 found rest hstart =>
    cases h
    exact ⟨rfl, .nil, by simpa using hstart⟩

/-- The first positional decides who reads the line. -/
theorem FirstPositional.parse_eq (h : FirstPositional arguments before found after) :
    parse arguments =
      if found ∈ commandNames then parseProgram (found :: before ++ after)
      else parseAnalysis arguments := by
  rw [parse, h.splitAtFirstPositional_eq]
  simp only [List.contains_eq_mem, decide_eq_true_eq]

theorem parse_eq_of_no_positional
    (h : ∀ before found after, ¬FirstPositional arguments before found after) :
    parse arguments = parseProgram arguments := by
  have hnone : splitAtFirstPositional arguments = none := by
    rw [Option.eq_none_iff_forall_ne_some]
    rintro ⟨before, found, after⟩ hsome
    exact h before found after (splitAtFirstPositional_eq_some_iff.mp hsome)
  rw [parse, hnone]

theorem not_mem_valueOptions_of_equals (h : '=' ∈ name.toList) : name ∉ valueOptions := by
  have hall : ∀ name ∈ valueOptions, '=' ∉ name.toList := by decide
  exact fun hname => hall name hname h

theorem CompleteOptions.skipped (h : CompleteOptions options) : Skipped options := by
  induction h with
  | nil => exact .nil
  | flag hname _ ih =>
    rcases hname with rfl | rfl
    · exact .alone (by decide) (by decide) ih
    · exact .alone (by decide) (by decide) ih
  | assigned name value _ ih =>
    refine .alone ?_ (not_mem_valueOptions_of_equals ?_) ih
    · simp [Text.startsWith]
    · simp
  | valued value hname _ ih => exact .valued value hname ih

theorem parse_options_command (h : Skipped options) (hcommand : command ∈ commandNames) :
    parse (options ++ [command] ++ rest) = parseProgram (command :: options ++ rest) := by
  have hfirst : FirstPositional (options ++ [command] ++ rest) options command rest :=
    ⟨by simp, h, not_startsWith_of_mem_commandNames hcommand⟩
  rw [hfirst.parse_eq, if_pos hcommand]

def Action.takesValue {σ : Type} : Action σ → Bool
  | .value _ => true
  | _ => false

/-- The scan knows exactly the options that take a value in the grammar of an analysis. -/
theorem mem_valueOptions_iff :
    name ∈ valueOptions ↔ ∃ set, analyzeGrammar.find? name = some (.value set) := by
  constructor
  · have hall : ∀ name ∈ valueOptions,
        (analyzeGrammar.find? name).any Action.takesValue = true := by decide
    intro hname
    obtain ⟨action, hfind, htakes⟩ := (Option.any_eq_true _ _).mp (hall name hname)
    cases action with
    | value set => exact ⟨set, hfind⟩
    | stop reason => cases htakes
    | flag set => cases htakes
  · have hall : ∀ name ∈ analyzeGrammar.options.flatMap (·.names),
        (analyzeGrammar.find? name).any Action.takesValue = true → name ∈ valueOptions := by decide
    rintro ⟨set, hfind⟩
    exact hall name (Grammar.mem_names_of_find? hfind) (by rw [hfind]; rfl)

/-- Options before a command run as behind it. In general the first positional decides: a command
takes the rest of the line, anything else leaves the whole line to the analysis, and without a
positional the program reads the line itself. -/
theorem options_before_command_belong_to_it :
    (∀ (options : List String) (command : String) (rest : List String) (environment : Environment)
        (fs : FileSystem), CompleteOptions options → command ∈ commandNames →
      run (options ++ [command] ++ rest) environment fs =
        run ([command] ++ options ++ rest) environment fs) ∧
    (∀ (arguments before : List String) (found : String) (after : List String),
        FirstPositional arguments before found after →
      parse arguments =
        if found ∈ commandNames then parseProgram (found :: before ++ after)
        else parseAnalysis arguments) ∧
    (∀ arguments : List String,
        (∀ before found after, ¬FirstPositional arguments before found after) →
      parse arguments = parseProgram arguments) ∧
    ∀ name : String,
      name ∈ valueOptions ↔ ∃ set, analyzeGrammar.find? name = some (.value set) := by
  refine ⟨?_, fun _ _ _ _ h => h.parse_eq, fun _ h => parse_eq_of_no_positional h,
    fun _ => mem_valueOptions_iff⟩
  intro options command rest environment fs hoptions hcommand
  have hbefore : parse (options ++ [command] ++ rest) = parseProgram (command :: options ++ rest) :=
    parse_options_command hoptions.skipped hcommand
  have hbehind : parse ([command] ++ options ++ rest) = parseProgram (command :: options ++ rest) :=
    parse_options_command .nil hcommand
  rw [run, run, hbefore, hbehind]

/-- The words of commands as values: before a command, and before a path where no command is. -/
theorem command_words_as_values :
    (CompleteOptions ["--output", "validate", "-v", "--fail-on=never"] ∧
      run ["--output", "validate", "-v", "--fail-on=never", "analyze", "src"] [] .empty =
        run ["analyze", "--output", "validate", "-v", "--fail-on=never", "src"] [] .empty ∧
      parse ["--output", "validate", "-v", "--fail-on=never", "analyze", "src"] =
        .ok (some (.analyze
          { path := ⟨.relative, ["src"]⟩, output := some ⟨.relative, ["validate"]⟩, failOn := none,
            verbose := true }))) ∧
    (FirstPositional ["-o", "analyze", "src"] ["-o", "analyze"] "src" [] ∧
      parse ["-o", "analyze", "src"] = parseAnalysis ["-o", "analyze", "src"]) ∧
    (∀ before found after, ¬FirstPositional ["--output", "src"] before found after) ∧
      parse ["--output", "src"] = parseProgram ["--output", "src"] := by
  obtain ⟨hcommand, hfirst, hnone, -⟩ := options_before_command_belong_to_it
  have hoptions : CompleteOptions ["--output", "validate", "-v", "--fail-on=never"] :=
    .valued "validate" (by decide) (.flag (Or.inl rfl) (.assigned "fail-on" "never" .nil))
  have hpath : FirstPositional ["-o", "analyze", "src"] ["-o", "analyze"] "src" [] :=
    ⟨rfl, .valued "analyze" (by decide) .nil, by decide⟩
  have habsent : ∀ before found after, ¬FirstPositional ["--output", "src"] before found after := by
    intro before found after h
    have hscan := splitAtFirstPositional_eq_some_iff.mpr h
    cases (show splitAtFirstPositional ["--output", "src"] = none by decide).symm.trans hscan
  refine ⟨⟨hoptions, hcommand _ "analyze" ["src"] [] .empty hoptions (by decide), ?_⟩,
    ⟨hpath, (hfirst _ _ _ _ hpath).trans (if_neg (by decide))⟩, habsent, hnone _ habsent⟩
  decide +kernel

end JavaLint.CommandLine
