import JavaLint.CommandLine.Command
import JavaLint.Proofs.Digits
import JavaLint.Proofs.Outcome
import Mathlib.Data.List.Basic
import Mathlib.Tactic.IntervalCases

/-! How a command line written out in full is read: the word for an analysis, its path, and options
each with its value in an argument of its own. Such options take effect from left to right, and the
first value that is refused ends the reading. A number given in decimal is not refused. -/
namespace JavaLint.CommandLine

variable {σ : Type}

/-- An argument that no grammar takes for an option. -/
def IsPlain (text : String) : Prop := text.toList.head? ≠ some '-'

instance (text : String) : Decidable (IsPlain text) := inferInstanceAs (Decidable (_ ≠ _))

def IsOptionName (name : String) : Prop := name.toList.head? = some '-' ∧ name ≠ "--"

instance (name : String) : Decidable (IsOptionName name) := inferInstanceAs (Decidable (_ ∧ _))

theorem IsPlain.ne_separator {text : String} (h : IsPlain text) : text ≠ "--" := by
  rintro rfl
  exact h (by decide)

theorem IsPlain.erase_separator {text : String} (h : IsPlain text) :
    [text].erase "--" = [text] := by
  apply List.erase_of_not_mem
  simpa using h.ne_separator.symm

def isShortName (name : String) : Bool := (name.toList.drop 1).head? != some '-'

structure Given where
  name : String
  text : Option String

namespace Given

def words (given : Given) : List String := given.name :: given.text.toList

/-- An option that takes a value has one, which cannot be taken for another option. -/
def fits : Option (Action σ) → Option String → Bool
  | some (.flag _), none => true
  | some (.value _), some text => decide (IsPlain text)
  | _, _ => false

def KnownTo (grammar : Grammar σ) (given : Given) : Prop :=
  IsOptionName given.name ∧ fits (grammar.find? given.name) given.text = true

instance (grammar : Grammar σ) (given : Given) : Decidable (given.KnownTo grammar) :=
  inferInstanceAs (Decidable (_ ∧ _))

def put (grammar : Grammar σ) (values : σ) (given : Given) : Except Stop σ :=
  match grammar.find? given.name, given.text with
  | some (.flag set), none => .ok (set values)
  | some (.value set), some text =>
    match set text values with
    | some values => .ok values
    | none => .error .usageError
  | _, _ => .error .usageError

def putAll (grammar : Grammar σ) (given : List Given) (values : σ) : Except Stop σ :=
  given.foldlM (put grammar) values

def tokens (grammar : Grammar σ) (given : Given) : List (Token σ) :=
  match grammar.find? given.name with
  | some action =>
    ⟨given.name, .option action (isShortName given.name) none⟩ ::
      given.text.toList.map (⟨·, .argument⟩)
  | none => []

theorem KnownTo.cases {grammar : Grammar σ} {given : Given} (h : given.KnownTo grammar) :
    (∃ set, grammar.find? given.name = some (.flag set) ∧ given.text = none) ∨
      ∃ set text, grammar.find? given.name = some (.value set) ∧ given.text = some text ∧
        IsPlain text := by
  obtain ⟨-, h⟩ := h
  unfold fits at h
  split at h
  next set hfind htext => exact Or.inl ⟨set, hfind, htext⟩
  next set text hfind htext => exact Or.inr ⟨set, text, hfind, htext, of_decide_eq_true h⟩
  next => cases h

end Given

namespace Grammar

variable {grammar : Grammar σ}

theorem readOne_plain {text : String} (h : IsPlain text) :
    grammar.readOne text = .ok .argument := by
  unfold IsPlain at h
  unfold readOne
  split
  · rfl
  next rest hlist => simp [hlist] at h
  · rfl

theorem readOne_name {name : String} {action : Action σ} (h : IsOptionName name)
    (hf : grammar.find? name = some action) :
    grammar.readOne name = .ok (.option action (isShortName name) none) := by
  obtain ⟨rest, hlist⟩ : ∃ rest, name.toList = '-' :: rest := List.head?_eq_some_iff.mp h.1
  unfold readOne isShortName
  rw [hlist]
  simp only [hf]
  rfl

theorem readAll_cons {text : String} (h : text ≠ "--") (rest : List String) :
    grammar.readAll (text :: rest) =
      grammar.readOne text >>= fun reading =>
        grammar.readAll rest >>= fun tokens => .ok (⟨text, reading⟩ :: tokens) := by
  rw [readAll]
  · rfl
  · exact h

/-- The tokens of a known option, one for its name and one for its value. -/
theorem tokens_of_flag {one : Given} {set : σ → σ}
    (hfind : grammar.find? one.name = some (.flag set)) (htext : one.text = none) :
    one.tokens grammar = [⟨one.name, .option (.flag set) (isShortName one.name) none⟩] := by
  simp [Given.tokens, hfind, htext]

theorem tokens_of_value {one : Given} {set : String → σ → Option σ} {text : String}
    (hfind : grammar.find? one.name = some (.value set)) (htext : one.text = some text) :
    one.tokens grammar =
      [⟨one.name, .option (.value set) (isShortName one.name) none⟩, ⟨text, .argument⟩] := by
  simp [Given.tokens, hfind, htext]

theorem readAll_given (given : List Given) (h : ∀ one ∈ given, one.KnownTo grammar) :
    grammar.readAll (given.flatMap Given.words) = .ok (given.flatMap (Given.tokens grammar)) := by
  induction given with
  | nil => rfl
  | cons one rest ih =>
    have hrest := ih fun other hmem => h other (List.mem_cons_of_mem _ hmem)
    have hone := h one List.mem_cons_self
    rw [List.flatMap_cons, List.flatMap_cons, Given.words]
    rcases hone.cases with ⟨set, hfind, htext⟩ | ⟨set, text, hfind, htext, hplain⟩
    · rw [tokens_of_flag hfind htext, htext, Option.toList_none, List.cons_append, List.nil_append,
        readAll_cons hone.1.2, readOne_name hone.1 hfind, hrest]
      rfl
    · rw [tokens_of_value hfind htext, htext, Option.toList_some, List.cons_append,
        List.cons_append, List.nil_append, readAll_cons hone.1.2, readOne_name hone.1 hfind,
        readAll_cons hplain.ne_separator, readOne_plain hplain, hrest]
      rfl

/-- An option at the head is taken before anything else. -/
theorem takeAll_option {token : Token σ} (h : token.isOption = true) (rest : List (Token σ))
    (state : State σ) :
    grammar.takeAll (token :: rest) state =
      grammar.takeOption token rest state >>= fun taken =>
        grammar.takeAll (rest.drop taken.2) taken.1 := by
  rw [takeAll, if_neg (by simp [h]), if_pos h]

/-- One option written out in full is taken in one step. -/
theorem takeAll_one {one : Given} (h : one.KnownTo grammar) (rest : List (Token σ))
    (state : State σ) :
    grammar.takeAll (one.tokens grammar ++ rest) state =
      one.put grammar state.values >>= fun values =>
        grammar.takeAll rest { state with values := values } := by
  rcases h.cases with ⟨set, hfind, htext⟩ | ⟨set, text, hfind, htext, -⟩
  · rw [tokens_of_flag hfind htext, List.cons_append, List.nil_append, takeAll_option rfl]
    simp [takeOption, takeAlone, act, Given.put, hfind, htext, bind, Except.bind, pure, Except.pure]
  · rw [tokens_of_value hfind htext, List.cons_append, List.cons_append, List.nil_append,
      takeAll_option rfl]
    cases hset : set text state.values with
    | none => simp [takeOption, takeAlone, act, Given.put, hfind, htext, hset, bind, Except.bind]
    | some values =>
      simp [takeOption, takeAlone, act, Given.put, hfind, htext, hset, bind, Except.bind, pure,
        Except.pure]

theorem takeAll_given (given : List Given) (h : ∀ one ∈ given, one.KnownTo grammar)
    (extra : List String) (values : σ) :
    grammar.takeAll (given.flatMap (Given.tokens grammar)) ⟨[], extra, values⟩ =
      (Given.putAll grammar given values).map (⟨[], extra, ·⟩) := by
  induction given generalizing values with
  | nil =>
    rw [List.flatMap_nil, takeAll]
    rfl
  | cons one rest ih =>
    have hrest := ih fun other hmem => h other (List.mem_cons_of_mem _ hmem)
    rw [List.flatMap_cons, takeAll_one (h one List.mem_cons_self), Given.putAll, List.foldlM_cons]
    cases one.put grammar values with
    | error stop => rfl
    | ok values => exact hrest values

/-- A known option begins with a token that is an option. -/
theorem given_begins {given : List Given} (h : ∀ one ∈ given, one.KnownTo grammar)
    (hne : given ≠ []) :
    ∃ token rest, given.flatMap (Given.tokens grammar) = token :: rest ∧
      token.isOption = true := by
  obtain ⟨one, others, rfl⟩ := List.exists_cons_of_ne_nil hne
  rw [List.flatMap_cons]
  rcases (h one List.mem_cons_self).cases with ⟨set, hfind, htext⟩ | ⟨set, text, hfind, htext, -⟩
  · rw [tokens_of_flag hfind htext]
    exact ⟨_, _, rfl, rfl⟩
  · rw [tokens_of_value hfind htext]
    exact ⟨_, _, rfl, rfl⟩

theorem takePositionals_single (set : String → σ → σ) {argument : String} {rest : List (Token σ)}
    (ha : IsPlain argument) (hrest : rest.takeWhile isSeparator = []) (extra : List String)
    (values : σ) :
    takePositionals (⟨argument, .argument⟩ :: rest) extra values [single set] =
      .ok (⟨[], extra, set argument values⟩, 1) := by
  have hcount : countFor .one (⟨argument, .argument⟩ :: rest) = some 1 := by
    simp [countFor, isSeparator, isArgument, hrest]
  simp [takePositionals, single, hcount, argumentsOf, ha.erase_separator, bind, Except.bind, pure,
    Except.pure]

/-- The argument before the options is taken first. -/
theorem takeAll_argument (set : String → σ → σ) {argument : String} {given : List Given}
    (ha : IsPlain argument) (h : ∀ one ∈ given, one.KnownTo grammar) (extra : List String)
    (values : σ) :
    grammar.takeAll (⟨argument, .argument⟩ :: given.flatMap (Given.tokens grammar))
        ⟨[single set], extra, values⟩ =
      grammar.takeAll (given.flatMap (Given.tokens grammar)) ⟨[], extra, set argument values⟩ := by
  by_cases hne : given = []
  · subst hne
    rw [List.flatMap_nil, takeAll, takeAll, if_pos (by simp [Token.isOption]),
      takePositionals_single set ha rfl]
    simp [bind, Except.bind, pure, Except.pure, takePositionals]
  · obtain ⟨token, rest, htokens, hoption⟩ := given_begins h hne
    rw [htokens]
    have hseparator : (token :: rest).takeWhile isSeparator = [] := by
      cases hr : token.reading with
      | separator => simp [Token.isOption, hr] at hoption
      | argument | unknownOption | option => simp [isSeparator, hr]
    rw [takeAll, if_neg (by simp [hoption]), if_neg (by simp [Token.isOption]),
      takePositionals_single set ha hseparator]
    rfl

/-- A grammar with one argument reads that argument and then the options behind it. -/
theorem parse_given {set : String → σ → σ} {argument : String} {given : List Given}
    (hp : grammar.positionals = [single set]) (ha : IsPlain argument)
    (h : ∀ one ∈ given, one.KnownTo grammar) (initial : σ) :
    grammar.parse (argument :: given.flatMap Given.words) initial =
      (Given.putAll grammar given (set argument initial)).map (·, []) := by
  unfold parse
  rw [readAll_cons ha.ne_separator, readOne_plain ha, readAll_given given h, hp]
  simp only [bind, Except.bind]
  rw [takeAll_argument set ha h, takeAll_given given h]
  cases Given.putAll grammar given (set argument initial) with
  | error stop => rfl
  | ok values => rfl

theorem mem_names_of_find? {name : String} {action : Action σ}
    (h : grammar.find? name = some action) : name ∈ grammar.options.flatMap (·.names) := by
  obtain ⟨spec, hf, -⟩ := Option.map_eq_some_iff.mp h
  have hname : spec.names.contains name = true := by simpa using List.find?_some hf
  exact List.mem_flatMap.mpr ⟨spec, List.mem_of_find?_eq_some hf, by simpa using hname⟩

theorem texts_of_readAll {arguments : List String} {tokens : List (Token σ)}
    (h : grammar.readAll arguments = .ok tokens) : tokens.map (·.text) = arguments := by
  induction arguments generalizing tokens with
  | nil =>
    cases h
    rfl
  | cons text rest ih =>
    by_cases hs : text = "--"
    · subst hs
      cases h
      simp [Function.comp_def]
    · rw [readAll_cons hs] at h
      obtain ⟨reading, -, h⟩ := bind_eq_ok.mp h
      obtain ⟨others, ho, h⟩ := bind_eq_ok.mp h
      cases h
      rw [List.map_cons, ih ho]

theorem exists_readAll {arguments : List String}
    (h : ∀ text ∈ arguments, text ≠ "--" ∧ ∃ reading, grammar.readOne text = .ok reading) :
    ∃ tokens, grammar.readAll arguments = .ok tokens := by
  induction arguments with
  | nil => exact ⟨[], rfl⟩
  | cons text rest ih =>
    obtain ⟨hs, reading, hr⟩ := h text List.mem_cons_self
    obtain ⟨tokens, ht⟩ := ih fun other hmem => h other (List.mem_cons_of_mem _ hmem)
    rw [readAll_cons hs, hr, ht]
    exact ⟨_, rfl⟩

/-- A positional that takes everything takes all tokens at once, options or not. -/
theorem takeAll_remainder (take : List String → σ → Except Stop σ) (first : String)
    (rest : List (Token σ)) (extra : List String) (values : σ) :
    grammar.takeAll (⟨first, .argument⟩ :: rest) ⟨[⟨.remainder, take⟩], extra, values⟩ =
      take (first :: rest.map (·.text)) values >>= fun values => .ok ⟨[], extra, values⟩ := by
  have htake : takePositionals (⟨first, .argument⟩ :: rest) extra values [⟨.remainder, take⟩] =
      take (first :: rest.map (·.text)) values >>= fun values =>
        .ok (⟨[], extra, values⟩, rest.length + 1) := by
    have hcount : countFor .remainder (⟨first, .argument⟩ :: rest) = some (rest.length + 1) := by
      simp [countFor, isSeparator, isArgument]
    simp only [takePositionals, hcount, argumentsOf]
    simp [bind, Except.bind, pure, Except.pure]
  by_cases hany : rest.any Token.isOption = true
  · rw [takeAll, if_neg (by simp only [List.any_cons, hany]; simp),
      if_neg (by simp [Token.isOption]), htake]
    cases take (first :: rest.map (·.text)) values with
    | error stop => rfl
    | ok values => simp [bind, Except.bind, pure, Except.pure, takeAll, takePositionals]
  · rw [takeAll, if_pos (by simpa [Token.isOption] using hany), htake]
    cases take (first :: rest.map (·.text)) values with
    | error stop => rfl
    | ok values => simp [bind, Except.bind, pure, Except.pure]

end Grammar

theorem splitAtFirstPositional_positional {found : String} {rest : List String}
    (h : Text.startsWith found "-" = false) :
    splitAtFirstPositional (found :: rest) = some ([], found, rest) := by
  rw [splitAtFirstPositional.eq_def]
  simp only [h, Bool.false_eq_true, if_false]

/-- The program hands a command line that begins with a command to that command, which has to take
everything. -/
theorem parse_command {word : String} {rest : List String} {tokens : List (Token Selection)}
    (hw : word ∈ commandNames) (h : programGrammar.readAll rest = .ok tokens) :
    parse (word :: rest) =
      select (word :: rest) {} >>= fun selection =>
        if selection.unread.isEmpty then .ok selection.command else .error .usageError := by
  have hnames : ∀ word ∈ commandNames, IsPlain word ∧ Text.startsWith word "-" = false := by decide
  obtain ⟨hplain, hstart⟩ := hnames word hw
  have hprogram : programGrammar.parse (word :: rest) {} =
      select (word :: rest) {} >>= fun selection => .ok (selection, []) := by
    rw [Grammar.parse, Grammar.readAll_cons hplain.ne_separator, Grammar.readOne_plain hplain, h]
    simp only [bind, Except.bind, programGrammar]
    rw [Grammar.takeAll_remainder, Grammar.texts_of_readAll h]
    cases select (word :: rest) {} with
    | error stop => rfl
    | ok selection => rfl
  unfold parse
  rw [splitAtFirstPositional_positional hstart]
  simp only
  rw [if_pos (by simpa using hw), List.cons_append, List.nil_append, parseProgram, hprogram]
  cases select (word :: rest) {} with
  | error stop => rfl
  | ok selection => rfl

/-- Everything behind the word for an analysis goes to its grammar. -/
theorem parse_analyze {rest : List String} {tokens : List (Token Selection)}
    (h : programGrammar.readAll rest = .ok tokens) :
    parse ("analyze" :: rest) = parseAnalysis rest := by
  rw [parse_command (by decide) h, select, parseAnalysis]
  cases analyzeGrammar.parse rest {} with
  | error stop => rfl
  | ok read => rfl

theorem takePositionals_validate {argument : String} (h : IsPlain argument)
    (values : ValidateCommand) :
    Grammar.takePositionals [⟨argument, .argument⟩] [] values validateGrammar.positionals =
      .ok (⟨[], [], { values with document := Path.parse argument }⟩, 1) := by
  simp [validateGrammar, single, Grammar.takePositionals, Grammar.countFor, Grammar.isSeparator,
    Grammar.isArgument, Grammar.argumentsOf, h.erase_separator, bind, Except.bind, pure,
    Except.pure]

/-- A document alone is checked against the schema of a review. -/
theorem parse_validate {argument : String} (h : IsPlain argument) :
    parse ["validate", argument] =
      .ok (some (.validate { document := Path.parse argument })) := by
  have hread {σ : Type} (grammar : Grammar σ) :
      grammar.readAll [argument] = .ok [⟨argument, .argument⟩] := by
    rw [Grammar.readAll_cons h.ne_separator, Grammar.readOne_plain h]
    rfl
  have hparse : validateGrammar.parse [argument] {} =
      .ok ({ document := Path.parse argument }, []) := by
    rw [Grammar.parse, hread]
    simp only [bind, Except.bind]
    rw [Grammar.takeAll, if_pos (by simp [Token.isOption]), takePositionals_validate h]
    rfl
  rw [parse_command (by decide) (hread programGrammar), select, hparse]
  rfl

/-- Every option of an analysis is something that the program can read, if only to hand it on. -/
theorem readOne_of_analyze_option {name : String}
    (h : name ∈ analyzeGrammar.options.flatMap (·.names)) :
    name ≠ "--" ∧ ∃ reading, programGrammar.readOne name = .ok reading := by
  have hall : ∀ name ∈ analyzeGrammar.options.flatMap (·.names),
      name ≠ "--" ∧ (programGrammar.readOne name).isOk = true := by decide
  obtain ⟨hne, hok⟩ := hall name h
  refine ⟨hne, ?_⟩
  cases hr : programGrammar.readOne name with
  | error stop =>
    rw [hr] at hok
    cases hok
  | ok reading => exact ⟨reading, rfl⟩

/-- An analysis written out in full is read as its path with its options put in from left to
right. -/
theorem parse_given_analysis {path : String} {given : List Given} (hp : IsPlain path)
    (h : ∀ one ∈ given, one.KnownTo analyzeGrammar) :
    parse ("analyze" :: path :: given.flatMap Given.words) =
      (Given.putAll analyzeGrammar given { path := Path.parse path }).map (some ∘ .analyze) := by
  have hreadable : ∀ text ∈ path :: given.flatMap Given.words,
      text ≠ "--" ∧ ∃ reading, programGrammar.readOne text = .ok reading := by
    intro text hmem
    rcases List.mem_cons.mp hmem with rfl | hmem
    · exact ⟨hp.ne_separator, _, Grammar.readOne_plain hp⟩
    · obtain ⟨one, hone, hword⟩ := List.mem_flatMap.mp hmem
      rw [Given.words] at hword
      rcases (h one hone).cases with ⟨set, hfind, htext⟩ | ⟨set, value, hfind, htext, hplain⟩
      · rw [htext] at hword
        obtain rfl : text = one.name := by simpa using hword
        exact readOne_of_analyze_option (Grammar.mem_names_of_find? hfind)
      · rw [htext] at hword
        rcases (by simpa using hword : text = one.name ∨ text = value) with rfl | rfl
        · exact readOne_of_analyze_option (Grammar.mem_names_of_find? hfind)
        · exact ⟨hplain.ne_separator, _, Grammar.readOne_plain hplain⟩
  obtain ⟨tokens, htokens⟩ := Grammar.exists_readAll hreadable
  rw [parse_analyze htokens, parseAnalysis, Grammar.parse_given rfl hp h]
  cases Given.putAll analyzeGrammar given { path := Path.parse path } with
  | error stop => rfl
  | ok command => rfl

end JavaLint.CommandLine
