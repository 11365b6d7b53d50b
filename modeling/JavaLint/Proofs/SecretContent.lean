import JavaLint.Proofs.Displacement
import JavaLint.Proofs.Findings

/-! What a report says of a secret does not depend on the secret. The check for secrets reads names,
line feeds, and one verdict for each literal; sources over one tree that agree on these have the
same findings. Whether the whole analyzer returns depends on the operators besides, since it gives
up on a `+` that lacks an operand. -/
namespace JavaLint

inductive Node.Within (root : Node) : Node → Prop where
  | root : Within root root
  | child {parent node : Node} : Within root parent → node ∈ parent.children → Within root node

theorem Node.Within.child? {root parent node : Node} {field : String} (h : root.Within parent)
    (hc : parent.child? field = some node) : root.Within node :=
  h.child (List.mem_of_find?_eq_some hc)

namespace Site

def Within (root : Node) (site : Site) : Prop :=
  root.Within site.node ∧ ∀ parent ∈ site.parent, root.Within parent

theorem within_ofChildren {root parent : Node} (hp : root.Within parent) (address : List Nat)
    {nodes : List Node} (hn : ∀ node ∈ nodes, root.Within node) (position : Nat)
    (previous : Option Node) :
    ∀ site ∈ ofChildren parent address position previous nodes, Within root site := by
  induction nodes generalizing position previous with
  | nil =>
    intro site hmem
    cases hmem
  | cons node rest ih =>
    rw [List.forall_mem_cons] at hn
    intro site hmem
    rcases List.mem_cons.mp hmem with rfl | hmem
    · refine ⟨hn.1, ?_⟩
      intro other ho
      cases ho
      exact hp
    · exact ih hn.2 (position + 1) (some node) site hmem

theorem within_children {root : Node} {site : Site} (h : Within root site) :
    ∀ child ∈ site.children, Within root child :=
  within_ofChildren h.1 site.address (fun _ hmem => h.1.child hmem) 0 none

/-- Every site that a walk visits lies within the tree, if those on its stack do. -/
theorem within_preorderFrom {root : Node} {stack : List Site}
    (h : ∀ site ∈ stack, Within root site) :
    ∀ site ∈ preorderFrom stack, Within root site := by
  fun_induction preorderFrom stack with
  | case1 =>
    intro site hmem
    cases hmem
  | case2 top rest ih =>
    rw [List.forall_mem_cons] at h ⊢
    refine ⟨h.1, ih ?_⟩
    intro site hmem
    rcases List.mem_append.mp hmem with hmem | hmem
    · exact within_children h.1 site hmem
    · exact h.2 site hmem

end Site

theorem Node.within_sites {root : Node} {site : Site} (h : site ∈ root.sites .preorder) :
    site.Within root := by
  refine Site.within_preorderFrom ?_ site h
  intro top ht
  rw [List.mem_singleton.mp ht]
  refine ⟨.root, ?_⟩
  intro parent hp
  cases hp

theorem Node.within_findAll {root : Node} {kinds : List String} {site : Site}
    (h : site ∈ root.findAll kinds .preorder) : site.Within root ∧ site.node.kind ∈ kinds := by
  obtain ⟨hmem, hkind⟩ := List.mem_filter.mp h
  exact ⟨within_sites hmem, by simpa using hkind⟩

def Node.Agree (node : Node) (bytes other : Text.Bytes) : Prop :=
  ∀ i : Nat, node.start ≤ i → i < node.stop → bytes[i]? = other[i]?

section Agreement
variable {root : Node} {bytes other : Text.Bytes}

theorem Source.text_of_agree {node : Node} (h : node.Agree bytes other) :
    Source.text ⟨bytes, root⟩ node = Source.text ⟨other, root⟩ node := by
  have hspan : Source.span ⟨bytes, root⟩ node = Source.span ⟨other, root⟩ node := by
    unfold Source.span
    apply List.ext_getElem?
    intro i
    rw [List.getElem?_drop, List.getElem?_drop, List.getElem?_take, List.getElem?_take]
    split
    · exact h _ (Nat.le_add_right ..) ‹_›
    · rfl
  unfold Source.text
  rw [hspan]

theorem Source.fieldText_of_agree {node : Node} {field : String}
    (h : ∀ child, node.child? field = some child → child.Agree bytes other) :
    Source.fieldText ⟨bytes, root⟩ node field = Source.fieldText ⟨other, root⟩ node field := by
  unfold Source.fieldText
  cases hc : node.child? field with
  | none => rfl
  | some child => exact Source.text_of_agree (h child hc)

/-- The line of a node is a matter of line feeds. -/
theorem Source.line_of_lineFeeds (hlength : bytes.length = other.length)
    (h : ∀ i : Nat, bytes[i]? = some lineFeed ↔ other[i]? = some lineFeed) (node : Node) :
    Source.line ⟨bytes, root⟩ node = Source.line ⟨other, root⟩ node := by
  have hmarks : bytes.map (· == lineFeed) = other.map (· == lineFeed) := by
    apply List.ext_getElem (by simpa using hlength)
    intro i hi ho
    rw [List.length_map] at hi ho
    have hat := h i
    rw [List.getElem?_eq_getElem hi, List.getElem?_eq_getElem ho, Option.some_inj,
      Option.some_inj] at hat
    rw [List.getElem_map, List.getElem_map, Bool.eq_iff_iff, beq_iff_eq, beq_iff_eq]
    exact hat
  have hcount : ∀ source : Text.Bytes, (source.take node.start).count lineFeed =
      ((source.map (· == lineFeed)).take node.start).countP id := by
    intro source
    rw [← List.map_take, List.countP_map, List.count]
    rfl
  simp only [Source.line, rowAt, hcount, hmarks]

end Agreement

namespace Check

structure SecretLiteral (source : Source) (declarator literal : Node) : Prop where
  within : source.root.Within declarator
  kind : declarator.kind = "variable_declarator"
  name : Wording.isSecretName (source.name declarator) = true
  value : declarator.child? "value" = some literal
  isText : literal.kind = "string_literal"

/-- Two sources over one tree that differ in the content of secrets only, and in a way that makes no
difference to what is taken for a secret. -/
structure SecretVariants (root : Node) (bytes other : Text.Bytes) : Prop where
  length_eq : bytes.length = other.length
  lineFeeds : ∀ i : Nat, bytes[i]? = some lineFeed ↔ other[i]? = some lineFeed
  inSecrets : ∀ i : Nat, bytes[i]? ≠ other[i]? → ∃ declarator literal,
    SecretLiteral ⟨bytes, root⟩ declarator literal ∧ literal.start ≤ i ∧ i < literal.stop
  names : ∀ declarator name, root.Within declarator → declarator.kind = "variable_declarator" →
    declarator.child? "name" = some name → name.Agree bytes other
  verdicts : ∀ declarator literal, SecretLiteral ⟨bytes, root⟩ declarator literal →
    (Security.stringValue? ⟨bytes, root⟩ literal).map Wording.looksLikeRealSecret =
      (Security.stringValue? ⟨other, root⟩ literal).map Wording.looksLikeRealSecret

def OperatorsKept (root : Node) (bytes other : Text.Bytes) : Prop :=
  ∀ node operator, root.Within node → node.kind = "binary_expression" →
    node.child? "operator" = some operator → operator.Agree bytes other

namespace Security
variable {root : Node} {bytes other : Text.Bytes}

theorem holdsSecret_variants (h : SecretVariants root bytes other) {node : Node}
    (hw : root.Within node) (hk : node.kind = "variable_declarator") :
    holdsSecret ⟨bytes, root⟩ node = holdsSecret ⟨other, root⟩ node := by
  have hname : Source.name ⟨bytes, root⟩ node = Source.name ⟨other, root⟩ node :=
    Source.fieldText_of_agree fun name hc => h.names node name hw hk hc
  unfold holdsSecret
  rw [← hname]
  cases hs : Wording.isSecretName (Source.name ⟨bytes, root⟩ node) with
  | false => rw [Bool.false_and, Bool.false_and]
  | true =>
    cases hv : node.child? "value" with
    | none => rw [Option.bind_none, Option.bind_none]
    | some literal =>
      by_cases ht : literal.kind = "string_literal"
      · have hverdict := h.verdicts node literal ⟨hw, hk, hs, hv, ht⟩
        have hany : ∀ value : Option String, value.any Wording.looksLikeRealSecret =
            (value.map Wording.looksLikeRealSecret).any id := by
          intro value
          cases value with
          | none => rfl
          | some text => rfl
        rw [Option.bind_some, Option.bind_some, hany, hany, hverdict]
      · simp [stringValue?, ht]

/-- The check for secrets finds the same, message by message. -/
theorem hardcodedSecrets_variants (h : SecretVariants root bytes other) :
    hardcodedSecrets ⟨bytes, root⟩ = hardcodedSecrets ⟨other, root⟩ := by
  have hsites : ∀ site ∈ root.findAll ["variable_declarator"] .preorder,
      root.Within site.node ∧ site.node.kind = "variable_declarator" := by
    intro site hmem
    obtain ⟨hw, hk⟩ := Node.within_findAll hmem
    exact ⟨hw.1, List.mem_singleton.mp hk⟩
  unfold hardcodedSecrets
  have hfilter : (root.findAll ["variable_declarator"] .preorder).filter
        (holdsSecret ⟨bytes, root⟩ ·.node) =
      (root.findAll ["variable_declarator"] .preorder).filter
        (holdsSecret ⟨other, root⟩ ·.node) :=
    List.filter_congr fun site hmem =>
      holdsSecret_variants h (hsites site hmem).1 (hsites site hmem).2
  simp only [Source.findAll, hfilter]
  apply List.map_congr_left
  intro site hmem
  obtain ⟨hw, hk⟩ := hsites site (List.mem_of_mem_filter hmem)
  have hname : Source.name ⟨bytes, root⟩ site.node = Source.name ⟨other, root⟩ site.node :=
    Source.fieldText_of_agree fun name hc => h.names site.node name hw hk hc
  have hline : Source.line ⟨bytes, root⟩ site.node = Source.line ⟨other, root⟩ site.node :=
    Source.line_of_lineFeeds h.length_eq h.lineFeeds site.node
  simp only [findingAt, hname, hline]

/-- Of all that the checks find, the findings on secrets are those of one check. -/
theorem filter_findings {source : Source} {found : List Finding} (h : findings source = .ok found) :
    found.filter (·.rule == .hardcodedSecret) = hardcodedSecrets source := by
  have hothers : ∀ {rule : Rule} {list : List Finding}, AllReport source [rule] list →
      rule ≠ .hardcodedSecret → list.filter (·.rule == .hardcodedSecret) = [] := by
    intro rule list hall hne
    rw [List.filter_eq_nil_iff]
    intro finding hmem hrule
    have hfinding := List.mem_singleton.mp (hall finding hmem).rule_mem
    exact hne (hfinding.symm.trans (beq_iff_eq.mp hrule))
  have hown : (hardcodedSecrets source).filter (·.rule == .hardcodedSecret) =
      hardcodedSecrets source := by
    rw [List.filter_eq_self]
    intro finding hmem
    have hfinding := List.mem_singleton.mp (hardcodedSecrets_report source finding hmem).rule_mem
    exact beq_iff_eq.mpr hfinding
  obtain ⟨injections, hi, h⟩ := bind_eq_ok.mp h
  cases h
  simp only [List.filter_append, hown, hothers (sqlInjections_report hi) (by decide),
    hothers (commandInjections_report source) (by decide),
    hothers (crossSiteScriptings_report source) (by decide),
    hothers (pathTraversals_report source) (by decide),
    hothers (weakCryptos_report source) (by decide),
    hothers (insecureRandoms_report source) (by decide),
    hothers (unsafeDeserializations_report source) (by decide), List.nil_append, List.append_nil]

theorem isConcat_kept (h : OperatorsKept root bytes other) {node : Node} (hw : root.Within node) :
    isConcat ⟨bytes, root⟩ node = isConcat ⟨other, root⟩ node := by
  unfold isConcat
  by_cases hk : node.kind = "binary_expression"
  · rw [Source.fieldText_of_agree fun operator hc => h node operator hw hk hc]
  · have hother : (node.kind == "binary_expression") = false := by simpa using hk
    rw [hother, Bool.false_and, Bool.false_and]

/-- Chains are flattened alike, and the flattening meets a missing operand alike. The induction is
over the flattening, which only goes to children. -/
theorem operands_kept (h : OperatorsKept root bytes other) {node : Node} (hw : root.Within node) :
    operands ⟨bytes, root⟩ node = operands ⟨other, root⟩ node := by
  fun_induction operands ⟨bytes, root⟩ node with
  | case1 node hc left right hl hr ihl ihr =>
    rw [operands_eq ⟨other, root⟩ node, ← isConcat_kept h hw, if_pos hc, hl, hr,
      ihl (hw.child? hl), ihr (hw.child? hr)]
  | case2 node hc hmissing =>
    rw [operands_eq ⟨other, root⟩ node, ← isConcat_kept h hw, if_pos hc]
    split
    · exact (hmissing _ _ ‹_› ‹_›).elim
    · rfl
  | case3 node hc hk first rest hf ih =>
    have hfirst : first ∈ node.children :=
      (List.mem_filter.mp (hf ▸ List.mem_cons_self : first ∈ node.namedChildren)).1
    rw [operands_eq ⟨other, root⟩ node, ← isConcat_kept h hw, if_neg hc, if_pos hk, hf,
      ih (hw.child hfirst)]
  | case4 node hc hk hf =>
    rw [operands_eq ⟨other, root⟩ node, ← isConcat_kept h hw, if_neg hc, if_pos hk, hf]
  | case5 node hc hk =>
    rw [operands_eq ⟨other, root⟩ node, ← isConcat_kept h hw, if_neg hc, if_neg hk]

theorem isOutermostConcat_kept (h : OperatorsKept root bytes other) {site : Site}
    (hw : site.Within root) :
    isOutermostConcat ⟨bytes, root⟩ site = isOutermostConcat ⟨other, root⟩ site := by
  unfold isOutermostConcat
  rw [isConcat_kept h hw.1]
  cases hp : site.parent with
  | none => rfl
  | some parent => simp [isConcat_kept h (hw.2 parent hp)]

/-- The checks return unless the flattening of a chain meets a missing operand. -/
theorem exists_findings_iff {source : Source} :
    (∃ found, findings source = .ok found) ↔
      ∀ site ∈ source.root.findAll ["binary_expression"] .preorder,
        isOutermostConcat source site = true →
          ∃ leaves, operands source site.node = .ok leaves := by
  have hsite : ∀ site, (∃ result, sqlInjection? source site = .ok result) ↔
      ∃ leaves, operands source site.node = .ok leaves := by
    intro site
    unfold sqlInjection?
    constructor
    · rintro ⟨result, hresult⟩
      obtain ⟨leaves, hleaves, -⟩ := bind_eq_ok.mp hresult
      exact ⟨leaves, hleaves⟩
    · rintro ⟨leaves, hleaves⟩
      rw [hleaves]
      show ∃ result, (if buildsQuery source leaves = true then _ else _) = _
      split
      · exact ⟨_, rfl⟩
      · exact ⟨_, rfl⟩
  have hfindings : (∃ found, findings source = .ok found) ↔
      ∃ results, ((source.root.findAll ["binary_expression"] .preorder).filter
        (isOutermostConcat source)).mapM (sqlInjection? source) = .ok results := by
    constructor
    · rintro ⟨found, hfound⟩
      obtain ⟨injections, hi, -⟩ := bind_eq_ok.mp hfound
      obtain ⟨results, hr, -⟩ := bind_eq_ok.mp hi
      exact ⟨results, hr⟩
    · rintro ⟨results, hr⟩
      exact ⟨_, bind_eq_ok.mpr ⟨_, bind_eq_ok.mpr ⟨results, hr, rfl⟩, rfl⟩⟩
  rw [hfindings, exists_mapM_eq_ok]
  simp only [List.mem_filter, and_imp, hsite]

theorem exists_findings_kept (h : OperatorsKept root bytes other) :
    (∃ found, findings ⟨bytes, root⟩ = .ok found) ↔
      ∃ found, findings ⟨other, root⟩ = .ok found := by
  rw [exists_findings_iff, exists_findings_iff]
  refine forall₂_congr fun site hmem => ?_
  obtain ⟨hw, -⟩ := Node.within_findAll hmem
  rw [isOutermostConcat_kept h hw, operands_kept h hw.1]

end Security

end Check

namespace Analyzer

theorem vulnerability_run (path : Path) (source : Source) :
    vulnerability.run ⟨path, some source⟩ =
      (Check.Security.findings source).map (·.map (·.issue ⟨path, some source⟩)) := rfl

theorem exists_vulnerability_run {path : Path} {source : Source} :
    (∃ issues, vulnerability.run ⟨path, some source⟩ = .ok issues) ↔
      ∃ found, Check.Security.findings source = .ok found := by
  rw [vulnerability_run]
  constructor
  · rintro ⟨issues, h⟩
    obtain ⟨found, hf, -⟩ := map_eq_ok.mp h
    exact ⟨found, hf⟩
  · rintro ⟨found, hf⟩
    exact ⟨_, map_eq_ok.mpr ⟨found, hf, rfl⟩⟩

theorem secret_issues {path : Path} {source : Source} {issues : List Issue}
    (h : vulnerability.run ⟨path, some source⟩ = .ok issues) :
    issues.filter (·.ruleId == Rule.hardcodedSecret.id) =
      (Check.Security.hardcodedSecrets source).map (·.issue ⟨path, some source⟩) := by
  obtain ⟨found, hf, rfl⟩ := map_eq_ok.mp h
  have hrule : (fun issue : Issue => issue.ruleId == Rule.hardcodedSecret.id) ∘
      (Finding.issue · ⟨path, some source⟩) = (·.rule == .hardcodedSecret) :=
    funext fun _ => Rule.id_injective.beq_eq
  rw [List.filter_map, hrule, Check.Security.filter_findings hf]

/-- Sources over one tree that differ in the content of secrets only have the same issues on
secrets, whenever the analyzer returns on both. If they agree on all operators it returns on both
or on neither. -/
theorem secret_issues_hide_content (root : Node) (bytes other : Text.Bytes) (path : Path)
    (h : Check.SecretVariants root bytes other) :
    Check.Security.hardcodedSecrets ⟨bytes, root⟩ = Check.Security.hardcodedSecrets ⟨other, root⟩ ∧
      (∀ issues others, vulnerability.run ⟨path, some ⟨bytes, root⟩⟩ = .ok issues →
        vulnerability.run ⟨path, some ⟨other, root⟩⟩ = .ok others →
        issues.filter (·.ruleId == Rule.hardcodedSecret.id) =
          others.filter (·.ruleId == Rule.hardcodedSecret.id)) ∧
      (Check.OperatorsKept root bytes other →
        ((∃ issues, vulnerability.run ⟨path, some ⟨bytes, root⟩⟩ = .ok issues) ↔
          ∃ others, vulnerability.run ⟨path, some ⟨other, root⟩⟩ = .ok others)) := by
  have hfound := Check.Security.hardcodedSecrets_variants h
  refine ⟨hfound, ?_, ?_⟩
  · intro issues others hissues hothers
    rw [secret_issues hissues, secret_issues hothers, hfound]
    exact List.map_congr_left fun finding _ => rfl
  · intro hkept
    rw [exists_vulnerability_run, exists_vulnerability_run]
    exact Check.Security.exists_findings_kept hkept

end Analyzer

namespace SecretContent

def literal : Node := ⟨"string_literal", true, false, 7, 15, some "value", []⟩

def variableName : Node := ⟨"identifier", true, false, 0, 6, some "name", []⟩

def declarator : Node :=
  ⟨"variable_declarator", true, false, 0, 15, none, [variableName, literal]⟩

def operator : Node := ⟨"+", false, false, 8, 9, some "operator", []⟩

/-- An expression without operands, whose operator is the first character of the text. -/
def expression : Node := ⟨"binary_expression", true, false, 8, 9, none, [operator]⟩

def root : Node := ⟨"program", true, false, 0, 15, none, [declarator, expression]⟩

def assigning (content : Text.Bytes) : Text.Bytes :=
  [115, 101, 99, 114, 101, 116, 61, 34] ++ content ++ [34]

def letters : Text.Bytes := assigning [97, 98, 99, 100, 101, 102]

def otherLetters : Text.Bytes := assigning [122, 121, 120, 119, 118, 117]

def plusAndLetters : Text.Bytes := assigning [43, 98, 99, 100, 101, 102]

theorem eq_declarator_of_within {node : Node} (h : root.Within node)
    (hk : node.kind = "variable_declarator") : node = declarator := by
  have hmem : node ∈ [root, declarator, variableName, literal, expression, operator] := by
    clear hk
    induction h with
    | root => exact List.mem_cons_self
    | @child parent node hp hc ih =>
      simp only [List.mem_cons, List.not_mem_nil, or_false] at ih
      rcases ih with rfl | rfl | rfl | rfl | rfl | rfl
      · rcases List.mem_pair.mp (show node ∈ [declarator, expression] from hc) with rfl | rfl
        · simp
        · simp
      · rcases List.mem_pair.mp (show node ∈ [variableName, literal] from hc) with rfl | rfl
        · simp
        · simp
      · cases hc
      · cases hc
      · rw [List.mem_singleton.mp (show node ∈ [operator] from hc)]
        simp
      · cases hc
  simp only [List.mem_cons, List.not_mem_nil, or_false] at hmem
  rcases hmem with rfl | rfl | rfl | rfl | rfl | rfl
  · exact absurd hk (by decide)
  · rfl
  · exact absurd hk (by decide)
  · exact absurd hk (by decide)
  · exact absurd hk (by decide)
  · exact absurd hk (by decide)

theorem variants {content other : Text.Bytes} (hc : content.length = 6) (ho : other.length = 6)
    (hlf : lineFeed ∉ content) (hlfo : lineFeed ∉ other)
    (hname : Check.Wording.isSecretName (Source.name ⟨assigning content, root⟩ declarator) = true)
    (hverdict : (Check.Security.stringValue? ⟨assigning content, root⟩ literal).map
        Check.Wording.looksLikeRealSecret =
      (Check.Security.stringValue? ⟨assigning other, root⟩ literal).map
        Check.Wording.looksLikeRealSecret) :
    Check.SecretVariants root (assigning content) (assigning other) := by
  have hno : ∀ {bytes : Text.Bytes} {i : Nat}, lineFeed ∉ bytes →
      (assigning bytes)[i]? ≠ some lineFeed := by
    intro bytes i hlf hi
    have hmem := List.mem_of_getElem? hi
    simp [assigning, hlf] at hmem
    revert hmem
    decide
  have hsame : ∀ i : Nat, i < 8 ∨ 14 ≤ i → (assigning content)[i]? = (assigning other)[i]? := by
    intro i hi
    unfold assigning
    rcases hi with hi | hi
    · rw [List.append_assoc, List.append_assoc, List.getElem?_append_left hi,
        List.getElem?_append_left hi]
    · rw [List.getElem?_append_right (by simp [hc]; omega),
        List.getElem?_append_right (by simp [ho]; omega), List.length_append, List.length_append,
        hc, ho]
  constructor
  · simp [assigning, hc, ho]
  · intro i
    exact iff_of_false (hno hlf) (hno hlfo)
  · intro i hi
    refine ⟨declarator, literal, ⟨.child .root (by simp [root]), rfl, hname, rfl, rfl⟩, ?_⟩
    by_contra hout
    refine hi (hsame i ?_)
    simp only [literal] at hout
    omega
  · intro node name hw hk hn i hstart hstop
    rw [eq_declarator_of_within hw hk] at hn
    cases hn
    exact hsame i (Or.inl (Nat.lt_of_lt_of_le hstop (by decide)))
  · intro node value hsecret
    have hvalue := hsecret.value
    rw [eq_declarator_of_within hsecret.within hsecret.kind] at hvalue
    cases hvalue
    exact hverdict

def path : Path := ⟨.relative, ["A.java"]⟩

def issue : Issue :=
  ⟨"A.java", 1,
    "Hardcoded secret in 'secret'. Load credentials from configuration or the environment.",
    .vulnerability, .critical, "VUL_HARDCODED_SECRET_001", "A.java"⟩

theorem letters_variants : Check.SecretVariants root letters otherLetters :=
  variants rfl rfl (by decide) (by decide) (by decide +kernel) (by decide +kernel)

theorem run_letters : Analyzer.vulnerability.run ⟨path, some ⟨letters, root⟩⟩ = .ok [issue] := by
  decide +kernel

theorem other_secret_same_issue :
    Check.SecretVariants root letters otherLetters ∧
      ∃ others, Analyzer.vulnerability.run ⟨path, some ⟨otherLetters, root⟩⟩ = .ok others ∧
        [issue].filter (·.ruleId == Rule.hardcodedSecret.id) =
          others.filter (·.ruleId == Rule.hardcodedSecret.id) := by
  have hother : Analyzer.vulnerability.run ⟨path, some ⟨otherLetters, root⟩⟩ = .ok [issue] := by
    decide +kernel
  obtain ⟨-, hsame, -⟩ :=
    Analyzer.secret_issues_hide_content root letters otherLetters path letters_variants
  exact ⟨letters_variants, [issue], hother, hsame _ _ run_letters hother⟩

/-- One byte strictly inside the literal differs. With a plus sign there the analyzer gives up, and
with a letter it reports the variable. -/
theorem plus_in_secret_stops_analyzer :
    Check.SecretVariants root plusAndLetters letters ∧
      (∀ i : Nat, plusAndLetters[i]? ≠ letters[i]? → literal.start < i ∧ i + 1 < literal.stop) ∧
      Analyzer.vulnerability.run ⟨path, some ⟨plusAndLetters, root⟩⟩ = .error .missingOperand ∧
      Analyzer.vulnerability.run ⟨path, some ⟨letters, root⟩⟩ = .ok [issue] := by
  refine ⟨variants rfl rfl (by decide) (by decide) (by decide +kernel) (by decide +kernel), ?_,
    by decide +kernel, run_letters⟩
  have hbelow : ∀ i < 15, plusAndLetters[i]? ≠ letters[i]? →
      literal.start < i ∧ i + 1 < literal.stop := by decide
  intro i hi
  by_cases hb : i < 15
  · exact hbelow i hb hi
  · have hplus : plusAndLetters[i]? = none := List.getElem?_eq_none (Nat.le_of_not_lt hb)
    have hletters : letters[i]? = none := List.getElem?_eq_none (Nat.le_of_not_lt hb)
    exact absurd (hplus.trans hletters.symm) hi

end SecretContent

end JavaLint
