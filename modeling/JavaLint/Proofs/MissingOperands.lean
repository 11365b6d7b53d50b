import JavaLint.Proofs.Isolation
import JavaLint.Proofs.SecretContent

/-! Where analyzers give up. The one thing that stops an analyzer is a `+` without one of its
operands, met while a chain is flattened. A chain is flattened from its outermost `+`, and what lies
behind other shapes is not looked at. -/
namespace JavaLint

namespace Site

theorem mem_preorderFrom {stack : List Site} {site : Site} (h : site ∈ stack) :
    site ∈ preorderFrom stack := by
  fun_induction preorderFrom stack with
  | case1 => cases h
  | case2 top rest ih =>
    rcases List.mem_cons.mp h with rfl | h
    · exact List.mem_cons_self
    · exact List.mem_cons_of_mem _ (ih (List.mem_append_right _ h))

/-- A walk that visits a site goes on to its children. -/
theorem children_mem_preorderFrom {stack : List Site} {site child : Site}
    (h : site ∈ preorderFrom stack) (hc : child ∈ site.children) : child ∈ preorderFrom stack := by
  fun_induction preorderFrom stack with
  | case1 => cases h
  | case2 top rest ih =>
    apply List.mem_cons_of_mem
    rcases List.mem_cons.mp h with rfl | h
    · exact mem_preorderFrom (List.mem_append_left _ hc)
    · exact ih h

end Site

theorem Node.Within.exists_site {root node : Node} (h : root.Within node) :
    ∃ site ∈ root.sites .preorder, site.node = node := by
  induction h with
  | root => exact ⟨.ofRoot root, Site.mem_preorderFrom List.mem_cons_self, rfl⟩
  | @child parent node _ hc ih =>
    obtain ⟨site, hsite, rfl⟩ := ih
    rw [← site.map_node_children] at hc
    obtain ⟨child, hchild, rfl⟩ := List.mem_map.mp hc
    exact ⟨child, Site.children_mem_preorderFrom hsite hchild, rfl⟩

namespace Check

inductive Reaches (source : Source) : Node → Node → Prop where
  | here (node : Node) : Reaches source node node
  | left {node left target : Node} : isConcat source node = true →
      node.child? "left" = some left → Reaches source left target → Reaches source node target
  | right {node right target : Node} : isConcat source node = true →
      node.child? "right" = some right → Reaches source right target → Reaches source node target
  | inside {node first target : Node} {rest : List Node} :
      node.kind = "parenthesized_expression" → node.namedChildren = first :: rest →
      Reaches source first target → Reaches source node target

def LacksOperand (source : Source) (node : Node) : Prop :=
  isConcat source node = true ∧ (node.child? "left" = none ∨ node.child? "right" = none)

variable {source : Source} {node target : Node}

theorem isConcat_eq_false_of_kind (h : node.kind ≠ "binary_expression") :
    isConcat source node = false := by
  simp [isConcat, h]

theorem kind_of_isConcat (h : isConcat source node = true) : node.kind = "binary_expression" := by
  by_contra hk
  rw [isConcat_eq_false_of_kind hk] at h
  cases h

/-- A `+` that is flattened has both operands, and each of them is flattened. -/
theorem operands_of_isConcat (hc : isConcat source node = true) {leaves : List Node}
    (hok : operands source node = .ok leaves) :
    ∃ left right first second, node.child? "left" = some left ∧ node.child? "right" = some right ∧
      operands source left = .ok first ∧ operands source right = .ok second := by
  rw [operands_eq, if_pos hc] at hok
  cases hl : node.child? "left" with
  | none =>
    rw [hl] at hok
    cases hok
  | some left =>
    cases hr : node.child? "right" with
    | none =>
      rw [hl, hr] at hok
      cases hok
    | some right =>
      rw [hl, hr] at hok
      obtain ⟨first, hfirst, hok⟩ := bind_eq_ok.mp hok
      obtain ⟨second, hsecond, -⟩ := bind_eq_ok.mp hok
      exact ⟨left, right, first, second, rfl, rfl, hfirst, hsecond⟩

theorem not_lacksOperand_of_reaches (h : Reaches source node target) {leaves : List Node}
    (hok : operands source node = .ok leaves) : ¬ LacksOperand source target := by
  induction h generalizing leaves with
  | here node =>
    rintro ⟨hc, hmissing⟩
    obtain ⟨left, right, -, -, hl, hr, -⟩ := operands_of_isConcat hc hok
    rcases hmissing with hmissing | hmissing
    · simp [hmissing] at hl
    · simp [hmissing] at hr
  | left hc hl _ ih =>
    obtain ⟨left, right, first, second, hl', -, hfirst, -⟩ := operands_of_isConcat hc hok
    cases hl.symm.trans hl'
    exact ih hfirst
  | right hc hr _ ih =>
    obtain ⟨left, right, first, second, -, hr', -, hsecond⟩ := operands_of_isConcat hc hok
    cases hr.symm.trans hr'
    exact ih hsecond
  | @inside node first target rest hk hf _ ih =>
    have hc : isConcat source node = false := isConcat_eq_false_of_kind (by rw [hk]; decide)
    rw [operands_eq, hc, hk, hf] at hok
    exact ih hok

/-- A chain is flattened unless the flattening comes to a `+` that lacks an operand. -/
theorem exists_operands_iff :
    (∃ leaves, operands source node = .ok leaves) ↔
      ∀ target, Reaches source node target → ¬ LacksOperand source target := by
  constructor
  · rintro ⟨leaves, hok⟩ target hreach
    exact not_lacksOperand_of_reaches hreach hok
  · intro h
    fun_induction operands source node with
    | case1 node hc left right hl hr ihl ihr =>
      obtain ⟨first, hfirst⟩ := ihl fun target ht => h target (.left hc hl ht)
      obtain ⟨second, hsecond⟩ := ihr fun target ht => h target (.right hc hr ht)
      rw [hfirst, hsecond]
      exact ⟨_, rfl⟩
    | case2 node hc hmissing =>
      refine absurd ⟨hc, ?_⟩ (h node (.here node))
      cases hl : node.child? "left" with
      | none => exact Or.inl rfl
      | some left =>
        cases hr : node.child? "right" with
        | none => exact Or.inr rfl
        | some right => exact (hmissing left right hl hr).elim
    | case3 node hc hk first rest hf ih =>
      exact ih fun target ht => h target (.inside (by simpa using hk) hf ht)
    | case4 node hc hk hf => exact ⟨_, rfl⟩
    | case5 node hc hk => exact ⟨_, rfl⟩

theorem Reaches.within {root : Node} (h : Reaches source node target) (hw : root.Within node) :
    root.Within target := by
  induction h with
  | here node => exact hw
  | left hc hl _ ih => exact ih (hw.child? hl)
  | right hc hr _ ih => exact ih (hw.child? hr)
  | @inside node first target rest hk hf _ ih =>
    have hfirst : first ∈ node.namedChildren := hf ▸ List.mem_cons_self
    exact ih (hw.child (List.mem_of_mem_filter hfirst))

/-- A `+` that stands under no other `+`, and from which the flattening comes to one that lacks an
operand. -/
structure BrokenChain (source : Source) (site : Site) : Prop where
  isPlus : isConcat source site.node = true
  isOutermost : ∀ parent ∈ site.parent, isConcat source parent = false
  breaks : ∃ node, Reaches source site.node node ∧ LacksOperand source node

theorem isOutermostConcat_iff {site : Site} :
    Security.isOutermostConcat source site = true ↔
      isConcat source site.node = true ∧
        ∀ parent ∈ site.parent, isConcat source parent = false := by
  rw [Security.isOutermostConcat, Bool.and_eq_true]
  cases site.parent with
  | none => simp
  | some parent => simp

theorem Security.exists_findings_iff_unbroken :
    (∃ found, findings source = .ok found) ↔
      ∀ site ∈ source.root.sites .preorder, ¬ BrokenChain source site := by
  rw [exists_findings_iff]
  constructor
  · intro h site hsite hbroken
    obtain ⟨node, hreach, hlacks⟩ := hbroken.breaks
    have hfound : site ∈ source.root.findAll ["binary_expression"] .preorder :=
      List.mem_filter.mpr ⟨hsite, by simp [kind_of_isConcat hbroken.isPlus]⟩
    have houtermost := isOutermostConcat_iff.mpr ⟨hbroken.isPlus, hbroken.isOutermost⟩
    exact exists_operands_iff.mp (h site hfound houtermost) node hreach hlacks
  · intro h site hsite houtermost
    obtain ⟨hplus, hparent⟩ := isOutermostConcat_iff.mp houtermost
    apply exists_operands_iff.mpr
    intro node hreach hlacks
    exact h site (List.mem_of_mem_filter hsite) ⟨hplus, hparent, node, hreach, hlacks⟩

end Check

namespace Analyzer

variable {path : Path} {source : Source} {unit : SourceUnit} {analyzer : Analyzer}

theorem returnsOn_iff :
    analyzer.returnsOn unit = true ↔ ∃ issues, analyzer.run unit = .ok issues := by
  rw [returnsOn]
  cases analyzer.run unit with
  | error fault => simp [Except.isOk, Except.toBool]
  | ok issues => simp [Except.isOk, Except.toBool]

theorem returnsOn_vulnerability :
    vulnerability.returnsOn ⟨path, some source⟩ = true ↔
      ∀ site ∈ source.root.sites .preorder, ¬ Check.BrokenChain source site := by
  rw [returnsOn_iff, exists_vulnerability_run, Check.Security.exists_findings_iff_unbroken]

/-- No tree stops the other analyzers. -/
theorem returnsOn_eq_false_iff {limit : Int} (ha : analyzer ∈ defaults limit) :
    analyzer.returnsOn ⟨path, some source⟩ = false ↔
      analyzer = vulnerability ∧
        ∃ site ∈ source.root.sites .preorder, Check.BrokenChain source site := by
  constructor
  · intro h
    simp only [defaults, List.mem_cons, List.not_mem_nil, or_false] at ha
    rcases ha with rfl | rfl | rfl | rfl
    · cases h
    · refine ⟨rfl, ?_⟩
      by_contra hnone
      rw [returnsOn_vulnerability.mpr fun site hsite hb => hnone ⟨site, hsite, hb⟩] at h
      cases h
    · cases h
    · cases h
  · rintro ⟨rfl, site, hsite, hbroken⟩
    by_contra h
    rw [Bool.not_eq_false] at h
    exact returnsOn_vulnerability.mp h site hsite hbroken

end Analyzer

namespace Service

theorem analyzeUnit_of_mapM {service : Service} {unit : SourceUnit} {results : List (List Issue)}
    (hs : unit.source.isSome = true) (h : service.analyzers.mapM (·.run unit) = .ok results) :
    service.analyzeUnit unit = ⟨[], results.flatten⟩ := by
  have hruns : service.analyzers.map (runAnalyzer unit) = results.map (⟨[], ·⟩) := by
    have hall := mapM_eq_ok_iff.mp h
    clear h
    generalize service.analyzers = analyzers at hall
    induction hall with
    | nil => rfl
    | cons hrun _ ih => rw [List.map_cons, List.map_cons, ih, runAnalyzer, hrun]
  obtain ⟨source, hsource⟩ := Option.isSome_iff_exists.mp hs
  rw [analyzeUnit, hsource]
  simp only [hruns]
  simp [Logged.collect, Logged.map, List.flatMap_def, Function.comp_def]

/-- Where every `+` has both operands, all analyzers return and the issues of a unit are all that
they return. On any tree only one of them can give up, and it does where a chain is broken. -/
theorem only_missing_operands_stop_analyzers (config : Config) (path : Path) (source : Source) :
    ((∀ node, source.root.Within node → Check.isConcat source node = true →
        (node.child? "left").isSome = true ∧ (node.child? "right").isSome = true) →
      ∃ results, (ofConfig config).analyzers.mapM (·.run ⟨path, some source⟩) = .ok results ∧
        (ofConfig config).analyzeUnit ⟨path, some source⟩ = ⟨[], results.flatten⟩) ∧
    ∀ analyzer ∈ (ofConfig config).analyzers,
      analyzer.returnsOn ⟨path, some source⟩ = false ↔
        analyzer = .vulnerability ∧
          ∃ site ∈ source.root.sites .preorder, Check.BrokenChain source site := by
  constructor
  · intro hcomplete
    have hreturns : ∀ analyzer ∈ (ofConfig config).analyzers,
        ∃ issues, analyzer.run ⟨path, some source⟩ = .ok issues := by
      intro analyzer ha
      apply Analyzer.returnsOn_iff.mp
      by_contra hstops
      rw [Bool.not_eq_true, Analyzer.returnsOn_eq_false_iff ha] at hstops
      obtain ⟨-, site, hsite, hbroken⟩ := hstops
      obtain ⟨node, hreach, hplus, hmissing⟩ := hbroken.breaks
      have hwithin := (Node.within_sites hsite).1
      have hboth := hcomplete node (hreach.within hwithin) hplus
      rcases hmissing with hmissing | hmissing
      · simp [hmissing] at hboth
      · simp [hmissing] at hboth
    obtain ⟨results, hresults⟩ := exists_mapM_eq_ok.mpr hreturns
    exact ⟨results, hresults, analyzeUnit_of_mapM rfl hresults⟩
  · intro analyzer ha
    exact Analyzer.returnsOn_eq_false_iff ha

/-- A whole `+` beside a method without a name and a body, with an expression without an operator in
its parentheses; and the same tree with a `+` in there, which has no operands. -/
theorem operator_in_parentheses_stops_analyzer :
    let inner : List Node → Node := fun children =>
      ⟨"binary_expression", true, false, 3, 4, none, children⟩
    let sum : List Node → Node := fun children =>
      ⟨"binary_expression", true, false, 0, 5, none,
        [⟨"identifier", true, false, 0, 1, some "left", []⟩,
         ⟨"+", false, false, 1, 2, some "operator", []⟩,
         ⟨"parenthesized_expression", true, false, 2, 5, some "right", [inner children]⟩]⟩
    let method : Node := ⟨"method_declaration", true, false, 0, 0, none, []⟩
    let root : List Node → Node := fun children =>
      ⟨"program", true, false, 0, 5, none, [method, sum children]⟩
    let source : List Node → Source := fun children => ⟨[97, 43, 40, 43, 41], root children⟩
    let operator : Node := ⟨"+", false, false, 3, 4, some "operator", []⟩
    let path : Path := ⟨.relative, ["a.java"]⟩
    let service := ofConfig {}
    (∀ node, (root []).Within node → Check.isConcat (source []) node = true →
      (node.child? "left").isSome = true ∧ (node.child? "right").isSome = true) ∧
    (∃ results, service.analyzers.mapM (·.run ⟨path, some (source [])⟩) = .ok results ∧
      service.analyzeUnit ⟨path, some (source [])⟩ = ⟨[], results.flatten⟩) ∧
    Analyzer.vulnerability ∈ service.analyzers ∧
    Analyzer.vulnerability.returnsOn ⟨path, some (source [operator])⟩ = false := by
  intro inner sum method root source operator path service
  have hcomplete : ∀ node, (root []).Within node → Check.isConcat (source []) node = true →
      (node.child? "left").isSome = true ∧ (node.child? "right").isSome = true := by
    have hall : (((root []).sites .preorder).all fun site =>
        !Check.isConcat (source []) site.node ||
          ((site.node.child? "left").isSome && (site.node.child? "right").isSome)) = true := by
      decide +kernel
    intro node hwithin hplus
    obtain ⟨site, hsite, rfl⟩ := hwithin.exists_site
    simpa [hplus] using List.all_eq_true.mp hall site hsite
  have hvulnerability : Analyzer.vulnerability ∈ service.analyzers :=
    List.mem_cons_of_mem _ List.mem_cons_self
  refine ⟨hcomplete, (only_missing_operands_stop_analyzers {} path (source [])).1 hcomplete,
    hvulnerability, ?_⟩
  have hsum : Check.isConcat (source [operator]) (sum [operator]) = true := by decide +kernel
  have hlacks : Check.LacksOperand (source [operator]) (inner [operator]) :=
    ⟨by decide +kernel, Or.inl rfl⟩
  apply ((only_missing_operands_stop_analyzers {} path (source [operator])).2 _ hvulnerability).mpr
  refine ⟨rfl, ⟨sum [operator], some (root [operator]), some method, [1]⟩, ?_, hsum, ?_, ?_⟩
  · exact Site.children_mem_preorderFrom (Site.mem_preorderFrom List.mem_cons_self)
      (List.mem_cons_of_mem _ List.mem_cons_self)
  · intro parent hparent
    cases hparent
    decide +kernel
  · exact ⟨inner [operator], .right hsum rfl (.inside rfl rfl (.here _)), hlacks⟩

end Service

end JavaLint
