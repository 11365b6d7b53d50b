import JavaLint.Proofs.ConcatChain
import JavaLint.Proofs.TextSearch

/-! The order of the issues on security. Nothing sorts them. Each check follows the preorder walk,
and where spans are nested the walk comes to the nodes in the order in which they start; so the
issues of a rule stand in the order of the document, and the rules follow each other. -/
namespace JavaLint

open scoped List

/-- The children of a node have spans within that of the node, one behind the other. -/
structure Node.Nests (node : Node) : Prop where
  inside : ∀ child ∈ node.children, child.start ≤ child.stop ∧ child.Inside node
  apart : node.children.Pairwise fun first second => first.stop ≤ second.start

def Node.nests (node : Node) : Bool :=
  (node.children.all fun child =>
    child.start ≤ child.stop && (node.start ≤ child.start && child.stop ≤ node.stop)) &&
    decide (node.children.Pairwise fun first second => first.stop ≤ second.start)

theorem Node.nests_iff {node : Node} : node.nests = true ↔ node.Nests := by
  simp only [nests, Bool.and_eq_true, List.all_eq_true, decide_eq_true_eq]
  constructor
  · rintro ⟨hinside, hapart⟩
    refine ⟨?_, hapart⟩
    intro child hc
    obtain ⟨hle, hstart, hstop⟩ := hinside child hc
    exact ⟨hle, hstart, hstop⟩
  · rintro ⟨hinside, hapart⟩
    refine ⟨?_, hapart⟩
    intro child hc
    obtain ⟨hle, hin⟩ := hinside child hc
    exact ⟨hle, hin.start_le, hin.stop_le⟩

def Node.SpansNested (root : Node) : Prop := ∀ node, root.Within node → node.Nests

theorem Node.Within.head {parent child node : Node} (hc : child ∈ parent.children)
    (h : child.Within node) : parent.Within node := by
  induction h with
  | root => exact .child .root hc
  | child _ hmem ih => exact .child ih hmem

theorem Node.SpansNested.child {parent child : Node} (h : parent.SpansNested)
    (hc : child ∈ parent.children) : child.SpansNested := by
  intro node hnode
  exact h node (hnode.head hc)

namespace Site

theorem node_mem_children {site child : Site} (h : child ∈ site.children) :
    child.node ∈ site.node.children := by
  rw [← site.map_node_children]
  exact List.mem_map_of_mem h

theorem start_of_mem_below {top : Site} (hle : top.node.start ≤ top.node.stop)
    (h : top.node.SpansNested) :
    ∀ site ∈ top.below, top.node.start ≤ site.node.start ∧ site.node.start ≤ top.node.stop := by
  induction top using from_children with
  | step top ih =>
    intro site hsite
    rw [below_eq] at hsite
    rcases List.mem_cons.mp hsite with rfl | hsite
    · exact ⟨le_rfl, hle⟩
    obtain ⟨child, hc, hsite⟩ := List.mem_flatMap.mp hsite
    have hnode := node_mem_children hc
    obtain ⟨hchild, hin⟩ := (h top.node .root).inside child.node hnode
    obtain ⟨hlow, hhigh⟩ := ih child hc hchild (h.child hnode) site hsite
    exact ⟨hin.start_le.trans hlow, hhigh.trans hin.stop_le⟩

/-- The walk comes to nodes with nested spans in the order in which they start. -/
theorem below_starts {top : Site} (h : top.node.SpansNested) :
    top.below.Pairwise fun first second => first.node.start ≤ second.node.start := by
  induction top using from_children with
  | step top ih =>
    have hnests := h top.node .root
    have hbounds : ∀ child ∈ top.children, ∀ site ∈ child.below,
        child.node.start ≤ site.node.start ∧ site.node.start ≤ child.node.stop := by
      intro child hc
      have hnode := node_mem_children hc
      exact start_of_mem_below (hnests.inside child.node hnode).1 (h.child hnode)
    have hapart : top.children.Pairwise fun child other => child.node.stop ≤ other.node.start := by
      have hnodes := hnests.apart
      rwa [← top.map_node_children, List.pairwise_map] at hnodes
    rw [below_eq, List.pairwise_cons, List.pairwise_flatMap]
    refine ⟨?_, ?_, ?_⟩
    · intro site hsite
      obtain ⟨child, hc, hsite⟩ := List.mem_flatMap.mp hsite
      have hin := (hnests.inside child.node (node_mem_children hc)).2
      exact hin.start_le.trans (hbounds child hc site hsite).1
    · intro child hc
      exact ih child hc (h.child (node_mem_children hc))
    · refine hapart.imp_of_mem ?_
      intro child other hc ho hle site hsite later hlater
      have hhigh := (hbounds child hc site hsite).2
      have hlow := (hbounds other ho later hlater).1
      omega

end Site

theorem Node.sites_starts (root : Node) (h : root.SpansNested) :
    (root.sites .preorder).Pairwise fun first second => first.node.start ≤ second.node.start :=
  Site.below_starts h

theorem Source.line_mono (source : Source) {first second : Node}
    (h : first.start ≤ second.start) : source.line first ≤ source.line second :=
  Nat.succ_le_succ (rowAt_mono source.bytes h)

namespace Check

/-- Findings at the lines of sites, in the order in which the walk comes to these. -/
def FollowsWalk (source : Source) (found : List Finding) : Prop :=
  ∃ sites, sites <+ source.root.sites .preorder ∧
    found.map (·.line) = sites.map (source.line ·.node)

variable {source : Source} {kinds : List String}

theorem followsWalk_map {sites : List Site} {check : Site → Finding}
    (hs : sites <+ source.findAll kinds .preorder)
    (hline : ∀ site, (check site).line = source.line site.node) :
    FollowsWalk source (sites.map check) := by
  refine ⟨sites, hs.trans List.filter_sublist, ?_⟩
  rw [List.map_map]
  exact List.map_congr_left fun site _ => hline site

theorem followsWalk_filterMap {check : Site → Option Finding}
    (hline : ∀ site finding, check site = some finding → finding.line = source.line site.node) :
    FollowsWalk source ((source.findAll kinds .preorder).filterMap check) := by
  refine ⟨(source.findAll kinds .preorder).filter fun site => (check site).isSome,
    List.filter_sublist.trans List.filter_sublist, ?_⟩
  induction source.findAll kinds .preorder with
  | nil => rfl
  | cons site rest ih =>
    cases hcheck : check site with
    | none => simpa [hcheck] using ih
    | some finding => simpa [hcheck, hline site finding hcheck] using ih

namespace Security

theorem line_of_commandInjection? {site : Site} {finding : Finding}
    (h : commandInjection? source site = some finding) : finding.line = source.line site.node := by
  obtain ⟨target, -, h⟩ := Option.bind_eq_some_iff.mp h
  split at h
  · cases h
  · cases h
    rfl

theorem line_of_weakCrypto? {site : Site} {finding : Finding}
    (h : weakCrypto? source site = some finding) : finding.line = source.line site.node := by
  obtain ⟨-, -, h⟩ := Option.bind_eq_some_iff.mp h
  obtain ⟨first, -, h⟩ := Option.bind_eq_some_iff.mp h
  obtain ⟨algorithm, -, h⟩ := Option.bind_eq_some_iff.mp h
  obtain ⟨-, -, h⟩ := Option.bind_eq_some_iff.mp h
  cases h
  rfl

theorem parts_followWalk {injections : List Finding} (h : sqlInjections source = .ok injections) :
    ∀ part ∈ parts source injections, FollowsWalk source part.2 := by
  have hsql : FollowsWalk source injections :=
    ⟨reportedSites source, List.filter_sublist, sqlInjections_lines h⟩
  simp only [parts, List.forall_mem_cons]
  exact ⟨hsql, followsWalk_filterMap fun _ _ => line_of_commandInjection?,
    followsWalk_map List.filter_sublist fun _ => rfl,
    followsWalk_map List.filter_sublist fun _ => rfl,
    followsWalk_map List.filter_sublist fun _ => rfl,
    followsWalk_filterMap fun _ _ => line_of_weakCrypto?,
    followsWalk_map List.filter_sublist fun _ => rfl,
    followsWalk_map List.filter_sublist fun _ => rfl, by simp⟩

end Security

/-- Findings that follow the walk over nested spans stand in the order of their lines. -/
theorem FollowsWalk.lines_ordered {found : List Finding} (hn : source.root.SpansNested)
    (h : FollowsWalk source found) :
    found.Pairwise fun first second => first.line ≤ second.line := by
  obtain ⟨sites, hsites, hlines⟩ := h
  have hstarts := source.root.sites_starts hn |>.sublist hsites
  have hordered : (found.map (·.line)).Pairwise (· ≤ ·) := by
    rw [hlines, List.pairwise_map]
    exact hstarts.imp fun {first second} hle => source.line_mono hle
  rwa [List.pairwise_map] at hordered

end Check

def Rule.security : List Rule :=
  [.sqlInjection, .commandInjection, .crossSiteScripting, .pathTraversal, .hardcodedSecret,
   .weakCrypto, .insecureRandom, .unsafeDeserialization]

/-- The position of the rule that an issue names among those on security, behind all of them if it
is none of these. -/
def Issue.securityPosition (issue : Issue) : Nat :=
  Rule.security.findIdx (·.id == issue.ruleId)

def Issue.SecurityOrder (first second : Issue) : Prop :=
  first.securityPosition < second.securityPosition ∨
    first.securityPosition = second.securityPosition ∧ first.line ≤ second.line

theorem Rule.security_increasing :
    Rule.security.Pairwise fun first second =>
      Rule.security.findIdx (·.id == first.id) < Rule.security.findIdx (·.id == second.id) := by
  decide

namespace Analyzer

open Check

theorem securityPosition_issue {finding : Finding} {rule : Rule} (h : finding.rule = rule)
    (unit : SourceUnit) :
    (finding.issue unit).securityPosition = Rule.security.findIdx (·.id == rule.id) := by
  rw [← h]
  rfl

theorem parts_sorted {source : Source} (hn : source.root.SpansNested) {injections : List Finding}
    (hi : Security.sqlInjections source = .ok injections) (unit : SourceUnit) :
    (((Security.parts source injections).flatMap (·.2)).map (·.issue unit)).Pairwise
      Issue.SecurityOrder := by
  have hrules := Security.rule_of_mem_parts hi
  have hwalks := Security.parts_followWalk hi
  have hincreasing : (Security.parts source injections).Pairwise fun part other =>
      Rule.security.findIdx (·.id == part.1.id) < Rule.security.findIdx (·.id == other.1.id) := by
    have hkeys : (Security.parts source injections).map (·.1) = Rule.security := rfl
    have hsecurity := Rule.security_increasing
    rwa [← hkeys, List.pairwise_map] at hsecurity
  rw [List.pairwise_map, List.pairwise_flatMap]
  constructor
  · intro part hp
    refine ((hwalks part hp).lines_ordered hn).imp_of_mem ?_
    intro first second hfirst hsecond hle
    refine Or.inr ⟨?_, Int.ofNat_le.mpr hle⟩
    rw [securityPosition_issue (hrules part hp first hfirst),
      securityPosition_issue (hrules part hp second hsecond)]
  · refine hincreasing.imp_of_mem ?_
    intro part other hp ho hlt first hfirst second hsecond
    apply Or.inl
    rw [securityPosition_issue (hrules part hp first hfirst),
      securityPosition_issue (hrules other ho second hsecond)]
    exact hlt

/-- Over nested spans the issues on security are sorted by the position of their rule and by line.
Those of each rule stand for sites in the order of the walk, which comes to the nodes in the order
in which they start. There are issues unless a `+` that lacks an operand stops the analyzer. -/
theorem security_issues_in_document_order (path : Path) (source : Source)
    (hn : source.root.SpansNested) :
    ((∃ issues, vulnerability.run ⟨path, some source⟩ = .ok issues) ↔
      ∀ site ∈ source.root.sites .preorder, ¬ BrokenChain source site) ∧
    (source.root.sites .preorder).Pairwise
      (fun first second => first.node.start ≤ second.node.start) ∧
    ∀ issues, vulnerability.run ⟨path, some source⟩ = .ok issues →
      issues.Pairwise Issue.SecurityOrder ∧
      (∀ issue ∈ issues, ∃ rule ∈ Rule.security, issue.ruleId = rule.id) ∧
      ∀ rule ∈ Rule.security, ∃ sites, sites <+ source.root.sites .preorder ∧
        (issues.filter (·.ruleId == rule.id)).map (·.line) =
          sites.map fun site => (source.line site.node : Int) := by
  refine ⟨?_, source.root.sites_starts hn, ?_⟩
  · rw [exists_vulnerability_run, Security.exists_findings_iff_unbroken]
  intro issues hrun
  obtain ⟨found, hf, rfl⟩ := run_ofCheck rfl hrun
  obtain ⟨injections, hi, rfl⟩ := Security.findings_eq_ok_iff.mp hf
  have hkeys : (Security.parts source injections).map (·.1) = Rule.security := rfl
  have hrules := Security.rule_of_mem_parts hi
  refine ⟨parts_sorted hn hi _, ?_, ?_⟩
  · intro issue hissue
    obtain ⟨finding, hfinding, rfl⟩ := List.mem_map.mp hissue
    obtain ⟨part, hp, hmem⟩ := List.mem_flatMap.mp hfinding
    refine ⟨part.1, hkeys ▸ List.mem_map_of_mem hp, ?_⟩
    exact congrArg Rule.id (hrules part hp finding hmem)
  · intro rule hrule
    rw [← hkeys] at hrule
    obtain ⟨part, hp, rfl⟩ := List.mem_map.mp hrule
    obtain ⟨sites, hsites, hlines⟩ := Security.parts_followWalk hi part hp
    refine ⟨sites, hsites, ?_⟩
    rw [issues_of_part (by simp [Security.parts]) hrules _ part hp, List.map_map]
    have hcast := congrArg (List.map (Nat.cast : Nat → Int)) hlines
    rwa [List.map_map, List.map_map] at hcast

/-- A secret on the first line and a query on the second: the issue on the query comes first. -/
theorem query_before_secret :
    let declarator : Node := ⟨"variable_declarator", true, false, 0, 9, none,
      [⟨"identifier", true, false, 0, 3, some "name", []⟩, ConcatChain.literal 3 "value"]⟩
    let sum : Node := ⟨"binary_expression", true, false, 10, 18, none,
      [ConcatChain.literal 10 "left", ConcatChain.plus 16, ConcatChain.identifier 17 "right"]⟩
    let root : Node := ⟨"program", true, false, 0, 18, none, [declarator, sum]⟩
    let source : Source := ⟨[112, 119, 100] ++ ConcatChain.letters ++ [10] ++ ConcatChain.keyword ++
      [43, 120], root⟩
    let path : Path := ⟨.relative, ["A.java"]⟩
    root.SpansNested ∧ ∃ issues, vulnerability.run ⟨path, some source⟩ = .ok issues ∧
      (issues.filter (·.ruleId == Rule.sqlInjection.id)).map (·.line) = [2] ∧
      (issues.filter (·.ruleId == Rule.hardcodedSecret.id)).map (·.line) = [1] ∧
      issues.Pairwise Issue.SecurityOrder := by
  intro declarator sum root source path
  have hnested : root.SpansNested := by
    intro node hnode
    exact Node.nests_iff.mp (Node.forall_within_of_all Node.nests (by cbv) node hnode)
  have hplus : isConcat source sum = true := by cbv
  have hoperands : operands source sum =
      .ok [ConcatChain.literal 10 "left", ConcatChain.identifier 17 "right"] :=
    operands_of_plus hplus rfl rfl (operands_of_isLeaf (isLeaf_of_kind (by decide) (by decide)))
      (operands_of_isLeaf (isLeaf_of_kind (by decide) (by decide)))
  have hreported : Security.reportedSites source = [⟨sum, some root, some declarator, [1]⟩] := by
    have houtermost : (source.root.sites .preorder).filter (Security.isOutermostConcat source) =
        [⟨sum, some root, some declarator, [1]⟩] := by cbv
    have hquery : Security.isReported source ⟨sum, some root, some declarator, [1]⟩ = true := by
      rw [Security.isReported, hoperands]
      decide +kernel
    rw [Security.reportedSites_eq, houtermost, List.filter_cons_of_pos hquery, List.filter_nil]
  have hwhole : (source.root.sites .preorder).all (isWhole ·.node) = true := by cbv
  obtain ⟨issues, hrun⟩ := exists_run_of_operands path (whole_of_all hwhole)
  refine ⟨hnested, issues, hrun, ?_, ?_, ?_⟩
  · rw [sql_issue_lines hrun, hreported]
    rfl
  · rw [secret_issues hrun]
    decide +kernel
  · exact ((security_issues_in_document_order path source hnested).2.2 issues hrun).1

end Analyzer

end JavaLint
