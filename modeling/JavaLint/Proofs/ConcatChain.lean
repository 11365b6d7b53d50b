import JavaLint.Proofs.MissingOperands
import JavaLint.Proofs.Positions
import Mathlib

/-! Chains of `+` and what is reported of them. A chain goes from a `+` to its operands and through
parentheses, so a `+` in parentheses lies in the chain around it. The check looks at the parent of a
`+` only: it passes over a `+` directly below another, but not over one in parentheses. A chain that
is vulnerable is always reported at its outermost `+`; it is reported again for each vulnerable `+`
that stands in parentheses inside it. -/
namespace JavaLint

/-- What a test finds at every site of a walk holds of every node of the tree. -/
theorem Node.forall_within_of_all {root : Node} (test : Node → Bool)
    (h : (root.sites .preorder).all (test ·.node) = true) :
    ∀ node, root.Within node → test node = true := by
  intro node hwithin
  obtain ⟨site, hsite, rfl⟩ := hwithin.exists_site
  exact List.all_eq_true.mp h site hsite

namespace Site

def child? (site : Site) (field : String) : Option Site :=
  site.children.find? (·.node.field == some field)

def namedChildren (site : Site) : List Site := site.children.filter (·.node.isNamed)

theorem map_node_child? (site : Site) (field : String) :
    (site.child? field).map node = site.node.child? field := by
  rw [Node.child?, ← map_node_children, List.find?_map]
  rfl

theorem map_node_namedChildren (site : Site) :
    site.namedChildren.map node = site.node.namedChildren := by
  rw [Node.namedChildren, ← map_node_children, List.filter_map]
  rfl

theorem exists_child? {site : Site} {field : String} {child : Node}
    (h : site.node.child? field = some child) :
    ∃ next, site.child? field = some next ∧ next.node = child := by
  rw [← map_node_child?] at h
  exact Option.map_eq_some_iff.mp h

end Site

namespace Check

/-- One step of the flattening: from a `+` to an operand, or into parentheses. -/
inductive Flattens (source : Source) : Site → Site → Prop where
  | left {site next : Site} : isConcat source site.node = true → site.child? "left" = some next →
      Flattens source site next
  | right {site next : Site} : isConcat source site.node = true → site.child? "right" = some next →
      Flattens source site next
  | inside {site next : Site} {rest : List Site} : site.node.kind = "parenthesized_expression" →
      site.namedChildren = next :: rest → Flattens source site next

def InChain (source : Source) : Site → Site → Prop := Relation.ReflTransGen (Flattens source)

structure IsLeaf (source : Source) (node : Node) : Prop where
  not_plus : isConcat source node = false
  encloses_nothing : node.kind = "parenthesized_expression" → node.namedChildren = []

variable {source : Source} {site next top inner : Site} {node leaf : Node}

theorem Flattens.mem_children (h : Flattens source site next) : next ∈ site.children := by
  cases h with
  | left _ hl => exact List.mem_of_find?_eq_some hl
  | right _ hr => exact List.mem_of_find?_eq_some hr
  | inside _ hn =>
    have hmem : next ∈ site.namedChildren := hn ▸ List.mem_cons_self
    exact List.mem_of_mem_filter hmem

theorem InChain.trans {last : Site} (h : InChain source top inner)
    (hlast : InChain source inner last) : InChain source top last :=
  Relation.ReflTransGen.trans h hlast

theorem InChain.size_le (h : InChain source top inner) : inner.node.size ≤ top.node.size := by
  induction h with
  | refl => exact le_rfl
  | tail _ hstep ih =>
    have := Site.size_lt_of_mem_children hstep.mem_children
    omega

theorem InChain.mem_sites {root : Node} (h : InChain source top inner)
    (ht : top ∈ root.sites .preorder) : inner ∈ root.sites .preorder := by
  induction h with
  | refl => exact ht
  | tail _ hstep ih => exact Site.children_mem_preorderFrom ih hstep.mem_children

theorem InChain.reaches (h : InChain source top inner) : Reaches source top.node inner.node := by
  induction h using Relation.ReflTransGen.head_induction_on with
  | refl => exact .here _
  | @head site next hstep _ ih =>
    cases hstep with
    | left hc hl => exact .left hc (by rw [← Site.map_node_child?, hl]; rfl) ih
    | right hc hr => exact .right hc (by rw [← Site.map_node_child?, hr]; rfl) ih
    | inside hk hn =>
      have hnamed := site.map_node_namedChildren
      rw [hn] at hnamed
      exact .inside hk hnamed.symm ih

/-- What the flattening of a node comes to stands somewhere in the chain of every site of it. -/
theorem Reaches.exists_inChain (h : Reaches source node leaf) (top : Site) (ht : top.node = node) :
    ∃ inner, InChain source top inner ∧ inner.node = leaf := by
  induction h generalizing top with
  | here node => exact ⟨top, .refl, ht⟩
  | left hc hl _ ih =>
    subst ht
    obtain ⟨next, hnext, hnode⟩ := Site.exists_child? hl
    obtain ⟨inner, hin, hleaf⟩ := ih next hnode
    exact ⟨inner, .head (.left hc hnext) hin, hleaf⟩
  | right hc hr _ ih =>
    subst ht
    obtain ⟨next, hnext, hnode⟩ := Site.exists_child? hr
    obtain ⟨inner, hin, hleaf⟩ := ih next hnode
    exact ⟨inner, .head (.right hc hnext) hin, hleaf⟩
  | inside hk hf _ ih =>
    subst ht
    rw [← Site.map_node_namedChildren, List.map_eq_cons_iff] at hf
    obtain ⟨next, rest, hnext, hnode, -⟩ := hf
    obtain ⟨inner, hin, hleaf⟩ := ih next hnode
    exact ⟨inner, .head (.inside hk hnext) hin, hleaf⟩

theorem isLeaf_of_kind (hb : node.kind ≠ "binary_expression")
    (hp : node.kind ≠ "parenthesized_expression") : IsLeaf source node :=
  ⟨isConcat_eq_false_of_kind hb, fun h => absurd h hp⟩

theorem reaches_leaf_iff (h : IsLeaf source node) :
    Reaches source node leaf ∧ IsLeaf source leaf ↔ leaf = node := by
  constructor
  · rintro ⟨hreach, -⟩
    cases hreach with
    | here => rfl
    | left hc => exact absurd hc (by rw [h.not_plus]; decide)
    | right hc => exact absurd hc (by rw [h.not_plus]; decide)
    | inside hk hf => exact absurd hf (by rw [h.encloses_nothing hk]; simp)
  · rintro rfl
    exact ⟨.here _, h⟩

/-- The leaf operands are the nodes of the chain where the flattening ends. -/
theorem mem_operands_iff {leaves : List Node} (hok : operands source node = .ok leaves) :
    leaf ∈ leaves ↔ Reaches source node leaf ∧ IsLeaf source leaf := by
  fun_induction operands source node generalizing leaves with
  | case1 node hc left right hl hr ihl ihr =>
    obtain ⟨first, hfirst, hok⟩ := bind_eq_ok.mp hok
    obtain ⟨second, hsecond, hok⟩ := bind_eq_ok.mp hok
    cases hok
    rw [List.mem_append, ihl hfirst, ihr hsecond]
    constructor
    · rintro (⟨hreach, hleaf⟩ | ⟨hreach, hleaf⟩)
      · exact ⟨.left hc hl hreach, hleaf⟩
      · exact ⟨.right hc hr hreach, hleaf⟩
    · rintro ⟨hreach, hleaf⟩
      cases hreach with
      | here => exact absurd hc (by rw [hleaf.not_plus]; decide)
      | left _ hl' hreach =>
        cases hl.symm.trans hl'
        exact Or.inl ⟨hreach, hleaf⟩
      | right _ hr' hreach =>
        cases hr.symm.trans hr'
        exact Or.inr ⟨hreach, hleaf⟩
      | inside hk => exact absurd (kind_of_isConcat hc) (by rw [hk]; decide)
  | case2 node hc hmissing => cases hok
  | case3 node hc hk first rest hf ih =>
    rw [ih hok]
    constructor
    · rintro ⟨hreach, hleaf⟩
      exact ⟨.inside (by simpa using hk) hf hreach, hleaf⟩
    · rintro ⟨hreach, hleaf⟩
      cases hreach with
      | here => exact absurd hf (by rw [hleaf.encloses_nothing (by simpa using hk)]; simp)
      | left hc' => exact absurd hc' hc
      | right hc' => exact absurd hc' hc
      | inside _ hf' hreach =>
        cases hf.symm.trans hf'
        exact ⟨hreach, hleaf⟩
  | case4 node hc hk hf =>
    cases hok
    have hnode : IsLeaf source node := ⟨by simpa using hc, fun _ => hf⟩
    rw [List.mem_singleton, reaches_leaf_iff hnode]
  | case5 node hc hk =>
    cases hok
    have hnode : IsLeaf source node := ⟨by simpa using hc, fun h => absurd h (by simpa using hk)⟩
    rw [List.mem_singleton, reaches_leaf_iff hnode]

theorem operands_of_isLeaf (h : IsLeaf source node) : operands source node = .ok [node] := by
  rw [operands_eq, h.not_plus, if_neg (by decide)]
  by_cases hk : node.kind = "parenthesized_expression"
  · rw [if_pos (beq_iff_eq.mpr hk), h.encloses_nothing hk]
  · rw [if_neg (by simpa using hk)]

theorem operands_of_plus {left right : Node} {first second : List Node}
    (hc : isConcat source node = true) (hl : node.child? "left" = some left)
    (hr : node.child? "right" = some right) (hfirst : operands source left = .ok first)
    (hsecond : operands source right = .ok second) :
    operands source node = .ok (first ++ second) := by
  rw [operands_eq, if_pos hc, hl, hr]
  exact bind_eq_ok.mpr ⟨first, hfirst, bind_eq_ok.mpr ⟨second, hsecond, rfl⟩⟩

theorem operands_of_parentheses {first : Node} {rest : List Node}
    (hk : node.kind = "parenthesized_expression") (hn : node.namedChildren = first :: rest) :
    operands source node = operands source first := by
  have hc : isConcat source node = false := isConcat_eq_false_of_kind (by rw [hk]; decide)
  rw [operands_eq, hc, hk, hn]
  rfl

/-- Some leaf of a chain is a text with an SQL keyword, and some leaf is not a literal. -/
structure Mixes (source : Source) (site : Site) : Prop where
  keyword : ∃ leaf text, InChain source site leaf ∧ IsLeaf source leaf.node ∧
    Security.stringValue? source leaf.node = some text ∧ Wording.hasSqlKeyword text = true
  dynamic : ∃ leaf, InChain source site leaf ∧ IsLeaf source leaf.node ∧
    leaf.node.kind ∉ Security.literalKinds

/-- The leaves of an inner chain are leaves of the chain around it. -/
theorem Mixes.of_inChain (hin : InChain source top inner) (h : Mixes source inner) :
    Mixes source top := by
  obtain ⟨leaf, text, hleaf, hend, hvalue, hkeyword⟩ := h.keyword
  obtain ⟨other, hother, hstop, hkind⟩ := h.dynamic
  exact ⟨⟨leaf, text, hin.trans hleaf, hend, hvalue, hkeyword⟩,
    ⟨other, hin.trans hother, hstop, hkind⟩⟩

theorem exists_leaf_iff {leaves : List Node} (hok : operands source site.node = .ok leaves)
    {test : Node → Prop} :
    (∃ node ∈ leaves, test node) ↔
      ∃ leaf, InChain source site leaf ∧ IsLeaf source leaf.node ∧ test leaf.node := by
  constructor
  · rintro ⟨node, hmem, htest⟩
    obtain ⟨hreach, hend⟩ := (mem_operands_iff hok).mp hmem
    obtain ⟨leaf, hin, rfl⟩ := hreach.exists_inChain site rfl
    exact ⟨leaf, hin, hend, htest⟩
  · rintro ⟨leaf, hin, hend, htest⟩
    exact ⟨leaf.node, (mem_operands_iff hok).mpr ⟨hin.reaches, hend⟩, htest⟩

namespace Security

theorem hasSqlKeyword_stringValue? :
    Wording.hasSqlKeyword ((stringValue? source node).getD "") = true ↔
      ∃ text, stringValue? source node = some text ∧ Wording.hasSqlKeyword text = true := by
  cases stringValue? source node with
  | none => simp [Wording.hasSqlKeyword, Wording.keywordFrom]
  | some text => simp

theorem buildsQuery_iff_mixes {leaves : List Node} (hok : operands source site.node = .ok leaves) :
    buildsQuery source leaves = true ↔ Mixes source site := by
  rw [buildsQuery, Bool.and_eq_true, List.any_eq_true, List.any_eq_true]
  simp only [hasSqlKeyword_stringValue?, Bool.not_eq_true', List.contains_eq_mem,
    decide_eq_false_iff_not, exists_leaf_iff hok]
  constructor
  · rintro ⟨⟨leaf, hin, hend, text, hvalue, hkeyword⟩, hdynamic⟩
    exact ⟨⟨leaf, text, hin, hend, hvalue, hkeyword⟩, hdynamic⟩
  · rintro ⟨⟨leaf, text, hin, hend, hvalue, hkeyword⟩, hdynamic⟩
    exact ⟨⟨leaf, hin, hend, text, hvalue, hkeyword⟩, hdynamic⟩

def hasKeyword (source : Source) (leaves : List Node) : Bool :=
  leaves.any fun leaf => Wording.hasSqlKeyword ((stringValue? source leaf).getD "")

def hasDynamic (leaves : List Node) : Bool :=
  leaves.any fun leaf => !literalKinds.contains leaf.kind

/-- What an operand of a chain counts for: the text it holds, and whether it is a literal. -/
def verdict (source : Source) (leaf : Node) : Option String × Bool :=
  (stringValue? source leaf, literalKinds.contains leaf.kind)

section Verdicts
variable {other : Source} {leaves left : List Node}
  (h : left.map (verdict other) = leaves.map (verdict source))
include h

theorem hasKeyword_of_verdicts : hasKeyword other left = hasKeyword source leaves := by
  have hverdicts (source : Source) (leaves : List Node) : hasKeyword source leaves =
      (leaves.map (verdict source)).any fun found => Wording.hasSqlKeyword (found.1.getD "") := by
    rw [List.any_map]
    rfl
  rw [hverdicts, hverdicts, h]

theorem hasDynamic_of_verdicts : hasDynamic left = hasDynamic leaves := by
  have hverdicts (source : Source) (leaves : List Node) :
      hasDynamic leaves = (leaves.map (verdict source)).any (!·.2) := by
    rw [List.any_map]
    rfl
  rw [hverdicts other, hverdicts source, h]

/-- Whether a query is built is a matter of the verdicts. -/
theorem buildsQuery_of_verdicts : buildsQuery other left = buildsQuery source leaves := by
  have hparts (source : Source) (leaves : List Node) :
      buildsQuery source leaves = (hasKeyword source leaves && hasDynamic leaves) := rfl
  rw [hparts, hparts, hasKeyword_of_verdicts h, hasDynamic_of_verdicts h]

end Verdicts

def isReported (source : Source) (site : Site) : Bool :=
  isOutermostConcat source site &&
    match operands source site.node with
    | .ok leaves => buildsQuery source leaves
    | .error _ => false

def reportedSites (source : Source) : List Site :=
  (source.root.sites .preorder).filter (isReported source)

theorem reportedSites_eq (source : Source) :
    reportedSites source =
      ((source.root.sites .preorder).filter (isOutermostConcat source)).filter
        (isReported source) := by
  rw [reportedSites, List.filter_filter]
  apply List.filter_congr
  intro site _
  rw [isReported, Bool.and_right_comm, Bool.and_self]

theorem mem_reportedSites {leaves : List Node} (hok : operands source site.node = .ok leaves) :
    site ∈ reportedSites source ↔
      site ∈ source.root.sites .preorder ∧ isOutermostConcat source site = true ∧
        Mixes source site := by
  rw [reportedSites, List.mem_filter, isReported, hok, Bool.and_eq_true,
    buildsQuery_iff_mixes hok]

theorem lines_of_results {sites : List Site} {results : List (Option Finding)}
    (h : List.Forall₂ (fun site result => sqlInjection? source site = .ok result) sites results)
    (hout : ∀ site ∈ sites, isOutermostConcat source site = true) :
    (results.filterMap id).map (·.line) =
      (sites.filter (isReported source)).map (source.line ·.node) := by
  induction h with
  | nil => rfl
  | @cons site result sites results hsite _ ih =>
    rw [List.forall_mem_cons] at hout
    obtain ⟨leaves, hok, hresult⟩ := bind_eq_ok.mp hsite
    have hreported : isReported source site = buildsQuery source leaves := by
      rw [isReported, hout.1, hok, Bool.true_and]
    split at hresult
    · cases hresult
      rw [List.filter_cons_of_pos (by rw [hreported]; assumption), List.map_cons, ← ih hout.2]
      rfl
    · cases hresult
      rw [List.filter_cons_of_neg (by rw [hreported]; assumption), ← ih hout.2]
      rfl

/-- One finding for each reported site, in the order of the walk and at the line of the site. -/
theorem sqlInjections_lines {found : List Finding} (h : sqlInjections source = .ok found) :
    found.map (·.line) = (reportedSites source).map (source.line ·.node) := by
  obtain ⟨results, hresults, h⟩ := bind_eq_ok.mp h
  cases h
  rw [lines_of_results (mapM_eq_ok_iff.mp hresults) fun site hsite => (List.mem_filter.mp hsite).2,
    reportedSites, Source.findAll, Node.findAll, List.filter_filter, List.filter_filter]
  congr 1
  apply List.filter_congr
  intro site _
  by_cases hr : isReported source site = true
  · have hout := (Bool.and_eq_true_iff.mp hr).1
    have hplus := (isOutermostConcat_iff.mp hout).1
    simp [hr, hout, kind_of_isConcat hplus]
  · simp [hr]

end Security

/-- The binary expressions directly below a binary expression are its operands. -/
def OperandsOnly (root : Node) : Prop :=
  ∀ site ∈ root.sites .preorder, site.node.kind = "binary_expression" →
    ∀ child ∈ site.children, child.node.kind = "binary_expression" →
      (site.child? "left").map Site.address = some child.address ∨
        (site.child? "right").map Site.address = some child.address

structure Maximal (source : Source) (site : Site) : Prop where
  mem_sites : site ∈ source.root.sites .preorder
  isPlus : isConcat source site.node = true
  alone : ∀ other ∈ source.root.sites .preorder, isConcat source other.node = true →
    InChain source other site → other = site

structure InParentheses (source : Source) (top inner : Site) : Prop where
  isPlus : isConcat source inner.node = true
  encloses : ∃ outer rest, InChain source top outer ∧
    outer.node.kind = "parenthesized_expression" ∧ outer.namedChildren = inner :: rest

theorem InParentheses.inChain (h : InParentheses source top inner) : InChain source top inner := by
  obtain ⟨outer, rest, hin, hk, hn⟩ := h.encloses
  exact hin.tail (.inside hk hn)

theorem InParentheses.isOutermost (h : InParentheses source top inner) :
    Security.isOutermostConcat source inner = true := by
  obtain ⟨outer, rest, hin, hk, hn⟩ := h.encloses
  have hstep : Flattens source outer inner := .inside hk hn
  refine isOutermostConcat_iff.mpr ⟨h.isPlus, ?_⟩
  intro parent hparent
  rw [Site.parent_of_mem_children hstep.mem_children, Option.mem_some_iff] at hparent
  subst hparent
  exact isConcat_eq_false_of_kind (by rw [hk]; decide)

theorem InParentheses.ne (h : InParentheses source top inner) : inner ≠ top := by
  rintro rfl
  obtain ⟨outer, rest, hin, hk, hn⟩ := h.encloses
  have hstep : Flattens source outer inner := .inside hk hn
  have hlt := Site.size_lt_of_mem_children hstep.mem_children
  have hle := hin.size_le
  omega

theorem Maximal.isOutermost (h : Maximal source top) (hoperands : OperandsOnly source.root) :
    Security.isOutermostConcat source top = true := by
  refine isOutermostConcat_iff.mpr ⟨h.isPlus, ?_⟩
  intro parent hparent
  by_contra hplus
  rw [Bool.not_eq_false] at hplus
  rcases Site.mem_preorderFrom_cases h.mem_sites with hroot | ⟨above, habove, hchild⟩
  · rw [List.mem_singleton.mp hroot] at hparent
    cases hparent
  · rw [Site.parent_of_mem_children hchild, Option.mem_some_iff] at hparent
    subst hparent
    -- A `+` right below a `+` is one of its operands, and so lies in its chain.
    have hstep : Flattens source above top := by
      rcases hoperands above habove (kind_of_isConcat hplus) top hchild
        (kind_of_isConcat h.isPlus) with hl | hr
      · obtain ⟨next, hnext, haddress⟩ := Option.map_eq_some_iff.mp hl
        have hmem := List.mem_of_find?_eq_some hnext
        rw [Site.eq_of_address_eq hmem hchild haddress] at hnext
        exact .left hplus hnext
      · obtain ⟨next, hnext, haddress⟩ := Option.map_eq_some_iff.mp hr
        have hmem := List.mem_of_find?_eq_some hnext
        rw [Site.eq_of_address_eq hmem hchild haddress] at hnext
        exact .right hplus hnext
    have heq := h.alone above habove hplus (.single hstep)
    have hlt := Site.size_lt_of_mem_children hchild
    rw [heq] at hlt
    omega

theorem maximal_of_parent (hs : site ∈ source.root.sites .preorder)
    (hplus : isConcat source site.node = true)
    (hparent : ∀ parent ∈ site.parent, parent.kind ≠ "binary_expression" ∧
      parent.kind ≠ "parenthesized_expression") : Maximal source site := by
  refine ⟨hs, hplus, ?_⟩
  intro other _ _ hin
  rcases Relation.ReflTransGen.cases_tail hin with heq | ⟨outer, -, hstep⟩
  · exact heq.symm
  · obtain ⟨hbinary, henclosing⟩ :=
      hparent outer.node (Site.parent_of_mem_children hstep.mem_children)
    cases hstep with
    | left hc => exact absurd (kind_of_isConcat hc) hbinary
    | right hc => exact absurd (kind_of_isConcat hc) hbinary
    | inside hk => exact absurd hk henclosing

theorem exists_operands_of_inChain (hin : InChain source top inner)
    (h : ∃ leaves, operands source top.node = .ok leaves) :
    ∃ leaves, operands source inner.node = .ok leaves := by
  rw [exists_operands_iff] at h ⊢
  intro target hreach
  obtain ⟨last, hlast, rfl⟩ := hreach.exists_inChain inner rfl
  exact h last.node (hin.trans hlast).reaches

namespace Security

/-- In the chain of a maximal `+` there are reported that `+` itself and those in parentheses, as
far as they are vulnerable. -/
theorem mem_reportedSites_of_inChain (hoperands : OperandsOnly source.root)
    (hmax : Maximal source top) (hok : ∃ leaves, operands source top.node = .ok leaves)
    (hin : InChain source top inner) :
    inner ∈ reportedSites source ↔
      (inner = top ∨ InParentheses source top inner) ∧ Mixes source inner := by
  obtain ⟨leaves, hleaves⟩ := exists_operands_of_inChain hin hok
  rw [mem_reportedSites hleaves]
  constructor
  · rintro ⟨-, hout, hmixes⟩
    refine ⟨?_, hmixes⟩
    obtain ⟨hplus, hparent⟩ := isOutermostConcat_iff.mp hout
    rcases Relation.ReflTransGen.cases_tail hin with heq | ⟨outer, houter, hstep⟩
    · exact Or.inl heq
    · have hnot := hparent outer.node (Site.parent_of_mem_children hstep.mem_children)
      cases hstep with
      | left hc => exact absurd hc (by rw [hnot]; decide)
      | right hc => exact absurd hc (by rw [hnot]; decide)
      | inside hk hn => exact Or.inr ⟨hplus, outer, _, houter, hk, hn⟩
  · rintro ⟨hplace, hmixes⟩
    refine ⟨hin.mem_sites hmax.mem_sites, ?_, hmixes⟩
    rcases hplace with rfl | hpar
    · exact hmax.isOutermost hoperands
    · exact hpar.isOutermost

theorem mem_reportedSites_of_maximal (hoperands : OperandsOnly source.root)
    (hmax : Maximal source top) (hok : ∃ leaves, operands source top.node = .ok leaves) :
    top ∈ reportedSites source ↔ Mixes source top := by
  rw [mem_reportedSites_of_inChain hoperands hmax hok .refl]
  simp

end Security

end Check

namespace Analyzer

open Check Check.Security

variable {path : Path} {source : Source} {issues : List Issue}

theorem sql_issue_lines (h : vulnerability.run ⟨path, some source⟩ = .ok issues) :
    (issues.filter (·.ruleId == Rule.sqlInjection.id)).map (·.line) =
      (reportedSites source).map fun site => (source.line site.node : Int) := by
  obtain ⟨injections, hi, hparts⟩ := security_issues_of_rule rfl h
  have hlines := congrArg (List.map (Nat.cast : Nat → Int)) (sqlInjections_lines hi)
  rw [hparts (.sqlInjection, injections) List.mem_cons_self, List.map_map]
  rw [List.map_map, List.map_map] at hlines
  exact hlines

theorem exists_operands_of_run (h : vulnerability.run ⟨path, some source⟩ = .ok issues)
    {site : Site} (hs : site ∈ source.root.sites .preorder)
    (hout : isOutermostConcat source site = true) :
    ∃ leaves, operands source site.node = .ok leaves := by
  have hfindings := exists_vulnerability_run.mp ⟨issues, h⟩
  apply exists_findings_iff.mp hfindings site _ hout
  apply List.mem_filter.mpr
  exact ⟨hs, by simp [kind_of_isConcat (isOutermostConcat_iff.mp hout).1]⟩

def isWhole (node : Node) : Bool :=
  node.kind != "binary_expression" ||
    ((node.child? "left").isSome && (node.child? "right").isSome)

theorem whole_of_all (h : (source.root.sites .preorder).all (isWhole ·.node) = true) :
    ∀ node, source.root.Within node → isConcat source node = true →
      (node.child? "left").isSome = true ∧ (node.child? "right").isSome = true := by
  intro node hwithin hplus
  simpa [isWhole, kind_of_isConcat hplus] using Node.forall_within_of_all isWhole h node hwithin

theorem exists_run_of_operands (path : Path)
    (hwhole : ∀ node, source.root.Within node → isConcat source node = true →
      (node.child? "left").isSome = true ∧ (node.child? "right").isSome = true) :
    ∃ issues, vulnerability.run ⟨path, some source⟩ = .ok issues := by
  apply returnsOn_iff.mp
  apply returnsOn_vulnerability.mpr
  intro site hsite hbroken
  obtain ⟨node, hreach, hplus, hmissing⟩ := hbroken.breaks
  have hboth := hwhole node (hreach.within (Node.within_sites hsite).1) hplus
  rcases hmissing with hmissing | hmissing
  · simp [hmissing] at hboth
  · simp [hmissing] at hboth

/-- The issues on chains stand for sites, one for each. No two of them lie in the chain of a maximal
`+` exactly when nothing in parentheses inside that chain is vulnerable by itself. -/
theorem sql_issues_once_per_chain_iff (path : Path) (source : Source) (issues : List Issue)
    (hoperands : OperandsOnly source.root)
    (hrun : vulnerability.run ⟨path, some source⟩ = .ok issues) :
    (issues.filter (·.ruleId == Rule.sqlInjection.id)).map (·.line) =
      (reportedSites source).map (fun site => (source.line site.node : Int)) ∧
    ∀ top, Maximal source top →
      ((reportedSites source).Pairwise
          (fun first second => ¬ (InChain source top first ∧ InChain source top second)) ↔
        ∀ inner, InParentheses source top inner → ¬ Mixes source inner) := by
  refine ⟨sql_issue_lines hrun, ?_⟩
  intro top hmax
  have hok := exists_operands_of_run hrun hmax.mem_sites (hmax.isOutermost hoperands)
  constructor
  · intro hpairs inner hpar hmixes
    have hinner : inner ∈ reportedSites source :=
      (mem_reportedSites_of_inChain hoperands hmax hok hpar.inChain).mpr ⟨Or.inr hpar, hmixes⟩
    have htop : top ∈ reportedSites source :=
      (mem_reportedSites_of_maximal hoperands hmax hok).mpr (hmixes.of_inChain hpar.inChain)
    have hsymmetric : Std.Symm fun first second =>
        ¬ (InChain source top first ∧ InChain source top second) := by
      constructor
      intro first second h hboth
      exact h hboth.symm
    exact hpairs.forall hinner htop hpar.ne ⟨hpar.inChain, .refl⟩
  · intro hnone
    have htop : ∀ site ∈ reportedSites source, InChain source top site → site = top := by
      intro site hsite hin
      obtain ⟨hplace, hmixes⟩ :=
        (mem_reportedSites_of_inChain hoperands hmax hok hin).mp hsite
      rcases hplace with heq | hpar
      · exact heq
      · exact absurd hmixes (hnone site hpar)
    apply (source.root.sites_nodup.filter (isReported source)).imp_of_mem
    rintro first second hfirst hsecond hne ⟨hin, hother⟩
    exact hne ((htop first hfirst hin).trans (htop second hsecond hother).symm)

/-- Where every `+` has both operands the analyzer returns; it reports a maximal `+` exactly when
its chain is vulnerable, and if it does not, it reports nothing inside that chain. -/
theorem maximal_chain_reported_iff (path : Path) (source : Source)
    (hoperands : OperandsOnly source.root)
    (hwhole : ∀ node, source.root.Within node → isConcat source node = true →
      (node.child? "left").isSome = true ∧ (node.child? "right").isSome = true) :
    ∃ issues, vulnerability.run ⟨path, some source⟩ = .ok issues ∧
      (issues.filter (·.ruleId == Rule.sqlInjection.id)).map (·.line) =
        (reportedSites source).map (fun site => (source.line site.node : Int)) ∧
      ∀ top, Maximal source top →
        (top ∈ reportedSites source ↔ Mixes source top) ∧
        (top ∉ reportedSites source → ∀ inner, InChain source top inner →
          isConcat source inner.node = true → inner ∉ reportedSites source) := by
  obtain ⟨issues, hrun⟩ := exists_run_of_operands path hwhole
  refine ⟨issues, hrun, sql_issue_lines hrun, ?_⟩
  intro top hmax
  have hok := exists_operands_of_run hrun hmax.mem_sites (hmax.isOutermost hoperands)
  have htop := mem_reportedSites_of_maximal hoperands hmax hok
  refine ⟨htop, ?_⟩
  intro hnot inner hin _ hinner
  obtain ⟨-, hmixes⟩ := (mem_reportedSites_of_inChain hoperands hmax hok hin).mp hinner
  exact hnot (htop.mpr (hmixes.of_inChain hin))

end Analyzer

namespace ConcatChain

open Check Check.Security

def plus (start : Nat) : Node := ⟨"+", false, false, start, start + 1, some "operator", []⟩

def identifier (start : Nat) (field : String) : Node :=
  ⟨"identifier", true, false, start, start + 1, some field, []⟩

def literal (start : Nat) (field : String) : Node :=
  ⟨"string_literal", true, false, start, start + 6, some field, []⟩

def enclosed : Node :=
  ⟨"binary_expression", true, false, 10, 18, none,
    [identifier 10 "left", plus 11, literal 12 "right"]⟩

def opening : Node := ⟨"(", false, false, 9, 10, none, []⟩

def parentheses : Node :=
  ⟨"parenthesized_expression", true, false, 9, 19, some "right",
    [opening, enclosed, ⟨")", false, false, 18, 19, none, []⟩]⟩

def beginning : Node :=
  ⟨"binary_expression", true, false, 0, 8, some "left",
    [literal 0 "left", plus 6, identifier 7 "right"]⟩

def whole : Node :=
  ⟨"binary_expression", true, false, 0, 19, none, [beginning, plus 8, parentheses]⟩

def root : Node := ⟨"program", true, false, 0, 19, none, [whole]⟩

/-- Two texts of six bytes each with their quotes, in `first+y+(x+second)`. -/
def joined (first second : Text.Bytes) : Source :=
  ⟨first ++ [43, 121, 43, 40, 120, 43] ++ second ++ [41], root⟩

def keyword : Text.Bytes := [34, 100, 114, 111, 112, 34]

def letters : Text.Bytes := [34, 97, 98, 99, 100, 34]

def top : Site := ⟨whole, some root, none, [0]⟩

def inner : Site := ⟨enclosed, some parentheses, some opening, [0, 2, 1]⟩

def path : Path := ⟨.relative, ["A.java"]⟩

theorem root_operandsOnly : OperandsOnly root := by
  have hall : ((root.sites .preorder).all fun site =>
      site.node.kind != "binary_expression" || site.children.all fun child =>
        child.node.kind != "binary_expression" ||
          (site.child? "left").map Site.address == some child.address) = true := by cbv
  intro site hsite hk child hc hkc
  have hsite := List.all_eq_true.mp hall site hsite
  rw [hk] at hsite
  have hchild := List.all_eq_true.mp hsite child hc
  rw [hkc] at hchild
  exact Or.inl (beq_iff_eq.mp hchild)

theorem operands_enclosed {source : Source} (h : isConcat source enclosed = true) :
    operands source enclosed = .ok [identifier 10 "left", literal 12 "right"] :=
  operands_of_plus h rfl rfl (operands_of_isLeaf (isLeaf_of_kind (by decide) (by decide)))
    (operands_of_isLeaf (isLeaf_of_kind (by decide) (by decide)))

theorem operands_whole {source : Source} (h : isConcat source whole = true)
    (hb : isConcat source beginning = true) (he : isConcat source enclosed = true) :
    operands source whole = .ok [literal 0 "left", identifier 7 "right", identifier 10 "left",
      literal 12 "right"] := by
  have hbeginning : operands source beginning = .ok [literal 0 "left", identifier 7 "right"] :=
    operands_of_plus hb rfl rfl (operands_of_isLeaf (isLeaf_of_kind (by decide) (by decide)))
      (operands_of_isLeaf (isLeaf_of_kind (by decide) (by decide)))
  have hparentheses :
      operands source parentheses = .ok [identifier 10 "left", literal 12 "right"] :=
    (operands_of_parentheses rfl rfl).trans (operands_enclosed he)
  exact operands_of_plus h rfl rfl hbeginning hparentheses

theorem reportedSites_joined (first second : Text.Bytes) (atTop atInner : Bool)
    (hw : isConcat (joined first second) whole = true)
    (hb : isConcat (joined first second) beginning = true)
    (he : isConcat (joined first second) enclosed = true)
    (hout : (root.sites .preorder).filter (isOutermostConcat (joined first second)) = [top, inner])
    (htop : buildsQuery (joined first second) [literal 0 "left", identifier 7 "right",
      identifier 10 "left", literal 12 "right"] = atTop)
    (hinner : buildsQuery (joined first second) [identifier 10 "left", literal 12 "right"] =
      atInner) :
    reportedSites (joined first second) =
      (if atTop then [top] else []) ++ (if atInner then [inner] else []) := by
  have houtermost : ∀ site ∈ [top, inner], isOutermostConcat (joined first second) site = true := by
    intro site hsite
    rw [← hout] at hsite
    exact (List.mem_filter.mp hsite).2
  have hfirst : isReported (joined first second) top = atTop := by
    rw [isReported, houtermost top (by simp), show top.node = whole from rfl,
      operands_whole hw hb he, ← htop, Bool.true_and]
  have hsecond : isReported (joined first second) inner = atInner := by
    rw [isReported, houtermost inner (by simp), show inner.node = enclosed from rfl,
      operands_enclosed he, ← hinner, Bool.true_and]
  rw [reportedSites_eq, show (joined first second).root = root from rfl, hout]
  simp only [List.filter_cons, hfirst, hsecond, List.filter_nil]
  cases atTop <;> cases atInner <;> rfl

theorem reported_keyword_outside : reportedSites (joined keyword letters) = [top] :=
  reportedSites_joined keyword letters true false (by cbv) (by cbv) (by cbv) (by cbv)
    (by decide +kernel) (by decide +kernel)

theorem reported_keyword_inside : reportedSites (joined letters keyword) = [top, inner] :=
  reportedSites_joined letters keyword true true (by cbv) (by cbv) (by cbv) (by cbv)
    (by decide +kernel) (by decide +kernel)

theorem joined_whole {first second : Text.Bytes} :
    ∀ node, (joined first second).root.Within node → isConcat (joined first second) node = true →
      (node.child? "left").isSome = true ∧ (node.child? "right").isSome = true := by
  apply Analyzer.whole_of_all
  cbv

theorem top_maximal {first second : Text.Bytes}
    (h : isConcat (joined first second) whole = true) : Maximal (joined first second) top := by
  apply maximal_of_parent
  · exact Site.children_mem_preorderFrom (Site.mem_preorderFrom List.mem_cons_self)
      List.mem_cons_self
  · exact h
  · intro parent hparent
    cases hparent
    decide

theorem inner_inParentheses {first second : Text.Bytes}
    (h : isConcat (joined first second) whole = true)
    (he : isConcat (joined first second) enclosed = true) :
    InParentheses (joined first second) top inner := by
  have hstep : Flattens (joined first second) top
      ⟨parentheses, some whole, some (plus 8), [0, 2]⟩ := .right h rfl
  exact ⟨he, _, [], .single hstep, rfl, rfl⟩

/-- `drop` stands before the parentheses: one issue, and nothing inside is vulnerable. -/
theorem one_issue_for_keyword_outside :
    let source := joined keyword letters
    OperandsOnly source.root ∧ Maximal source top ∧ InParentheses source top inner ∧
      ∃ issues, Analyzer.vulnerability.run ⟨path, some source⟩ = .ok issues ∧
        (issues.filter (·.ruleId == Rule.sqlInjection.id)).map (·.line) = [1] ∧
        ¬ Mixes source inner := by
  intro source
  have hmax : Maximal source top := top_maximal (by cbv)
  have hpar : InParentheses source top inner := inner_inParentheses (by cbv) (by cbv)
  obtain ⟨issues, hrun⟩ := Analyzer.exists_run_of_operands path joined_whole
  obtain ⟨hlines, hchains⟩ :=
    Analyzer.sql_issues_once_per_chain_iff path source issues root_operandsOnly hrun
  rw [reported_keyword_outside] at hlines hchains
  exact ⟨root_operandsOnly, hmax, hpar, issues, hrun, hlines,
    (hchains top hmax).mp (List.pairwise_singleton _ _) inner hpar⟩

/-- `drop` stands in the parentheses: two issues within one chain. -/
theorem two_issues_for_keyword_inside :
    let source := joined letters keyword
    OperandsOnly source.root ∧ Maximal source top ∧ InChain source top inner ∧ inner ≠ top ∧
      reportedSites source = [top, inner] ∧
      ∃ issues, Analyzer.vulnerability.run ⟨path, some source⟩ = .ok issues ∧
        (issues.filter (·.ruleId == Rule.sqlInjection.id)).map (·.line) = [1, 1] := by
  intro source
  have hpar : InParentheses source top inner := inner_inParentheses (by cbv) (by cbv)
  obtain ⟨issues, hrun⟩ := Analyzer.exists_run_of_operands path joined_whole
  have hlines := Analyzer.sql_issue_lines hrun
  rw [reported_keyword_inside] at hlines
  exact ⟨root_operandsOnly, top_maximal (by cbv), hpar.inChain, hpar.ne, reported_keyword_inside,
    issues, hrun, hlines⟩

/-- The chain with `drop` before the parentheses is vulnerable, since it is reported. -/
theorem chain_of_keyword_outside_mixes :
    let source := joined keyword letters
    OperandsOnly source.root ∧
      (∀ node, source.root.Within node → isConcat source node = true →
        (node.child? "left").isSome = true ∧ (node.child? "right").isSome = true) ∧
      Maximal source top ∧ top ∈ reportedSites source ∧ Mixes source top := by
  intro source
  have hmax : Maximal source top := top_maximal (by cbv)
  have htop : top ∈ reportedSites source := by
    rw [reported_keyword_outside]
    exact List.mem_cons_self
  obtain ⟨issues, -, -, hchains⟩ :=
    Analyzer.maximal_chain_reported_iff path source root_operandsOnly joined_whole
  exact ⟨root_operandsOnly, joined_whole, hmax, htop, (hchains top hmax).1.mp htop⟩

end ConcatChain

end JavaLint
