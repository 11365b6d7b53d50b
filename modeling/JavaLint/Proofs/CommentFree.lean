import JavaLint.Proofs.Positions
import JavaLint.Proofs.SecretContent

/-! Trees without the comments in their argument lists and parentheses. What is left of a tree is
walked as the tree was, with the comments passed over; so ordinary nodes are found again, one for
one and with the same texts and lines. -/
namespace JavaLint

def commentKinds : List String := ["line_comment", "block_comment"]

def Node.isComment (node : Node) : Bool := commentKinds.contains node.kind

def enclosureKinds : List String := ["argument_list", "parenthesized_expression"]

mutual

/-- A tree without the comments in its argument lists and parentheses. -/
def Node.withoutComments : Node → Node
  | ⟨kind, isNamed, isMissing, start, stop, field, children⟩ =>
    ⟨kind, isNamed, isMissing, start, stop, field,
      Node.allWithoutComments (enclosureKinds.contains kind) children⟩

def Node.allWithoutComments (enclosed : Bool) : List Node → List Node
  | [] => []
  | node :: rest =>
    if enclosed && node.isComment then Node.allWithoutComments enclosed rest
    else node.withoutComments :: Node.allWithoutComments enclosed rest

end

namespace Node

def keeps (node child : Node) : Bool := !(enclosureKinds.contains node.kind && child.isComment)

variable (node : Node)

theorem allWithoutComments_eq_map (enclosed : Bool) (nodes : List Node) :
    allWithoutComments enclosed nodes =
      (nodes.filter fun node => !(enclosed && node.isComment)).map withoutComments := by
  induction nodes with
  | nil => rfl
  | cons node rest ih =>
    rw [allWithoutComments, ih, List.filter_cons]
    by_cases hdrop : (enclosed && node.isComment) = true
    · simp [hdrop]
    · simp [hdrop]

@[simp] theorem kind_withoutComments : node.withoutComments.kind = node.kind := by
  cases node; rfl

@[simp] theorem isNamed_withoutComments : node.withoutComments.isNamed = node.isNamed := by
  cases node; rfl

@[simp] theorem field_withoutComments : node.withoutComments.field = node.field := by
  cases node; rfl

@[simp] theorem start_withoutComments : node.withoutComments.start = node.start := by
  cases node; rfl

@[simp] theorem stop_withoutComments : node.withoutComments.stop = node.stop := by
  cases node; rfl

theorem children_withoutComments :
    node.withoutComments.children = (node.children.filter node.keeps).map withoutComments := by
  cases node
  exact allWithoutComments_eq_map ..

variable {node}

theorem keeps_of_kind (h : node.kind ∉ enclosureKinds) (child : Node) :
    node.keeps child = true := by
  simp [keeps, h]

/-- The fields of a node stay, but for those of argument lists and parentheses. -/
theorem child?_withoutComments (h : node.kind ∉ enclosureKinds) (field : String) :
    node.withoutComments.child? field = (node.child? field).map withoutComments := by
  have hall : node.children.filter node.keeps = node.children := by
    rw [List.filter_eq_self]
    intro child _
    exact keeps_of_kind h child
  rw [child?, children_withoutComments, hall, List.find?_map, child?]
  simp

theorem namedChildren_withoutComments (node : Node) :
    node.withoutComments.namedChildren =
      (node.namedChildren.filter node.keeps).map withoutComments := by
  rw [namedChildren, children_withoutComments, List.filter_map, namedChildren, List.filter_filter,
    List.filter_filter]
  congr 1
  apply List.filter_congr
  intro child _
  simp [Bool.and_comm]

end Node

namespace Site

def place (site : Site) : Site := ⟨site.node, site.parent, none, []⟩

def placeWithoutComments (site : Site) : Site :=
  ⟨site.node.withoutComments, site.parent.map Node.withoutComments, none, []⟩

def isKept (site : Site) : Bool := site.parent.all (·.keeps site.node)

theorem isComment_of_isKept {site : Site} (h : site.isKept = false) :
    site.node.isComment = true := by
  cases hp : site.parent with
  | none =>
    rw [isKept, hp] at h
    cases h
  | some parent =>
    rw [isKept, hp, Option.all_some, Node.keeps, Bool.not_eq_false', Bool.and_eq_true] at h
    exact h.2

def Strips (site : Site) : Prop :=
  ∀ left : Site, left.place = site.placeWithoutComments →
    left.below.map place = (site.below.filter isKept).map placeWithoutComments

theorem below_of_leaf {site : Site} (h : site.node.children = []) : site.below = [site] := by
  rw [below_eq, children, h, ofChildren, List.flatMap_nil]

theorem strips_ofChildren (parent : Node) (address : List Nat) (position : Nat)
    (previous : Option Node) (nodes : List Node) (leftAddress : List Nat) (leftPosition : Nat)
    (leftPrevious : Option Node)
    (hleaf : ∀ child ∈ ofChildren parent address position previous nodes,
      child.node.isComment = true → child.node.children = [])
    (ih : ∀ child ∈ ofChildren parent address position previous nodes,
      child.isKept = true → Strips child) :
    ((ofChildren parent.withoutComments leftAddress leftPosition leftPrevious
        ((nodes.filter parent.keeps).map Node.withoutComments)).flatMap below).map place =
      (((ofChildren parent address position previous nodes).flatMap below).filter isKept).map
        placeWithoutComments := by
  induction nodes generalizing position previous leftPosition leftPrevious with
  | nil => rfl
  | cons node rest ihrest =>
    rw [ofChildren, List.forall_mem_cons] at hleaf ih
    rw [ofChildren, List.flatMap_cons, List.filter_append, List.map_append]
    by_cases hkeep : parent.keeps node = true
    · rw [List.filter_cons_of_pos hkeep, List.map_cons, ofChildren, List.flatMap_cons,
        List.map_append, ihrest (position + 1) (some node) _ _ hleaf.2 ih.2]
      congr 1
      exact ih.1 hkeep _ rfl
    · -- A comment that goes has no children, so nothing else goes with it.
      have hgone : isKept ⟨node, some parent, previous, address ++ [position]⟩ = false := by
        simpa [isKept] using hkeep
      rw [List.filter_cons_of_neg hkeep, ihrest (position + 1) (some node) _ _ hleaf.2 ih.2,
        below_of_leaf (hleaf.1 (isComment_of_isKept hgone)),
        List.filter_cons_of_neg (by simp [hgone])]
      rfl

theorem strips_of_leaves (site : Site) (hkeep : site.isKept = true)
    (hleaf : ∀ inner ∈ site.below, inner.node.isComment = true → inner.node.children = []) :
    Strips site := by
  induction site using from_children with
  | step site ih =>
    intro left hleft
    have hbelow : ∀ child ∈ site.children, ∀ inner ∈ child.below, inner ∈ site.below := by
      intro child hc inner hinner
      rw [below_eq]
      exact List.mem_cons_of_mem _ (List.mem_flatMap.mpr ⟨child, hc, hinner⟩)
    have hchild : ∀ child ∈ site.children, child.isKept = true → Strips child := by
      intro child hc hk
      exact ih child hc hk fun inner hinner => hleaf inner (hbelow child hc inner hinner)
    have hchildLeaf : ∀ child ∈ site.children, child.node.isComment = true →
        child.node.children = [] := by
      intro child hc
      apply hleaf child (hbelow child hc child _)
      rw [below_eq]
      exact List.mem_cons_self
    have hnode : left.node = site.node.withoutComments := congrArg Site.node hleft
    rw [below_eq, below_eq, List.filter_cons_of_pos hkeep, List.map_cons, List.map_cons, hleft,
      children, hnode, Node.children_withoutComments]
    congr 1
    exact strips_ofChildren _ _ _ _ _ _ _ _ hchildLeaf hchild

end Site

def Node.CommentLeaves (root : Node) : Prop :=
  ∀ node, root.Within node → node.isComment = true → node.children = []

theorem Node.sites_withoutComments {root : Node} (h : root.CommentLeaves) :
    (root.withoutComments.sites .preorder).map Site.place =
      ((root.sites .preorder).filter Site.isKept).map Site.placeWithoutComments := by
  apply Site.strips_of_leaves (.ofRoot root) rfl
  · intro inner hinner
    exact h inner.node (within_sites hinner).1
  · rfl

/-- A site of an ordinary node, and what is left of it. -/
structure Site.Remains (site left : Site) : Prop where
  kind : site.node.kind ∉ enclosureKinds
  node : left.node = site.node.withoutComments
  parent : left.parent = site.parent.map Node.withoutComments

/-- Ordinary nodes are found again, one for one. -/
theorem Node.findAll_withoutComments {root : Node} (h : root.CommentLeaves) {kinds : List String}
    (hkinds : ∀ kind ∈ kinds, kind ∉ commentKinds ∧ kind ∉ enclosureKinds) :
    List.Forall₂ Site.Remains (root.findAll kinds .preorder)
      (root.withoutComments.findAll kinds .preorder) := by
  have hkept : ∀ site : Site, (kinds.contains site.node.kind && site.isKept) =
      kinds.contains site.node.kind := by
    intro site
    by_cases hgone : site.isKept = false
    · have hcomment := Site.isComment_of_isKept hgone
      by_cases hmem : site.node.kind ∈ kinds
      · rw [isComment, List.contains_iff_mem] at hcomment
        exact absurd hcomment (hkinds _ hmem).1
      · simp [hmem]
    · simp [hgone]
  have hplaces : (root.findAll kinds .preorder).map Site.placeWithoutComments =
      (root.withoutComments.findAll kinds .preorder).map Site.place := by
    have hsites := congrArg (List.filter (kinds.contains ·.node.kind)) (sites_withoutComments h)
    simp only [List.filter_map, List.filter_filter, Function.comp_def, Site.placeWithoutComments,
      kind_withoutComments, hkept] at hsites
    exact hsites.symm
  rw [← List.forall₂_eq_eq_eq, List.forall₂_map_left_iff, List.forall₂_map_right_iff] at hplaces
  have hordinary : ∀ site ∈ root.findAll kinds .preorder, site.node.kind ∉ enclosureKinds := by
    intro site hsite
    exact (hkinds _ (within_findAll hsite).2).2
  apply ((List.forall₂_and_left _ _).mpr ⟨hordinary, hplaces⟩).imp
  rintro site left ⟨hkind, hplace⟩
  exact ⟨hkind, (congrArg Site.node hplace).symm, (congrArg Site.parent hplace).symm⟩

namespace Source

def withoutComments (source : Source) : Source := ⟨source.bytes, source.root.withoutComments⟩

variable (source : Source) {node : Node}

@[simp] theorem text_withoutComments (node : Node) :
    source.withoutComments.text node.withoutComments = source.text node := by
  simp [text, span, withoutComments]

@[simp] theorem line_withoutComments (node : Node) :
    source.withoutComments.line node.withoutComments = source.line node := by
  simp [line, withoutComments]

theorem fieldText_withoutComments (h : node.kind ∉ enclosureKinds) (field : String) :
    source.withoutComments.fieldText node.withoutComments field = source.fieldText node field := by
  rw [fieldText, fieldText, Node.child?_withoutComments h]
  cases node.child? field with
  | none => rfl
  | some child => exact source.text_withoutComments child

theorem name_withoutComments (h : node.kind ∉ enclosureKinds) :
    source.withoutComments.name node.withoutComments = source.name node :=
  source.fieldText_withoutComments h "name"

end Source

end JavaLint
