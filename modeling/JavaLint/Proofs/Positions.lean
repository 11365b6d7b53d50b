import JavaLint.Check.Concatenation
import Mathlib.Data.List.Lex
import Mathlib.Data.List.Nodup
import Mathlib.Data.Nat.Basic
import Mathlib.Data.Nat.Init
import Mathlib.Logic.Pairwise
import Mathlib.Order.Lattice

/-! Where the sites of a tree stand. The preorder walk is a recursion over the tree, and it comes to
the sites in increasing order of their addresses; so no site is visited twice. -/
namespace JavaLint

namespace Site

def below (site : Site) : List Site := preorderFrom [site]

theorem preorderFrom_append (stack more : List Site) :
    preorderFrom (stack ++ more) = preorderFrom stack ++ preorderFrom more := by
  fun_induction preorderFrom stack with
  | case1 => rfl
  | case2 top rest ih =>
    rw [List.cons_append, preorderFrom, ← List.append_assoc, ih]
    rfl

theorem preorderFrom_eq_flatMap (stack : List Site) : preorderFrom stack = stack.flatMap below := by
  induction stack with
  | nil => rw [preorderFrom, List.flatMap_nil]
  | cons top rest ih =>
    rw [List.flatMap_cons, ← ih, below, ← preorderFrom_append]
    rfl

/-- A subtree is its root and the subtrees of its children, from left to right. -/
theorem below_eq (site : Site) : site.below = site :: site.children.flatMap below := by
  rw [below, preorderFrom, List.append_nil, preorderFrom_eq_flatMap]

theorem size_lt_of_mem_children {site child : Site} (h : child ∈ site.children) :
    child.node.size < site.node.size := by
  apply Node.size_lt_of_mem
  rw [← map_node_children]
  exact List.mem_map_of_mem h

/-- Induction from the children of a site to the site. -/
theorem from_children {motive : Site → Prop}
    (step : ∀ site, (∀ child ∈ site.children, motive child) → motive site) (site : Site) :
    motive site := by
  induction hn : site.node.size using Nat.strong_induction_on generalizing site with
  | h n ih =>
    apply step
    intro child hc
    exact ih child.node.size (hn ▸ size_lt_of_mem_children hc) child rfl

theorem parent_of_mem_ofChildren {parent : Node} {address : List Nat} {position : Nat}
    {previous : Option Node} {nodes : List Node} :
    ∀ child ∈ ofChildren parent address position previous nodes, child.parent = some parent := by
  induction nodes generalizing position previous with
  | nil =>
    intro child hc
    cases hc
  | cons node rest ih =>
    intro child hc
    rcases List.mem_cons.mp hc with rfl | hc
    · rfl
    · exact ih child hc

theorem parent_of_mem_children {site child : Site} (h : child ∈ site.children) :
    child.parent = some site.node :=
  parent_of_mem_ofChildren child h

/-- Every visited site was on the stack at first, or is a child of a visited one. -/
theorem mem_preorderFrom_cases {stack : List Site} {site : Site} (h : site ∈ preorderFrom stack) :
    site ∈ stack ∨ ∃ parent ∈ preorderFrom stack, site ∈ parent.children := by
  fun_induction preorderFrom stack with
  | case1 => cases h
  | case2 top rest ih =>
    rcases List.mem_cons.mp h with rfl | h
    · exact Or.inl List.mem_cons_self
    rcases ih h with hstack | ⟨parent, hp, hc⟩
    · rcases List.mem_append.mp hstack with hc | hrest
      · exact Or.inr ⟨top, List.mem_cons_self, hc⟩
      · exact Or.inl (List.mem_cons_of_mem _ hrest)
    · exact Or.inr ⟨parent, List.mem_cons_of_mem _ hp, hc⟩

theorem address_of_mem_ofChildren {parent : Node} {address : List Nat} {position : Nat}
    {previous : Option Node} {nodes : List Node} :
    ∀ child ∈ ofChildren parent address position previous nodes,
      ∃ i ≥ position, child.address = address ++ [i] := by
  induction nodes generalizing position previous with
  | nil =>
    intro child hc
    cases hc
  | cons node rest ih =>
    intro child hc
    rcases List.mem_cons.mp hc with rfl | hc
    · exact ⟨position, le_rfl, rfl⟩
    · obtain ⟨i, hi, haddress⟩ := ih child hc
      exact ⟨i, by omega, haddress⟩

theorem pairwise_ofChildren (parent : Node) (address : List Nat) (position : Nat)
    (previous : Option Node) (nodes : List Node) :
    (ofChildren parent address position previous nodes).Pairwise fun first second =>
      ∃ i j, i < j ∧ first.address = address ++ [i] ∧ second.address = address ++ [j] := by
  induction nodes generalizing position previous with
  | nil => exact .nil
  | cons node rest ih =>
    apply List.Pairwise.cons
    · intro later hlater
      obtain ⟨j, hj, haddress⟩ := address_of_mem_ofChildren later hlater
      exact ⟨position, j, by omega, rfl, haddress⟩
    · exact ih (position + 1) (some node)

theorem children_addresses_nodup (site : Site) : (site.children.map address).Nodup := by
  rw [List.Nodup, List.pairwise_map]
  apply (pairwise_ofChildren ..).imp
  rintro first second ⟨i, j, hij, hi, hj⟩ heq
  rw [hi, hj, List.append_cancel_left_eq, List.cons.injEq] at heq
  omega

/-- Children of one site are told apart by their addresses. -/
theorem eq_of_address_eq {site first second : Site} (hfirst : first ∈ site.children)
    (hsecond : second ∈ site.children) (h : first.address = second.address) : first = second :=
  List.inj_on_of_nodup_map site.children_addresses_nodup hfirst hsecond h

theorem address_of_mem_below {top : Site} :
    ∀ site ∈ top.below, top.address <+: site.address := by
  induction top using from_children with
  | step top ih =>
    intro site hsite
    rw [below_eq] at hsite
    rcases List.mem_cons.mp hsite with rfl | hsite
    · exact List.prefix_rfl
    obtain ⟨child, hc, hsite⟩ := List.mem_flatMap.mp hsite
    obtain ⟨i, -, haddress⟩ := address_of_mem_ofChildren child hc
    have hprefix : top.address <+: child.address := haddress ▸ List.prefix_append ..
    exact hprefix.trans (ih child hc site hsite)

/-- Within a subtree the addresses increase along the walk. -/
theorem below_increasing (top : Site) :
    top.below.Pairwise fun first second => first.address < second.address := by
  induction top using from_children with
  | step top ih =>
    rw [below_eq, List.pairwise_cons, List.pairwise_flatMap]
    refine ⟨?_, ih, ?_⟩
    · intro site hsite
      obtain ⟨child, hc, hsite⟩ := List.mem_flatMap.mp hsite
      obtain ⟨i, -, haddress⟩ := address_of_mem_ofChildren child hc
      obtain ⟨tail, htail⟩ := address_of_mem_below site hsite
      rw [← htail, haddress, List.append_assoc]
      nth_rewrite 1 [← List.append_nil top.address]
      exact List.append_left_lt (List.nil_lt_cons ..)
    · apply (pairwise_ofChildren ..).imp
      rintro first second ⟨i, j, hij, hfirst, hsecond⟩ site hsite other hother
      obtain ⟨tail, htail⟩ := address_of_mem_below site hsite
      obtain ⟨rest, hend⟩ := address_of_mem_below other hother
      rw [← htail, ← hend, hfirst, hsecond, List.append_assoc, List.append_assoc]
      exact List.append_left_lt (List.cons_lt_cons_iff.mpr (Or.inl hij))

end Site

theorem Node.sites_increasing (root : Node) :
    (root.sites .preorder).Pairwise fun first second => first.address < second.address :=
  Site.below_increasing (.ofRoot root)

theorem Node.sites_nodup (root : Node) : (root.sites .preorder).Nodup := by
  apply root.sites_increasing.imp
  rintro first second h rfl
  exact lt_irrefl _ h

end JavaLint
