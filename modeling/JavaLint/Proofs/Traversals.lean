import JavaLint.Proofs.Positions
import Mathlib.Data.List.Perm.Basic

/-! The two walks over a tree and the recursions they stand for. A walk takes turns on its stack
until nothing is left on it, as many turns as its measure says. What it visits is the recursive
order of the tree: in preorder a site comes before everything below it, in postorder behind it, and
sites of which neither lies above the other stand from left to right in both. -/
namespace JavaLint

open scoped List

namespace Site

def preorder (site : Site) : List Site :=
  site :: site.children.attach.flatMap fun ⟨child, _⟩ => child.preorder
termination_by site.node.size
decreasing_by exact size_lt_of_mem_children (by assumption)

def postorder (site : Site) : List Site :=
  (site.children.attach.flatMap fun ⟨child, _⟩ => child.postorder) ++ [site]
termination_by site.node.size
decreasing_by exact size_lt_of_mem_children (by assumption)

theorem preorder_eq (site : Site) :
    site.preorder = site :: site.children.flatMap preorder := by
  rw [preorder, List.flatMap_subtype fun _ _ => rfl, List.unattach_attach]

theorem postorder_eq (site : Site) :
    site.postorder = site.children.flatMap postorder ++ [site] := by
  rw [postorder, List.flatMap_subtype fun _ _ => rfl, List.unattach_attach]

theorem preorder_eq_below (site : Site) : site.preorder = site.below := by
  induction site using from_children with
  | step site ih =>
    rw [preorder_eq, below_eq]
    congr 1
    exact List.flatMap_congr ih

theorem postorder_perm_below (site : Site) : site.postorder.Perm site.below := by
  induction site using from_children with
  | step site ih =>
    rw [postorder_eq, below_eq]
    exact (List.perm_append_singleton _ _).trans (.cons _ (List.Perm.flatMap_left _ ih))

def Task.remaining : Task → List Site
  | (site, true) => [site]
  | (site, false) => site.postorder

theorem postorderFrom_eq_flatMap (tasks : List Task) :
    postorderFrom tasks = tasks.flatMap Task.remaining := by
  fun_induction postorderFrom tasks with
  | case1 => rfl
  | case2 site stack ih => rw [ih, List.flatMap_cons, Task.remaining, List.singleton_append]
  | case3 site stack ih =>
    rw [ih, List.flatMap_append, List.flatMap_map, List.flatMap_cons, List.flatMap_cons,
      Task.remaining, Task.remaining, postorder_eq, List.append_assoc]
    rfl

end Site

theorem Node.sites_preorder (root : Node) :
    root.sites .preorder = (Site.ofRoot root).preorder :=
  (Site.preorder_eq_below _).symm

theorem Node.sites_postorder (root : Node) :
    root.sites .postorder = (Site.ofRoot root).postorder := by
  rw [sites, Site.postorderFrom_eq_flatMap, List.flatMap_singleton]
  rfl

theorem Node.sites_perm (root : Node) :
    (root.sites .preorder).Perm (root.sites .postorder) := by
  rw [sites_postorder]
  exact (Site.postorder_perm_below _).symm

/-- From a state on, a machine takes a number of turns, visits some sites on the way, and then has
nothing left to do. -/
inductive Halts {σ : Type} (turn : σ → Option (List Site × σ)) : σ → Nat → List Site → Prop where
  | done {state : σ} : turn state = none → Halts turn state 0 []
  | step {state next : σ} {turns : Nat} {visits rest : List Site} :
      turn state = some (visits, next) → Halts turn next turns rest →
      Halts turn state (turns + 1) (visits ++ rest)

namespace Site

/-- The preorder walk takes a site off its stack, visits it, and puts the children there. -/
def preorderTurn : List Site → Option (List Site × List Site)
  | [] => none
  | site :: stack => some ([site], site.children ++ stack)

/-- The postorder walk marks a site that it takes off its stack and puts the children above it; a
marked site it visits. -/
def postorderTurn : List Task → Option (List Site × List Task)
  | [] => none
  | (site, true) :: stack => some ([site], stack)
  | (site, false) :: stack => some ([], site.children.map (·, false) ++ (site, true) :: stack)

/-- A turn takes one node off what is pending. -/
theorem pending_turn (site : Site) (stack : List Site) :
    pending (site :: stack) = pending (site.children ++ stack) + 1 := by
  simp only [pending, List.map_append, map_node_children, List.map_cons, Node.sizeAll_append,
    Node.sizeAll, Node.size_eq]
  omega

theorem taskWeight_turn (site : Site) (stack : List Task) :
    taskWeight ((site, false) :: stack) =
      taskWeight (site.children.map (·, false) ++ (site, true) :: stack) + 1 := by
  have hfresh := taskWeight_fresh site.children
  rw [map_node_children] at hfresh
  simp only [taskWeight_append, taskWeight, Task.weight, Node.size_eq] at hfresh ⊢
  omega

theorem preorderFrom_halts (stack : List Site) :
    Halts preorderTurn stack (pending stack) (preorderFrom stack) := by
  fun_induction preorderFrom stack with
  | case1 => exact .done rfl
  | case2 site stack ih =>
    have hturn : preorderTurn (site :: stack) = some ([site], site.children ++ stack) := rfl
    rw [pending_turn]
    exact .step hturn ih

theorem postorderFrom_halts (tasks : List Task) :
    Halts postorderTurn tasks (taskWeight tasks) (postorderFrom tasks) := by
  fun_induction postorderFrom tasks with
  | case1 => exact .done rfl
  | case2 site stack ih =>
    have hturn : postorderTurn ((site, true) :: stack) = some ([site], stack) := rfl
    rw [taskWeight, Task.weight, Nat.add_comm]
    exact .step hturn ih
  | case3 site stack ih =>
    have hturn : postorderTurn ((site, false) :: stack) =
      some ([], site.children.map (·, false) ++ (site, true) :: stack) := rfl
    rw [taskWeight_turn]
    exact .step hturn ih

end Site

def Node.at? (node : Node) : List Nat → Option Node
  | [] => some node
  | position :: rest => node.children[position]?.bind (·.at? rest)

namespace Site

theorem getElem?_ofChildren (parent : Node) (address : List Nat) (position : Nat)
    (previous : Option Node) (nodes : List Node) (i : Nat) :
    (ofChildren parent address position previous nodes)[i]?.map (fun child =>
        (child.node, child.address)) =
      nodes[i]?.map fun node => (node, address ++ [position + i]) := by
  induction nodes generalizing position previous i with
  | nil => rfl
  | cons node rest ih =>
    cases i with
    | zero => rfl
    | succ i =>
      rw [ofChildren, List.getElem?_cons_succ, List.getElem?_cons_succ, ih, Nat.add_right_comm,
        Nat.add_assoc]

theorem getElem?_children (site : Site) (i : Nat) :
    site.children[i]?.map (fun child => (child.node, child.address)) =
      site.node.children[i]?.map fun node => (node, site.address ++ [i]) := by
  rw [children, getElem?_ofChildren, Nat.zero_add]

theorem exists_child_at {site : Site} {i : Nat} {node : Node}
    (h : site.node.children[i]? = some node) :
    ∃ child ∈ site.children, child.node = node ∧ child.address = site.address ++ [i] := by
  have hchild := site.getElem?_children i
  rw [h, Option.map_some, Option.map_eq_some_iff] at hchild
  obtain ⟨child, hc, heq⟩ := hchild
  exact ⟨child, List.mem_of_getElem? hc, congrArg Prod.fst heq, congrArg Prod.snd heq⟩

theorem position_of_mem_children {site child : Site} (h : child ∈ site.children) :
    ∃ i, site.node.children[i]? = some child.node ∧ child.address = site.address ++ [i] := by
  obtain ⟨i, hi⟩ := List.mem_iff_getElem?.mp h
  have hchild := site.getElem?_children i
  rw [hi, Option.map_some, eq_comm, Option.map_eq_some_iff] at hchild
  obtain ⟨node, hnode, heq⟩ := hchild
  exact ⟨i, hnode.trans (congrArg some (congrArg Prod.fst heq)), (congrArg Prod.snd heq).symm⟩

theorem at?_of_mem_below {top : Site} :
    ∀ site ∈ top.below, ∃ tail, site.address = top.address ++ tail ∧
      top.node.at? tail = some site.node := by
  induction top using from_children with
  | step top ih =>
    intro site hsite
    rw [below_eq] at hsite
    rcases List.mem_cons.mp hsite with rfl | hsite
    · exact ⟨[], (List.append_nil _).symm, rfl⟩
    obtain ⟨child, hc, hsite⟩ := List.mem_flatMap.mp hsite
    obtain ⟨tail, htail, hat⟩ := ih child hc site hsite
    obtain ⟨i, hi, haddress⟩ := position_of_mem_children hc
    refine ⟨i :: tail, ?_, ?_⟩
    · rw [htail, haddress, List.append_assoc, List.singleton_append]
    · rw [Node.at?, hi, Option.bind_some, hat]

theorem exists_mem_below {top : Site} {tail : List Nat} {node : Node}
    (h : top.node.at? tail = some node) :
    ∃ site ∈ top.below, site.address = top.address ++ tail ∧ site.node = node := by
  induction tail generalizing top with
  | nil =>
    refine ⟨top, ?_, (List.append_nil _).symm, Option.some.inj h⟩
    rw [below_eq]
    exact List.mem_cons_self
  | cons i rest ih =>
    obtain ⟨next, hi, hrest⟩ := Option.bind_eq_some_iff.mp h
    obtain ⟨child, hc, rfl, haddress⟩ := exists_child_at hi
    obtain ⟨site, hsite, hend, hnode⟩ := ih hrest
    refine ⟨site, ?_, ?_, hnode⟩
    · rw [below_eq]
      exact List.mem_cons_of_mem _ (List.mem_flatMap.mpr ⟨child, hc, hsite⟩)
    · rw [hend, haddress, List.append_assoc, List.singleton_append]

end Site

/-- What lies at an address is visited there, and nothing else is. -/
theorem Node.at?_eq_some_iff {root node : Node} {order : Order} {address : List Nat} :
    root.at? address = some node ↔
      ∃ site ∈ root.sites order, site.address = address ∧ site.node = node := by
  have hpreorder : root.at? address = some node ↔
      ∃ site ∈ root.sites .preorder, site.address = address ∧ site.node = node := by
    constructor
    · intro h
      have hsome : (Site.ofRoot root).node.at? address = some node := h
      exact Site.exists_mem_below hsome
    · rintro ⟨site, hsite, rfl, rfl⟩
      obtain ⟨tail, haddress, hat⟩ := Site.at?_of_mem_below site hsite
      rw [haddress]
      exact hat
  cases order with
  | preorder => exact hpreorder
  | postorder => simpa only [root.sites_perm.mem_iff] using hpreorder

theorem Node.addresses_nodup (root : Node) (order : Order) :
    ((root.sites order).map Site.address).Nodup := by
  have hpreorder : ((root.sites .preorder).map Site.address).Nodup := by
    rw [List.Nodup, List.pairwise_map]
    exact root.sites_increasing.imp ne_of_lt
  cases order with
  | preorder => exact hpreorder
  | postorder => exact (root.sites_perm.map _).nodup_iff.mp hpreorder

theorem filter_key_of_nodup {α κ : Type} [BEq κ] [LawfulBEq κ] {key : α → κ} {values : List α}
    (hn : (values.map key).Nodup) {value : α} (h : value ∈ values) :
    values.filter (key · == key value) = [value] := by
  induction values with
  | nil => cases h
  | cons first rest ih =>
    rw [List.map_cons, List.nodup_cons] at hn
    rcases List.mem_cons.mp h with rfl | h
    · have hrest : rest.filter (key · == key value) = [] := by
        rw [List.filter_eq_nil_iff]
        intro other hother hkey
        exact hn.1 (beq_iff_eq.mp hkey ▸ List.mem_map_of_mem hother)
      rw [List.filter_cons_of_pos (by simp), hrest]
    · have hfirst : key first ≠ key value := fun hkey => hn.1 (hkey ▸ List.mem_map_of_mem h)
      rw [List.filter_cons_of_neg (by simpa using hfirst), ih hn.2 h]

/-- Each address is visited once, and then what is found there is the node that lies there. -/
theorem Node.findAll_at (root : Node) (kinds : List String) (order : Order) (address : List Nat) :
    ((root.findAll kinds order).filter (·.address == address)).map Site.node =
      ((root.at? address).filter (kinds.contains ·.kind)).toList := by
  rw [findAll, List.filter_comm]
  cases hat : root.at? address with
  | none =>
    have hnone : (root.sites order).filter (·.address == address) = [] := by
      rw [List.filter_eq_nil_iff]
      intro site hsite haddress
      have hsome := at?_eq_some_iff.mpr ⟨site, hsite, beq_iff_eq.mp haddress, rfl⟩
      rw [hat] at hsome
      cases hsome
    rw [hnone]
    rfl
  | some node =>
    obtain ⟨site, hsite, rfl, rfl⟩ := at?_eq_some_iff.mp hat
    rw [filter_key_of_nodup (root.addresses_nodup order) hsite]
    by_cases hkind : kinds.contains site.node.kind = true
    · rw [List.filter_cons_of_pos (by exact hkind), Option.filter_some, if_pos hkind]
      rfl
    · rw [List.filter_cons_of_neg (by exact hkind), Option.filter_some, if_neg hkind]
      rfl

namespace Site

def IsAbove : Site → Site → Prop := Relation.TransGen fun parent child => child ∈ parent.children

/-- Two sites part at some site, the first of them to an earlier child. -/
def LeftOf (first second : Site) : Prop :=
  ∃ common i j rest more, i < j ∧ first.address = common ++ i :: rest ∧
    second.address = common ++ j :: more

variable {upper lower first second top : Site}

theorem IsAbove.address_eq (h : upper.IsAbove lower) :
    ∃ i rest, lower.address = upper.address ++ i :: rest := by
  induction h with
  | single hc =>
    obtain ⟨i, -, haddress⟩ := position_of_mem_children hc
    exact ⟨i, [], haddress⟩
  | tail _ hc ih =>
    obtain ⟨i, -, haddress⟩ := position_of_mem_children hc
    obtain ⟨j, rest, hrest⟩ := ih
    exact ⟨j, rest ++ [i], by rw [haddress, hrest, List.append_assoc, List.cons_append]⟩

theorem IsAbove.address_lt (h : upper.IsAbove lower) : upper.address < lower.address := by
  obtain ⟨i, rest, heq⟩ := h.address_eq
  rw [heq]
  nth_rewrite 1 [← List.append_nil upper.address]
  exact List.append_left_lt (List.nil_lt_cons ..)

theorem LeftOf.address_lt (h : first.LeftOf second) : first.address < second.address := by
  obtain ⟨common, i, j, rest, more, hij, hfirst, hsecond⟩ := h
  rw [hfirst, hsecond]
  exact List.append_left_lt (List.cons_lt_cons_iff.mpr (Or.inl hij))

theorem LeftOf.not_isAbove (h : first.LeftOf second) : ¬ first.IsAbove second := by
  obtain ⟨common, i, j, rest, more, hij, hfirst, hsecond⟩ := h
  intro habove
  obtain ⟨k, tail, heq⟩ := habove.address_eq
  rw [hfirst, hsecond, List.append_assoc, List.append_cancel_left_eq, List.cons_append,
    List.cons.injEq] at heq
  omega

theorem below_of_mem_below : ∀ site ∈ top.below, site = top ∨ top.IsAbove site := by
  induction top using from_children with
  | step top ih =>
    intro site hsite
    rw [below_eq] at hsite
    rcases List.mem_cons.mp hsite with rfl | hsite
    · exact Or.inl rfl
    obtain ⟨child, hc, hsite⟩ := List.mem_flatMap.mp hsite
    rcases ih child hc site hsite with rfl | habove
    · exact Or.inr (.single hc)
    · exact Or.inr (.head hc habove)

theorem isAbove_of_mem_below {child site : Site} (hc : child ∈ top.children)
    (h : site ∈ child.below) : top.IsAbove site := by
  rcases below_of_mem_below site h with rfl | habove
  · exact .single hc
  · exact .head hc habove

/-- What lies in subtrees of different children stands from left to right. -/
theorem pairwise_children_leftOf (top : Site) :
    top.children.Pairwise fun child other =>
      ∀ first ∈ child.below, ∀ second ∈ other.below, first.LeftOf second := by
  apply (pairwise_ofChildren ..).imp
  rintro child other ⟨i, j, hij, hchild, hother⟩ first hfirst second hsecond
  obtain ⟨rest, hrest⟩ := address_of_mem_below first hfirst
  obtain ⟨more, hmore⟩ := address_of_mem_below second hsecond
  refine ⟨top.address, i, j, rest, more, hij, ?_, ?_⟩
  · rw [← hrest, hchild, List.append_assoc, List.singleton_append]
  · rw [← hmore, hother, List.append_assoc, List.singleton_append]

theorem below_ordered (top : Site) :
    top.below.Pairwise fun first second => first.IsAbove second ∨ first.LeftOf second := by
  induction top using from_children with
  | step top ih =>
    rw [below_eq, List.pairwise_cons, List.pairwise_flatMap]
    refine ⟨?_, ih, ?_⟩
    · intro site hsite
      obtain ⟨child, hc, hsite⟩ := List.mem_flatMap.mp hsite
      exact Or.inl (isAbove_of_mem_below hc hsite)
    · apply top.pairwise_children_leftOf.imp
      intro child other h first hfirst second hsecond
      exact Or.inr (h first hfirst second hsecond)

theorem postorder_ordered (top : Site) :
    top.postorder.Pairwise fun first second => second.IsAbove first ∨ first.LeftOf second := by
  induction top using from_children with
  | step top ih =>
    rw [postorder_eq, List.pairwise_append, List.pairwise_flatMap]
    refine ⟨⟨ih, ?_⟩, List.pairwise_singleton _ _, ?_⟩
    · apply top.pairwise_children_leftOf.imp
      intro child other h first hfirst second hsecond
      rw [child.postorder_perm_below.mem_iff] at hfirst
      rw [other.postorder_perm_below.mem_iff] at hsecond
      exact Or.inr (h first hfirst second hsecond)
    · intro site hsite last hlast
      obtain ⟨child, hc, hsite⟩ := List.mem_flatMap.mp hsite
      rw [child.postorder_perm_below.mem_iff] at hsite
      rw [List.mem_singleton.mp hlast]
      exact Or.inl (isAbove_of_mem_below hc hsite)

end Site

theorem pair_sublist_or {α : Type} {values : List α} {a b : α} (ha : a ∈ values) (hb : b ∈ values)
    (hne : a ≠ b) : [a, b] <+ values ∨ [b, a] <+ values := by
  induction values with
  | nil => cases ha
  | cons first rest ih =>
    rcases List.mem_cons.mp ha with rfl | hafter
    · rcases List.mem_cons.mp hb with rfl | hbehind
      · exact absurd rfl hne
      · exact Or.inl ((List.singleton_sublist.mpr hbehind).cons_cons a)
    · rcases List.mem_cons.mp hb with rfl | hbehind
      · exact Or.inr ((List.singleton_sublist.mpr hafter).cons_cons b)
      · exact (ih hafter hbehind).imp (.cons first) (.cons first)

/-- In an ordered list a value stands before another if it cannot stand behind it. -/
theorem pair_sublist_of_pairwise {α : Type} {r : α → α → Prop} {values : List α} {a b : α}
    (h : values.Pairwise r) (ha : a ∈ values) (hb : b ∈ values) (hne : a ≠ b) (hr : ¬ r b a) :
    [a, b] <+ values := by
  rcases pair_sublist_or ha hb hne with hab | hba
  · exact hab
  · exact absurd (List.pairwise_iff_forall_sublist.mp h hba) hr

/-- Where all that stand otherwise than from left to right are related, two that are not stand from
left to right. -/
theorem Site.pair_sublist_iff_leftOf {r : Site → Site → Prop} {sites : List Site}
    {first second : Site} (h : sites.Pairwise fun one other => r one other ∨ one.LeftOf other)
    (hfirst : first ∈ sites) (hsecond : second ∈ sites) (hnot : ¬ r first second)
    (hback : ¬ r second first) : [first, second] <+ sites ↔ first.LeftOf second := by
  constructor
  · intro hpair
    exact (List.pairwise_iff_forall_sublist.mp h hpair).resolve_left hnot
  · intro hleft
    have hlt := hleft.address_lt
    apply pair_sublist_of_pairwise h hfirst hsecond fun heq => lt_irrefl _ (heq ▸ hlt)
    rintro (hr | hright)
    · exact hback hr
    · exact lt_asymm hlt hright.address_lt

namespace Node

variable {root : Node} {kinds : List String} {upper lower first second : Site}

theorem findAll_perm (root : Node) (kinds : List String) :
    (root.findAll kinds .preorder).Perm (root.findAll kinds .postorder) :=
  root.sites_perm.filter _

theorem findAll_preorder_ordered (root : Node) (kinds : List String) :
    (root.findAll kinds .preorder).Pairwise fun first second =>
      first.IsAbove second ∨ first.LeftOf second :=
  (Site.below_ordered (.ofRoot root)).filter _

theorem findAll_postorder_ordered (root : Node) (kinds : List String) :
    (root.findAll kinds .postorder).Pairwise fun first second =>
      second.IsAbove first ∨ first.LeftOf second := by
  rw [findAll, sites_postorder]
  exact (Site.postorder_ordered (.ofRoot root)).filter _

theorem findAll_above (habove : upper.IsAbove lower) (hu : upper ∈ root.findAll kinds .preorder)
    (hl : lower ∈ root.findAll kinds .preorder) :
    [upper, lower] <+ root.findAll kinds .preorder ∧
      [lower, upper] <+ root.findAll kinds .postorder := by
  have hlt := habove.address_lt
  have hne : upper ≠ lower := fun heq => lt_irrefl _ (heq ▸ hlt)
  have hperm := root.findAll_perm kinds
  constructor
  · apply pair_sublist_of_pairwise (root.findAll_preorder_ordered kinds) hu hl hne
    rintro (hback | hleft)
    · exact lt_asymm hlt hback.address_lt
    · exact lt_asymm hlt hleft.address_lt
  · apply pair_sublist_of_pairwise (root.findAll_postorder_ordered kinds)
      (hperm.mem_iff.mp hl) (hperm.mem_iff.mp hu) hne.symm
    rintro (hback | hleft)
    · exact lt_asymm hlt hback.address_lt
    · exact hleft.not_isAbove habove

/-- Sites of which neither lies above the other stand from left to right in both orders. -/
theorem findAll_beside (hfirst : first ∈ root.findAll kinds .preorder)
    (hsecond : second ∈ root.findAll kinds .preorder) (hnot : ¬ first.IsAbove second)
    (hback : ¬ second.IsAbove first) :
    ([first, second] <+ root.findAll kinds .preorder ↔ first.LeftOf second) ∧
      ([first, second] <+ root.findAll kinds .postorder ↔ first.LeftOf second) := by
  have hperm := root.findAll_perm kinds
  constructor
  · exact Site.pair_sublist_iff_leftOf (root.findAll_preorder_ordered kinds) hfirst hsecond hnot
      hback
  · exact Site.pair_sublist_iff_leftOf (root.findAll_postorder_ordered kinds)
      (hperm.mem_iff.mp hfirst) (hperm.mem_iff.mp hsecond) hback hnot

/-- Both walks come to an end, after one turn for each node and after two. A search is the recursive
order of the tree without the other kinds. It finds at each address the node that lies there, once,
if it is of one of the kinds; so both orders hold the same sites. A site comes before those below it
in preorder and behind them in postorder, and other sites keep their order. -/
theorem searches_are_recursive_orders (root : Node) (kinds : List String) :
    Halts Site.preorderTurn [.ofRoot root] root.size (root.sites .preorder) ∧
    Halts Site.postorderTurn [(.ofRoot root, false)] (2 * root.size) (root.sites .postorder) ∧
    root.findAll kinds .preorder =
      (Site.ofRoot root).preorder.filter (kinds.contains ·.node.kind) ∧
    root.findAll kinds .postorder =
      (Site.ofRoot root).postorder.filter (kinds.contains ·.node.kind) ∧
    (∀ order address,
      ((root.findAll kinds order).filter (·.address == address)).map Site.node =
        ((root.at? address).filter (kinds.contains ·.kind)).toList) ∧
    (root.findAll kinds .preorder).Perm (root.findAll kinds .postorder) ∧
    (∀ upper ∈ root.findAll kinds .preorder, ∀ lower ∈ root.findAll kinds .preorder,
      upper.IsAbove lower →
        [upper, lower] <+ root.findAll kinds .preorder ∧
          [lower, upper] <+ root.findAll kinds .postorder) ∧
    ∀ first ∈ root.findAll kinds .preorder, ∀ second ∈ root.findAll kinds .preorder,
      ¬ first.IsAbove second → ¬ second.IsAbove first →
        ([first, second] <+ root.findAll kinds .preorder ↔
          [first, second] <+ root.findAll kinds .postorder) := by
  have hpending : Site.pending [.ofRoot root] = root.size := Nat.add_zero _
  have hweight : Site.taskWeight [(.ofRoot root, false)] = 2 * root.size := Nat.add_zero _
  refine ⟨?_, ?_, ?_, ?_, root.findAll_at kinds, root.findAll_perm kinds, ?_, ?_⟩
  · rw [← hpending]
    exact Site.preorderFrom_halts _
  · rw [← hweight]
    exact Site.postorderFrom_halts _
  · rw [findAll, sites_preorder]
  · rw [findAll, sites_postorder]
  · intro upper hu lower hl habove
    exact findAll_above habove hu hl
  · intro first hfirst second hsecond hnot hback
    obtain ⟨hpreorder, hpostorder⟩ := findAll_beside hfirst hsecond hnot hback
    rw [hpreorder, hpostorder]

/-- A loop in a loop, and a loop beside them: the inner one is the first in postorder. -/
theorem nested_loops_in_both_orders :
    let inner : Node := ⟨"for_statement", true, false, 1, 2, some "body", []⟩
    let outer : Node := ⟨"for_statement", true, false, 0, 3, none, [inner]⟩
    let last : Node := ⟨"for_statement", true, false, 3, 4, none, []⟩
    let root : Node := ⟨"block", true, false, 0, 4, none, [outer, last]⟩
    let upper : Site := ⟨outer, some root, none, [0]⟩
    let lower : Site := ⟨inner, some outer, none, [0, 0]⟩
    let beside : Site := ⟨last, some root, some outer, [1]⟩
    upper.IsAbove lower ∧ ¬ lower.IsAbove beside ∧ ¬ beside.IsAbove lower ∧
      root.findAll ["for_statement"] .preorder = [upper, lower, beside] ∧
      [lower, upper] <+ root.findAll ["for_statement"] .postorder ∧
      [lower, beside] <+ root.findAll ["for_statement"] .postorder := by
  intro inner outer last root upper lower beside
  have habove : upper.IsAbove lower := .single List.mem_cons_self
  have hnot : ¬ lower.IsAbove beside := fun h => absurd h.address_eq (by simp [lower, beside])
  have hback : ¬ beside.IsAbove lower := fun h => absurd h.address_eq (by simp [lower, beside])
  have hfound : root.findAll ["for_statement"] .preorder = [upper, lower, beside] := by cbv
  obtain ⟨-, -, -, -, -, -, hnested, hbeside⟩ :=
    searches_are_recursive_orders root ["for_statement"]
  rw [hfound] at hnested hbeside
  refine ⟨habove, hnot, hback, hfound, ?_, ?_⟩
  · exact (hnested upper (by simp) lower (by simp) habove).2
  · exact (hbeside lower (by simp) beside (by simp) hnot hback).mp (.cons _ (.refl _))

end Node

end JavaLint
