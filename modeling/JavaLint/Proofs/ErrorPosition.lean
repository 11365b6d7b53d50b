import JavaLint.Proofs.DocumentOrder
import JavaLint.Tree.Parse
import Mathlib.Data.Prod.Lex

/-! Where a refused tree is reported. The walk stops at the first error it comes to. Over nested
spans it comes to the nodes in the order in which they start, and lines and columns grow with the
offset; so the position that is reported is the earliest of all errors. -/
namespace JavaLint

def positionAt (bytes : Text.Bytes) (offset : Nat) : Nat × Nat :=
  (rowAt bytes offset + 1, columnAt bytes offset + 1)

/-- Within a line the columns grow with the offset. -/
theorem columnAt_mono (bytes : Text.Bytes) {a b : Nat} (h : a ≤ b)
    (hrow : rowAt bytes a = rowAt bytes b) : columnAt bytes a ≤ columnAt bytes b := by
  obtain ⟨between, hbetween⟩ := List.take_prefix_take_left (l := bytes) h
  have hcount : between.count lineFeed = 0 := by
    rw [rowAt, rowAt, ← hbetween, List.count_append] at hrow
    omega
  have hinside : ∀ b ∈ between.reverse, (b != lineFeed) = true := by
    intro b hb
    rw [bne_iff_ne]
    rintro rfl
    exact List.count_eq_zero.mp hcount (List.mem_reverse.mp hb)
  rw [columnAt, columnAt, ← hbetween, List.reverse_append, List.takeWhile_append_of_pos hinside,
    List.length_append]
  omega

theorem positionAt_mono (bytes : Text.Bytes) {a b : Nat} (h : a ≤ b) :
    toLex (positionAt bytes a) ≤ toLex (positionAt bytes b) := by
  rw [Prod.Lex.toLex_le_toLex']
  refine ⟨Nat.succ_le_succ (rowAt_mono bytes h), ?_⟩
  intro hrow
  exact Nat.succ_le_succ (columnAt_mono bytes h (Nat.succ.inj hrow))

/-- What a search finds in an ordered list comes before all else that passes the test. -/
theorem eq_or_of_find?_eq_some {α : Type} {r : α → α → Prop} {test : α → Bool} {values : List α}
    {first : α} (h : values.Pairwise r) (hf : values.find? test = some first) :
    ∀ value ∈ values, test value = true → value = first ∨ r first value := by
  obtain ⟨-, before, after, rfl, hbefore⟩ := List.find?_eq_some_iff_append.mp hf
  intro value hvalue htest
  rcases List.mem_append.mp hvalue with hvalue | hvalue
  · have hnot := hbefore value hvalue
    rw [htest] at hnot
    cases hnot
  rcases List.mem_cons.mp hvalue with rfl | hvalue
  · exact Or.inl rfl
  · exact Or.inr ((List.pairwise_cons.mp (List.pairwise_append.mp h).2.1).1 value hvalue)

namespace Node

theorem isError_iff {node : Node} :
    node.isError = true ↔ node.kind = "ERROR" ∨ node.isMissing = true := by
  rw [isError, Bool.or_eq_true, beq_iff_eq]

structure HasError (root node : Node) : Prop where
  within : root.Within node
  error : node.kind = "ERROR" ∨ node.isMissing = true

theorem exists_site_of_hasError {root node : Node} (h : root.HasError node) :
    ∃ site ∈ root.sites .preorder, site.node = node ∧ site.node.isError = true := by
  obtain ⟨site, hsite, rfl⟩ := h.within.exists_site
  exact ⟨site, hsite, rfl, isError_iff.mpr h.error⟩

end Node

namespace Tree

variable {tree : Tree} {node : Node}

theorem firstError?_eq_none_iff :
    tree.firstError? = none ↔ ∀ node, ¬ tree.root.HasError node := by
  rw [firstError?, Option.map_eq_none_iff, List.find?_eq_none]
  constructor
  · intro h node herror
    obtain ⟨site, hsite, -, hpass⟩ := Node.exists_site_of_hasError herror
    exact h site hsite hpass
  · intro h site hsite hpass
    exact h site.node ⟨(Node.within_sites hsite).1, Node.isError_iff.mp hpass⟩

theorem hasError_of_firstError? (h : tree.firstError? = some node) : tree.root.HasError node := by
  obtain ⟨site, hfind, rfl⟩ := Option.map_eq_some_iff.mp h
  have hpass := List.find?_some hfind
  exact ⟨(Node.within_sites (List.mem_of_find?_eq_some hfind)).1, Node.isError_iff.mp hpass⟩

theorem start_le_of_firstError? (hn : tree.root.SpansNested) (h : tree.firstError? = some node) :
    ∀ other, tree.root.HasError other → node.start ≤ other.start := by
  obtain ⟨first, hfind, rfl⟩ := Option.map_eq_some_iff.mp h
  intro other herror
  obtain ⟨site, hsite, rfl, hpass⟩ := Node.exists_site_of_hasError herror
  rcases eq_or_of_find?_eq_some (tree.root.sites_starts hn) hfind site hsite hpass with rfl | hle
  · exact le_rfl
  · exact hle

def errorPositions (tree : Tree) (bytes : Text.Bytes) : Set (Nat ×ₗ Nat) :=
  {position | ∃ node, tree.root.HasError node ∧ position = toLex (positionAt bytes node.start)}

theorem isLeast_errorPositions (bytes : Text.Bytes) (hn : tree.root.SpansNested)
    (h : tree.firstError? = some node) :
    IsLeast (tree.errorPositions bytes) (toLex (positionAt bytes node.start)) := by
  refine ⟨⟨node, hasError_of_firstError? h, rfl⟩, ?_⟩
  rintro _ ⟨other, herror, rfl⟩
  exact positionAt_mono bytes (start_le_of_firstError? hn h other herror)

/-- A tree with an error and with nested spans is refused. If it has error nodes or missing nodes,
the line and the column that are reported are the least of their positions; if it has none, no
position is reported. -/
theorem refused_at_earliest_error (tree : Tree) (path : Path) (bytes : Text.Bytes)
    (he : tree.hasError = true) (hn : tree.root.SpansNested) :
    ∃ error, tree.parse path bytes = .error error ∧ error.path = path ∧
      ((∃ node, tree.root.HasError node) → ∃ line column,
        error.position = some (line, column) ∧
        error.detail = s!"syntax error at line {line}, column {column}" ∧
        IsLeast (tree.errorPositions bytes) (toLex (line, column))) ∧
      ((∀ node, ¬ tree.root.HasError node) →
        error.position = none ∧ error.detail = "syntax error") := by
  refine ⟨_, by rw [parse, if_pos he], rfl, ?_, ?_⟩
  · rintro ⟨other, herror⟩
    have hsome : tree.firstError? ≠ none := fun hnone =>
      firstError?_eq_none_iff.mp hnone other herror
    obtain ⟨node, hfirst⟩ := Option.ne_none_iff_exists'.mp hsome
    rw [hfirst]
    exact ⟨rowAt bytes node.start + 1, columnAt bytes node.start + 1, rfl, rfl,
      isLeast_errorPositions bytes hn hfirst⟩
  · intro hnone
    rw [firstError?_eq_none_iff.mpr hnone]
    exact ⟨rfl, rfl⟩

/-- A missing node at the end of a statement of two lines, and an error node behind it on the second
line. -/
theorem missing_before_error :
    let missing : Node := ⟨";", false, true, 3, 3, none, []⟩
    let statement : Node := ⟨"expression_statement", true, false, 0, 3, none,
      [⟨"identifier", true, false, 0, 3, none, []⟩, missing]⟩
    let error : Node := ⟨"ERROR", true, false, 4, 5, none, []⟩
    let tree : Tree := ⟨true, ⟨"program", true, false, 0, 5, none, [statement, error]⟩⟩
    let bytes : Text.Bytes := [97, 10, 98, 32, 41]
    let path : Path := ⟨.relative, ["A.java"]⟩
    tree.hasError = true ∧ tree.root.SpansNested ∧ tree.root.HasError missing ∧
      tree.root.HasError error ∧
      ∃ refusal, tree.parse path bytes = .error refusal ∧
        refusal.detail = "syntax error at line 2, column 2" ∧
        IsLeast (tree.errorPositions bytes) (toLex (2, 2)) := by
  intro missing statement error tree bytes path
  have hnested : tree.root.SpansNested := by
    intro node hnode
    exact Node.nests_iff.mp (Node.forall_within_of_all Node.nests (by cbv) node hnode)
  have hstatement : tree.root.Within statement := .child .root List.mem_cons_self
  have hmissing : tree.root.HasError missing :=
    ⟨hstatement.child (List.mem_cons_of_mem _ List.mem_cons_self), Or.inr rfl⟩
  have herror : tree.root.HasError error :=
    ⟨.child .root (List.mem_cons_of_mem _ List.mem_cons_self), Or.inl rfl⟩
  obtain ⟨refusal, hparse, -, hposition, -⟩ :=
    refused_at_earliest_error tree path bytes rfl hnested
  obtain ⟨line, column, hsome, hdetail, hleast⟩ := hposition ⟨missing, hmissing⟩
  have hreported : tree.parse path bytes = .error ⟨path, some (2, 2)⟩ := by cbv
  rw [hreported] at hparse
  cases hparse
  cases hsome
  exact ⟨rfl, hnested, hmissing, herror, _, hreported, hdetail, hleast⟩

end Tree

end JavaLint
