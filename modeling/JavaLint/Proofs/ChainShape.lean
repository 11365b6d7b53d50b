import JavaLint.Proofs.ConcatChain

/-! The shape of a chain. However a sequence of leaves is put together, by `+` in any association
and with parentheses around any part, flattening gives back the sequence. What is said of a chain
depends on the kinds and texts of its leaves only, so that regrouping it changes nothing. -/
namespace JavaLint.Check

/-- A node that puts leaves together in their order: a leaf itself, a `+` of two such nodes, or
parentheses around one such node alone. -/
inductive BuiltFrom (source : Source) : List Node → Node → Prop where
  | leaf {node : Node} : IsLeaf source node → BuiltFrom source [node] node
  | plus {node left right : Node} {first second : List Node} : isConcat source node = true →
      node.child? "left" = some left → node.child? "right" = some right →
      BuiltFrom source first left → BuiltFrom source second right →
      BuiltFrom source (first ++ second) node
  | parentheses {node inner : Node} {leaves : List Node} :
      node.kind = "parenthesized_expression" → node.namedChildren = [inner] →
      BuiltFrom source leaves inner → BuiltFrom source leaves node

/-- Two leaves that are the same but for where they stand. -/
structure SameLeaf (source other : Source) (leaf twin : Node) : Prop where
  kind : leaf.kind = twin.kind
  text : source.text leaf = other.text twin

variable {source other : Source} {node : Node} {leaves twins : List Node} {site : Site}

/-- Flattening takes back what was put together, whatever the shape. -/
theorem BuiltFrom.operands_eq (h : BuiltFrom source leaves node) :
    operands source node = .ok leaves := by
  induction h with
  | leaf hleaf => exact operands_of_isLeaf hleaf
  | plus hplus hleft hright _ _ ihfirst ihsecond =>
    exact operands_of_plus hplus hleft hright ihfirst ihsecond
  | parentheses hkind hinner _ ih => exact (operands_of_parentheses hkind hinner).trans ih

/-- Leaves that are the same but for their places count for the same. -/
theorem map_verdict_of_sameLeaf (h : List.Forall₂ (SameLeaf source other) leaves twins) :
    leaves.map (Security.verdict source) = twins.map (Security.verdict other) := by
  induction h with
  | nil => rfl
  | cons hsame _ ih =>
    rw [List.map_cons, List.map_cons, ih, Security.verdict, Security.verdict,
      Security.stringValue?, Security.stringValue?, hsame.kind, hsame.text]

namespace Security

theorem isSome_sqlInjection? (h : operands source site.node = .ok leaves) :
    (sqlInjection? source site).map Option.isSome = .ok (buildsQuery source leaves) := by
  rw [sqlInjection?, h]
  cases hquery : buildsQuery source leaves with
  | false => simp [bind, Except.bind, hquery, Except.map, pure, Except.pure]
  | true => simp [bind, Except.bind, hquery, Except.map, pure, Except.pure]

/-- Two nodes over the same leaves are flattened into those leaves, whatever their shapes. Also
where the leaves are only the same but for their places, as in a source written with other
parentheses, the same is decided of both nodes. -/
theorem regrouped_chains_decided_alike :
    (∀ (source : Source) (leaves : List Node) (node other : Node),
        BuiltFrom source leaves node → BuiltFrom source leaves other →
      operands source node = .ok leaves ∧ operands source other = .ok leaves) ∧
    ∀ (source other : Source) (leaves twins : List Node) (site place : Site),
        BuiltFrom source leaves site.node → BuiltFrom other twins place.node →
        List.Forall₂ (SameLeaf source other) leaves twins →
      operands source site.node = .ok leaves ∧ operands other place.node = .ok twins ∧
      (operands source site.node).map (hasKeyword source) =
        (operands other place.node).map (hasKeyword other) ∧
      (operands source site.node).map hasDynamic = (operands other place.node).map hasDynamic ∧
      (sqlInjection? source site).map Option.isSome =
        (sqlInjection? other place).map Option.isSome := by
  constructor
  · intro source leaves node other hnode hother
    exact ⟨hnode.operands_eq, hother.operands_eq⟩
  · intro source other leaves twins site place hsite hplace hsame
    have hverdicts := map_verdict_of_sameLeaf hsame
    refine ⟨hsite.operands_eq, hplace.operands_eq, ?_, ?_, ?_⟩
    · rw [hsite.operands_eq, hplace.operands_eq, Except.map, Except.map,
        hasKeyword_of_verdicts hverdicts]
    · rw [hsite.operands_eq, hplace.operands_eq, Except.map, Except.map,
        hasDynamic_of_verdicts hverdicts]
    · rw [isSome_sqlInjection? hsite.operands_eq, isSome_sqlInjection? hplace.operands_eq,
        buildsQuery_of_verdicts hverdicts]

end Security

end JavaLint.Check

namespace JavaLint.ConcatChain

open Check Check.Security

/-- The chain `"drop"+x+y`, grouped to the left. -/
def leftGrouped : Node :=
  ⟨"binary_expression", true, false, 0, 10, none,
    [beginning, plus 8, identifier 9 "right"]⟩

/-- The chain `"drop"+((x+y))`. -/
def rightGrouped : Node :=
  ⟨"binary_expression", true, false, 0, 14, none, [literal 0 "left", plus 6,
    ⟨"parenthesized_expression", true, false, 7, 14, some "right",
      [⟨"(", false, false, 7, 8, none, []⟩,
        ⟨"parenthesized_expression", true, false, 8, 13, none,
          [⟨"(", false, false, 8, 9, none, []⟩,
            ⟨"binary_expression", true, false, 9, 12, none,
              [identifier 9 "left", plus 10, identifier 11 "right"]⟩,
            ⟨")", false, false, 12, 13, none, []⟩]⟩,
        ⟨")", false, false, 13, 14, none, []⟩]⟩]⟩

def leftSource : Source := ⟨keyword ++ [43, 120, 43, 121], leftGrouped⟩

def rightSource : Source := ⟨keyword ++ [43, 40, 40, 120, 43, 121, 41, 41], rightGrouped⟩

/-- Both groupings of one chain are reported. -/
theorem both_groupings_reported :
    BuiltFrom leftSource [literal 0 "left", identifier 7 "right", identifier 9 "right"]
      leftGrouped ∧
    BuiltFrom rightSource [literal 0 "left", identifier 9 "left", identifier 11 "right"]
      rightGrouped ∧
    operands rightSource rightGrouped =
      .ok [literal 0 "left", identifier 9 "left", identifier 11 "right"] ∧
    (sqlInjection? leftSource (.ofRoot leftGrouped)).map Option.isSome = .ok true ∧
    (sqlInjection? rightSource (.ofRoot rightGrouped)).map Option.isSome = .ok true := by
  have hliteral (source : Source) : IsLeaf source (literal 0 "left") :=
    isLeaf_of_kind (by decide) (by decide)
  have hname (source : Source) (start : Nat) (field : String) :
      IsLeaf source (identifier start field) :=
    isLeaf_of_kind (show "identifier" ≠ "binary_expression" by decide)
      (show "identifier" ≠ "parenthesized_expression" by decide)
  have hleft : BuiltFrom leftSource
      [literal 0 "left", identifier 7 "right", identifier 9 "right"] leftGrouped :=
    .plus (by cbv) rfl rfl
      (.plus (by cbv) rfl rfl (.leaf (hliteral _)) (.leaf (hname _ _ _))) (.leaf (hname _ _ _))
  have hright : BuiltFrom rightSource
      [literal 0 "left", identifier 9 "left", identifier 11 "right"] rightGrouped :=
    .plus (by cbv) rfl rfl (.leaf (hliteral _)) (.parentheses rfl rfl (.parentheses rfl rfl
      (.plus (by cbv) rfl rfl (.leaf (hname _ _ _)) (.leaf (hname _ _ _)))))
  obtain ⟨-, hregrouped⟩ := regrouped_chains_decided_alike
  obtain ⟨hoperands, htwins, -, -, hdecided⟩ := hregrouped leftSource rightSource _ _
    (.ofRoot leftGrouped) (.ofRoot rightGrouped) hleft hright
    (.cons ⟨rfl, by cbv⟩ (.cons ⟨rfl, by cbv⟩ (.cons ⟨rfl, by cbv⟩ .nil)))
  have hreported : (sqlInjection? leftSource (.ofRoot leftGrouped)).map Option.isSome =
      .ok true := by
    rw [isSome_sqlInjection? hoperands]
    decide +kernel
  exact ⟨hleft, hright, htwins, hreported, hdecided ▸ hreported⟩

end JavaLint.ConcatChain
