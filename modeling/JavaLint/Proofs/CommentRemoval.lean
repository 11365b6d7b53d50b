import JavaLint.Proofs.CommentFree
import JavaLint.Proofs.ConcatChain
import Mathlib.Data.List.Basic

/-! What comments in argument lists and parentheses do to a report. A comment is a node like any
other, so it counts as an argument of a call and as what a pair of parentheses holds. It can hide a
weak algorithm behind it and it can make a call look dynamic, never the other way round; on chains
it tells only where it comes first in parentheses. The other checks do not see it. -/
namespace JavaLint

section Lists
variable {α β γ : Type} {f g : α → Option β} {items : List α} {others : List γ}

theorem filterMap_eq_of_forall₂ {f' : γ → Option β}
    (h : List.Forall₂ (fun item other => f item = f' other) items others) :
    items.filterMap f = others.filterMap f' := by
  induction h with
  | nil => rfl
  | cons hfirst _ ih => rw [List.filterMap_cons, List.filterMap_cons, hfirst, ih]

theorem map_filter_eq_of_forall₂ {p : α → Bool} {p' : γ → Bool} {make : α → β} {make' : γ → β}
    (h : List.Forall₂ (fun item other => p item = p' other ∧ make item = make' other)
      items others) :
    (items.filter p).map make = (others.filter p').map make' := by
  induction h with
  | nil => rfl
  | @cons item other items others hfirst _ ih =>
    obtain ⟨hp, hmake⟩ := hfirst
    rw [List.filter_cons, List.filter_cons, hp]
    split
    · rw [List.map_cons, List.map_cons, hmake, ih]
    · exact ih

theorem filterMap_sublist_filterMap (h : ∀ item ∈ items, ∀ b ∈ f item, g item = some b) :
    (items.filterMap f).Sublist (items.filterMap g) := by
  induction items with
  | nil => exact .slnil
  | cons item rest ih =>
    rw [List.forall_mem_cons] at h
    rw [List.filterMap_cons, List.filterMap_cons]
    cases hf : f item with
    | some b =>
      rw [h.1 b hf]
      exact (ih h.2).cons_cons b
    | none =>
      cases g item with
      | none => exact ih h.2
      | some b => exact (ih h.2).cons b

theorem filterMap_eq_filterMap_iff (h : ∀ item ∈ items, ∀ b ∈ f item, g item = some b) :
    items.filterMap f = items.filterMap g ↔ ∀ item ∈ items, f item = g item := by
  constructor
  · intro heq
    induction items with
    | nil => simp
    | cons item rest ih =>
      rw [List.forall_mem_cons] at h ⊢
      rw [List.filterMap_cons, List.filterMap_cons] at heq
      cases hf : f item with
      | some b =>
        rw [hf, h.1 b hf, List.cons.injEq] at heq
        exact ⟨(h.1 b hf).symm, ih h.2 heq.2⟩
      | none =>
        cases hg : g item with
        | none =>
          rw [hf, hg] at heq
          exact ⟨rfl, ih h.2 heq⟩
        | some b =>
          -- One more on the right, and none less than on the left.
          rw [hf, hg] at heq
          dsimp only at heq
          have hle := (filterMap_sublist_filterMap h.2).length_le
          have hlength := congrArg List.length heq
          rw [List.length_cons] at hlength
          omega
  · exact List.filterMap_congr

end Lists

namespace Check

variable {source : Source} {node : Node}

theorem isConcat_withoutComments (source : Source) (node : Node) :
    isConcat source.withoutComments node.withoutComments = isConcat source node := by
  by_cases hk : node.kind = "binary_expression"
  · rw [isConcat, isConcat, Node.kind_withoutComments,
      source.fieldText_withoutComments (by rw [hk]; decide)]
  · rw [isConcat_eq_false_of_kind hk, isConcat_eq_false_of_kind (by simpa using hk)]

namespace Security

@[simp] theorem stringValue?_withoutComments (source : Source) (node : Node) :
    stringValue? source.withoutComments node.withoutComments = stringValue? source node := by
  simp [stringValue?]

theorem kind_of_stringValue? {text : String} (h : stringValue? source node = some text) :
    node.kind = "string_literal" := by
  by_contra hk
  rw [stringValue?, if_neg (by simpa using hk)] at h
  cases h

@[simp] theorem findingAt_withoutComments (source : Source) (node : Node) (rule : Rule)
    (message : String) :
    findingAt source.withoutComments node.withoutComments rule message =
      findingAt source node rule message := by
  simp [findingAt]

theorem createdType_withoutComments (h : node.kind ∉ enclosureKinds) :
    createdType source.withoutComments node.withoutComments = createdType source node := by
  rw [createdType, createdType, source.fieldText_withoutComments h]

theorem takesInput_withoutComments (h : node.kind ∉ enclosureKinds) (sources : List String) :
    takesInput source.withoutComments sources node.withoutComments =
      takesInput source sources node := by
  rw [takesInput, takesInput, source.fieldText_withoutComments h]

theorem makesPath_withoutComments (h : node.kind ∉ enclosureKinds) :
    makesPath source.withoutComments node.withoutComments = makesPath source node := by
  rw [makesPath, makesPath, Node.kind_withoutComments, createdType_withoutComments h,
    source.fieldText_withoutComments h, source.name_withoutComments h]

theorem holdsSecret_withoutComments (h : node.kind ∉ enclosureKinds) :
    holdsSecret source.withoutComments node.withoutComments = holdsSecret source node := by
  rw [holdsSecret, holdsSecret, source.name_withoutComments h, Node.child?_withoutComments h]
  simp [Option.bind_map]

/-- A check that lets some nodes through, and reads a node and what is left of it alike. -/
theorem map_filter_findAll_withoutComments (h : source.root.CommentLeaves) {kinds : List String}
    (hkinds : ∀ kind ∈ kinds, kind ∉ commentKinds ∧ kind ∉ enclosureKinds)
    {test test' : Site → Bool} {make make' : Site → Finding}
    (hsame : ∀ site left, site.Remains left → test' left = test site ∧ make' left = make site) :
    ((source.withoutComments.findAll kinds .preorder).filter test').map make' =
      ((source.findAll kinds .preorder).filter test).map make := by
  symm
  apply map_filter_eq_of_forall₂
  apply (Node.findAll_withoutComments h hkinds).imp
  intro site left hleft
  obtain ⟨htest, hmake⟩ := hsame site left hleft
  exact ⟨htest.symm, hmake.symm⟩

theorem crossSiteScriptings_withoutComments (h : source.root.CommentLeaves) :
    crossSiteScriptings source.withoutComments = crossSiteScriptings source := by
  apply map_filter_findAll_withoutComments h (by decide)
  intro site left hleft
  rw [hleft.node, writesRequestInput, writesRequestInput, source.name_withoutComments hleft.kind,
    takesInput_withoutComments hleft.kind, findingAt_withoutComments]
  exact ⟨rfl, rfl⟩

theorem pathTraversals_withoutComments (h : source.root.CommentLeaves) :
    pathTraversals source.withoutComments = pathTraversals source := by
  apply map_filter_findAll_withoutComments h (by decide)
  intro site left hleft
  rw [hleft.node, makesPath_withoutComments hleft.kind, takesInput_withoutComments hleft.kind,
    findingAt_withoutComments]
  exact ⟨rfl, rfl⟩

theorem hardcodedSecrets_withoutComments (h : source.root.CommentLeaves) :
    hardcodedSecrets source.withoutComments = hardcodedSecrets source := by
  apply map_filter_findAll_withoutComments h (by decide)
  intro site left hleft
  rw [hleft.node, holdsSecret_withoutComments hleft.kind, source.name_withoutComments hleft.kind,
    findingAt_withoutComments]
  exact ⟨rfl, rfl⟩

theorem map_creations_withoutComments (h : source.root.CommentLeaves) (type : String) (rule : Rule)
    (message : String) :
    (creations source.withoutComments type).map
        (fun site => findingAt source.withoutComments site.node rule message) =
      (creations source type).map (fun site => findingAt source site.node rule message) := by
  apply map_filter_findAll_withoutComments h (by decide)
  intro site left hleft
  rw [hleft.node, createdType_withoutComments hleft.kind, findingAt_withoutComments]
  exact ⟨rfl, rfl⟩

def plainParts (source : Source) : List (Rule × List Finding) :=
  [(.crossSiteScripting, crossSiteScriptings source), (.pathTraversal, pathTraversals source),
   (.hardcodedSecret, hardcodedSecrets source), (.insecureRandom, insecureRandoms source),
   (.unsafeDeserialization, unsafeDeserializations source)]

theorem plainParts_subset (source : Source) (injections : List Finding) :
    plainParts source ⊆ parts source injections := by
  simp [plainParts, parts]

theorem plainParts_withoutComments (h : source.root.CommentLeaves) :
    plainParts source.withoutComments = plainParts source := by
  rw [plainParts, crossSiteScriptings_withoutComments h, pathTraversals_withoutComments h,
    hardcodedSecrets_withoutComments h, insecureRandoms, map_creations_withoutComments h,
    unsafeDeserializations, map_creations_withoutComments h]
  rfl

def remaining (node : Node) : List Node :=
  match node.child? "arguments" with
  | some list => list.namedChildren.filter list.keeps
  | none => []

theorem arguments_withoutComments (h : node.kind ∉ enclosureKinds) :
    arguments node.withoutComments = (remaining node).map Node.withoutComments := by
  rw [arguments, remaining, Node.child?_withoutComments h]
  cases node.child? "arguments" with
  | none => rfl
  | some list => exact list.namedChildren_withoutComments

theorem remaining_sublist (node : Node) : (remaining node).Sublist (arguments node) := by
  rw [arguments, remaining]
  cases node.child? "arguments" with
  | none => exact .slnil
  | some list => exact List.filter_sublist

theorem remaining_eq_self (h : ∀ argument ∈ arguments node, argument.isComment = false) :
    remaining node = arguments node := by
  rw [arguments] at h
  rw [arguments, remaining]
  cases hc : node.child? "arguments" with
  | none => rfl
  | some list =>
    rw [hc] at h
    apply List.filter_eq_self.mpr
    intro argument hmem
    simp [Node.keeps, h argument hmem]

theorem head?_remaining {first : Node} (h : (arguments node).head? = some first)
    (hc : first.isComment = false) : (remaining node).head? = some first := by
  rw [arguments] at h
  rw [remaining]
  cases ha : node.child? "arguments" with
  | none =>
    rw [ha] at h
    cases h
  | some list =>
    rw [ha] at h
    obtain ⟨rest, hrest⟩ := List.head?_eq_some_iff.mp h
    dsimp only at hrest ⊢
    rw [hrest, List.filter_cons_of_pos (by simp [Node.keeps, hc]), List.head?_cons]

theorem commandTarget?_withoutComments (h : node.kind ∉ enclosureKinds) :
    commandTarget? source.withoutComments node.withoutComments = commandTarget? source node := by
  rw [commandTarget?, commandTarget?, Node.kind_withoutComments, source.name_withoutComments h,
    source.fieldText_withoutComments h, createdType_withoutComments h]

/-- Without comments a call is reported as it was, unless nothing but texts is left. -/
theorem commandInjection?_withoutComments {site left : Site} (h : site.Remains left) :
    commandInjection? source.withoutComments left =
      if (remaining site.node).all (·.kind == "string_literal") then none
      else commandInjection? source site := by
  have hkinds : (fun argument : Node => argument.kind == "string_literal") ∘ Node.withoutComments =
      fun argument => argument.kind == "string_literal" := by
    funext argument
    rw [Function.comp_apply, Node.kind_withoutComments]
  have hmore : (arguments site.node).all (·.kind == "string_literal") = true →
      (remaining site.node).all (·.kind == "string_literal") = true := by
    intro hall
    rw [List.all_eq_true] at hall ⊢
    intro argument hmem
    exact hall argument ((remaining_sublist site.node).subset hmem)
  unfold commandInjection?
  rw [h.node, commandTarget?_withoutComments h.kind, arguments_withoutComments h.kind, List.all_map,
    hkinds]
  cases commandTarget? source site.node with
  | none =>
    split
    · rfl
    · rfl
  | some target =>
    dsimp only [Option.bind_eq_bind, Option.bind_some]
    split
    · rfl
    · rename_i hdynamic
      rw [if_neg (mt hmore hdynamic), findingAt_withoutComments]

theorem commandInjections_withoutComments (h : source.root.CommentLeaves) :
    commandInjections source.withoutComments =
      (source.findAll callKinds .preorder).filterMap fun site =>
        if (remaining site.node).all (·.kind == "string_literal") then none
        else commandInjection? source site := by
  symm
  apply filterMap_eq_of_forall₂
  apply (Node.findAll_withoutComments h (by decide)).imp
  intro site left hleft
  exact (commandInjection?_withoutComments hleft).symm

theorem commandInjection?_eq_none_iff {site : Site} :
    commandInjection? source site = none ↔
      ((commandTarget? source site.node).isSome = true →
        ∀ argument ∈ arguments site.node, argument.kind = "string_literal") := by
  unfold commandInjection?
  cases commandTarget? source site.node with
  | none => simp
  | some target => simp

theorem commandInjections_sublist (h : source.root.CommentLeaves) :
    (commandInjections source.withoutComments).Sublist (commandInjections source) := by
  rw [commandInjections_withoutComments h]
  apply filterMap_sublist_filterMap
  intro site _ finding hfinding
  exact (Option.ite_none_left_eq_some.mp hfinding).2

/-- A call that runs a command has no comments among its arguments, if all else there are texts. -/
def TextsUncommented (source : Source) : Prop :=
  ∀ site ∈ source.findAll callKinds .preorder, (commandTarget? source site.node).isSome = true →
    (∀ argument ∈ remaining site.node, argument.kind = "string_literal") →
      remaining site.node = arguments site.node

theorem commandInjections_eq_iff (h : source.root.CommentLeaves) :
    commandInjections source.withoutComments = commandInjections source ↔
      TextsUncommented source := by
  rw [commandInjections_withoutComments h, commandInjections, filterMap_eq_filterMap_iff
    fun site _ finding hfinding => (Option.ite_none_left_eq_some.mp hfinding).2]
  apply forall₂_congr
  intro site _
  rw [ite_eq_right_iff, List.all_eq_true, eq_comm, commandInjection?_eq_none_iff]
  constructor
  · intro hsame htarget hleft
    apply remaining_eq_self
    intro argument hmem
    have hkind := hsame (fun other ho => beq_iff_eq.mpr (hleft other ho)) htarget argument hmem
    rw [Node.isComment, hkind]
    decide
  · intro hsame hleft htarget
    have hleft : ∀ argument ∈ remaining site.node, argument.kind = "string_literal" :=
      fun argument hmem => beq_iff_eq.mp (hleft argument hmem)
    rw [← hsame htarget hleft]
    exact hleft

structure AsksWeak (source : Source) (node first : Node) : Prop where
  name : source.name node = "getInstance"
  weak : ∃ algorithm, stringValue? source first = some algorithm ∧
    let receiver := String.ofList (Text.afterLast '.' (source.fieldText node "object").toList)
    receiver = "MessageDigest" ∧ Wording.isWeakDigest algorithm = true ∨
      receiver = "Cipher" ∧ Wording.isWeakCipher algorithm = true

theorem isSome_weakCrypto?_iff {site : Site} :
    (weakCrypto? source site).isSome = true ↔
      ∃ first ∈ (arguments site.node).head?, AsksWeak source site.node first := by
  unfold weakCrypto?
  constructor
  · intro h
    obtain ⟨finding, h⟩ := Option.isSome_iff_exists.mp h
    obtain ⟨_, hname, h⟩ := Option.bind_eq_some_iff.mp h
    obtain ⟨first, hfirst, h⟩ := Option.bind_eq_some_iff.mp h
    obtain ⟨algorithm, hvalue, h⟩ := Option.bind_eq_some_iff.mp h
    obtain ⟨_, hweak, -⟩ := Option.bind_eq_some_iff.mp h
    rw [Option.guard_eq_some'] at hname hweak
    refine ⟨first, hfirst, by simpa using hname, algorithm, hvalue, ?_⟩
    simpa using hweak
  · rintro ⟨first, hfirst, hname, algorithm, hvalue, hweak⟩
    rw [Option.mem_def.mp hfirst, hname]
    simp only [Option.bind_eq_bind, Option.bind_some, hvalue]
    have htest : (String.ofList (Text.afterLast '.' (source.fieldText site.node "object").toList) ==
          "MessageDigest" && Wording.isWeakDigest algorithm ||
        String.ofList (Text.afterLast '.' (source.fieldText site.node "object").toList) ==
          "Cipher" && Wording.isWeakCipher algorithm) = true := by
      simpa using hweak
    rw [htest]
    rfl

theorem AsksWeak.isComment {first : Node} (h : AsksWeak source node first) :
    first.isComment = false := by
  obtain ⟨algorithm, hvalue, -⟩ := h.weak
  rw [Node.isComment, kind_of_stringValue? hvalue]
  decide

theorem asksWeak_withoutComments (h : node.kind ∉ enclosureKinds) {first : Node} :
    AsksWeak source.withoutComments node.withoutComments first.withoutComments ↔
      AsksWeak source node first := by
  have hobject := source.fieldText_withoutComments h "object"
  have hname := source.name_withoutComments h
  have hvalue := stringValue?_withoutComments source first
  constructor
  · rintro ⟨hn, hweak⟩
    rw [hobject, hvalue] at hweak
    exact ⟨hname ▸ hn, hweak⟩
  · rintro ⟨hn, hweak⟩
    rw [← hobject, ← hvalue] at hweak
    exact ⟨hname.trans hn, hweak⟩

theorem isSome_weakCrypto?_withoutComments {site left : Site} (h : site.Remains left) :
    (weakCrypto? source.withoutComments left).isSome = true ↔
      ∃ first ∈ (remaining site.node).head?, AsksWeak source site.node first := by
  rw [isSome_weakCrypto?_iff, h.node, arguments_withoutComments h.kind, List.head?_map]
  cases (remaining site.node).head? with
  | none => simp
  | some first => simp [asksWeak_withoutComments h.kind]

/-- A call reads its first argument as it does without comments, if that is the same. -/
theorem weakCrypto?_withoutComments {site left : Site} (h : site.Remains left)
    (hfirst : (arguments site.node).head? = (remaining site.node).head?) :
    weakCrypto? source.withoutComments left = weakCrypto? source site := by
  unfold weakCrypto?
  rw [h.node, source.name_withoutComments h.kind, source.fieldText_withoutComments h.kind,
    arguments_withoutComments h.kind, List.head?_map, hfirst]
  cases (remaining site.node).head? with
  | none => rfl
  | some first =>
    simp only [Option.map_some, Option.bind_eq_bind, Option.bind_some, stringValue?_withoutComments,
      findingAt_withoutComments]

/-- A weak algorithm that is seen among comments is seen without them. -/
theorem weakCrypto?_of_some {site left : Site} (h : site.Remains left) {finding : Finding}
    (hfinding : weakCrypto? source site = some finding) :
    weakCrypto? source.withoutComments left = some finding := by
  obtain ⟨first, hfirst, hweak⟩ := isSome_weakCrypto?_iff.mp (by rw [hfinding]; rfl)
  rw [weakCrypto?_withoutComments h, hfinding]
  rw [Option.mem_def.mp hfirst, head?_remaining hfirst hweak.isComment]

theorem weakCrypto?_eq_iff {site left : Site} (h : site.Remains left) :
    weakCrypto? source site = weakCrypto? source.withoutComments left ↔
      ∀ first ∈ (remaining site.node).head?, AsksWeak source site.node first →
        first ∈ (arguments site.node).head? := by
  constructor
  · intro heq first hfirst hweak
    have hsome := (isSome_weakCrypto?_withoutComments h).mpr ⟨first, hfirst, hweak⟩
    rw [← heq] at hsome
    obtain ⟨other, hother, hweak⟩ := isSome_weakCrypto?_iff.mp hsome
    have hsame := head?_remaining hother hweak.isComment
    rw [Option.mem_def.mp hfirst, Option.some_inj] at hsame
    exact hsame ▸ hother
  · intro hfirsts
    cases hfound : weakCrypto? source site with
    | some finding => exact (weakCrypto?_of_some h hfound).symm
    | none =>
      by_contra hleft
      obtain ⟨first, hfirst, hweak⟩ :=
        (isSome_weakCrypto?_withoutComments h).mp (Option.isSome_iff_ne_none.mpr (Ne.symm hleft))
      have hsome := isSome_weakCrypto?_iff.mpr ⟨first, hfirsts first hfirst hweak, hweak⟩
      rw [hfound] at hsome
      cases hsome

theorem weakCryptos_withoutComments (h : source.root.CommentLeaves) :
    weakCryptos source.withoutComments =
      (source.findAll ["method_invocation"] .preorder).filterMap fun site =>
        weakCrypto? source.withoutComments site.placeWithoutComments := by
  symm
  apply filterMap_eq_of_forall₂
  apply (Node.findAll_withoutComments h (by decide)).imp
  intro site left hleft
  unfold weakCrypto?
  rw [hleft.node]
  rfl

theorem remains_of_call {site : Site} (h : site ∈ source.findAll ["method_invocation"] .preorder) :
    site.Remains site.placeWithoutComments := by
  have hkind := List.mem_singleton.mp (Node.within_findAll h).2
  exact ⟨by rw [hkind]; decide, rfl, rfl⟩

theorem weakCryptos_sublist (h : source.root.CommentLeaves) :
    (weakCryptos source).Sublist (weakCryptos source.withoutComments) := by
  rw [weakCryptos_withoutComments h]
  apply filterMap_sublist_filterMap
  intro site hs finding hfinding
  exact weakCrypto?_of_some (remains_of_call hs) hfinding

/-- A weak algorithm that is left as the first argument of a call has no comment before it. -/
def WeakUncommented (source : Source) : Prop :=
  ∀ site ∈ source.findAll ["method_invocation"] .preorder,
    ∀ first ∈ (remaining site.node).head?, AsksWeak source site.node first →
      first ∈ (arguments site.node).head?

theorem weakCryptos_eq_iff (h : source.root.CommentLeaves) :
    weakCryptos source = weakCryptos source.withoutComments ↔ WeakUncommented source := by
  rw [weakCryptos_withoutComments h, weakCryptos, filterMap_eq_filterMap_iff
    fun site hs finding hfinding => weakCrypto?_of_some (remains_of_call hs) hfinding]
  apply forall₂_congr
  intro site hs
  exact weakCrypto?_eq_iff (remains_of_call hs)

theorem verdict_withoutComments (source : Source) (leaf : Node) :
    verdict source.withoutComments leaf.withoutComments = verdict source leaf := by
  simp [verdict]

theorem verdict_of_isComment (h : node.isComment = true) : verdict source node = (none, false) := by
  rw [Node.isComment, List.contains_iff_mem, commentKinds, List.mem_cons, List.mem_singleton] at h
  rcases h with h | h
  · rw [verdict, stringValue?, h]
    rfl
  · rw [verdict, stringValue?, h]
    rfl

theorem verdict_of_parentheses (h : node.kind = "parenthesized_expression") :
    verdict source node = (none, false) := by
  rw [verdict, stringValue?, h]
  rfl

end Security

def LedByComment (node : Node) : Prop :=
  ∃ first rest, node.namedChildren = first :: rest ∧ first.isComment = true ∧
    ∃ other ∈ rest, other.isComment = false

theorem isLeaf_of_isComment (h : node.isComment = true) : IsLeaf source node := by
  rw [Node.isComment, List.contains_iff_mem, commentKinds, List.mem_cons, List.mem_singleton] at h
  rcases h with h | h
  · exact isLeaf_of_kind (by rw [h]; decide) (by rw [h]; decide)
  · exact isLeaf_of_kind (by rw [h]; decide) (by rw [h]; decide)

theorem isLeaf_withoutComments (h : IsLeaf source node) :
    IsLeaf source.withoutComments node.withoutComments := by
  constructor
  · rw [isConcat_withoutComments, h.not_plus]
  · intro hk
    rw [Node.namedChildren_withoutComments,
      h.encloses_nothing (by simpa using hk)]
    rfl

theorem namedChildren_of_comments (hk : node.kind = "parenthesized_expression")
    (h : ∀ child ∈ node.namedChildren, child.isComment = true) :
    node.withoutComments.namedChildren = [] := by
  rw [Node.namedChildren_withoutComments, List.map_eq_nil_iff, List.filter_eq_nil_iff]
  intro child hc
  simp [Node.keeps, hk, h child hc, enclosureKinds]

theorem map_both {α β ε : Type} (f : α → β) (first second : Except ε (List α)) :
    Except.map (List.map f) (do return (← first) ++ (← second)) =
      (do return (← first.map (List.map f)) ++ (← second.map (List.map f))) := by
  cases first with
  | error fault => rfl
  | ok items =>
    cases second with
    | error fault => rfl
    | ok more => exact congrArg Except.ok List.map_append

/-- The verdicts on the operands of a chain are the same without comments, unless a comment takes
the place of what parentheses hold. -/
theorem verdicts_withoutComments
    (h : ∀ inner, Reaches source node inner → inner.kind = "parenthesized_expression" →
      ¬ LedByComment inner) :
    (operands source.withoutComments node.withoutComments).map
        (List.map (Security.verdict source.withoutComments)) =
      (operands source node).map (List.map (Security.verdict source)) := by
  have hleaf : ∀ {node : Node}, IsLeaf source node →
      (operands source.withoutComments node.withoutComments).map
          (List.map (Security.verdict source.withoutComments)) =
        .ok [Security.verdict source node] := by
    intro node hnode
    rw [operands_of_isLeaf (isLeaf_withoutComments hnode), Except.map, List.map_singleton,
      Security.verdict_withoutComments]
  fun_induction operands source node with
  | case1 node hc left right hl hr ihl ihr =>
    have hkind : node.kind ∉ enclosureKinds := by
      rw [kind_of_isConcat hc]
      decide
    have ihl := ihl fun inner hreach => h inner (.left hc hl hreach)
    have ihr := ihr fun inner hreach => h inner (.right hc hr hreach)
    rw [operands_eq, isConcat_withoutComments, if_pos hc, Node.child?_withoutComments hkind,
      Node.child?_withoutComments hkind, hl, hr, map_both, ← ihl, ← ihr]
    exact map_both ..
  | case2 node hc hmissing =>
    have hkind : node.kind ∉ enclosureKinds := by
      rw [kind_of_isConcat hc]
      decide
    rw [operands_eq, isConcat_withoutComments, if_pos hc, Node.child?_withoutComments hkind,
      Node.child?_withoutComments hkind]
    cases hl : node.child? "left" with
    | none => rfl
    | some left =>
      cases hr : node.child? "right" with
      | none => rfl
      | some right => exact (hmissing left right hl hr).elim
  | case3 node hc hk first rest hf ih =>
    have hk : node.kind = "parenthesized_expression" := by simpa using hk
    have hk' : node.withoutComments.kind = "parenthesized_expression" := by simpa using hk
    by_cases hcomment : first.isComment = true
    · -- Nothing but comments: without them the parentheses themselves are the operand.
      have hall : ∀ child ∈ node.namedChildren, child.isComment = true := by
        rw [hf, List.forall_mem_cons]
        refine ⟨hcomment, ?_⟩
        intro child hmem
        by_contra hother
        exact h node (.here node) hk ⟨first, rest, hf, hcomment, child, hmem, by simpa using hother⟩
      have hempty : IsLeaf source.withoutComments node.withoutComments :=
        ⟨isConcat_eq_false_of_kind (by rw [hk']; decide),
          fun _ => namedChildren_of_comments hk hall⟩
      rw [operands_of_isLeaf hempty, operands_of_isLeaf (isLeaf_of_isComment hcomment)]
      rw [Except.map, Except.map, List.map_singleton, List.map_singleton,
        Security.verdict_of_parentheses hk', Security.verdict_of_isComment hcomment]
    · have hnamed : node.withoutComments.namedChildren =
          first.withoutComments :: (rest.filter node.keeps).map Node.withoutComments := by
        rw [Node.namedChildren_withoutComments, hf,
          List.filter_cons_of_pos (by simp [Node.keeps, hcomment]), List.map_cons]
      rw [operands_of_parentheses hk' hnamed]
      exact ih fun inner hreach => h inner (.inside hk hf hreach)
  | case4 node hc hk hf => exact hleaf ⟨by simpa using hc, fun _ => hf⟩
  | case5 node hc hk =>
    exact hleaf ⟨by simpa using hc, fun hp => absurd hp (by simpa using hk)⟩

theorem mapM_eq_of_forall₂ {α β γ ε : Type} {f : α → Except ε β} {g : γ → Except ε β}
    {items : List α} {others : List γ}
    (h : List.Forall₂ (fun item other => f item = g other) items others) :
    items.mapM f = others.mapM g := by
  induction h with
  | nil => rfl
  | cons hfirst _ ih => rw [List.mapM_cons, List.mapM_cons, hfirst, ih]

namespace Security

theorem isOutermostConcat_withoutComments {site left : Site} (h : site.Remains left) :
    isOutermostConcat source.withoutComments left = isOutermostConcat source site := by
  rw [isOutermostConcat, isOutermostConcat, h.node, h.parent, isConcat_withoutComments,
    Option.any_map]
  simp only [isConcat_withoutComments]

theorem sqlInjection?_withoutComments {site left : Site} (h : site.Remains left)
    (hchain : ∀ inner, Reaches source site.node inner → inner.kind = "parenthesized_expression" →
      ¬ LedByComment inner) :
    sqlInjection? source.withoutComments left = sqlInjection? source site := by
  have hverdicts := verdicts_withoutComments hchain
  unfold sqlInjection?
  rw [h.node]
  cases hok : operands source site.node with
  | error fault =>
    rw [hok] at hverdicts
    cases hleft : operands source.withoutComments site.node.withoutComments with
    | error other =>
      rw [hleft] at hverdicts
      cases hverdicts
      rfl
    | ok leaves =>
      rw [hleft] at hverdicts
      cases hverdicts
  | ok leaves =>
    rw [hok] at hverdicts
    obtain ⟨left, hleft, hverdicts⟩ := map_eq_ok.mp hverdicts
    rw [hleft]
    simp only [bind, Except.bind, buildsQuery_of_verdicts hverdicts, findingAt_withoutComments]

def ChainsUncommented (source : Source) : Prop :=
  ∀ site ∈ source.findAll ["binary_expression"] .preorder, isOutermostConcat source site = true →
    ∀ inner, Reaches source site.node inner → inner.kind = "parenthesized_expression" →
      ¬ LedByComment inner

theorem sqlInjections_withoutComments (h : source.root.CommentLeaves)
    (hplain : ChainsUncommented source) :
    sqlInjections source.withoutComments = sqlInjections source := by
  have htest : (Relator.LiftFun Site.Remains (· ↔ ·)) (isOutermostConcat source · = true)
      (isOutermostConcat source.withoutComments · = true) := by
    intro site left hleft
    dsimp only
    rw [isOutermostConcat_withoutComments hleft]
  have hchains : List.Forall₂ Site.Remains
      ((source.findAll ["binary_expression"] .preorder).filter (isOutermostConcat source))
      ((source.withoutComments.findAll ["binary_expression"] .preorder).filter
        (isOutermostConcat source.withoutComments)) :=
    List.rel_filter htest (Node.findAll_withoutComments h (by decide))
  have hsame : ((source.findAll ["binary_expression"] .preorder).filter
        (isOutermostConcat source)).mapM (sqlInjection? source) =
      ((source.withoutComments.findAll ["binary_expression"] .preorder).filter
        (isOutermostConcat source.withoutComments)).mapM
          (sqlInjection? source.withoutComments) := by
    apply mapM_eq_of_forall₂
    have hmem : ∀ site ∈ (source.findAll ["binary_expression"] .preorder).filter
        (isOutermostConcat source), ∀ inner, Reaches source site.node inner →
          inner.kind = "parenthesized_expression" → ¬ LedByComment inner := by
      intro site hsite
      obtain ⟨hsite, hout⟩ := List.mem_filter.mp hsite
      exact hplain site hsite hout
    apply ((List.forall₂_and_left _ _).mpr ⟨hmem, hchains⟩).imp
    rintro site left ⟨hchain, hleft⟩
    exact (sqlInjection?_withoutComments hleft hchain).symm
  unfold sqlInjections
  dsimp only
  rw [hsame]

end Security

end Check

theorem Finding.issue_injective (unit : SourceUnit) :
    Function.Injective (Finding.issue · unit) := by
  rintro ⟨rule, line, message⟩ ⟨other, otherLine, otherMessage⟩ h
  simp only [Finding.issue, Issue.mk.injEq] at h
  obtain ⟨-, hline, hmessage, -, -, hid, -⟩ := h
  rw [Rule.id_injective hid, Int.ofNat_inj.mp hline, hmessage]

namespace Analyzer

open Check Check.Security

def issuesOf (rule : Rule) (issues : List Issue) : List Issue :=
  issues.filter (·.ruleId == rule.id)

variable {path : Path} {source : Source}

/-- The issues on chains, or why there are none, are those of the check of chains. -/
theorem run_sqlInjections (path : Path) (source : Source) :
    (vulnerability.run ⟨path, some source⟩).map (issuesOf .sqlInjection) =
      (sqlInjections source).map (List.map (·.issue ⟨path, some source⟩)) := by
  cases hok : sqlInjections source with
  | error fault =>
    rw [vulnerability_run, findings, hok]
    rfl
  | ok injections =>
    have hfound := findings_eq_ok_iff.mpr ⟨injections, hok, rfl⟩
    have hrun : vulnerability.run ⟨path, some source⟩ = .ok _ :=
      map_eq_ok.mpr ⟨_, hfound, rfl⟩
    obtain ⟨others, hothers, hparts⟩ := security_issues_of_rule rfl hrun
    cases hok.symm.trans hothers
    rw [hrun]
    exact congrArg Except.ok (hparts (.sqlInjection, injections) List.mem_cons_self)

theorem issuesOf_part {issues : List Issue} (h : vulnerability.run ⟨path, some source⟩ = .ok issues)
    {rule : Rule} {found : List Finding}
    (hpart : ∀ injections, (rule, found) ∈ parts source injections) :
    issuesOf rule issues = found.map (·.issue ⟨path, none⟩) := by
  obtain ⟨injections, -, hparts⟩ := security_issues_of_rule rfl h
  exact hparts _ (hpart injections)

theorem issuesOf_weakCrypto {issues : List Issue}
    (h : vulnerability.run ⟨path, some source⟩ = .ok issues) :
    issuesOf .weakCrypto issues = (weakCryptos source).map (·.issue ⟨path, none⟩) :=
  issuesOf_part h fun _ => by simp [parts]

theorem issuesOf_commandInjection {issues : List Issue}
    (h : vulnerability.run ⟨path, some source⟩ = .ok issues) :
    issuesOf .commandInjection issues = (commandInjections source).map (·.issue ⟨path, none⟩) :=
  issuesOf_part h fun _ => by simp [parts]

/-- What taking the comments out of argument lists and parentheses does to a report. The issues on
chains stay, and so does a failure, unless a comment comes first in parentheses of a chain. No weak
algorithm is lost, and none is won exactly when no comment stands before one. No call that runs a
command is won, and none is lost exactly when none has comments beside nothing but texts. The other
checks report what they did. -/
theorem issues_without_comments (path : Path) (source : Source)
    (hleaves : source.root.CommentLeaves) :
    (ChainsUncommented source →
      (vulnerability.run ⟨path, some source.withoutComments⟩).map (issuesOf .sqlInjection) =
        (vulnerability.run ⟨path, some source⟩).map (issuesOf .sqlInjection)) ∧
    ∀ issues left, vulnerability.run ⟨path, some source⟩ = .ok issues →
      vulnerability.run ⟨path, some source.withoutComments⟩ = .ok left →
      ((issuesOf .weakCrypto issues).Sublist (issuesOf .weakCrypto left) ∧
        (issuesOf .weakCrypto issues = issuesOf .weakCrypto left ↔ WeakUncommented source)) ∧
      ((issuesOf .commandInjection left).Sublist (issuesOf .commandInjection issues) ∧
        (issuesOf .commandInjection left = issuesOf .commandInjection issues ↔
          TextsUncommented source)) ∧
      ∀ rule ∈ [Rule.crossSiteScripting, .pathTraversal, .hardcodedSecret, .insecureRandom,
          .unsafeDeserialization],
        issuesOf rule left = issuesOf rule issues := by
  refine ⟨?_, ?_⟩
  · intro hchains
    rw [run_sqlInjections, run_sqlInjections, sqlInjections_withoutComments hleaves hchains]
    rfl
  · intro issues left hrun hleft
    have hinjective := List.map_injective_iff.mpr (Finding.issue_injective ⟨path, none⟩)
    refine ⟨?_, ?_, ?_⟩
    · rw [issuesOf_weakCrypto hrun, issuesOf_weakCrypto hleft, hinjective.eq_iff,
        weakCryptos_eq_iff hleaves]
      exact ⟨(weakCryptos_sublist hleaves).map _, Iff.rfl⟩
    · rw [issuesOf_commandInjection hrun, issuesOf_commandInjection hleft, hinjective.eq_iff,
        commandInjections_eq_iff hleaves]
      exact ⟨(commandInjections_sublist hleaves).map _, Iff.rfl⟩
    · intro rule hrule
      obtain ⟨part, hpart, rfl⟩ : ∃ part ∈ plainParts source, part.1 = rule :=
        List.mem_map.mp hrule
      have hother := plainParts_withoutComments hleaves ▸ hpart
      rw [issuesOf_part hrun fun injections => plainParts_subset source injections hpart,
        issuesOf_part hleft fun injections => plainParts_subset _ injections hother]

end Analyzer

namespace CommentRemoval

open Check Check.Security

def token (text : String) (start stop : Nat) : Node := ⟨text, false, false, start, stop, none, []⟩

def leaf (kind : String) (start stop : Nat) (field : Option String) : Node :=
  ⟨kind, true, false, start, stop, field, []⟩

def comment (start : Nat) : Node := leaf "block_comment" start (start + 4) none

def call (object name : Node) (stop : Nat) (arguments : List Node) : Node :=
  ⟨"method_invocation", true, false, object.start, stop, none,
    [object, token "." object.stop name.start, name,
     ⟨"argument_list", true, false, name.stop, stop, some "arguments",
       token "(" name.stop (name.stop + 1) :: arguments ++ [token ")" (stop - 1) stop]⟩]⟩

def digest (arguments : List Node) : Node :=
  call (leaf "identifier" 0 13 (some "object")) (leaf "identifier" 14 25 (some "name")) 36 arguments

def runtime : Node :=
  ⟨"method_invocation", true, false, 37, 49, some "object",
    [leaf "identifier" 37 47 (some "name"),
     ⟨"argument_list", true, false, 47, 49, some "arguments", [token "(" 47 48, token ")" 48 49]⟩]⟩

def command (arguments : List Node) : Node :=
  call runtime (leaf "identifier" 50 54 (some "name")) 63 arguments

/-- The text `MessageDigest.getInstance(/**/"MD5");getRuntime().exec("l"/**/)`. -/
def calls (first second : List Node) : Source where
  bytes :=
    [77, 101, 115, 115, 97, 103, 101, 68, 105, 103, 101, 115, 116, 46, 103, 101, 116, 73,
     110, 115, 116, 97, 110, 99, 101, 40, 47, 42, 42, 47, 34, 77, 68, 53, 34, 41, 59, 103,
     101, 116, 82, 117, 110, 116, 105, 109, 101, 40, 41, 46, 101, 120, 101, 99, 40, 34, 108,
     34, 47, 42, 42, 47, 41]
  root := ⟨"program", true, false, 0, 63, none, [digest first, token ";" 36 37, command second]⟩

def algorithm : Node := leaf "string_literal" 30 35 none

def program : Node := leaf "string_literal" 55 58 none

def commented : Source := calls [comment 26, algorithm] [program, comment 58]

theorem commented_withoutComments : commented.withoutComments = calls [algorithm] [program] := rfl

def path : Path := ⟨.relative, ["A.java"]⟩

def weakDigest : Issue :=
  ⟨"A.java", 1,
    "Weak cryptographic algorithm 'MD5' used with MessageDigest. Prefer SHA-256 or AES/GCM.",
    .vulnerability, .medium, "VUL_WEAK_CRYPTO_001", "A.java"⟩

def dynamicCommand : Issue :=
  ⟨"A.java", 1,
    "Possible command injection: Runtime.exec() called with dynamic arguments. " ++
      "Validate or whitelist command input.",
    .vulnerability, .high, "VUL_COMMAND_INJECTION_001", "A.java"⟩

def isCommentLeaf (node : Node) : Bool := !node.isComment || node.children.isEmpty

theorem commentLeaves_of_all {root : Node}
    (h : (root.sites .preorder).all (isCommentLeaf ·.node) = true) : root.CommentLeaves := by
  intro node hwithin hcomment
  simpa [isCommentLeaf, hcomment] using Node.forall_within_of_all isCommentLeaf h node hwithin

/-- One comment hides a weak algorithm, and one makes a fixed command look dynamic. -/
theorem comments_hide_and_create :
    commented.root.CommentLeaves ∧ ∃ issues left,
      Analyzer.vulnerability.run ⟨path, some commented⟩ = .ok issues ∧
      Analyzer.vulnerability.run ⟨path, some commented.withoutComments⟩ = .ok left ∧
      Analyzer.issuesOf .weakCrypto issues = [] ∧
      Analyzer.issuesOf .weakCrypto left = [weakDigest] ∧
      Analyzer.issuesOf .commandInjection issues = [dynamicCommand] ∧
      Analyzer.issuesOf .commandInjection left = [] := by
  rw [commented_withoutComments]
  obtain ⟨issues, hrun⟩ : ∃ issues,
      Analyzer.vulnerability.run ⟨path, some commented⟩ = .ok issues :=
    Analyzer.exists_run_of_operands path (Analyzer.whole_of_all (by decide +kernel))
  obtain ⟨left, hleft⟩ : ∃ left,
      Analyzer.vulnerability.run ⟨path, some (calls [algorithm] [program])⟩ = .ok left :=
    Analyzer.exists_run_of_operands path (Analyzer.whole_of_all (by decide +kernel))
  refine ⟨commentLeaves_of_all (by decide +kernel), issues, left, hrun, hleft, ?_, ?_, ?_, ?_⟩
  · rw [Analyzer.issuesOf_weakCrypto hrun]
    decide +kernel
  · rw [Analyzer.issuesOf_weakCrypto hleft]
    decide +kernel
  · rw [Analyzer.issuesOf_commandInjection hrun]
    decide +kernel
  · rw [Analyzer.issuesOf_commandInjection hleft]
    decide +kernel

def chain (inner : List Node) : Node :=
  ⟨"binary_expression", true, false, 37, 51, none,
    [leaf "string_literal" 37 43 (some "left"), ⟨"+", false, false, 43, 44, some "operator", []⟩,
     ⟨"parenthesized_expression", true, false, 44, 51, some "right",
       token "(" 44 45 :: inner ++ [token ")" 50 51]⟩]⟩

/-- The text `MessageDigest.getInstance("MD5"/**/);"drop"+(x/**/)`. -/
def statements (first second : List Node) : Source where
  bytes :=
    [77, 101, 115, 115, 97, 103, 101, 68, 105, 103, 101, 115, 116, 46, 103, 101, 116, 73,
     110, 115, 116, 97, 110, 99, 101, 40, 34, 77, 68, 53, 34, 47, 42, 42, 47, 41, 59, 34,
     100, 114, 111, 112, 34, 43, 40, 120, 47, 42, 42, 47, 41]
  root := ⟨"program", true, false, 0, 51, none, [digest first, token ";" 36 37, chain second]⟩

def operand : Node := leaf "identifier" 45 46 none

def argument : Node := leaf "string_literal" 26 31 none

def trailing : Source := statements [argument, comment 31] [operand, comment 46]

theorem trailing_withoutComments : trailing.withoutComments = statements [argument] [operand] := rfl

def startsPlain (node : Node) : Bool :=
  node.kind != "parenthesized_expression" || node.namedChildren.head?.all (!·.isComment)

theorem trailing_chains : ChainsUncommented trailing := by
  have hall : (trailing.root.sites .preorder).all (startsPlain ·.node) = true := by decide +kernel
  intro site hsite _ inner hreach hk hled
  obtain ⟨first, rest, hnamed, hcomment, -⟩ := hled
  have hwithin := hreach.within (Node.within_findAll hsite).1.1
  have hfirst := Node.forall_within_of_all startsPlain hall inner hwithin
  simp [startsPlain, hk, hnamed, hcomment] at hfirst

def chainSite : Site :=
  ⟨chain [operand, comment 46], some trailing.root, some (token ";" 36 37), [2]⟩

theorem reportedSites_trailing : reportedSites trailing = [chainSite] := by
  have hout :
      (trailing.root.sites .preorder).filter (isOutermostConcat trailing) = [chainSite] := by cbv
  have hplus : isConcat trailing chainSite.node = true := by decide +kernel
  have hoperands : operands trailing chainSite.node =
      .ok ([leaf "string_literal" 37 43 (some "left")] ++ [operand]) := by
    apply operands_of_plus hplus rfl rfl
    · exact operands_of_isLeaf (isLeaf_of_kind (by decide) (by decide))
    · rw [operands_of_parentheses rfl rfl]
      exact operands_of_isLeaf (isLeaf_of_kind (by decide) (by decide))
  have hreported : isReported trailing chainSite = true := by
    rw [isReported, hoperands, Bool.and_eq_true]
    exact ⟨by decide +kernel, by decide +kernel⟩
  rw [reportedSites_eq, hout, List.filter_cons_of_pos hreported, List.filter_nil]

/-- Comments behind what counts: the same weak algorithm and the same chain are reported. -/
theorem trailing_comments_harmless :
    trailing.root.CommentLeaves ∧ ChainsUncommented trailing ∧ WeakUncommented trailing ∧
      ∃ issues left, Analyzer.vulnerability.run ⟨path, some trailing⟩ = .ok issues ∧
        Analyzer.vulnerability.run ⟨path, some trailing.withoutComments⟩ = .ok left ∧
        Analyzer.issuesOf .weakCrypto issues = [weakDigest] ∧
        Analyzer.issuesOf .weakCrypto left = [weakDigest] ∧
        (Analyzer.issuesOf .sqlInjection issues).map (·.line) = [1] ∧
        Analyzer.issuesOf .sqlInjection left = Analyzer.issuesOf .sqlInjection issues := by
  have hleaves : trailing.root.CommentLeaves := commentLeaves_of_all (by decide +kernel)
  obtain ⟨hchains, hrest⟩ := Analyzer.issues_without_comments path trailing hleaves
  obtain ⟨issues, hrun⟩ : ∃ issues, Analyzer.vulnerability.run ⟨path, some trailing⟩ = .ok issues :=
    Analyzer.exists_run_of_operands path (Analyzer.whole_of_all (by decide +kernel))
  have hsql := hchains trailing_chains
  rw [hrun] at hsql
  obtain ⟨left, hleft, hsame⟩ := map_eq_ok.mp hsql
  obtain ⟨⟨-, hweak⟩, -⟩ := hrest issues left hrun hleft
  have hfound : Analyzer.issuesOf .weakCrypto issues = [weakDigest] := by
    rw [Analyzer.issuesOf_weakCrypto hrun]
    decide +kernel
  have hothers : Analyzer.issuesOf .weakCrypto left = [weakDigest] := by
    rw [Analyzer.issuesOf_weakCrypto hleft, trailing_withoutComments]
    decide +kernel
  have hlines : (Analyzer.issuesOf .sqlInjection issues).map (·.line) =
      (reportedSites trailing).map fun site => (trailing.line site.node : Int) :=
    Analyzer.sql_issue_lines hrun
  rw [reportedSites_trailing] at hlines
  exact ⟨hleaves, trailing_chains, hweak.mp (hfound.trans hothers.symm), issues, left, hrun, hleft,
    hfound, hothers, hlines, hsame⟩

end CommentRemoval

end JavaLint
