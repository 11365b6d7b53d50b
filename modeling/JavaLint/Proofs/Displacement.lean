import JavaLint.Analyzer
import JavaLint.Proofs.Outcome
import Mathlib.Data.List.Basic
import Mathlib.Data.List.Find
import Mathlib.Data.Option.Basic

/-! Bytes put before a source. The tree moves along with its bytes, and so every check sees the same
texts at the same nodes; only the lines are counted further. An analyzer therefore reports the same
issues, as many lines further down as the bytes before have line feeds. -/
namespace JavaLint

mutual

def Node.shift (distance : Nat) : Node → Node
  | ⟨kind, isNamed, isMissing, start, stop, field, children⟩ =>
    ⟨kind, isNamed, isMissing, start + distance, stop + distance, field,
      Node.shiftAll distance children⟩

def Node.shiftAll (distance : Nat) : List Node → List Node
  | [] => []
  | node :: rest => node.shift distance :: Node.shiftAll distance rest

end

namespace Node

variable (distance : Nat) (node : Node)

theorem shiftAll_eq_map (nodes : List Node) :
    shiftAll distance nodes = nodes.map (shift distance) := by
  induction nodes with
  | nil => rfl
  | cons node rest ih => rw [shiftAll, ih, List.map_cons]

@[simp] theorem kind_shift : (node.shift distance).kind = node.kind := by
  cases node; rfl

@[simp] theorem isNamed_shift : (node.shift distance).isNamed = node.isNamed := by
  cases node; rfl

@[simp] theorem field_shift : (node.shift distance).field = node.field := by
  cases node; rfl

@[simp] theorem start_shift : (node.shift distance).start = node.start + distance := by
  cases node; rfl

@[simp] theorem stop_shift : (node.shift distance).stop = node.stop + distance := by
  cases node; rfl

@[simp] theorem children_shift :
    (node.shift distance).children = node.children.map (shift distance) := by
  cases node
  exact shiftAll_eq_map ..

@[simp] theorem child?_shift (field : String) :
    (node.shift distance).child? field = (node.child? field).map (shift distance) := by
  simp [child?, List.find?_map]

@[simp] theorem childrenOf_shift (field : String) :
    (node.shift distance).childrenOf field = (node.childrenOf field).map (shift distance) := by
  simp [childrenOf, List.filter_map, Function.comp_def]

@[simp] theorem namedChildren_shift :
    (node.shift distance).namedChildren = node.namedChildren.map (shift distance) := by
  simp [namedChildren, List.filter_map, Function.comp_def]

end Node

namespace Site

def shift (distance : Nat) (site : Site) : Site :=
  ⟨site.node.shift distance, site.parent.map (·.shift distance),
    site.previous.map (·.shift distance), site.address⟩

variable (distance : Nat)

@[simp] theorem node_shift (site : Site) : (site.shift distance).node = site.node.shift distance :=
  rfl

theorem ofChildren_shift (parent : Node) (address : List Nat) (position : Nat)
    (previous : Option Node) (nodes : List Node) :
    ofChildren (parent.shift distance) address position (previous.map (·.shift distance))
        (nodes.map (·.shift distance)) =
      (ofChildren parent address position previous nodes).map (shift distance) := by
  induction nodes generalizing position previous with
  | nil => rfl
  | cons node rest ih =>
    rw [List.map_cons, ofChildren, ofChildren, List.map_cons, ← ih]
    rfl

theorem children_shift (site : Site) :
    (site.shift distance).children = site.children.map (shift distance) := by
  unfold children
  rw [node_shift, Node.children_shift, ← ofChildren_shift]
  rfl

theorem preorderFrom_shift (stack : List Site) :
    preorderFrom (stack.map (shift distance)) = (preorderFrom stack).map (shift distance) := by
  fun_induction preorderFrom stack with
  | case1 => simp [preorderFrom]
  | case2 site stack ih =>
    rw [List.map_cons, preorderFrom, children_shift, ← List.map_append, ih, List.map_cons]

def Task.shift (task : Task) : Task := (task.1.shift distance, task.2)

theorem map_fresh_shift (sites : List Site) :
    (sites.map (Site.shift distance)).map (·, false) =
      (sites.map (·, false)).map (Task.shift distance) := by
  rw [List.map_map, List.map_map]
  rfl

theorem postorderFrom_shift (tasks : List Task) :
    postorderFrom (tasks.map (Task.shift distance)) =
      (postorderFrom tasks).map (Site.shift distance) := by
  fun_induction postorderFrom tasks with
  | case1 => simp [postorderFrom]
  | case2 site stack ih =>
    rw [List.map_cons, Task.shift, postorderFrom, ih, List.map_cons]
  | case3 site stack ih =>
    rw [List.map_cons, Task.shift, postorderFrom, children_shift, map_fresh_shift, ← ih,
      List.map_append, List.map_cons]
    rfl

end Site

theorem Node.findAll_shift (distance : Nat) (root : Node) (kinds : List String) (order : Order) :
    (root.shift distance).findAll kinds order =
      (root.findAll kinds order).map (Site.shift distance) := by
  have hsites : (root.shift distance).sites order =
      (root.sites order).map (Site.shift distance) := by
    cases order with
    | preorder => exact Site.preorderFrom_shift distance [.ofRoot root]
    | postorder => exact Site.postorderFrom_shift distance [(.ofRoot root, false)]
  unfold findAll
  rw [hsites, List.filter_map]
  simp [Function.comp_def]

namespace Source

def prepend (before : Text.Bytes) (source : Source) : Source :=
  ⟨before ++ source.bytes, source.root.shift before.length⟩

variable (before : Text.Bytes) (source : Source) (node : Node)

@[simp] theorem findAll_prepend (kinds : List String) (order : Order) :
    (source.prepend before).findAll kinds order =
      (source.findAll kinds order).map (Site.shift before.length) :=
  Node.findAll_shift ..

@[simp] theorem text_prepend :
    (source.prepend before).text (node.shift before.length) = source.text node := by
  have hspan : (source.prepend before).span (node.shift before.length) = source.span node := by
    unfold span prepend
    rw [Node.stop_shift, Node.start_shift, Nat.add_comm node.stop, Nat.add_comm node.start,
      List.take_length_add_append, List.drop_length_add_append]
  unfold text
  rw [hspan]

@[simp] theorem line_prepend :
    (source.prepend before).line (node.shift before.length) =
      source.line node + before.count lineFeed := by
  unfold line rowAt prepend
  rw [Node.start_shift, Nat.add_comm node.start, List.take_length_add_append, List.count_append]
  omega

@[simp] theorem textOf_prepend (node : Option Node) :
    (source.prepend before).textOf (node.map (Node.shift before.length)) = source.textOf node := by
  cases node with
  | none => rfl
  | some node => exact text_prepend before source node

@[simp] theorem fieldText_prepend (field : String) :
    (source.prepend before).fieldText (node.shift before.length) field =
      source.fieldText node field := by
  simp [fieldText]

@[simp] theorem name_prepend :
    (source.prepend before).name (node.shift before.length) = source.name node := by
  simp [name]

@[simp] theorem modifiers_prepend :
    (source.prepend before).modifiers (node.shift before.length) = source.modifiers node := by
  unfold modifiers
  rw [Node.children_shift, List.find?_map]
  simp only [Function.comp_def, Node.kind_shift]
  cases node.children.find? (·.kind == "modifiers") with
  | none => rfl
  | some list => simp [List.filter_map, Function.comp_def]

@[simp] theorem declarators_prepend :
    (source.prepend before).declarators (node.shift before.length) =
      (source.declarators node).map fun (declarator, name) =>
        (declarator.shift before.length, name) := by
  simp [declarators, Function.comp_def]

end Source

namespace Site

variable (before : Text.Bytes) (source : Source) (site : Site)

@[simp] theorem comment?_shift (distance : Nat) :
    (site.shift distance).comment? = site.comment?.map (·.shift distance) := by
  unfold comment?
  cases hp : site.previous with
  | none => simp [shift, hp]
  | some node =>
    by_cases hk : node.kind = "line_comment" ∨ node.kind = "block_comment"
    · simp [shift, hp, hk, Option.filter_some]
    · simp [shift, hp, hk, Option.filter_some]

@[simp] theorem isNone_docComment?_prepend :
    ((source.prepend before).docComment? (site.shift before.length)).isNone =
      (source.docComment? site).isNone := by
  unfold Source.docComment?
  rw [comment?_shift]
  cases site.comment? with
  | none => rfl
  | some node => simp [Option.filter_some, apply_ite]

end Site

def Finding.lower (lines : Nat) (finding : Finding) : Finding :=
  { finding with line := finding.line + lines }

namespace Check

section
variable {α β : Type} {lines : Nat} {items : List α} {move : α → β}

/-- The form of most checks: one finding for each thing that a test lets through. -/
theorem report_lower {test : α → Bool} {movedTest : β → Bool} {check : α → Finding}
    {movedCheck : β → Finding} (ht : ∀ item, movedTest (move item) = test item)
    (hc : ∀ item, movedCheck (move item) = (check item).lower lines) :
    ((items.map move).filter movedTest).map movedCheck =
      ((items.filter test).map check).map (Finding.lower lines) := by
  rw [List.filter_map, List.map_map, List.map_map]
  simp [Function.comp_def, ht, hc]

theorem filterMap_lower {check : α → Option Finding} {movedCheck : β → Option Finding}
    (hc : ∀ item, movedCheck (move item) = (check item).map (Finding.lower lines)) :
    (items.map move).filterMap movedCheck =
      (items.filterMap check).map (Finding.lower lines) := by
  rw [List.filterMap_map, List.map_filterMap]
  congr 1
  funext item
  exact hc item

theorem flatMap_lower {check : α → List Finding} {movedCheck : β → List Finding}
    (hc : ∀ item, movedCheck (move item) = (check item).map (Finding.lower lines)) :
    (items.map move).flatMap movedCheck = (items.flatMap check).map (Finding.lower lines) := by
  rw [List.flatMap_map, List.map_flatMap]
  congr 1
  funext item
  exact hc item

end

variable (before : Text.Bytes) (source : Source)

@[simp] theorem findingAt_prepend (node : Node) (rule : Rule) (message : String) :
    findingAt (source.prepend before) (node.shift before.length) rule message =
      (findingAt source node rule message).lower (before.count lineFeed) := by
  simp [findingAt, Finding.lower]

namespace Method

def shift (distance : Nat) (method : Method) : Method :=
  ⟨method.site.shift distance, method.body.shift distance⟩

@[simp] theorem site_shift (distance : Nat) (method : Method) :
    (method.shift distance).site = method.site.shift distance := rfl

@[simp] theorem bodyText_prepend (method : Method) :
    (method.shift before.length).bodyText (source.prepend before) = method.bodyText source := by
  simp [bodyText, shift]

@[simp] theorem name_prepend (method : Method) :
    (method.shift before.length).name (source.prepend before) = method.name source := by
  simp [name]

@[simp] theorem finding_prepend (method : Method) (rule : Rule) (message : String) :
    (method.shift before.length).finding (source.prepend before) rule message =
      (method.finding source rule message).lower (before.count lineFeed) := by
  simp [finding, Finding.lower]

end Method

@[simp] theorem methodsWithBody_prepend :
    methodsWithBody (source.prepend before) =
      (methodsWithBody source).map (Method.shift before.length) := by
  unfold methodsWithBody
  rw [Source.findAll_prepend, List.filterMap_map, List.map_filterMap]
  congr 1
  funext site
  simp [Function.comp_def, Method.shift]

namespace Defect

theorem nullDereferences_prepend :
    nullDereferences (source.prepend before) =
      (nullDereferences source).map (Finding.lower (before.count lineFeed)) := by
  unfold nullDereferences
  rw [methodsWithBody_prepend]
  exact report_lower (fun _ => by simp [mayDereferenceNull]) (fun _ => by simp)

theorem infiniteLoops_prepend :
    infiniteLoops (source.prepend before) =
      (infiniteLoops source).map (Finding.lower (before.count lineFeed)) := by
  unfold infiniteLoops
  rw [methodsWithBody_prepend]
  exact report_lower (fun _ => by simp [loopsForever]) (fun _ => by simp)

theorem emptyCatches_prepend :
    emptyCatches (source.prepend before) =
      (emptyCatches source).map (Finding.lower (before.count lineFeed)) := by
  unfold emptyCatches
  rw [methodsWithBody_prepend]
  exact report_lower (fun _ => by simp [catchesNothing]) (fun _ => by simp)

theorem referenceEqualities_prepend :
    referenceEqualities (source.prepend before) =
      (referenceEqualities source).map (Finding.lower (before.count lineFeed)) := by
  unfold referenceEqualities
  rw [Source.findAll_prepend]
  exact report_lower (fun _ => by simp [comparesReferences]) (fun _ => by simp)

theorem findings_prepend :
    findings (source.prepend before) =
      (findings source).map (Finding.lower (before.count lineFeed)) := by
  unfold findings
  rw [nullDereferences_prepend, infiniteLoops_prepend, emptyCatches_prepend,
    referenceEqualities_prepend, List.map_append, List.map_append, List.map_append]

end Defect

namespace Efficiency

theorem stringConcatenations_prepend :
    stringConcatenations (source.prepend before) =
      (stringConcatenations source).map (Finding.lower (before.count lineFeed)) := by
  unfold stringConcatenations
  rw [methodsWithBody_prepend]
  exact report_lower (fun _ => by simp [concatenatesInLoop]) (fun _ => by simp)

theorem asksSizeInCondition_prepend (node : Node) :
    asksSizeInCondition (source.prepend before) (node.shift before.length) =
      asksSizeInCondition source node := by
  unfold asksSizeInCondition
  rw [Node.child?_shift]
  cases node.child? "condition" with
  | none => rfl
  | some condition => simp

theorem sizeCalls_prepend :
    sizeCalls (source.prepend before) =
      (sizeCalls source).map (Finding.lower (before.count lineFeed)) := by
  unfold sizeCalls
  rw [Source.findAll_prepend]
  exact report_lower (fun _ => by simp [asksSizeInCondition_prepend]) (fun _ => by simp)

theorem foreachRemovals_prepend :
    foreachRemovals (source.prepend before) =
      (foreachRemovals source).map (Finding.lower (before.count lineFeed)) := by
  unfold foreachRemovals
  rw [Source.findAll_prepend]
  exact report_lower (fun _ => by simp [removesWhileIterating]) (fun _ => by simp)

theorem isUnsizedList_prepend (member : Node) :
    isUnsizedList (source.prepend before) (member.shift before.length) =
      isUnsizedList source member := by
  unfold isUnsizedList
  rw [Node.childrenOf_shift]
  cases member.childrenOf "declarator" with
  | nil => simp
  | cons first rest => simp

theorem membersOf_shift (distance : Nat) (declaration : Node) :
    membersOf (declaration.shift distance) =
      (membersOf declaration).map (Node.shift distance) := by
  unfold membersOf
  rw [Node.child?_shift]
  cases declaration.child? "body" with
  | none => rfl
  | some body => simp

theorem unsizedLists_prepend :
    unsizedLists (source.prepend before) =
      (unsizedLists source).map (Finding.lower (before.count lineFeed)) := by
  unfold unsizedLists
  rw [Source.findAll_prepend]
  refine flatMap_lower fun site => ?_
  rw [Site.node_shift, membersOf_shift]
  exact report_lower (fun _ => by simp [isUnsizedList_prepend]) (fun _ => by simp)

theorem boxings_prepend :
    boxings (source.prepend before) =
      (boxings source).map (Finding.lower (before.count lineFeed)) := by
  unfold boxings
  rw [methodsWithBody_prepend]
  exact report_lower (fun _ => by simp [boxesInLoop]) (fun _ => by simp)

theorem findings_prepend :
    findings (source.prepend before) =
      (findings source).map (Finding.lower (before.count lineFeed)) := by
  unfold findings
  rw [stringConcatenations_prepend, sizeCalls_prepend, foreachRemovals_prepend,
    unsizedLists_prepend, boxings_prepend, List.map_append, List.map_append, List.map_append,
    List.map_append]

end Efficiency

namespace Convention

theorem classNames_prepend :
    classNames (source.prepend before) =
      (classNames source).map (Finding.lower (before.count lineFeed)) := by
  unfold classNames
  rw [Source.findAll_prepend]
  exact report_lower (fun _ => by simp) (fun _ => by simp)

theorem methodNames_prepend :
    methodNames (source.prepend before) =
      (methodNames source).map (Finding.lower (before.count lineFeed)) := by
  unfold methodNames
  rw [Source.findAll_prepend]
  exact report_lower (fun _ => by simp) (fun _ => by simp)

theorem variableName?_prepend (field : Node) (name : String) :
    variableName? (source.prepend before) (field.shift before.length) name =
      (variableName? source field name).map (Finding.lower (before.count lineFeed)) := by
  simp only [variableName?, isConstant, Source.modifiers_prepend, findingAt_prepend]
  split
  · split <;> rfl
  · split <;> rfl

theorem fieldNames_prepend :
    fieldNames (source.prepend before) =
      (fieldNames source).map (Finding.lower (before.count lineFeed)) := by
  unfold fieldNames
  rw [Source.findAll_prepend]
  refine flatMap_lower fun site => ?_
  rw [Site.node_shift, Source.declarators_prepend]
  exact filterMap_lower fun _ => variableName?_prepend before source site.node _

theorem undocumentedClasses_prepend :
    undocumentedClasses (source.prepend before) =
      (undocumentedClasses source).map (Finding.lower (before.count lineFeed)) := by
  unfold undocumentedClasses
  rw [Source.findAll_prepend]
  exact report_lower (fun _ => by simp) (fun _ => by simp)

theorem undocumentedMethods_prepend :
    undocumentedMethods (source.prepend before) =
      (undocumentedMethods source).map (Finding.lower (before.count lineFeed)) := by
  unfold undocumentedMethods
  rw [Source.findAll_prepend]
  exact report_lower (fun _ => by simp) (fun _ => by simp)

theorem longMethods_prepend (maxLines : Int) :
    longMethods maxLines (source.prepend before) =
      (longMethods maxLines source).map (Finding.lower (before.count lineFeed)) := by
  unfold longMethods
  rw [methodsWithBody_prepend]
  exact report_lower (fun _ => by simp) (fun _ => by simp)

theorem magicNumbers_prepend :
    magicNumbers (source.prepend before) =
      (magicNumbers source).map (Finding.lower (before.count lineFeed)) := by
  unfold magicNumbers
  rw [Source.findAll_prepend]
  exact report_lower (fun _ => by simp) (fun _ => by simp)

theorem findings_prepend (maxLines : Int) :
    findings maxLines (source.prepend before) =
      (findings maxLines source).map (Finding.lower (before.count lineFeed)) := by
  unfold findings
  rw [classNames_prepend, methodNames_prepend, fieldNames_prepend, undocumentedClasses_prepend,
    undocumentedMethods_prepend, longMethods_prepend, magicNumbers_prepend]
  simp only [List.map_append]

end Convention

theorem isConcat_prepend (node : Node) :
    isConcat (source.prepend before) (node.shift before.length) = isConcat source node := by
  simp [isConcat]

theorem operands_eq (node : Node) :
    operands source node =
      if isConcat source node then
        match node.child? "left", node.child? "right" with
        | some l, some r => do return (← operands source l) ++ (← operands source r)
        | _, _ => .error .missingOperand
      else if node.kind == "parenthesized_expression" then
        match node.namedChildren with
        | first :: _ => operands source first
        | [] => .ok [node]
      else .ok [node] := by
  rw [operands]
  split
  · split <;> simp_all
  · split
    · split <;> simp_all
    · rfl

theorem operands_prepend (node : Node) :
    operands (source.prepend before) (node.shift before.length) =
      (operands source node).map (·.map (Node.shift before.length)) := by
  fun_induction operands source node with
  | case1 node hc left right hl hr ihl ihr =>
    rw [operands_eq, isConcat_prepend, if_pos hc, Node.child?_shift, Node.child?_shift, hl, hr]
    simp only [Option.map_some, ihl, ihr]
    cases operands source left with
    | error fault => rfl
    | ok first =>
      cases operands source right with
      | error fault => rfl
      | ok second => simp [Except.map, bind, Except.bind, pure, Except.pure]
  | case2 node hc hmissing =>
    rw [operands_eq, isConcat_prepend, if_pos hc, Node.child?_shift, Node.child?_shift]
    cases hl : node.child? "left" with
    | none => rfl
    | some left =>
      cases hr : node.child? "right" with
      | none => rfl
      | some right => exact (hmissing left right hl hr).elim
  | case3 node hc hk first rest hf ih =>
    rw [operands_eq, isConcat_prepend, if_neg hc, Node.kind_shift, if_pos hk,
      Node.namedChildren_shift, hf]
    exact ih
  | case4 node hc hk hf =>
    rw [operands_eq, isConcat_prepend, if_neg hc, Node.kind_shift, if_pos hk,
      Node.namedChildren_shift, hf]
    rfl
  | case5 node hc hk =>
    rw [operands_eq, isConcat_prepend, if_neg hc, Node.kind_shift, if_neg hk]
    rfl

theorem mapM_map_except {α β γ : Type} (f : α → Except Fault β) (g : β → γ) (items : List α) :
    items.mapM (fun item => (f item).map g) = (items.mapM f).map (·.map g) := by
  induction items with
  | nil => rfl
  | cons item rest ih =>
    rw [List.mapM_cons, List.mapM_cons, ih]
    cases f item with
    | error fault => rfl
    | ok value =>
      cases rest.mapM f with
      | error fault => rfl
      | ok values => rfl

namespace Security

theorem stringValue?_prepend (node : Node) :
    stringValue? (source.prepend before) (node.shift before.length) = stringValue? source node := by
  simp [stringValue?]

theorem arguments_shift (distance : Nat) (node : Node) :
    arguments (node.shift distance) = (arguments node).map (Node.shift distance) := by
  unfold arguments
  rw [Node.child?_shift]
  cases node.child? "arguments" with
  | none => rfl
  | some list => simp

theorem createdType_prepend (node : Node) :
    createdType (source.prepend before) (node.shift before.length) = createdType source node := by
  simp [createdType]

theorem isOutermostConcat_prepend (site : Site) :
    isOutermostConcat (source.prepend before) (site.shift before.length) =
      isOutermostConcat source site := by
  unfold isOutermostConcat
  cases hp : site.parent with
  | none => simp [Site.shift, hp, isConcat_prepend]
  | some parent => simp [Site.shift, hp, isConcat_prepend]

theorem buildsQuery_prepend (operands : List Node) :
    buildsQuery (source.prepend before) (operands.map (Node.shift before.length)) =
      buildsQuery source operands := by
  simp [buildsQuery, List.any_map, Function.comp_def, stringValue?_prepend]

theorem sqlInjection?_prepend (site : Site) :
    sqlInjection? (source.prepend before) (site.shift before.length) =
      (sqlInjection? source site).map (·.map (Finding.lower (before.count lineFeed))) := by
  unfold sqlInjection?
  rw [Site.node_shift, operands_prepend]
  cases operands source site.node with
  | error fault => rfl
  | ok leaves =>
    simp only [Except.map, bind, Except.bind, buildsQuery_prepend, findingAt_prepend]
    split <;> rfl

theorem sqlInjections_prepend :
    sqlInjections (source.prepend before) =
      (sqlInjections source).map (·.map (Finding.lower (before.count lineFeed))) := by
  have hsites : ((source.prepend before).findAll ["binary_expression"] .preorder).filter
      (isOutermostConcat (source.prepend before)) =
      ((source.findAll ["binary_expression"] .preorder).filter (isOutermostConcat source)).map
        (Site.shift before.length) := by
    rw [Source.findAll_prepend, List.filter_map]
    simp [Function.comp_def, isOutermostConcat_prepend]
  unfold sqlInjections
  dsimp only
  rw [hsites, List.mapM_map]
  simp only [Function.comp_def, sqlInjection?_prepend, mapM_map_except]
  cases ((source.findAll ["binary_expression"] .preorder).filter
    (isOutermostConcat source)).mapM (sqlInjection? source) with
  | error fault => rfl
  | ok results =>
    simp [Except.map, bind, Except.bind, pure, Except.pure, List.filterMap_map, List.map_filterMap]

theorem commandTarget?_prepend (node : Node) :
    commandTarget? (source.prepend before) (node.shift before.length) =
      commandTarget? source node := by
  simp [commandTarget?, createdType_prepend]

theorem commandInjection?_prepend (site : Site) :
    commandInjection? (source.prepend before) (site.shift before.length) =
      (commandInjection? source site).map (Finding.lower (before.count lineFeed)) := by
  unfold commandInjection?
  rw [Site.node_shift, commandTarget?_prepend, arguments_shift]
  cases commandTarget? source site.node with
  | none => rfl
  | some target =>
    simp [List.all_map, Function.comp_def, apply_ite]

theorem commandInjections_prepend :
    commandInjections (source.prepend before) =
      (commandInjections source).map (Finding.lower (before.count lineFeed)) := by
  unfold commandInjections
  rw [Source.findAll_prepend]
  exact filterMap_lower fun site => commandInjection?_prepend before source site

theorem crossSiteScriptings_prepend :
    crossSiteScriptings (source.prepend before) =
      (crossSiteScriptings source).map (Finding.lower (before.count lineFeed)) := by
  unfold crossSiteScriptings
  rw [Source.findAll_prepend]
  exact report_lower (fun _ => by simp [writesRequestInput, takesInput]) (fun _ => by simp)

theorem pathTraversals_prepend :
    pathTraversals (source.prepend before) =
      (pathTraversals source).map (Finding.lower (before.count lineFeed)) := by
  unfold pathTraversals
  rw [Source.findAll_prepend]
  exact report_lower (fun _ => by simp [makesPath, takesInput, createdType_prepend])
    (fun _ => by simp)

theorem holdsSecret_prepend (node : Node) :
    holdsSecret (source.prepend before) (node.shift before.length) = holdsSecret source node := by
  unfold holdsSecret
  rw [Node.child?_shift]
  cases node.child? "value" with
  | none => simp
  | some value => simp [stringValue?_prepend]

theorem hardcodedSecrets_prepend :
    hardcodedSecrets (source.prepend before) =
      (hardcodedSecrets source).map (Finding.lower (before.count lineFeed)) := by
  unfold hardcodedSecrets
  rw [Source.findAll_prepend]
  exact report_lower (fun _ => by simp [holdsSecret_prepend]) (fun _ => by simp)

theorem weakCrypto?_prepend (site : Site) :
    weakCrypto? (source.prepend before) (site.shift before.length) =
      (weakCrypto? source site).map (Finding.lower (before.count lineFeed)) := by
  unfold weakCrypto?
  rw [Site.node_shift, arguments_shift, Source.name_prepend, Source.fieldText_prepend,
    List.head?_map]
  cases (arguments site.node).head? with
  | none => simp
  | some first => simp [stringValue?_prepend]

theorem weakCryptos_prepend :
    weakCryptos (source.prepend before) =
      (weakCryptos source).map (Finding.lower (before.count lineFeed)) := by
  unfold weakCryptos
  rw [Source.findAll_prepend]
  exact filterMap_lower fun site => weakCrypto?_prepend before source site

theorem creations_prepend (type : String) :
    creations (source.prepend before) type =
      (creations source type).map (Site.shift before.length) := by
  unfold creations
  rw [Source.findAll_prepend, List.filter_map]
  simp [Function.comp_def, createdType_prepend]

theorem insecureRandoms_prepend :
    insecureRandoms (source.prepend before) =
      (insecureRandoms source).map (Finding.lower (before.count lineFeed)) := by
  simp [insecureRandoms, creations_prepend]

theorem unsafeDeserializations_prepend :
    unsafeDeserializations (source.prepend before) =
      (unsafeDeserializations source).map (Finding.lower (before.count lineFeed)) := by
  simp [unsafeDeserializations, creations_prepend]

theorem findings_prepend :
    findings (source.prepend before) =
      (findings source).map (·.map (Finding.lower (before.count lineFeed))) := by
  unfold findings
  rw [sqlInjections_prepend, commandInjections_prepend, crossSiteScriptings_prepend,
    pathTraversals_prepend, hardcodedSecrets_prepend, weakCryptos_prepend,
    insecureRandoms_prepend, unsafeDeserializations_prepend]
  cases sqlInjections source with
  | error fault => rfl
  | ok injections => simp [Except.map, bind, Except.bind, pure, Except.pure]

end Security

end Check

/-- The issue as it is reported for another file, some lines further down. -/
def Issue.relocate (path : Path) (lines : Nat) (issue : Issue) : Issue :=
  { issue with fileName := path.name, line := issue.line + lines, path := path.text }

theorem Finding.issue_lower (finding : Finding) (lines : Nat) (moved unit : SourceUnit) :
    (finding.lower lines).issue moved = (finding.issue unit).relocate moved.path lines := by
  simp [Finding.issue, Finding.lower, Issue.relocate, SourceUnit.fileName]

namespace Analyzer

theorem run_prepend_ofCheck {category : Category} {check : Source → Except Fault (List Finding)}
    {before : Text.Bytes} {source : Source} (path other : Path)
    (h : check (source.prepend before) =
      (check source).map (·.map (Finding.lower (before.count lineFeed)))) :
    (ofCheck category check).run ⟨other, some (source.prepend before)⟩ =
      ((ofCheck category check).run ⟨path, some source⟩).map
        (·.map (Issue.relocate other (before.count lineFeed))) := by
  simp only [ofCheck, h]
  cases check source with
  | error fault => rfl
  | ok found =>
    simp only [Except.map, List.map_map]
    exact congrArg Except.ok (List.map_congr_left fun finding _ => finding.issue_lower ..)

/-- Put bytes before a source and let its tree move along: each analyzer does what it did before,
on a file of any name. It gives up for the same reason, or it reports the same issues in the same
order, as many lines further down as there are line feeds in the bytes, for the new file. -/
theorem run_prepend (maxLines : Int) (analyzer : Analyzer) (ha : analyzer ∈ defaults maxLines)
    (source : Source) (before : Text.Bytes) (path other : Path) :
    analyzer.run ⟨other, some (source.prepend before)⟩ =
      (analyzer.run ⟨path, some source⟩).map
        (·.map (Issue.relocate other (before.count lineFeed))) := by
  simp only [defaults, List.mem_cons, List.not_mem_nil, or_false] at ha
  rcases ha with rfl | rfl | rfl | rfl
  · exact run_prepend_ofCheck path other
      (congrArg Except.ok (Check.Defect.findings_prepend before source))
  · exact run_prepend_ofCheck path other (Check.Security.findings_prepend before source)
  · exact run_prepend_ofCheck path other
      (congrArg Except.ok (Check.Efficiency.findings_prepend before source))
  · exact run_prepend_ofCheck path other
      (congrArg Except.ok (Check.Convention.findings_prepend before source maxLines))

/-- A class on the second line, behind two empty lines and a comment. -/
theorem run_behind_comment :
    let name : Node := ⟨"identifier", true, false, 7, 10, some "name", []⟩
    let declaration : Node := ⟨"class_declaration", true, false, 1, 13, none, [name]⟩
    let source : Source := ⟨[10, 99, 108, 97, 115, 115, 32, 102, 111, 111, 32, 123, 125],
      ⟨"program", true, false, 1, 13, none, [declaration]⟩⟩
    let before : Text.Bytes := [10, 10, 47, 47, 0xC3]
    let path : Path := ⟨.relative, ["src", "Foo.java"]⟩
    let other : Path := ⟨.relative, ["Bar.java"]⟩
    style 30 ∈ defaults 30 ∧
      (style 30).run ⟨path, some source⟩ = .ok
        [⟨"Foo.java", 2, "Class name 'foo' does not follow the PascalCase naming convention",
          .style, .low, "STY_CLASS_NAME_001", "src/Foo.java"⟩,
         ⟨"Foo.java", 2, "Class 'foo' is missing Javadoc comment", .style, .low,
          "STY_CLASS_JAVADOC_001", "src/Foo.java"⟩] ∧
      (style 30).run ⟨other, some (source.prepend before)⟩ = .ok
        [⟨"Bar.java", 4, "Class name 'foo' does not follow the PascalCase naming convention",
          .style, .low, "STY_CLASS_NAME_001", "Bar.java"⟩,
         ⟨"Bar.java", 4, "Class 'foo' is missing Javadoc comment", .style, .low,
          "STY_CLASS_JAVADOC_001", "Bar.java"⟩] := by
  intro name declaration source before path other
  have hdefault : style 30 ∈ defaults 30 := by simp [defaults]
  have hrun : (style 30).run ⟨path, some source⟩ = .ok
      [⟨"Foo.java", 2, "Class name 'foo' does not follow the PascalCase naming convention", .style,
        .low, "STY_CLASS_NAME_001", "src/Foo.java"⟩,
       ⟨"Foo.java", 2, "Class 'foo' is missing Javadoc comment", .style, .low,
        "STY_CLASS_JAVADOC_001", "src/Foo.java"⟩] := by decide +kernel
  refine ⟨hdefault, hrun, ?_⟩
  rw [run_prepend 30 (style 30) hdefault source before path other, hrun]
  decide +kernel

end Analyzer

end JavaLint
