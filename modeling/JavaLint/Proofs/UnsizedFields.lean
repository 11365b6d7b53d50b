import JavaLint.Proofs.ConcatChain
import JavaLint.Proofs.TextSearch
import JavaLint.Proofs.Traversals

/-! Fields reported for their capacity. The check goes over the type declarations of a source and
over the members of the body of each. A member has one parent and that parent has one, so a field is
met through one declaration only, however deep types lie in each other, and is reported once. -/
namespace JavaLint

namespace Site

def members (site : Site) : List Site :=
  match site.child? "body" with
  | some body => body.namedChildren
  | none => []

variable {site child member : Site}

theorem map_node_members (site : Site) :
    site.members.map node = Check.Efficiency.membersOf site.node := by
  rw [members, Check.Efficiency.membersOf, ← map_node_child?]
  cases site.child? "body" with
  | none => rfl
  | some body => exact body.map_node_namedChildren

theorem mem_members_iff :
    member ∈ site.members ↔
      ∃ body, site.child? "body" = some body ∧ member ∈ body.namedChildren := by
  rw [members]
  cases site.child? "body" with
  | none => simp
  | some body => simp

theorem address_of_mem_children (h : child ∈ site.children) :
    child.address.dropLast = site.address := by
  obtain ⟨i, -, haddress⟩ := position_of_mem_children h
  rw [haddress, List.dropLast_concat]

/-- The address of a member tells the declaration whose body it stands in. -/
theorem address_of_mem_members (h : member ∈ site.members) :
    member.address.dropLast.dropLast = site.address := by
  obtain ⟨body, hbody, hmember⟩ := mem_members_iff.mp h
  rw [address_of_mem_children (List.mem_of_mem_filter hmember),
    address_of_mem_children (List.mem_of_find?_eq_some hbody)]

theorem members_addresses_nodup (site : Site) : (site.members.map address).Nodup := by
  rw [members]
  cases site.child? "body" with
  | none => exact List.nodup_nil
  | some body => exact body.children_addresses_nodup.sublist (List.filter_sublist.map address)

end Site

theorem Node.mem_sites_of_mem_members {root : Node} {owner member : Site}
    (ho : owner ∈ root.sites .preorder) (h : member ∈ owner.members) :
    member ∈ root.sites .preorder := by
  obtain ⟨body, hbody, hmember⟩ := Site.mem_members_iff.mp h
  have hsite := Site.children_mem_preorderFrom ho (List.mem_of_find?_eq_some hbody)
  exact Site.children_mem_preorderFrom hsite (List.mem_of_mem_filter hmember)

/-- Through whichever declarations members are met, each is met once. -/
theorem Node.members_of_findAll_nodup (root : Node) (kinds : List String) :
    (((root.findAll kinds .preorder).flatMap Site.members).map Site.address).Nodup := by
  have howners : ((root.findAll kinds .preorder).map Site.address).Nodup :=
    (root.addresses_nodup .preorder).sublist (List.filter_sublist.map _)
  rw [List.map_flatMap, List.nodup_flatMap]
  refine ⟨fun owner _ => owner.members_addresses_nodup, ?_⟩
  rw [List.Nodup, List.pairwise_map] at howners
  apply howners.imp
  intro first second hne address hfirst hsecond
  obtain ⟨member, hmember, rfl⟩ := List.mem_map.mp hfirst
  obtain ⟨other, hother, hsame⟩ := List.mem_map.mp hsecond
  apply hne
  rw [← Site.address_of_mem_members hmember, ← Site.address_of_mem_members hother, hsame]

namespace Check.Efficiency

/-- A field declaration with a first variable that has no value, and whose type mentions
`ArrayList`. -/
structure LacksCapacity (source : Source) (node : Node) : Prop where
  isField : node.kind = "field_declaration" ∨ node.kind = "constant_declaration"
  noValue : ∃ first rest, node.childrenOf "declarator" = first :: rest ∧ first.child? "value" = none
  isList : "ArrayList".toList <:+: (source.fieldText node "type").toList

/-- A named child of the first child that holds the body of a class or interface declaration. -/
def IsMember (root : Node) (site : Site) : Prop :=
  ∃ owner ∈ root.sites .preorder,
    (owner.node.kind = "class_declaration" ∨ owner.node.kind = "interface_declaration") ∧
      ∃ body, owner.child? "body" = some body ∧ site ∈ body.namedChildren

theorem isUnsizedList_iff {source : Source} {node : Node} :
    isUnsizedList source node = true ↔ LacksCapacity source node := by
  have hkind : fieldDeclarations.contains node.kind = true ↔
      node.kind = "field_declaration" ∨ node.kind = "constant_declaration" := by
    simp [fieldDeclarations]
  rw [isUnsizedList, Bool.and_eq_true, hkind]
  constructor
  · rintro ⟨hfield, h⟩
    split at h
    · cases h
    · rename_i first rest hdeclarators
      obtain ⟨hlist, hvalue⟩ := Bool.and_eq_true_iff.mp h
      exact ⟨hfield, ⟨first, rest, hdeclarators, Option.isNone_iff_eq_none.mp hvalue⟩,
        Text.contains_iff_isInfix.mp hlist⟩
  · rintro ⟨hfield, ⟨first, rest, hdeclarators, hvalue⟩, hlist⟩
    refine ⟨hfield, ?_⟩
    rw [hdeclarators]
    exact Bool.and_eq_true_iff.mpr
      ⟨Text.contains_iff_isInfix.mpr hlist, Option.isNone_iff_eq_none.mpr hvalue⟩

def unsizedFields (source : Source) : List Site :=
  ((source.findAll typeDeclarations .preorder).flatMap Site.members).filter
    (isUnsizedList source ·.node)

theorem unsizedLists_eq_map (source : Source) :
    unsizedLists source = (unsizedFields source).map fun site =>
      findingAt source site.node .listCapacity
        "Consider initializing ArrayList with an initial capacity if the size is known." := by
  rw [unsizedLists, unsizedFields, List.filter_flatMap, List.map_flatMap]
  refine List.flatMap_congr fun owner _ => ?_
  rw [← owner.map_node_members, List.filter_map, List.map_map]
  rfl

theorem unsizedFields_nodup (source : Source) :
    ((unsizedFields source).map Site.address).Nodup :=
  (source.root.members_of_findAll_nodup typeDeclarations).sublist (List.filter_sublist.map _)

theorem mem_members_of_declarations_iff {source : Source} {site : Site} :
    site ∈ (source.findAll typeDeclarations .preorder).flatMap Site.members ↔
      IsMember source.root site := by
  have hkind : ∀ owner : Site, typeDeclarations.contains owner.node.kind = true ↔
      owner.node.kind = "class_declaration" ∨ owner.node.kind = "interface_declaration" := by
    intro owner
    simp [typeDeclarations]
  constructor
  · intro h
    obtain ⟨owner, howner, hmember⟩ := List.mem_flatMap.mp h
    obtain ⟨hsite, htype⟩ := List.mem_filter.mp howner
    exact ⟨owner, hsite, (hkind owner).mp htype, Site.mem_members_iff.mp hmember⟩
  · rintro ⟨owner, hsite, htype, hmember⟩
    exact List.mem_flatMap.mpr ⟨owner, List.mem_filter.mpr ⟨hsite, (hkind owner).mpr htype⟩,
      Site.mem_members_iff.mpr hmember⟩

theorem mem_unsizedFields_iff {source : Source} {site : Site} :
    site ∈ unsizedFields source ↔ IsMember source.root site ∧ LacksCapacity source site.node := by
  rw [unsizedFields, List.mem_filter, mem_members_of_declarations_iff, isUnsizedList_iff]

/-- A field on the first line, and on the second one of a class in the same body. -/
example :
    let field (start : Nat) : Node := ⟨"field_declaration", true, false, start, start + 12, none,
      [⟨"type_identifier", true, false, start, start + 9, some "type", []⟩,
       ⟨"variable_declarator", true, false, start + 10, start + 11, some "declarator", []⟩]⟩
    let inner : Node := ⟨"class_declaration", true, false, 14, 28, none,
      [⟨"class_body", true, false, 14, 28, some "body", [field 15]⟩]⟩
    let root : Node := ⟨"class_declaration", true, false, 0, 29, none,
      [⟨"class_body", true, false, 0, 29, some "body", [field 1, inner]⟩]⟩
    let source : Source := ⟨"\x7bArrayList a;\n\x7bArrayList b;\x7d\x7d".toUTF8.toList, root⟩
    (unsizedFields source).map (fun site => (site.address, source.line site.node)) =
      [([0, 0], 1), ([0, 1, 0, 0], 2)] := by
  cbv

end Check.Efficiency

namespace Analyzer

open Check Efficiency

/-- The issues on capacity stand for sites of the tree, no two of them at one address, one issue for
each and at its line. A site is among them exactly when it is a member of a class or interface and a
field that lacks its capacity. -/
theorem unsized_fields_reported_once (path : Path) (source : Source) :
    ∃ issues, performance.run ⟨path, some source⟩ = .ok issues ∧
      ∃ reported : List Site, (reported.map Site.address).Nodup ∧
        (∀ site ∈ reported, site ∈ source.root.sites .preorder) ∧
        (∀ site, site ∈ reported ↔
          IsMember source.root site ∧ LacksCapacity source site.node) ∧
        issues.filter (·.ruleId == Rule.listCapacity.id) = reported.map fun site =>
          Finding.issue
            ⟨.listCapacity, source.line site.node,
              "Consider initializing ArrayList with an initial capacity if the size is known."⟩
            ⟨path, some source⟩ := by
  obtain ⟨issues, hrun, hparts⟩ := efficiency_issues_of_rule path source
  have hpart : (Rule.listCapacity, unsizedLists source) ∈ Efficiency.parts source := by
    simp [Efficiency.parts]
  refine ⟨issues, hrun, unsizedFields source, unsizedFields_nodup source, ?_,
    fun site => mem_unsizedFields_iff, ?_⟩
  · intro site hsite
    obtain ⟨⟨owner, howner, -, hmember⟩, -⟩ := mem_unsizedFields_iff.mp hsite
    exact Node.mem_sites_of_mem_members howner (Site.mem_members_iff.mpr hmember)
  · rw [hparts _ hpart, unsizedLists_eq_map, List.map_map]
    rfl

end Analyzer

end JavaLint
