import JavaLint.Proofs.Outcome
import JavaLint.Proofs.RuleIdentifier
import JavaLint.Proofs.StableOrder
import JavaLint.Rule.Registry
import Mathlib.Data.List.Sort
import Mathlib.Data.String.Basic

/-! The check of a registry. It looks for the first of several flaws, and it finds none exactly if
every list is strictly increasing, every entry is an identifier, and the list of all is made of
three buckets that share nothing. That leaves no choice for the list of all: it is the sorted merge
of the buckets. -/
namespace JavaLint

theorem sortTexts_perm (texts : List String) : (sortTexts texts).Perm texts :=
  List.mergeSort_perm _ _

theorem sortTexts_pairwise (texts : List String) : (sortTexts texts).Pairwise (· ≤ ·) :=
  pairwise_mergeSort_texts (fun text => text) texts

theorem pairwise_lt_iff_nodup {texts : List String} :
    texts.Pairwise (· < ·) ↔ texts.Pairwise (· ≤ ·) ∧ texts.Nodup := by
  rw [← List.sortedLT_iff_pairwise, List.sortedLT_iff_nodup_and_sortedLE,
    List.sortedLE_iff_pairwise, and_comm]

theorem sortTexts_increasing {texts : List String} (h : texts.Nodup) :
    (sortTexts texts).Pairwise (· < ·) :=
  pairwise_lt_iff_nodup.mpr ⟨sortTexts_pairwise texts, (sortTexts_perm texts).nodup_iff.mpr h⟩

namespace Registry

structure WellFormed (registry : Registry) : Prop where
  ascending : ∀ bucket, (registry.bucket bucket).Pairwise (· < ·)
  formed : ∀ bucket, ∀ id ∈ registry.bucket bucket,
    ∃ core, (id.toList = core ∨ id.toList = core ++ ['\n']) ∧ Rule.IsForm core
  stable_experimental : registry.stable.Disjoint registry.experimental
  stable_deprecated : registry.stable.Disjoint registry.deprecated
  experimental_deprecated : registry.experimental.Disjoint registry.deprecated
  mem_all : ∀ id, id ∈ registry.all ↔
    id ∈ registry.stable ∨ id ∈ registry.experimental ∨ id ∈ registry.deprecated

variable {registry : Registry} {bucket : Bucket} {ids : List String}

/-- A list is its own sorted form exactly if it is in order. -/
theorem isSorted_iff : isSorted ids = true ↔ ids.Pairwise (· ≤ ·) := by
  rw [isSorted, beq_iff_eq]
  constructor
  · intro h
    rw [h]
    exact sortTexts_pairwise ids
  · intro h
    exact (sortTexts_perm ids).symm.eq_of_pairwise (fun _ _ _ _ => le_antisymm) h
      (sortTexts_pairwise ids)

theorem checkBucket_eq_ok_iff :
    registry.checkBucket bucket = .ok () ↔
      (registry.bucket bucket).Pairwise (· < ·) ∧
        ∀ id ∈ registry.bucket bucket, Rule.isIdentifier id = true := by
  rw [pairwise_lt_iff_nodup, ← isSorted_iff, checkBucket]
  split_ifs <;> simp_all

theorem overlaps_eq_nil_iff :
    registry.overlaps = [] ↔
      registry.stable.Disjoint registry.experimental ∧
        registry.stable.Disjoint registry.deprecated ∧
        registry.experimental.Disjoint registry.deprecated := by
  have hempty (texts : List String) : sortTexts texts.eraseDups = [] ↔ texts = [] := by
    simp only [List.eq_nil_iff_forall_not_mem, (sortTexts_perm _).mem_iff, List.mem_eraseDups]
  rw [overlaps, hempty, List.append_eq_nil_iff, List.append_eq_nil_iff, and_assoc]
  simp only [List.filter_eq_nil_iff, List.contains_iff_mem, List.disjoint_left]

theorem isUnion_iff :
    registry.isUnion = true ↔
      ∀ id, id ∈ registry.all ↔
        id ∈ registry.stable ∨ id ∈ registry.experimental ∨ id ∈ registry.deprecated := by
  rw [isUnion, Bool.and_eq_true, List.all_eq_true, List.all_eq_true]
  simp only [List.contains_iff_mem, List.mem_append, or_assoc]
  constructor
  · rintro ⟨hinto, hfrom⟩ id
    exact ⟨hinto id, hfrom id⟩
  · intro h
    exact ⟨fun id => (h id).mp, fun id => (h id).mpr⟩

/-- A check that passes has gone through all its parts. -/
theorem check_eq_ok_iff_parts :
    registry.check = .ok () ↔
      (∀ bucket, registry.checkBucket bucket = .ok ()) ∧ registry.overlaps = [] ∧
        registry.isUnion = true := by
  have hlast : (if !registry.overlaps.isEmpty then .error (.overlap registry.overlaps)
      else if !registry.isUnion then .error .notUnion else .ok () : Except Flaw Unit) = .ok () ↔
      registry.overlaps = [] ∧ registry.isUnion = true := by
    split_ifs <;> simp_all
  rw [check]
  simp only [bind_eq_ok, hlast]
  constructor
  · rintro ⟨⟨⟩, hstable, ⟨⟩, hexperimental, ⟨⟩, hdeprecated, ⟨⟩, hall, hlast⟩
    refine ⟨fun bucket => ?_, hlast⟩
    cases bucket with
    | stable => exact hstable
    | experimental => exact hexperimental
    | deprecated => exact hdeprecated
    | all => exact hall
  · rintro ⟨hbuckets, hlast⟩
    exact ⟨(), hbuckets .stable, (), hbuckets .experimental, (), hbuckets .deprecated, (),
      hbuckets .all, hlast⟩

theorem check_eq_ok_iff : registry.check = .ok () ↔ registry.WellFormed := by
  rw [check_eq_ok_iff_parts, overlaps_eq_nil_iff, isUnion_iff]
  simp only [checkBucket_eq_ok_iff, Rule.isIdentifier_iff]
  constructor
  · rintro ⟨hbuckets, ⟨hse, hsd, hed⟩, hall⟩
    exact ⟨fun bucket => (hbuckets bucket).1, fun bucket => (hbuckets bucket).2, hse, hsd, hed,
      hall⟩
  · intro h
    exact ⟨fun bucket => ⟨h.ascending bucket, h.formed bucket⟩,
      ⟨h.stable_experimental, h.stable_deprecated, h.experimental_deprecated⟩, h.mem_all⟩

def parts (registry : Registry) : List String :=
  registry.stable ++ registry.experimental ++ registry.deprecated

namespace WellFormed

variable (h : registry.WellFormed)
include h

theorem parts_nodup : registry.parts.Nodup := by
  have hdistinct (bucket : Bucket) : (registry.bucket bucket).Nodup :=
    (pairwise_lt_iff_nodup.mp (h.ascending bucket)).2
  refine ((hdistinct .stable).append (hdistinct .experimental) h.stable_experimental).append
    (hdistinct .deprecated) ?_
  exact List.disjoint_append_left.mpr ⟨h.stable_deprecated, h.experimental_deprecated⟩

theorem all_perm_parts : registry.all.Perm registry.parts := by
  have hdistinct : registry.all.Nodup := (pairwise_lt_iff_nodup.mp (h.ascending .all)).2
  rw [List.perm_ext_iff_of_nodup hdistinct h.parts_nodup]
  intro id
  rw [h.mem_all, parts, List.mem_append, List.mem_append, or_assoc]

/-- Texts without repetition can be sorted in one way only. -/
theorem eq_all_iff (merged : List String) :
    merged.Perm registry.parts ∧ merged.Pairwise (· ≤ ·) ↔ merged = registry.all := by
  have hall : registry.all.Pairwise (· ≤ ·) := (pairwise_lt_iff_nodup.mp (h.ascending .all)).1
  constructor
  · rintro ⟨hperm, hsorted⟩
    exact List.Perm.eq_of_pairwise' hsorted hall (hperm.trans h.all_perm_parts.symm)
  · rintro rfl
    exact ⟨h.all_perm_parts, hall⟩

end WellFormed

/-- A registry passes its check exactly if it is well-formed. The list of all is then the one
sorted merge of the buckets, with as many entries as they have together. -/
theorem check_passes_iff_wellFormed (registry : Registry) :
    (registry.check = .ok () ↔ registry.WellFormed) ∧
    (registry.check = .ok () →
      (∀ merged : List String,
        merged.Perm (registry.stable ++ registry.experimental ++ registry.deprecated) ∧
          merged.Pairwise (· ≤ ·) ↔ merged = registry.all) ∧
      registry.all.length =
        registry.stable.length + registry.experimental.length + registry.deprecated.length) := by
  refine ⟨check_eq_ok_iff, fun hcheck => ?_⟩
  have h := check_eq_ok_iff.mp hcheck
  refine ⟨h.eq_all_iff, ?_⟩
  rw [h.all_perm_parts.length_eq, parts, List.length_append, List.length_append]

end Registry

/-- The registry of the rules passes its check. -/
theorem Rule.registry_wellFormed : Rule.registry.WellFormed := by
  have hmem {texts : List String} {id : String} : id ∈ sortTexts texts ↔ id ∈ texts :=
    (sortTexts_perm texts).mem_iff
  have hsublist (test : Rule → Bool) :
      ((Rule.all.filter test).map Rule.id).Sublist (Rule.all.map Rule.id) :=
    List.filter_sublist.map Rule.id
  have hdistinct : (Rule.all.map Rule.id).Nodup := by decide
  have hformed : ∀ id ∈ Rule.all.map Rule.id, Rule.isIdentifier id = true := by decide
  refine ⟨?_, ?_, ?_, List.disjoint_nil_right _, List.disjoint_nil_right _, ?_⟩
  · intro bucket
    cases bucket with
    | stable | experimental => exact sortTexts_increasing (hdistinct.sublist (hsublist _))
    | deprecated => exact .nil
    | all => exact sortTexts_increasing hdistinct
  · intro bucket id h
    apply Rule.isIdentifier_iff.mp
    cases bucket with
    | stable | experimental => exact hformed id ((hsublist _).subset (hmem.mp h))
    | deprecated => cases h
    | all => exact hformed id (hmem.mp h)
  · have hapart : ∀ id ∈ (Rule.all.filter (!·.isExperimental)).map Rule.id,
        id ∉ (Rule.all.filter (·.isExperimental)).map Rule.id := by decide
    exact fun id hs he => hapart id (hmem.mp hs) (hmem.mp he)
  · intro id
    have hsplit := ((List.filter_append_perm Rule.isExperimental Rule.all).map Rule.id).mem_iff
      (a := id)
    rw [List.map_append, List.mem_append] at hsplit
    simp only [Rule.registry, hmem, List.not_mem_nil, or_false]
    rw [← hsplit, or_comm]

/-- The check passes on the registry of the rules, which has 24 stable entries and one that may
still change. -/
theorem registry_of_rules_is_merge :
    Rule.registry.check = .ok () ∧
      (∀ merged : List String,
        merged.Perm (Rule.registry.stable ++ Rule.registry.experimental ++
          Rule.registry.deprecated) ∧ merged.Pairwise (· ≤ ·) ↔ merged = Rule.registry.all) ∧
      Rule.registry.all.length = 24 + 1 + 0 := by
  obtain ⟨hiff, hmerge⟩ := Registry.check_passes_iff_wellFormed Rule.registry
  have hcheck := hiff.mpr Rule.registry_wellFormed
  obtain ⟨hunique, hlength⟩ := hmerge hcheck
  refine ⟨hcheck, hunique, hlength.trans ?_⟩
  simp only [Rule.registry, sortTexts, List.length_mergeSort, List.length_map]
  decide

end JavaLint
