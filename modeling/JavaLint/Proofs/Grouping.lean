import JavaLint.Proofs.StableOrder
import JavaLint.Review.Basic
import Mathlib.Algebra.Group.Nat.Defs
import Mathlib.Data.List.Induction
import Mathlib.Data.Prod.Basic

/-! Groups and counts. A table that takes one value after the other has a group for every key that
occurs, in the order of first occurrence, and each group holds the values of its key in their order.
So the table of two lists is put together from their tables, and with it all that a review says of
its issues by file, by category and by severity. -/
namespace JavaLint

section Groups
variable {κ α : Type} [BEq κ]

theorem groupBy_concat (key : α → κ) (values : List α) (value : α) :
    groupBy key (values ++ [value]) = addToGroup (key value) value (groupBy key values) := by
  simp [groupBy]

/-- Counting one more for a key is what the sizes of the groups show of one more value. -/
theorem addToCount_map (k : κ) (value : α) (groups : List (κ × List α)) :
    addToCount k (groups.map fun group => (group.1, group.2.length)) =
      (addToGroup k value groups).map fun group => (group.1, group.2.length) := by
  induction groups with
  | nil => rfl
  | cons group rest ih =>
    rw [List.map_cons, addToCount, addToGroup, ih]
    by_cases hk : (group.1 == k) = true
    · simp [hk]
    · simp [hk]

/-- The counts are the sizes of the groups. -/
theorem countBy_eq_map (key : α → κ) (values : List α) :
    countBy key values = (groupBy key values).map fun group => (group.1, group.2.length) := by
  induction values using List.reverseRecOn with
  | nil => rfl
  | append_singleton values value ih =>
    rw [groupBy_concat, ← addToCount_map, ← ih]
    simp [countBy]

theorem count_map_eq_countP (key : α → κ) (values : List α) (k : κ) :
    (values.map key).count k = values.countP (key · == k) := by
  rw [List.count, List.countP_map]
  rfl

variable [LawfulBEq κ] {key : α → κ} {values others : List α}

/-- One more value for the groups of distinct keys: it joins the group of its key, which is opened
at the end if there was none. -/
theorem addToGroup_map {k : κ} {value : α} {keys : List κ} {group : κ → List α} (hn : keys.Nodup)
    (hnew : k ∉ keys → group k = []) :
    addToGroup k value (keys.map fun k' => (k', group k')) =
      (if k ∈ keys then keys else keys ++ [k]).map fun k' =>
        (k', if k' == k then group k' ++ [value] else group k') := by
  induction keys with
  | nil => simp [addToGroup, hnew List.not_mem_nil]
  | cons other rest ih =>
    rw [List.nodup_cons] at hn
    rw [List.map_cons, addToGroup]
    by_cases hk : other = k
    · -- The later groups belong to other keys, so they stay as they are.
      subst hk
      have hrest : rest.map (fun k' =>
            (k', if k' == other then group k' ++ [value] else group k')) =
          rest.map fun k' => (k', group k') := by
        refine List.map_congr_left fun k' hk' => ?_
        have hne : k' ≠ other := fun heq => hn.1 (heq ▸ hk')
        simp [hne]
      simp [hrest]
    · have hmem : k ∈ other :: rest ↔ k ∈ rest := by simp [Ne.symm hk]
      rw [ih hn.2 fun hrest => hnew fun h => hrest (hmem.mp h)]
      by_cases hrest : k ∈ rest
      · simp [hk, hmem, hrest]
      · simp [hk, hmem, hrest]

theorem filter_eq_nil_of_not_mem {k : κ} (h : k ∉ values.map key) :
    values.filter (key · == k) = [] := by
  rw [List.filter_eq_nil_iff]
  intro value hv hk
  exact h (List.mem_map.mpr ⟨value, hv, eq_of_beq hk⟩)

/-- The keys in the order of first occurrence, each with the values that have it. -/
theorem groupBy_eq (key : α → κ) (values : List α) :
    groupBy key values =
      (values.map key).eraseDups.map fun k => (k, values.filter (key · == k)) := by
  induction values using List.reverseRecOn with
  | nil => simp [groupBy]
  | append_singleton values value ih =>
    have hnew : key value ∉ (values.map key).eraseDups →
        values.filter (key · == key value) = [] := by
      rw [List.mem_eraseDups]
      exact filter_eq_nil_of_not_mem
    rw [groupBy_concat, ih, addToGroup_map (nodup_eraseDups _) hnew, List.map_append,
      List.map_singleton, eraseDups_concat]
    simp only [List.mem_eraseDups]
    refine List.map_congr_left fun k _ => ?_
    by_cases hk : k = key value
    · simp [hk]
    · simp [hk, Ne.symm hk]

theorem keys_groupBy (key : α → κ) (values : List α) :
    (groupBy key values).map Prod.fst = (values.map key).eraseDups := by
  rw [groupBy_eq, List.map_map]
  exact List.map_id _

theorem mem_groupBy_iff {k : κ} {group : List α} :
    (k, group) ∈ groupBy key values ↔
      k ∈ values.map key ∧ group = values.filter (key · == k) := by
  rw [groupBy_eq, List.mem_map]
  constructor
  · rintro ⟨k', hk, heq⟩
    cases heq
    exact ⟨List.mem_eraseDups.mp hk, rfl⟩
  · rintro ⟨hk, rfl⟩
    exact ⟨k, List.mem_eraseDups.mpr hk, rfl⟩

theorem groupBy_nonempty : ∀ group ∈ groupBy key values, group.2 ≠ [] := by
  rintro ⟨k, group⟩ hmem hnil
  obtain ⟨hk, rfl⟩ := mem_groupBy_iff.mp hmem
  obtain ⟨value, hv, rfl⟩ := List.mem_map.mp hk
  have hown : value ∈ values.filter (key · == key value) := List.mem_filter.mpr ⟨hv, by simp⟩
  rw [show values.filter (key · == key value) = [] from hnil] at hown
  cases hown

theorem lookup_map (keys : List κ) (group : κ → List α) (k : κ) :
    (keys.map fun k' => (k', group k')).lookup k = if k ∈ keys then some (group k) else none := by
  induction keys with
  | nil => rfl
  | cons other rest ih =>
    rw [List.map_cons, List.lookup_cons, ih]
    by_cases hk : k = other
    · simp [hk]
    · rw [beq_eq_false_iff_ne.mpr hk]
      simp [hk]

theorem lookup_groupBy (key : α → κ) (values : List α) (k : κ) :
    ((groupBy key values).lookup k).getD [] = values.filter (key · == k) := by
  rw [groupBy_eq, lookup_map]
  split
  · rfl
  · rename_i hk
    rw [List.mem_eraseDups] at hk
    rw [filter_eq_nil_of_not_mem hk]
    rfl

/-- What the groups of values by key are: one for each key that occurs and none besides, in the
order in which the keys first occur, each with the values of its key in their order. -/
structure IsGrouping (key : α → κ) (values : List α) (groups : List (κ × List α)) : Prop where
  mem_keys_iff : ∀ k, k ∈ groups.map Prod.fst ↔ ∃ value ∈ values, key value = k
  keys_nodup : (groups.map Prod.fst).Nodup
  keys_in_order : (groups.map Prod.fst).Pairwise fun k k' =>
    (values.map key).idxOf k < (values.map key).idxOf k'
  group_eq : ∀ group ∈ groups, group.2 = values.filter (key · == group.1)
  group_ne : ∀ group ∈ groups, group.2 ≠ []
  /-- Nothing is lost and nothing stands in two groups. -/
  perm : (groups.flatMap Prod.snd).Perm values

theorem groupBy_isGrouping (key : α → κ) (values : List α) :
    IsGrouping key values (groupBy key values) := by
  refine ⟨?_, ?_, ?_, ?_, groupBy_nonempty, ?_⟩
  · intro k
    rw [keys_groupBy, List.mem_eraseDups, List.mem_map]
  · rw [keys_groupBy]
    exact nodup_eraseDups _
  · rw [keys_groupBy]
    exact pairwise_idxOf_eraseDups _
  · rintro ⟨k, group⟩ hmem
    exact (mem_groupBy_iff.mp hmem).2
  · rw [groupBy_eq, List.flatMap_map]
    refine flatMap_filter_perm (nodup_eraseDups _) fun value hv => ?_
    exact List.mem_eraseDups.mpr (List.mem_map_of_mem hv)

/-- Two tables of groups as one: every group of the first goes on with the second's group of its
key, and the groups of keys that are new come last. -/
def mergeGroups (groups others : List (κ × List α)) : List (κ × List α) :=
  groups.map (fun group => (group.1, group.2 ++ (others.lookup group.1).getD [])) ++
    others.filter fun group => !(groups.map Prod.fst).contains group.1

theorem groupBy_append (key : α → κ) (values others : List α) :
    groupBy key (values ++ others) = mergeGroups (groupBy key values) (groupBy key others) := by
  have hkeys : ((values ++ others).map key).eraseDups = (values.map key).eraseDups ++
      (others.map key).eraseDups.filter fun k => !(values.map key).contains k := by
    rw [List.map_append, List.eraseDups_append, List.removeAll, eraseDups_filter]
  have hknown : (values.map key).eraseDups.map
        (fun k => (k, (values ++ others).filter (key · == k))) =
      (groupBy key values).map fun group =>
        (group.1, group.2 ++ ((groupBy key others).lookup group.1).getD []) := by
    simp only [groupBy_eq key values, lookup_groupBy, List.map_map, Function.comp_def,
      List.filter_append]
  have hnew : ((others.map key).eraseDups.filter fun k => !(values.map key).contains k).map
        (fun k => (k, (values ++ others).filter (key · == k))) =
      (groupBy key others).filter fun group =>
        !((groupBy key values).map Prod.fst).contains group.1 := by
    have hsame : ∀ k, ((groupBy key values).map Prod.fst).contains k =
        (values.map key).contains k := by
      intro k
      rw [keys_groupBy, Bool.eq_iff_iff, List.contains_iff_mem, List.contains_iff_mem,
        List.mem_eraseDups]
    rw [groupBy_eq key others, List.filter_map]
    simp only [hsame, Function.comp_def]
    refine List.map_congr_left fun k hk => ?_
    have hk : k ∉ values.map key := by simpa using (List.mem_filter.mp hk).2
    rw [List.filter_append, filter_eq_nil_of_not_mem hk, List.nil_append]
  rw [groupBy_eq, hkeys, List.map_append, hknown, hnew, mergeGroups]

end Groups

def addCounts {κ : Type} (counts others : List (κ × Nat)) : List (κ × Nat) :=
  counts.zipWith (fun count other => (count.1, count.2 + other.2)) others

theorem addCounts_map {κ : Type} (keys : List κ) (count other : κ → Nat) :
    addCounts (keys.map fun k => (k, count k)) (keys.map fun k => (k, other k)) =
      keys.map fun k => (k, count k + other k) := by
  simp [addCounts, List.zipWith_map]

namespace Review

variable (review other : Review)

theorem countByCategory_extend :
    (review.extend other).countByCategory =
      addCounts review.countByCategory other.countByCategory := by
  simp only [countByCategory, addCounts_map, extend, List.countP_append]

theorem countBySeverity_extend :
    (review.extend other).countBySeverity =
      addCounts review.countBySeverity other.countBySeverity := by
  simp only [countBySeverity, addCounts_map, extend, List.countP_append]

theorem exitCode_extend (failOn : Option Severity) :
    ((review.extend other).exitCode failOn).number =
      max (review.exitCode failOn).number (other.exitCode failOn).number := by
  cases failOn with
  | none => rfl
  | some threshold =>
    simp only [exitCode, extend, List.any_append]
    cases review.issues.any fun issue => threshold.rank ≤ issue.severity.rank with
    | false =>
      cases other.issues.any fun issue => threshold.rank ≤ issue.severity.rank with
      | false => rfl
      | true => rfl
    | true =>
      cases other.issues.any fun issue => threshold.rank ≤ issue.severity.rank with
      | false => rfl
      | true => rfl

/-- The issues of a review grouped by file, category and severity. When another review follows, its
groups continue those of the same key and come last where they are new, its counts are added entry
by entry, and the two fail a threshold when one of them does. -/
theorem groupings_of_extend :
    (IsGrouping Issue.fileName review.issues review.groupByFile ∧
      IsGrouping Issue.category review.issues review.groupByCategory ∧
      IsGrouping Issue.severity review.issues review.groupBySeverity) ∧
    ((review.extend other).groupByFile = mergeGroups review.groupByFile other.groupByFile ∧
      (review.extend other).groupByCategory =
        mergeGroups review.groupByCategory other.groupByCategory ∧
      (review.extend other).groupBySeverity =
        mergeGroups review.groupBySeverity other.groupBySeverity) ∧
    (review.countByCategory.map Prod.fst = Category.all ∧
      other.countByCategory.map Prod.fst = Category.all ∧
      (review.extend other).countByCategory =
        addCounts review.countByCategory other.countByCategory) ∧
    (review.countBySeverity.map Prod.fst = Severity.all ∧
      other.countBySeverity.map Prod.fst = Severity.all ∧
      (review.extend other).countBySeverity =
        addCounts review.countBySeverity other.countBySeverity) ∧
    (review.extend other).filesAnalyzed = review.filesAnalyzed + other.filesAnalyzed ∧
    ∀ failOn, ((review.extend other).exitCode failOn).number =
      max (review.exitCode failOn).number (other.exitCode failOn).number := by
  refine ⟨⟨?_, ?_, ?_⟩, ⟨?_, ?_, ?_⟩, ⟨rfl, rfl, ?_⟩, ⟨rfl, rfl, ?_⟩, rfl, ?_⟩
  · exact groupBy_isGrouping Issue.fileName review.issues
  · exact groupBy_isGrouping Issue.category review.issues
  · exact groupBy_isGrouping Issue.severity review.issues
  · exact groupBy_append Issue.fileName review.issues other.issues
  · exact groupBy_append Issue.category review.issues other.issues
  · exact groupBy_append Issue.severity review.issues other.issues
  · exact countByCategory_extend review other
  · exact countBySeverity_extend review other
  · exact exitCode_extend review other

end Review

end JavaLint
