import JavaLint.Proofs.Grouping
import Mathlib.Data.Finset.Card

/-! The files with the most issues. A ranking of names holds every name that occurs, with the number
of its occurrences, more before fewer and ties in the order of first occurrence. There is only one
such ranking, the program's is that one, and a limit cuts it: whatever it leaves out comes behind
all that it lists. -/
namespace JavaLint

/-- Of two names with the number of their occurrences, the more frequent comes first, and of equally
frequent ones the one that occurs first. -/
def Outranks (names : List String) : String × Nat → String × Nat → Prop :=
  Precedes Prod.snd fun a b => names.idxOf a.1 < names.idxOf b.1

structure IsRanking (names : List String) (ranking : List (String × Nat)) : Prop where
  mem_iff : ∀ file, file ∈ ranking ↔ file.1 ∈ names ∧ file.2 = names.count file.1
  ordered : ranking.Pairwise (Outranks names)

namespace IsRanking
variable {names : List String} {ranking other : List (String × Nat)}

theorem names_nodup (h : IsRanking names ranking) : (ranking.map Prod.fst).Nodup := by
  rw [List.Nodup, List.pairwise_map]
  refine h.ordered.imp_of_mem ?_
  intro a b ha hb hab heq
  have hcount : a.2 = b.2 := by
    rw [((h.mem_iff a).mp ha).2, ((h.mem_iff b).mp hb).2, heq]
  have hlt := hab.before_of_measure_eq hcount
  rw [heq] at hlt
  exact Nat.lt_irrefl _ hlt

theorem mem_names_iff (h : IsRanking names ranking) (name : String) :
    name ∈ ranking.map Prod.fst ↔ name ∈ names := by
  rw [List.mem_map]
  constructor
  · rintro ⟨file, hfile, rfl⟩
    exact ((h.mem_iff file).mp hfile).1
  · intro hname
    exact ⟨(name, names.count name), (h.mem_iff _).mpr ⟨hname, rfl⟩, rfl⟩

theorem length_eq (h : IsRanking names ranking) : ranking.length = names.toFinset.card := by
  have hsame : (ranking.map Prod.fst).toFinset = names.toFinset := by
    ext name
    rw [List.mem_toFinset, List.mem_toFinset, h.mem_names_iff]
  rw [← hsame, List.toFinset_card_of_nodup h.names_nodup, List.length_map]

/-- The names alone decide about their ranking. -/
theorem unique (h : IsRanking names ranking) (ho : IsRanking names other) : ranking = other := by
  have hperm : ranking.Perm other := by
    refine (List.perm_ext_iff_of_nodup h.names_nodup.of_map ho.names_nodup.of_map).mpr ?_
    intro file
    rw [h.mem_iff, ho.mem_iff]
  exact eq_of_pairwise_precedes (fun _ _ => Nat.lt_asymm) h.ordered ho.ordered hperm

/-- A name that a limit leaves out comes behind every name within it. -/
theorem outranks_omitted (h : IsRanking names ranking) {limit : Nat} {file : String × Nat}
    {name : String} (hfile : file ∈ ranking.take limit) (hname : name ∈ names)
    (homitted : name ∉ (ranking.take limit).map Prod.fst) :
    Outranks names file (name, names.count name) := by
  have hmem : (name, names.count name) ∈ ranking := (h.mem_iff _).mpr ⟨hname, rfl⟩
  rw [← List.take_append_drop limit ranking] at hmem
  rcases List.mem_append.mp hmem with htaken | hdropped
  · exact absurd (List.mem_map.mpr ⟨_, htaken, rfl⟩) homitted
  · exact h.ordered.rel_of_mem_take_of_mem_drop hfile hdropped

end IsRanking

namespace Review

theorem ranking_isRanking (review : Review) :
    IsRanking (review.issues.map Issue.fileName) review.ranking := by
  constructor
  · rintro ⟨name, count⟩
    rw [ranking, List.mem_mergeSort, countBy_eq_map, List.mem_map, count_map_eq_countP,
      List.countP_eq_length_filter]
    constructor
    · rintro ⟨⟨name', group⟩, hgroup, heq⟩
      obtain ⟨hname, rfl⟩ := mem_groupBy_iff.mp hgroup
      cases heq
      exact ⟨hname, rfl⟩
    · rintro ⟨hname, hcount⟩
      exact ⟨(name, _), mem_groupBy_iff.mpr ⟨hname, rfl⟩, congrArg (name, ·) hcount.symm⟩
  · -- Before they are sorted the files stand in the order of first occurrence.
    have hgroups := (groupBy_isGrouping Issue.fileName review.issues).keys_in_order
    rw [List.pairwise_map] at hgroups
    rw [ranking, countBy_eq_map]
    exact pairwise_mergeSort_precedes (List.pairwise_map.mpr hgroups)

theorem topFiles_natCast (review : Review) (limit : Nat) :
    review.topFiles limit = review.ranking.take limit :=
  takeUpTo_natCast limit review.ranking

/-- For a limit that is not negative: as many files as there are or the limit allows, each once,
with the size of its group, more issues before fewer and ties in the order of first occurrence, and
no file left out belongs before one that is listed. A negative limit drops that many files at the
end of the whole ranking. -/
theorem topFiles_within_limit (review : Review) :
    let names := review.issues.map Issue.fileName
    (∀ limit : Nat,
      (review.topFiles limit).length = min limit names.toFinset.card ∧
      ((review.topFiles limit).map Prod.fst).Nodup ∧
      (∀ file ∈ review.topFiles limit,
        ∃ group, (file.1, group) ∈ review.groupByFile ∧ file.2 = group.length) ∧
      (review.topFiles limit).Pairwise (fun a b =>
        b.2 ≤ a.2 ∧ (a.2 = b.2 → names.idxOf a.1 < names.idxOf b.1)) ∧
      ∀ name ∈ names, name ∉ (review.topFiles limit).map Prod.fst →
        ∃ group, (name, group) ∈ review.groupByFile ∧
          ∀ file ∈ review.topFiles limit,
            group.length ≤ file.2 ∧
              (file.2 = group.length → names.idxOf file.1 < names.idxOf name)) ∧
    ∀ limit : Int, limit < 0 →
      ∃ dropped, review.topFiles names.toFinset.card = review.topFiles limit ++ dropped ∧
        dropped.length = min limit.natAbs names.toFinset.card := by
  intro names
  have hranking : IsRanking names review.ranking := review.ranking_isRanking
  have hgroup : ∀ name ∈ names, ∃ group, (name, group) ∈ review.groupByFile ∧
      names.count name = group.length := by
    intro name hname
    refine ⟨_, mem_groupBy_iff.mpr ⟨hname, rfl⟩, ?_⟩
    rw [count_map_eq_countP, List.countP_eq_length_filter]
  refine ⟨fun limit => ?_, fun limit hneg => ?_⟩
  · rw [topFiles_natCast]
    refine ⟨?_, ?_, ?_, ?_, ?_⟩
    · rw [List.length_take, hranking.length_eq]
    · rw [List.map_take]
      exact hranking.names_nodup.take
    · intro file hfile
      obtain ⟨hname, hcount⟩ := (hranking.mem_iff file).mp (List.mem_of_mem_take hfile)
      rw [hcount]
      exact hgroup file.1 hname
    · refine hranking.ordered.take.imp ?_
      intro a b hab
      exact ⟨hab.measure_le, hab.before_of_measure_eq⟩
    · intro name hname homitted
      obtain ⟨group, hmem, hcount⟩ := hgroup name hname
      refine ⟨group, hmem, fun file hfile => ?_⟩
      have hab := hranking.outranks_omitted hfile hname homitted
      rw [hcount] at hab
      exact ⟨hab.measure_le, hab.before_of_measure_eq⟩
  · rw [topFiles_natCast, ← hranking.length_eq, List.take_length, topFiles, takeUpTo_of_neg hneg]
    refine ⟨review.ranking.drop (review.ranking.length - limit.natAbs), ?_, ?_⟩
    · rw [List.take_append_drop]
    · rw [List.length_drop]
      omega

example :
    let issues : List Issue := ["X", "Y", "Z", "W", "Y", "W"].map fun name =>
      { fileName := name, line := 1, message := "null", category := .bug, severity := .high }
    ({ issues } : Review).topFiles 3 = [("Y", 2), ("W", 2), ("X", 1)] := by
  cbv

end Review

end JavaLint
