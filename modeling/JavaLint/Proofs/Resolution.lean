import JavaLint.FileSystem.Basic
import JavaLint.Proofs.Outcome
import JavaLint.Proofs.StableOrder
import Mathlib.Data.List.Nodup
import Mathlib.Data.String.Basic

/-! Places, names and the resolution of paths. A path that leads somewhere has only names and steps
upwards in it; a name below a resolved directory leads one step further down unless it is a link.
The names of a directory are exactly what stands in it, in strictly increasing order. -/
namespace JavaLint

def Path.descend (path : Path) (components : List String) : Path :=
  { path with parts := path.parts ++ components }

theorem Path.descend_cons (path : Path) (name : String) (components : List String) :
    path.descend (name :: components) = (path.child name).descend components := by
  simp [descend, child]

theorem Path.descend_injective (path : Path) : Function.Injective path.descend := by
  intro a b h
  exact List.append_cancel_left (congrArg Path.parts h)

@[simp] theorem Path.name_child (path : Path) (name : String) : (path.child name).name = name := by
  simp [Path.name, child]

/-- Where keys are distinct, the first entry with a key is the only one. -/
theorem find?_key_iff {κ β : Type} [BEq κ] [LawfulBEq κ] {entries : List (κ × β)}
    (hn : (entries.map (·.1)).Nodup) {key : κ} {found : κ × β} :
    entries.find? (·.1 == key) = some found ↔ found ∈ entries ∧ found.1 = key := by
  constructor
  · intro h
    exact ⟨List.mem_of_find?_eq_some h, by simpa using List.find?_some h⟩
  · rintro ⟨hmem, rfl⟩
    have hs : (entries.find? (·.1 == found.1)).isSome := by
      rw [List.find?_isSome]
      exact ⟨found, hmem, by simp⟩
    obtain ⟨first, hf⟩ := Option.isSome_iff_exists.mp hs
    have hkey : first.1 = found.1 := by simpa using List.find?_some hf
    rw [hf, List.inj_on_of_nodup_map hn (List.mem_of_find?_eq_some hf) hmem hkey]

namespace FileSystem

variable {fs : FileSystem} {place : Place} {entry : Entry}

theorem get?_eq_some_iff (h : place ≠ []) :
    fs.get? place = some entry ↔
      place.all isName ∧ (fs.entries.find? (·.1 == place)).map (·.2) = some entry := by
  unfold get?
  rw [if_neg h]
  split
  · simp [*]
  · simp [*]

theorem all_isName_of_get? (h : fs.get? place = some entry) : place.all isName := by
  by_cases hn : place = []
  · subst hn; rfl
  · exact ((get?_eq_some_iff hn).mp h).1

theorem mem_entries_of_get? (hn : place ≠ []) (h : fs.get? place = some entry) :
    (place, entry) ∈ fs.entries := by
  obtain ⟨found, hf, he⟩ := Option.map_eq_some_iff.mp ((get?_eq_some_iff hn).mp h).2
  have hp : found.1 = place := by simpa using List.find?_some hf
  have := List.mem_of_find?_eq_some hf
  rwa [← hp, ← he]

/-- The order in which distinct places are listed does not matter to what stands at them. -/
theorem get?_eq_of_perm {other : FileSystem} (hn : (fs.entries.map (·.1)).Nodup)
    (hp : other.entries.Perm fs.entries) (place : Place) : other.get? place = fs.get? place := by
  have hn' : (other.entries.map (·.1)).Nodup := (hp.map _).nodup_iff.mpr hn
  have hfind : other.entries.find? (·.1 == place) = fs.entries.find? (·.1 == place) := by
    ext found
    rw [find?_key_iff hn', find?_key_iff hn, hp.mem_iff]
  unfold get?
  rw [hfind]

theorem isDirectoryAt_iff : fs.isDirectoryAt place = true ↔ fs.get? place = some .directory := by
  unfold isDirectoryAt
  split
  · simp [*]
  · simp_all

theorem isName_ne_up {name : String} (h : isName name = true) : name ≠ ".." := by
  rintro rfl
  exact absurd h (by decide)

theorem isName_ne_empty {name : String} (h : isName name = true) : name ≠ "" := by
  rintro rfl
  exact absurd h (by decide)

theorem slash_not_mem_of_isName {name : String} (h : isName name = true) : '/' ∉ name.toList := by
  simp only [isName, Bool.and_eq_true] at h
  simpa using h.1.2

theorem null_not_mem_of_isName {name : String} (h : isName name = true) :
    '\x00' ∉ name.toList := by
  simp only [isName, Bool.and_eq_true] at h
  simpa using h.2

/-- What a path can have as a component: a name, or a step upwards. -/
def IsStep (component : String) : Prop := component = ".." ∨ isName component = true

theorem IsStep.ne_empty {component : String} (h : IsStep component) : component ≠ "" := by
  rcases h with rfl | h
  · decide
  · exact isName_ne_empty h

theorem IsStep.slash_not_mem {component : String} (h : IsStep component) :
    '/' ∉ component.toList := by
  rcases h with rfl | h
  · decide
  · exact slash_not_mem_of_isName h

theorem IsStep.null_not_mem {component : String} (h : IsStep component) :
    '\x00' ∉ component.toList := by
  rcases h with rfl | h
  · decide
  · exact null_not_mem_of_isName h

/-- All that one step can do: go up to the directory above, or down to what stands at a name. -/
theorem enter_cases {component : String} {next : Place}
    (h : fs.enter place component = .ok (next, entry)) :
    fs.get? place = some .directory ∧
      ((component = ".." ∧ next = place.dropLast) ∨
        (isName component = true ∧ next = place ++ [component] ∧ fs.get? next = some entry)) := by
  unfold enter at h
  by_cases hd : fs.isDirectoryAt place = true
  · refine ⟨isDirectoryAt_iff.mp hd, ?_⟩
    rw [if_pos hd] at h
    by_cases hu : component = ".."
    · left
      rw [if_pos (by simpa using hu)] at h
      cases h
      exact ⟨hu, rfl⟩
    · right
      rw [if_neg (by simpa using hu)] at h
      split at h
      next found hf =>
        cases h
        have hall := all_isName_of_get? hf
        exact ⟨by simpa using List.all_eq_true.mp hall component (by simp), rfl, hf⟩
      next => cases h
  · rw [if_neg hd] at h
    cases h

theorem isStep_of_enter {component : String} {next : Place}
    (h : fs.enter place component = .ok (next, entry)) : IsStep component := by
  obtain ⟨-, ⟨hu, -⟩ | ⟨hname, -⟩⟩ := enter_cases h
  · exact Or.inl hu
  · exact Or.inr hname

theorem enter_name {name : String} (hd : fs.get? place = some .directory)
    (h : fs.get? (place ++ [name]) = some entry) :
    fs.enter place name = .ok (place ++ [name], entry) := by
  have hname : isName name = true :=
    List.all_eq_true.mp (all_isName_of_get? h) name (by simp)
  have hu : (name == "..") = false := by simpa using isName_ne_up hname
  simp [enter, isDirectoryAt_iff.mpr hd, hu, h]

theorem isDirectoryAt_congr {other : FileSystem} (h : ∀ place, other.get? place = fs.get? place)
    (place : Place) : other.isDirectoryAt place = fs.isDirectoryAt place := by
  unfold isDirectoryAt
  rw [h]

theorem enter_congr {other : FileSystem} (h : ∀ place, other.get? place = fs.get? place)
    (place : Place) (component : String) :
    other.enter place component = fs.enter place component := by
  simp only [enter, isDirectoryAt_congr h, h]

theorem followFrom_congr {other : FileSystem} (h : ∀ place, other.get? place = fs.get? place)
    (links : Nat) (place : Place) (rest : List String) :
    other.followFrom links place rest = fs.followFrom links place rest := by
  fun_induction followFrom fs links place rest with
  | case1 => rw [followFrom]
  | case2 links place component rest fault he => rw [followFrom, enter_congr h, he]
  | case3 place component rest next target he => rw [followFrom, enter_congr h, he]
  | case4 place component rest next target he links path ih =>
    rw [followFrom, enter_congr h, he]
    exact ih
  | case5 links place component rest next found hl he ih =>
    rw [followFrom, enter_congr h, he]
    cases found with
    | link target => exact (hl target rfl).elim
    | file | directory => exact ih

theorem resolve_congr {other : FileSystem} (h : ∀ place, other.get? place = fs.get? place)
    (hw : other.workingDirectory = fs.workingDirectory) (path : Path) :
    other.resolve path = fs.resolve path := by
  have hstart : ∀ anchor, other.startOf anchor = fs.startOf anchor := by
    intro anchor
    cases anchor with
    | relative => simp only [startOf, followFrom_congr h, isDirectoryAt_congr h, hw]
    | root | doubleRoot => rfl
  simp only [resolve, hstart, followFrom_congr h]

/-- Every component that is still to be followed is a name or a step upwards, whichever links are
met on the way. -/
theorem isStep_of_followFrom {links : Nat} {rest : List String} {target : Place}
    (h : fs.followFrom links place rest = .ok target) : ∀ component ∈ rest, IsStep component := by
  fun_induction followFrom fs links place rest with
  | case1 => simp
  | case2 | case3 => cases h
  | case4 place component rest next text he links path ih =>
    intro other hmem
    rcases List.mem_cons.mp hmem with rfl | hmem
    · exact isStep_of_enter he
    · exact ih h other (List.mem_append_right _ hmem)
  | case5 links place component rest next found hl he ih =>
    intro other hmem
    rcases List.mem_cons.mp hmem with rfl | hmem
    · exact isStep_of_enter he
    · exact ih h other hmem

theorem all_isName_start (h : place.all isName = true) (anchor : Anchor) :
    (anchor.start place).all isName = true := by
  cases anchor with
  | relative => exact h
  | root | doubleRoot => rfl

theorem all_isName_of_followFrom {links : Nat} {rest : List String} {target : Place}
    (h : fs.followFrom links place rest = .ok target) (hp : place.all isName = true) :
    target.all isName = true := by
  fun_induction followFrom fs links place rest with
  | case1 => cases h; exact hp
  | case2 | case3 => cases h
  | case4 place component rest next text he links path ih => exact ih h (all_isName_start hp _)
  | case5 links place component rest next found hl he ih =>
    apply ih h
    obtain ⟨-, ⟨-, rfl⟩ | ⟨-, -, hg⟩⟩ := enter_cases he
    · exact List.all_eq_true.mpr fun name hmem =>
        List.all_eq_true.mp hp name (List.dropLast_subset _ hmem)
    · exact all_isName_of_get? hg

/-- Follows components as `followFrom` does, and tells how many links are left. -/
def followLeft (fs : FileSystem) (links : Nat) (place : Place) (rest : List String) :
    Except SystemFault (Nat × Place) :=
  match rest with
  | [] => .ok (links, place)
  | component :: rest =>
    match fs.enter place component with
    | .error fault => .error fault
    | .ok (_, .link target) =>
      match links with
      | 0 => .error .tooManyLinks
      | links + 1 =>
        let path := Path.parse target
        followLeft fs links (path.anchor.start place) (path.parts ++ rest)
    | .ok (next, _) => followLeft fs links next rest
termination_by (links, rest.length)

theorem followFrom_eq_map (fs : FileSystem) (links : Nat) (place : Place) (rest : List String) :
    fs.followFrom links place rest = (fs.followLeft links place rest).map (·.2) := by
  fun_induction followLeft fs links place rest with
  | case1 => rw [followFrom]; rfl
  | case2 links place component rest fault he => rw [followFrom, he]; rfl
  | case3 place component rest next target he => rw [followFrom, he]; rfl
  | case4 place component rest next target he links path ih =>
    rw [followFrom, he]
    exact ih
  | case5 links place component rest next found hl he ih =>
    rw [followFrom, he]
    cases found with
    | link target => exact (hl target rfl).elim
    | file | directory => exact ih

/-- Components can be followed in two goes, the second with the links that the first has left. -/
theorem followLeft_append {links left : Nat} {rest : List String} {target : Place}
    (h : fs.followLeft links place rest = .ok (left, target)) (more : List String) :
    fs.followLeft links place (rest ++ more) = fs.followLeft left target more := by
  fun_induction followLeft fs links place rest with
  | case1 => cases h; rfl
  | case2 | case3 => cases h
  | case4 place component rest next text he links path ih =>
    rw [List.cons_append, followLeft, he]
    show fs.followLeft links _ (path.parts ++ (rest ++ more)) = _
    rw [← List.append_assoc]
    exact ih h
  | case5 links place component rest next found hl he ih =>
    rw [List.cons_append, followLeft, he]
    cases found with
    | link text => exact (hl text rfl).elim
    | file | directory => exact ih h

/-- A name that is no link goes one step further than the path before it. -/
theorem followFrom_append_name {links : Nat} {rest : List String} {target : Place} {name : String}
    (h : fs.followFrom links place rest = .ok target)
    (hd : fs.get? target = some .directory) (hg : fs.get? (target ++ [name]) = some entry)
    (hl : ∀ text, entry ≠ .link text) :
    fs.followFrom links place (rest ++ [name]) = .ok (target ++ [name]) := by
  rw [followFrom_eq_map] at h
  obtain ⟨⟨left, _⟩, hf, rfl⟩ := map_eq_ok.mp h
  rw [followFrom_eq_map, followLeft_append hf, ← followFrom_eq_map, followFrom, enter_name hd hg]
  cases entry with
  | link text => exact (hl text rfl).elim
  | file | directory => simp only [followFrom]

theorem startOf_relative_iff :
    fs.startOf .relative = .ok place ↔
      fs.followFrom linkLimit [] fs.workingDirectory = .ok place ∧
        fs.get? place = some .directory := by
  rw [startOf, bind_eq_ok]
  constructor
  · rintro ⟨start, hf, h⟩
    split at h
    next hd =>
      cases h
      exact ⟨hf, isDirectoryAt_iff.mp hd⟩
    next => cases h
  · rintro ⟨hf, hd⟩
    exact ⟨place, hf, if_pos (isDirectoryAt_iff.mpr hd)⟩

/-- A path starts in a directory: the root, or where the components of the working directory
lead. -/
theorem directory_of_startOf {anchor : Anchor} (h : fs.startOf anchor = .ok place) :
    fs.get? place = some .directory ∧ ∃ rest, fs.followFrom linkLimit [] rest = .ok place := by
  cases anchor with
  | relative =>
    obtain ⟨hf, hd⟩ := startOf_relative_iff.mp h
    exact ⟨hd, _, hf⟩
  | root | doubleRoot =>
    cases h
    exact ⟨rfl, [], by rw [followFrom]⟩

theorem isStep_of_resolve {path : Path} (h : fs.resolve path = .ok place) :
    ∀ component ∈ path.parts, IsStep component := by
  obtain ⟨start, -, hf⟩ := bind_eq_ok.mp h
  exact isStep_of_followFrom hf

theorem all_isName_of_resolve {path : Path} (h : fs.resolve path = .ok place) :
    place.all isName = true := by
  obtain ⟨start, hs, hf⟩ := bind_eq_ok.mp h
  exact all_isName_of_followFrom hf (all_isName_of_get? (directory_of_startOf hs).1)

theorem resolve_child {path : Path} {name : String} (h : fs.resolve path = .ok place)
    (hd : fs.get? place = some .directory) (hg : fs.get? (place ++ [name]) = some entry)
    (hl : ∀ text, entry ≠ .link text) :
    fs.resolve (path.child name) = .ok (place ++ [name]) := by
  obtain ⟨start, hs, hf⟩ := bind_eq_ok.mp h
  exact bind_eq_ok.mpr ⟨start, hs, followFrom_append_name hf hd hg hl⟩

theorem lookup_child {path : Path} {name : String} (h : fs.resolve path = .ok place)
    (hd : fs.get? place = some .directory) (hg : fs.get? (place ++ [name]) = some entry)
    (hl : ∀ text, entry ≠ .link text) : fs.lookup (path.child name) = .ok entry := by
  unfold lookup
  rw [resolve_child h hd hg hl]
  simp only [hg]

theorem resolve_of_lookup {path : Path} (h : fs.lookup path = .ok entry) :
    ∃ place, fs.resolve path = .ok place ∧ fs.get? place = some entry := by
  unfold lookup at h
  split at h
  · cases h
  next place hr =>
    refine ⟨place, hr, ?_⟩
    split at h
    next found hf => cases h; exact hf
    next => cases h

theorem isDirectory_iff {path : Path} :
    fs.isDirectory path = true ↔ fs.lookup path = .ok .directory := by
  unfold isDirectory
  split
  · simp [*]
  · simp_all

theorem isFile_iff {path : Path} :
    fs.isFile path = true ↔ ∃ bytes tree, fs.lookup path = .ok (.file bytes tree) := by
  unfold isFile
  split
  · simp [*]
  · simp_all

theorem isStep_of_isFile {path : Path} (h : fs.isFile path = true) :
    ∀ component ∈ path.parts, IsStep component := by
  obtain ⟨bytes, tree, hl⟩ := isFile_iff.mp h
  obtain ⟨place, hr, -⟩ := resolve_of_lookup hl
  exact isStep_of_resolve hr

theorem pathExists_iff {path : Path} :
    fs.pathExists path = true ↔ ∃ entry, fs.lookup path = .ok entry := by
  unfold pathExists
  cases fs.lookup path with
  | error fault => simp [Except.isOk, Except.toBool]
  | ok entry => simp [Except.isOk, Except.toBool]

/-- A path that leads somewhere has no null character in it. -/
theorem hasNull_eq_false_of_resolve {path : Path} (h : fs.resolve path = .ok place) :
    path.hasNull = false := by
  unfold Path.hasNull
  rw [List.any_eq_false]
  intro component hmem
  simpa using (isStep_of_resolve h component hmem).null_not_mem

theorem content_of_lookup {path : Path} {bytes : Text.Bytes} {tree : Option Tree}
    (h : fs.lookup path = .ok (.file bytes tree)) : fs.content path = .ok (bytes, tree) := by
  obtain ⟨place, hr, -⟩ := resolve_of_lookup h
  simp [content, hasNull_eq_false_of_resolve hr, h]

theorem mem_namesAt {name : String} (hp : place.all isName = true) :
    name ∈ fs.namesAt place ↔ ∃ entry, fs.get? (place ++ [name]) = some entry := by
  have hne : place ++ [name] ≠ [] := by simp
  unfold namesAt
  rw [List.mem_mergeSort, List.mem_eraseDups, List.mem_filter, List.mem_filterMap]
  constructor
  · rintro ⟨⟨⟨other, found⟩, hmem, hl⟩, hname⟩
    dsimp only at hl
    split at hl
    next hd =>
      have ho : other = place ++ [name] := by
        rw [← List.dropLast_append_getLast? name hl, beq_iff_eq.mp hd]
      subst ho
      have hs : (fs.entries.find? (·.1 == place ++ [name])).isSome := by
        rw [List.find?_isSome]
        exact ⟨_, hmem, by simp⟩
      obtain ⟨first, hf⟩ := Option.isSome_iff_exists.mp hs
      refine ⟨first.2, (get?_eq_some_iff hne).mpr ⟨?_, by rw [hf]; rfl⟩⟩
      simp only [List.all_append, hp, Bool.true_and]
      simpa using hname
    next => cases hl
  · rintro ⟨entry, h⟩
    refine ⟨⟨(place ++ [name], entry), mem_entries_of_get? hne h, by simp⟩, ?_⟩
    exact List.all_eq_true.mp (all_isName_of_get? h) name (by simp)

theorem isName_of_mem_namesAt {name : String} (h : name ∈ fs.namesAt place) :
    isName name = true := by
  unfold namesAt at h
  rw [List.mem_mergeSort, List.mem_eraseDups, List.mem_filter] at h
  exact h.2

/-- The names of a directory stand in strictly increasing order, whatever the order of the
entries. -/
theorem namesAt_increasing (fs : FileSystem) (place : Place) :
    (fs.namesAt place).Pairwise (· < ·) := by
  have hs : (fs.namesAt place).Pairwise (· ≤ ·) := pairwise_mergeSort_texts (fun name => name) _
  have hn : (fs.namesAt place).Nodup := List.nodup_mergeSort.mpr (nodup_eraseDups _)
  exact (hs.and hn).imp fun h => lt_of_le_of_ne h.1 h.2

theorem le_foldl_max (lengths : List Nat) (start : Nat) :
    start ≤ lengths.foldl max start ∧ ∀ n ∈ lengths, n ≤ lengths.foldl max start := by
  induction lengths generalizing start with
  | nil => simp
  | cons n rest ih =>
    obtain ⟨hle, hall⟩ := ih (max start n)
    simp only [List.foldl_cons, List.mem_cons, forall_eq_or_imp]
    exact ⟨(le_max_left start n).trans hle, (le_max_right start n).trans hle, hall⟩

theorem length_le_depth (h : fs.get? place = some entry) : place.length ≤ fs.depth := by
  by_cases hn : place = []
  · simp [hn]
  · exact (le_foldl_max _ 0).2 _ (List.mem_map.mpr ⟨_, mem_entries_of_get? hn h, rfl⟩)

end FileSystem

end JavaLint
