import JavaLint.FileSystem.Discovery
import JavaLint.Proofs.Resolution
import Mathlib.Data.List.Permutation

/-! Which files a search finds, and in which order. A route is the list of components from the root
of the search to a source. The search is read as a list of routes, which increases strictly; with
links skipped it holds exactly the routes through searched directories to files with the extension
of a source. The bound on the depth of the search is never reached. -/
namespace JavaLint.FileSystem

variable {fs : FileSystem} {config : Config} {path : Path} {place : Place} {name : String}

/-- The routes through one name of a directory, given those `below` it. -/
def routesVia (fs : FileSystem) (config : Config) (path : Path) (place : Place) (name : String)
    (below : List (List String)) : List (List String) :=
  if fs.isLinkAt (place ++ [name]) && !config.followLinks then []
  else if fs.isDirectory (path.child name) then
    if config.ignoredDirectories.contains name then [] else below.map (name :: ·)
  else if fs.isFile (path.child name) && (path.child name).hasExtension config.extensions then
    [[name]]
  else []

def routesWithin (fs : FileSystem) (config : Config) : (fuel : Nat) → Path → List (List String)
  | 0, _ => []
  | fuel + 1, path =>
    match fs.resolve path with
    | .error _ => []
    | .ok place =>
      if fs.isDirectoryAt place then
        (fs.namesAt place).flatMap fun name =>
          fs.routesVia config path place name (routesWithin fs config fuel (path.child name))
      else []

def routes (fs : FileSystem) (config : Config) (root : Path) : List (List String) :=
  fs.routesWithin config fs.searchBound root

theorem map_descend_cons (path : Path) (name : String) (below : List (List String)) :
    (below.map (name :: ·)).map path.descend = below.map (path.child name).descend := by
  rw [List.map_map]
  congr 1
  funext components
  exact path.descend_cons name components

theorem sourcesWithin_eq_map (fs : FileSystem) (config : Config) (fuel : Nat) (path : Path) :
    fs.sourcesWithin config fuel path = (fs.routesWithin config fuel path).map path.descend := by
  induction fuel generalizing path with
  | zero => rfl
  | succ fuel ih =>
    rw [sourcesWithin, routesWithin]
    cases fs.resolve path with
    | error fault => rfl
    | ok place =>
      by_cases hd : fs.isDirectoryAt place = true
      · simp only [if_pos hd, List.map_flatMap]
        congr 1
        funext name
        simp only [routesVia, apply_ite (List.map path.descend), map_descend_cons, ← ih]
        rfl
      · simp only [if_neg hd, List.map_nil]

theorem sources_eq_map (fs : FileSystem) (config : Config) (root : Path) :
    fs.sources config root = (fs.routes config root).map root.descend :=
  sourcesWithin_eq_map ..

theorem routesWithin_succ (hr : fs.resolve path = .ok place)
    (hd : fs.get? place = some .directory) (fuel : Nat) :
    fs.routesWithin config (fuel + 1) path = (fs.namesAt place).flatMap fun name =>
      fs.routesVia config path place name (fs.routesWithin config fuel (path.child name)) := by
  rw [routesWithin, hr]
  exact if_pos (isDirectoryAt_iff.mpr hd)

/-- All that a route through a name can be: the name alone, of a source, or the name before a route
from the directory below. -/
theorem routesVia_cases {below : List (List String)} {route : List String}
    (h : route ∈ fs.routesVia config path place name below) :
    (∃ rest ∈ below, route = name :: rest) ∨
      (route = [name] ∧ fs.isFile (path.child name) = true ∧
        (path.child name).hasExtension config.extensions = true) := by
  unfold routesVia at h
  split at h
  · cases h
  split at h
  · split at h
    · cases h
    · obtain ⟨rest, hrest, rfl⟩ := List.mem_map.mp h
      exact Or.inl ⟨rest, hrest, rfl⟩
  split at h
  next hsource =>
    rw [Bool.and_eq_true] at hsource
    exact Or.inr ⟨List.mem_singleton.mp h, hsource⟩
  next => cases h

theorem head_of_mem_routesVia {below : List (List String)} {route : List String}
    (h : route ∈ fs.routesVia config path place name below) : ∃ rest, route = name :: rest := by
  rcases routesVia_cases h with ⟨rest, -, rfl⟩ | ⟨rfl, -⟩
  · exact ⟨rest, rfl⟩
  · exact ⟨[], rfl⟩

theorem routesVia_increasing {below : List (List String)} (h : below.Pairwise (· < ·)) :
    (fs.routesVia config path place name below).Pairwise (· < ·) := by
  unfold routesVia
  split
  · exact List.Pairwise.nil
  split
  · split
    · exact List.Pairwise.nil
    · rw [List.pairwise_map]
      exact h.imp fun hlt => List.cons_lt_cons_iff.mpr (Or.inr ⟨rfl, hlt⟩)
  split
  · exact List.pairwise_singleton _ _
  · exact List.Pairwise.nil

/-- Routes through different names compare as the names do, so a directory stands where its own name
sorts among the files beside it. -/
theorem routesWithin_increasing (fs : FileSystem) (config : Config) (fuel : Nat) (path : Path) :
    (fs.routesWithin config fuel path).Pairwise (· < ·) := by
  induction fuel generalizing path with
  | zero => exact List.Pairwise.nil
  | succ fuel ih =>
    rw [routesWithin]
    split
    · exact List.Pairwise.nil
    next place hr =>
      split
      · rw [List.pairwise_flatMap]
        constructor
        · intro name _
          exact routesVia_increasing (ih _)
        · refine (fs.namesAt_increasing place).imp fun {a b} hab x hx y hy => ?_
          obtain ⟨xs, rfl⟩ := head_of_mem_routesVia hx
          obtain ⟨ys, rfl⟩ := head_of_mem_routesVia hy
          exact List.cons_lt_cons_iff.mpr (Or.inl hab)
      · exact List.Pairwise.nil

theorem routes_increasing (fs : FileSystem) (config : Config) (root : Path) :
    (fs.routes config root).Pairwise (· < ·) :=
  routesWithin_increasing ..

theorem routes_nodup (fs : FileSystem) (config : Config) (root : Path) :
    (fs.routes config root).Nodup :=
  (routes_increasing fs config root).imp fun h => ne_of_lt h

theorem sources_nodup (fs : FileSystem) (config : Config) (root : Path) :
    (fs.sources config root).Nodup := by
  rw [sources_eq_map]
  exact (routes_nodup fs config root).map root.descend_injective

/-- Whatever links were followed, a route has names only and leads to a file with the extension of
a source. -/
theorem source_of_mem_routesWithin {fuel : Nat} {route : List String}
    (h : route ∈ fs.routesWithin config fuel path) :
    route ≠ [] ∧ (∀ name ∈ route, isName name = true) ∧ fs.isFile (path.descend route) = true ∧
      (path.descend route).hasExtension config.extensions = true := by
  induction fuel generalizing path route with
  | zero => cases h
  | succ fuel ih =>
    rw [routesWithin] at h
    split at h
    · cases h
    split at h
    · obtain ⟨name, hname, hvia⟩ := List.mem_flatMap.mp h
      have hn := isName_of_mem_namesAt hname
      rcases routesVia_cases hvia with ⟨rest, hrest, rfl⟩ | ⟨rfl, hf, hx⟩
      · obtain ⟨-, hnames, hf, hx⟩ := ih hrest
        rw [path.descend_cons]
        exact ⟨by simp, by simpa using ⟨hn, hnames⟩, hf, hx⟩
      · exact ⟨by simp, by simpa using hn, hf, hx⟩
    · cases h

theorem source_of_mem_sources {root file : Path} (h : file ∈ fs.sources config root) :
    ∃ route, route ≠ [] ∧ (∀ name ∈ route, isName name = true) ∧ file = root.descend route ∧
      fs.isFile file = true ∧ file.hasExtension config.extensions = true := by
  rw [sources_eq_map] at h
  obtain ⟨route, hroute, rfl⟩ := List.mem_map.mp h
  obtain ⟨hne, hnames, hf, hx⟩ := source_of_mem_routesWithin hroute
  exact ⟨route, hne, hnames, rfl, hf, hx⟩

/-- The components `front` and then `last` lead from a place down to a source: every one of `front`
is a directory that is searched, and `last` a file with the extension of a source. What stands at a
place is looked up without following links, so nothing on the way is a link. -/
structure LeadsToSource (fs : FileSystem) (config : Config) (place : Place) (front : List String)
    (last : String) : Prop where
  directories : ∀ upper, upper ≠ [] → upper <+: front →
    fs.get? (place ++ upper) = some .directory
  searched : ∀ name ∈ front, name ∉ config.ignoredDirectories
  file : ∃ bytes tree, fs.get? (place ++ front ++ [last]) = some (.file bytes tree)
  extension : String.ofList (Text.lower (Path.suffixOf last.toList)) ∈ config.extensions

theorem leadsToSource_nil {last : String} :
    LeadsToSource fs config place [] last ↔
      (∃ bytes tree, fs.get? (place ++ [last]) = some (.file bytes tree)) ∧
        String.ofList (Text.lower (Path.suffixOf last.toList)) ∈ config.extensions := by
  constructor
  · intro h
    exact ⟨by simpa using h.file, h.extension⟩
  · rintro ⟨hf, hx⟩
    refine ⟨?_, by simp, by simpa using hf, hx⟩
    intro upper hne hp
    exact (hne (List.prefix_nil.mp hp)).elim

theorem leadsToSource_cons {front : List String} {last : String} :
    LeadsToSource fs config place (name :: front) last ↔
      fs.get? (place ++ [name]) = some .directory ∧ name ∉ config.ignoredDirectories ∧
        LeadsToSource fs config (place ++ [name]) front last := by
  constructor
  · intro h
    refine ⟨h.directories [name] (by simp) (by simp), h.searched name (by simp), ?_, ?_, ?_,
      h.extension⟩
    · intro upper _ hp
      simpa using h.directories (name :: upper) (by simp) (List.cons_prefix_cons.mpr ⟨rfl, hp⟩)
    · intro other hmem
      exact h.searched other (List.mem_cons_of_mem _ hmem)
    · simpa using h.file
  · rintro ⟨hd, hi, h⟩
    refine ⟨?_, ?_, by simpa using h.file, h.extension⟩
    · intro upper hne hp
      cases upper with
      | nil => exact (hne rfl).elim
      | cons first upper =>
        obtain ⟨rfl, hrest⟩ := List.cons_prefix_cons.mp hp
        by_cases hu : upper = []
        · rw [hu]; exact hd
        · simpa using h.directories upper hu hrest
    · intro other hmem
      rcases List.mem_cons.mp hmem with rfl | hmem
      · exact hi
      · exact h.searched other hmem

theorem hasExtension_child (extensions : List String) (path : Path) (name : String) :
    (path.child name).hasExtension extensions = true ↔
      String.ofList (Text.lower (Path.suffixOf name.toList)) ∈ extensions := by
  simp [Path.hasExtension, Path.suffix]

section
variable {below : List (List String)} (hr : fs.resolve path = .ok place)
  (hd : fs.get? place = some .directory)
include hr hd

theorem mem_routesVia_directory (hg : fs.get? (place ++ [name]) = some .directory)
    {route : List String} :
    route ∈ fs.routesVia config path place name below ↔
      name ∉ config.ignoredDirectories ∧ ∃ rest ∈ below, route = name :: rest := by
  have hdir : fs.isDirectory (path.child name) = true :=
    isDirectory_iff.mpr (lookup_child hr hd hg (by simp))
  unfold routesVia
  rw [if_neg (by simp [isLinkAt, hg]), if_pos hdir]
  by_cases hi : name ∈ config.ignoredDirectories
  · simp [hi]
  · simp [hi, eq_comm]

theorem mem_routesVia_file {bytes : Text.Bytes} {tree : Option Tree}
    (hg : fs.get? (place ++ [name]) = some (.file bytes tree)) {route : List String} :
    route ∈ fs.routesVia config path place name below ↔
      route = [name] ∧
        String.ofList (Text.lower (Path.suffixOf name.toList)) ∈ config.extensions := by
  have hl := lookup_child hr hd hg (by simp)
  have hdir : ¬ fs.isDirectory (path.child name) = true := by simp [isDirectory_iff, hl]
  have hfile : fs.isFile (path.child name) = true := isFile_iff.mpr ⟨bytes, tree, hl⟩
  unfold routesVia
  rw [if_neg (by simp [isLinkAt, hg]), if_neg hdir, hfile, Bool.true_and]
  by_cases hx : (path.child name).hasExtension config.extensions = true
  · simp [hx, (hasExtension_child ..).mp hx]
  · rw [if_neg hx, ← hasExtension_child config.extensions path name]
    simp [hx]

end

theorem not_mem_routesVia_link {below : List (List String)} {text : String} {route : List String}
    (hl : config.followLinks = false) (hg : fs.get? (place ++ [name]) = some (.link text)) :
    route ∉ fs.routesVia config path place name below := by
  unfold routesVia
  rw [if_pos (by simp [isLinkAt, hg, hl])]
  simp

/-- With links skipped, a search holds every route to a source that its bound has room for. The
induction is on the bound; each directory on the route uses up one. -/
theorem mem_routesWithin_iff (hl : config.followLinks = false)
    (hr : fs.resolve path = .ok place) (hd : fs.get? place = some .directory) {fuel : Nat}
    {front : List String} {last : String} :
    front ++ [last] ∈ fs.routesWithin config fuel path ↔
      front.length < fuel ∧ LeadsToSource fs config place front last := by
  induction fuel generalizing path place front with
  | zero => simp [routesWithin]
  | succ fuel ih =>
    rw [routesWithin_succ hr hd, List.mem_flatMap]
    constructor
    · rintro ⟨name, hname, hvia⟩
      obtain ⟨entry, hg⟩ := (mem_namesAt (all_isName_of_resolve hr)).mp hname
      cases entry with
      | link text => exact (not_mem_routesVia_link hl hg hvia).elim
      | file bytes tree =>
        obtain ⟨heq, hx⟩ := (mem_routesVia_file hr hd hg).mp hvia
        obtain ⟨rfl, rfl⟩ : front = [] ∧ last = name := by
          simpa [List.append_eq_cons_iff] using heq
        exact ⟨by simp, leadsToSource_nil.mpr ⟨⟨bytes, tree, hg⟩, hx⟩⟩
      | directory =>
        obtain ⟨hi, rest, hrest, heq⟩ := (mem_routesVia_directory hr hd hg).mp hvia
        cases front with
        | nil =>
          obtain ⟨-, rfl⟩ : last = name ∧ [] = rest := by simpa using heq
          exact ((source_of_mem_routesWithin hrest).1 rfl).elim
        | cons first front =>
          obtain ⟨rfl, rfl⟩ : first = name ∧ front ++ [last] = rest := by simpa using heq
          have hchild := resolve_child hr hd hg (by simp)
          obtain ⟨hlen, hlead⟩ := (ih hchild hg).mp hrest
          exact ⟨by simpa using hlen, leadsToSource_cons.mpr ⟨hg, hi, hlead⟩⟩
    · rintro ⟨hlen, hlead⟩
      cases front with
      | nil =>
        obtain ⟨⟨bytes, tree, hg⟩, hx⟩ := leadsToSource_nil.mp hlead
        refine ⟨last, (mem_namesAt (all_isName_of_resolve hr)).mpr ⟨_, hg⟩, ?_⟩
        exact (mem_routesVia_file hr hd hg).mpr ⟨rfl, hx⟩
      | cons name front =>
        obtain ⟨hg, hi, hlead⟩ := leadsToSource_cons.mp hlead
        refine ⟨name, (mem_namesAt (all_isName_of_resolve hr)).mpr ⟨_, hg⟩, ?_⟩
        have hchild := resolve_child hr hd hg (by simp)
        have hrest := (ih hchild hg).mpr ⟨by simpa using hlen, hlead⟩
        exact (mem_routesVia_directory hr hd hg).mpr ⟨hi, _, hrest, rfl⟩

/-- No source lies so deep that the bound of the search leaves it out. -/
theorem LeadsToSource.length_lt_searchBound {front : List String} {last : String}
    (h : LeadsToSource fs config place front last) : front.length < fs.searchBound := by
  obtain ⟨bytes, tree, hg⟩ := h.file
  have hlen := length_le_depth hg
  simp only [List.length_append, List.length_singleton] at hlen
  unfold searchBound linkLimit
  omega

theorem mem_routes_iff (hl : config.followLinks = false)
    (hr : fs.resolve path = .ok place) (hd : fs.get? place = some .directory)
    {route : List String} :
    route ∈ fs.routes config path ↔
      ∃ front last, route = front ++ [last] ∧ LeadsToSource fs config place front last := by
  constructor
  · intro h
    have hne := (source_of_mem_routesWithin h).1
    rw [← List.dropLast_append_getLast hne] at h
    exact ⟨_, _, (List.dropLast_append_getLast hne).symm, ((mem_routesWithin_iff hl hr hd).mp h).2⟩
  · rintro ⟨front, last, rfl, h⟩
    exact (mem_routesWithin_iff hl hr hd).mpr ⟨h.length_lt_searchBound, h⟩

theorem LeadsToSource.congr {other : FileSystem} (h : ∀ place, other.get? place = fs.get? place)
    {front : List String} {last : String} (hs : LeadsToSource fs config place front last) :
    LeadsToSource other config place front last := by
  refine ⟨?_, hs.searched, ?_, hs.extension⟩
  · intro upper hne hp
    rw [h]
    exact hs.directories upper hne hp
  · rw [h]
    exact hs.file

/-- Two file systems with the same at every place give the same routes: both lists increase strictly
and hold the same routes. -/
theorem routes_congr {other : FileSystem} (hl : config.followLinks = false)
    (hr : fs.resolve path = .ok place) (hd : fs.get? place = some .directory)
    (h : ∀ place, other.get? place = fs.get? place)
    (hw : other.workingDirectory = fs.workingDirectory) :
    other.routes config path = fs.routes config path := by
  have hr' : other.resolve path = .ok place := (resolve_congr h hw path).trans hr
  have hd' : other.get? place = some .directory := (h place).trans hd
  have hmem : ∀ route, route ∈ other.routes config path ↔ route ∈ fs.routes config path := by
    intro route
    rw [mem_routes_iff hl hr' hd', mem_routes_iff hl hr hd]
    constructor
    · rintro ⟨front, last, rfl, hs⟩
      exact ⟨front, last, rfl, hs.congr fun place => (h place).symm⟩
    · rintro ⟨front, last, rfl, hs⟩
      exact ⟨front, last, rfl, hs.congr h⟩
  have hperm := (List.perm_ext_iff_of_nodup (routes_nodup other config path)
    (routes_nodup fs config path)).mpr hmem
  refine hperm.eq_of_pairwise ?_ (routes_increasing ..) (routes_increasing ..)
  intro a b _ _ hab hba
  exact (lt_asymm hab hba).elim

/-- A search that skips links yields exactly the files with the extension of a source that lie below
the root through searched directories. It yields them in strictly increasing order of the components
from the root on, each once, and in no other order when the entries are listed differently. -/
theorem search_exact_and_increasing (fs : FileSystem) (config : Config) (root : Path)
    (place : Place) (hl : config.followLinks = false) (hr : fs.resolve root = .ok place)
    (hd : fs.isDirectoryAt place = true) :
    ∃ found : List (List String),
      fs.sources config root = found.map root.descend ∧
      (∀ components, components ∈ found ↔
        ∃ front last, components = front ++ [last] ∧
          LeadsToSource fs config place front last) ∧
      found.Pairwise (· < ·) ∧
      (fs.sources config root).Nodup ∧
      ∀ other : FileSystem, (∀ place, other.get? place = fs.get? place) →
        other.workingDirectory = fs.workingDirectory →
        other.sources config root = fs.sources config root := by
  have hd := isDirectoryAt_iff.mp hd
  refine ⟨fs.routes config root, sources_eq_map .., fun _ => mem_routes_iff hl hr hd,
    routes_increasing .., sources_nodup .., ?_⟩
  intro other h hw
  rw [sources_eq_map, sources_eq_map, routes_congr hl hr hd h hw]

/-- A root that is a link, a directory beside a link of nearly the same name, an ignored directory,
and an extension in capitals; listed in either order. -/
theorem search_of_mixed_listing :
    let entries : List (Place × Entry) :=
      [(["now"], .link "src"), (["src"], .directory), (["src", "b.java"], .file [] none),
       (["src", "a.java"], .link "b.java"), (["src", "a"], .directory),
       (["src", "a", "X.JAVA"], .file [] none), (["src", ".git"], .directory),
       (["src", ".git", "h.java"], .file [] none)]
    let fs : FileSystem := ⟨entries, []⟩
    let root : Path := ⟨.relative, ["now"]⟩
    fs.resolve root = .ok ["src"] ∧ fs.isDirectoryAt ["src"] = true ∧
      (∃ found : List (List String), fs.sources {} root = found.map root.descend ∧
        ["a", "X.JAVA"] ∈ found ∧ [".git", "h.java"] ∉ found ∧ ["a.java"] ∉ found ∧
        found.Pairwise (· < ·)) ∧
      FileSystem.sources ⟨entries.reverse, []⟩ {} root = fs.sources {} root := by
  intro entries fs root
  have hr : fs.resolve root = .ok ["src"] := by cbv
  have hd : fs.isDirectoryAt ["src"] = true := rfl
  obtain ⟨found, hmap, hmem, hinc, -, hsame⟩ :=
    search_exact_and_increasing fs {} root ["src"] rfl hr hd
  refine ⟨hr, hd, ⟨found, hmap, ?_, ?_, ?_, hinc⟩, ?_⟩
  · refine (hmem _).mpr ⟨["a"], "X.JAVA", rfl, leadsToSource_cons.mpr ⟨rfl, by decide, ?_⟩⟩
    exact leadsToSource_nil.mpr ⟨⟨[], none, rfl⟩, by decide⟩
  · intro h
    obtain ⟨front, last, heq, hlead⟩ := (hmem _).mp h
    have hparts : [".git"] ++ ["h.java"] = front ++ [last] := heq
    obtain ⟨rfl, rfl⟩ : [".git"] = front ∧ "h.java" = last := by
      simpa using List.append_inj' hparts rfl
    exact (leadsToSource_cons.mp hlead).2.1 (by decide)
  · intro h
    obtain ⟨front, last, heq, hlead⟩ := (hmem _).mp h
    have hparts : [] ++ ["a.java"] = front ++ [last] := heq
    obtain ⟨rfl, rfl⟩ : [] = front ∧ "a.java" = last := by
      simpa using List.append_inj' hparts rfl
    obtain ⟨⟨bytes, tree, hf⟩, -⟩ := leadsToSource_nil.mp hlead
    cases hf
  · refine hsame _ (fun place => get?_eq_of_perm ?_ entries.reverse_perm place) rfl
    decide

end JavaLint.FileSystem
