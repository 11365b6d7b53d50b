import JavaLint.FileSystem.Edit
import JavaLint.Proofs.Resolution

/-! What the writing of a file changes. Directories are only ever added, each on the way to the
path; then one file is put in place, and every path that led somewhere still leads there. -/
namespace JavaLint.FileSystem

variable {fs old mid new : FileSystem} {place : Place} {entry : Entry} {path : Path}

@[simp] theorem workingDirectory_set (fs : FileSystem) (place : Place) (entry : Entry) :
    (fs.set place entry).workingDirectory = fs.workingDirectory := by
  unfold set
  split
  · rfl
  · rfl

theorem find?_set (fs : FileSystem) (place other : Place) (entry : Entry) :
    (fs.set place entry).entries.find? (·.1 == other) =
      if other = place then some (place, entry) else fs.entries.find? (·.1 == other) := by
  unfold set
  by_cases hany : fs.entries.any (·.1 == place) = true
  · -- The entry is replaced where it stands, so the search meets the same position.
    rw [if_pos hany]
    dsimp only
    rw [List.find?_map]
    have hkey : ((fun old : Place × Entry => old.1 == other) ∘
        fun old => if (old.1 == place) = true then (place, entry) else old) =
        (·.1 == other) := by
      funext old
      by_cases ho : old.1 = place
      · simp [ho]
      · simp [ho]
    rw [hkey]
    by_cases ho : other = place
    · subst ho
      obtain ⟨found, hf⟩ := Option.isSome_iff_exists.mp (List.find?_isSome.mpr
        (List.any_eq_true.mp hany))
      have hp : found.1 = other := by simpa using List.find?_some hf
      rw [if_pos rfl, hf, Option.map_some, if_pos (beq_iff_eq.mpr hp)]
    · rw [if_neg ho]
      cases hf : fs.entries.find? (·.1 == other) with
      | none => rfl
      | some found =>
        have hp : found.1 = other := by simpa using List.find?_some hf
        have hne : ¬ (found.1 == place) = true := by rwa [hp, beq_iff_eq]
        rw [Option.map_some, if_neg hne]
  · rw [if_neg hany]
    dsimp only
    have hnone : fs.entries.find? (·.1 == place) = none := by
      rw [List.find?_eq_none]
      intro old hmem hp
      exact hany (List.any_eq_true.mpr ⟨old, hmem, hp⟩)
    rw [List.find?_append]
    by_cases ho : other = place
    · subst ho
      simp [hnone]
    · have hne : ¬ place = other := fun h => ho h.symm
      simp [ho, hne]

theorem get?_set_of_ne {other : Place} (h : other ≠ place) :
    (fs.set place entry).get? other = fs.get? other := by
  unfold get?
  rw [find?_set, if_neg h]

theorem get?_set_self (hn : place ≠ []) (hall : place.all isName = true) :
    (fs.set place entry).get? place = some entry := by
  rw [get?_eq_some_iff hn, find?_set, if_pos rfl]
  exact ⟨hall, rfl⟩

/-- A place that only names can lead to is not there, whatever is put there. -/
theorem get?_set_not_name (hn : place ≠ []) (hall : ¬ place.all isName = true) (other : Place) :
    (fs.set place entry).get? other = fs.get? other := by
  by_cases ho : other = place
  · subst ho
    unfold get?
    rw [if_neg hn, if_neg hall, if_neg hn, if_neg hall]
  · exact get?_set_of_ne ho

/-- Entries that lead on in the same way: files may differ in what they hold. -/
def SameKind : Entry → Entry → Prop
  | .file .., .file .. => True
  | .directory, .directory => True
  | .link target, .link other => target = other
  | _, _ => False

theorem SameKind.refl (entry : Entry) : SameKind entry entry := by
  cases entry with
  | file => trivial
  | directory => trivial
  | link target => exact Eq.refl target

/-- Whatever stood is still there, though files may hold something else. -/
structure Keeps (old new : FileSystem) : Prop where
  workingDirectory : new.workingDirectory = old.workingDirectory
  stands : ∀ place entry, old.get? place = some entry →
    ∃ kept, new.get? place = some kept ∧ SameKind entry kept

theorem Keeps.directory (h : Keeps old new) (hd : old.get? place = some .directory) :
    new.get? place = some .directory := by
  obtain ⟨kept, hk, hs⟩ := h.stands _ _ hd
  cases kept with
  | directory => exact hk
  | file | link => exact hs.elim

theorem Keeps.enter (h : Keeps old new) {component : String} {next : Place}
    (he : old.enter place component = .ok (next, entry)) :
    ∃ kept, new.enter place component = .ok (next, kept) ∧ SameKind entry kept := by
  unfold FileSystem.enter at he
  by_cases hd : old.isDirectoryAt place = true
  · have hd' : new.isDirectoryAt place = true :=
      isDirectoryAt_iff.mpr (h.directory (isDirectoryAt_iff.mp hd))
    unfold FileSystem.enter
    rw [if_pos hd] at he
    rw [if_pos hd']
    by_cases hu : (component == "..") = true
    · rw [if_pos hu] at he ⊢
      exact ⟨entry, he, .refl entry⟩
    · rw [if_neg hu] at he ⊢
      split at he
      next found hf =>
        cases he
        obtain ⟨kept, hk, hs⟩ := h.stands _ _ hf
        exact ⟨kept, by rw [hk], hs⟩
      next => cases he
  · rw [if_neg hd] at he
    cases he

/-- Links still lead where they led. -/
theorem Keeps.enter_link (h : Keeps old new) {component text : String} {next : Place}
    (he : old.enter place component = .ok (next, .link text)) :
    new.enter place component = .ok (next, .link text) := by
  obtain ⟨kept, hk, hs⟩ := h.enter he
  cases kept with
  | file | directory => exact hs.elim
  | link other =>
    cases (hs : text = other)
    exact hk

theorem Keeps.enter_other (h : Keeps old new) {component : String} {next : Place}
    (hl : ∀ text, entry ≠ .link text) (he : old.enter place component = .ok (next, entry)) :
    ∃ kept, new.enter place component = .ok (next, kept) ∧ ∀ text, kept ≠ .link text := by
  obtain ⟨kept, hk, hs⟩ := h.enter he
  refine ⟨kept, hk, ?_⟩
  rintro text rfl
  cases entry with
  | file | directory => exact hs.elim
  | link other => exact hl other rfl

theorem followFrom_link {links : Nat} {component text : String} {rest : List String} {next : Place}
    (he : fs.enter place component = .ok (next, .link text)) :
    fs.followFrom (links + 1) place (component :: rest) =
      fs.followFrom links ((Path.parse text).anchor.start place)
        ((Path.parse text).parts ++ rest) := by
  rw [followFrom, he]

theorem followFrom_other {links : Nat} {component : String} {rest : List String} {next : Place}
    (he : fs.enter place component = .ok (next, entry)) (hl : ∀ text, entry ≠ .link text) :
    fs.followFrom links place (component :: rest) = fs.followFrom links next rest := by
  rw [followFrom, he]
  cases entry with
  | file | directory => rfl
  | link text => exact (hl text rfl).elim

theorem Keeps.followFrom (h : Keeps old new) {links : Nat} {rest : List String} {target : Place}
    (hf : old.followFrom links place rest = .ok target) :
    new.followFrom links place rest = .ok target := by
  fun_induction FileSystem.followFrom old links place rest with
  | case1 => rwa [FileSystem.followFrom]
  | case2 | case3 => cases hf
  | case4 place component rest next text he links path ih =>
    rw [followFrom_link (h.enter_link he)]
    exact ih hf
  | case5 links place component rest next found hl he ih =>
    obtain ⟨kept, hk, hlink⟩ := h.enter_other hl he
    rw [followFrom_other hk hlink]
    exact ih hf

theorem Keeps.startOf (h : Keeps old new) {anchor : Anchor}
    (hs : old.startOf anchor = .ok place) : new.startOf anchor = .ok place := by
  cases anchor with
  | relative =>
    obtain ⟨hf, hd⟩ := startOf_relative_iff.mp hs
    exact startOf_relative_iff.mpr ⟨h.workingDirectory ▸ h.followFrom hf, h.directory hd⟩
  | root | doubleRoot => exact hs

/-- A path leads to the same place as before. -/
theorem Keeps.resolve (h : Keeps old new) (hr : old.resolve path = .ok place) :
    new.resolve path = .ok place := by
  obtain ⟨start, hs, hf⟩ := bind_eq_ok.mp hr
  exact bind_eq_ok.mpr ⟨start, h.startOf hs, h.followFrom hf⟩

/-- Putting an entry in place keeps the rest, and the kind of what stood there if it is the same. -/
theorem keeps_set (h : ∀ found, fs.get? place = some found → place ≠ [] ∧ SameKind found entry) :
    Keeps fs (fs.set place entry) := by
  refine ⟨workingDirectory_set .., ?_⟩
  intro other found hf
  by_cases ho : other = place
  · subst ho
    obtain ⟨hn, hs⟩ := h found hf
    exact ⟨entry, get?_set_self hn (all_isName_of_get? hf), hs⟩
  · exact ⟨found, (get?_set_of_ne ho).trans hf, .refl found⟩

/-- One edit adds directories only, each at a place that an ancestor of a path now leads to, or
the path itself. -/
structure AddsAlong (old new : FileSystem) (path : Path) : Prop where
  workingDirectory : new.workingDirectory = old.workingDirectory
  places : ∀ place, new.get? place = old.get? place ∨
    (old.get? place = none ∧ new.get? place = some .directory ∧
      ∃ parts, parts <+: path.parts ∧ new.resolve ⟨path.anchor, parts⟩ = .ok place)

theorem AddsAlong.refl (fs : FileSystem) (path : Path) : AddsAlong fs fs path :=
  ⟨rfl, fun _ => Or.inl rfl⟩

theorem AddsAlong.keeps (h : AddsAlong old new path) : Keeps old new := by
  refine ⟨h.workingDirectory, ?_⟩
  intro place entry hg
  rcases h.places place with heq | ⟨hnone, -⟩
  · exact ⟨entry, heq.trans hg, .refl entry⟩
  · rw [hnone] at hg
    cases hg

/-- Directories along the start of a path and then along all of it. -/
theorem AddsAlong.trans {anchor : Anchor} {start parts : List String}
    (h₁ : AddsAlong old mid ⟨anchor, start⟩) (hp : start <+: parts)
    (h₂ : AddsAlong mid new ⟨anchor, parts⟩) : AddsAlong old new ⟨anchor, parts⟩ := by
  refine ⟨h₂.workingDirectory.trans h₁.workingDirectory, fun place => ?_⟩
  rcases h₁.places place with heq₁ | ⟨hnone₁, hdir₁, ancestor, hprefix, hresolve⟩
  · rcases h₂.places place with heq₂ | ⟨hnone₂, hadded⟩
    · exact Or.inl (heq₂.trans heq₁)
    · exact Or.inr ⟨heq₁ ▸ hnone₂, hadded⟩
  · exact Or.inr ⟨hnone₁, h₂.keeps.directory hdir₁, ancestor, hprefix.trans hp,
      h₂.keeps.resolve hresolve⟩

/-- What is put where nothing stands goes into the directory that the parent leads to. -/
theorem create_cases {changed : FileSystem} (h : fs.create path entry = .ok changed) :
    ∃ place name, path.parts = path.parent.parts ++ [name] ∧
      fs.resolve path.parent = .ok place ∧ fs.get? place = some .directory ∧
      fs.get? (place ++ [name]) = none ∧ changed = fs.set (place ++ [name]) entry := by
  unfold create at h
  split at h
  next => cases h
  next => cases h
  next place name hl =>
    split at h
    next => cases h
    next hnone =>
      cases h
      refine ⟨place, name, ?_⟩
      unfold locateParent at hl
      split at hl
      · cases hl
      split at hl
      next => cases hl
      next last hlast =>
        split at hl
        next => cases hl
        next found hr =>
          by_cases hd : fs.isDirectoryAt found = true
          · rw [if_pos hd] at hl
            split at hl
            · cases hl
            · cases hl
              exact ⟨(List.dropLast_append_getLast? name hlast).symm, hr,
                isDirectoryAt_iff.mp hd, hnone, rfl⟩
          · rw [if_neg hd] at hl
            cases hl

theorem create_directory_addsAlong {changed : FileSystem}
    (h : fs.create path .directory = .ok changed) : AddsAlong fs changed path := by
  obtain ⟨place, name, hparts, hr, hd, hnone, rfl⟩ := create_cases h
  have hn : place ++ [name] ≠ [] := by simp
  refine ⟨workingDirectory_set .., fun other => ?_⟩
  by_cases hall : (place ++ [name]).all isName = true
  · by_cases ho : other = place ++ [name]
    · subst ho
      have hself : (fs.set (place ++ [name]) .directory).get? (place ++ [name]) = some .directory :=
        get?_set_self hn hall
      have hkeeps : Keeps fs (fs.set (place ++ [name]) .directory) :=
        keeps_set fun found hf => by rw [hnone] at hf; cases hf
      refine Or.inr ⟨hnone, hself, path.parts, List.prefix_rfl, ?_⟩
      have hchild : (path.parent.child name) = path := by
        unfold Path.child
        rw [← hparts]
        rfl
      have := resolve_child (hkeeps.resolve hr) (hkeeps.directory hd) hself (by simp)
      rwa [hchild] at this
    · exact Or.inl (get?_set_of_ne ho)
  · exact Or.inl (get?_set_not_name hn hall other)

theorem makeDirectory_addsAlong {changed : FileSystem}
    (h : fs.makeDirectory path = .ok changed) : AddsAlong fs changed path := by
  unfold makeDirectory at h
  split at h
  next created hc =>
    cases h
    exact create_directory_addsAlong hc
  next => cases h
  next =>
    split at h
    · cases h
      exact .refl fs path
    · cases h

theorem ofStep_makeDirectory_addsAlong (fs : FileSystem) (path : Path) :
    AddsAlong fs (Edited.ofStep fs (fs.makeDirectory path)).fs path := by
  cases h : fs.makeDirectory path with
  | ok changed => exact makeDirectory_addsAlong h
  | error => exact .refl fs path

/-- Also where an edit fails half way, it has added directories on the way only. -/
theorem makeDirectoriesFrom_addsAlong (fs : FileSystem) (anchor : Anchor) (names : List String) :
    AddsAlong fs (fs.makeDirectoriesFrom anchor names).fs ⟨anchor, names.reverse⟩ := by
  induction names with
  | nil => exact ofStep_makeDirectory_addsAlong fs ⟨anchor, []⟩
  | cons name ancestors ih =>
    have hlong : ancestors.reverse <+: (name :: ancestors).reverse := by
      rw [List.reverse_cons]
      exact List.prefix_append _ _
    unfold makeDirectoriesFrom
    dsimp only
    split
    next =>
      unfold Edited.andThen
      split
      · exact ih.trans hlong (ofStep_makeDirectory_addsAlong _ _)
      · exact ih.trans hlong (.refl _ _)
    next => exact ofStep_makeDirectory_addsAlong fs _

theorem makeDirectories_addsAlong (fs : FileSystem) (path : Path) :
    AddsAlong fs (fs.makeDirectories path).fs path := by
  have h := makeDirectoriesFrom_addsAlong fs path.anchor path.parts.reverse
  rwa [List.reverse_reverse] at h

def Rooted (fs : FileSystem) (place : Place) : Prop :=
  ∀ above, above <+: place → above ≠ place → fs.get? above = some .directory

theorem rooted_nil (fs : FileSystem) : fs.Rooted [] := by
  intro above hp hne
  exact (hne (List.prefix_nil.mp hp)).elim

/-- The directory above a place lies below directories, and is one; the root is above itself. -/
theorem Rooted.dropLast (h : fs.Rooted place) (hd : fs.get? place = some .directory) :
    fs.Rooted place.dropLast ∧ fs.get? place.dropLast = some .directory := by
  have habove : ∀ above, above <+: place.dropLast → fs.get? above = some .directory := by
    intro above hp
    by_cases heq : above = place
    · rwa [heq]
    · exact h above (hp.trans (List.dropLast_prefix place)) heq
  exact ⟨fun above hp _ => habove above hp, habove _ List.prefix_rfl⟩

/-- A step goes from below directories to below directories, also upwards. -/
theorem Rooted.enter {component : String} {next : Place} (h : fs.Rooted place)
    (he : fs.enter place component = .ok (next, entry)) :
    fs.Rooted next ∧ fs.get? next = some entry := by
  obtain ⟨hd, hstep⟩ := enter_cases he
  rcases hstep with ⟨rfl, rfl⟩ | ⟨-, rfl, hg⟩
  · have hentry : entry = .directory := by
      simp [FileSystem.enter, isDirectoryAt_iff.mpr hd] at he
      exact he.symm
    exact hentry ▸ h.dropLast hd
  · refine ⟨?_, hg⟩
    intro above hp hneq
    by_cases heq : above = place
    · rwa [heq]
    · refine h above ?_ heq
      rcases List.prefix_concat_iff.mp hp with hall | hp
      · exact (hneq hall).elim
      · exact hp

theorem Rooted.start (h : fs.Rooted place) (anchor : Anchor) :
    fs.Rooted (anchor.start place) := by
  cases anchor with
  | relative => exact h
  | root | doubleRoot => exact rooted_nil fs

theorem Rooted.followFrom {links : Nat} {rest : List String} {target : Place}
    (h : fs.Rooted place) (hf : fs.followFrom links place rest = .ok target) :
    fs.Rooted target := by
  fun_induction FileSystem.followFrom fs links place rest with
  | case1 => cases hf; exact h
  | case2 | case3 => cases hf
  | case4 place component rest next text he links path ih => exact ih (h.start _) hf
  | case5 links place component rest next found hl he ih => exact ih (h.enter he).1 hf

/-- What a write may lead to: something other than a link, at names only. -/
def Open (fs : FileSystem) (place : Place) : Prop :=
  place.all isName = true ∧ ∀ text, fs.get? place ≠ some (.link text)

theorem open_of_directory (h : fs.get? place = some .directory) : fs.Open place :=
  ⟨all_isName_of_get? h, by simp [h]⟩

theorem Open.start (h : fs.Open place) (anchor : Anchor) : fs.Open (anchor.start place) := by
  cases anchor with
  | relative => exact h
  | root | doubleRoot => exact open_of_directory rfl

theorem get?_eq_none_of_enter {component : String} (hd : fs.isDirectoryAt place = true)
    (h : fs.enter place component = .error .notFound) :
    fs.get? (place ++ [component]) = none := by
  cases hg : fs.get? (place ++ [component]) with
  | none => rfl
  | some entry =>
    rw [enter_name (isDirectoryAt_iff.mp hd) hg] at h
    cases h

/-- The last name of a path, or of the link it ends in, may be free. -/
theorem open_targetFrom {links : Nat} {rest : List String} {target : Place}
    (hroot : fs.Rooted place) (ho : fs.Open place)
    (h : fs.targetFrom links place rest = .ok target) : fs.Open target := by
  fun_induction targetFrom fs links place rest with
  | case1 =>
    cases h
    exact ho
  | case2 links place component rest he hfree =>
    cases h
    simp only [Bool.and_eq_true] at hfree
    obtain ⟨⟨-, hname⟩, hd⟩ := hfree
    refine ⟨by simp [ho.1, hname], ?_⟩
    rw [get?_eq_none_of_enter hd he]
    simp
  | case3 | case4 | case5 => cases h
  | case6 place component rest next text he links path ih =>
    exact ih (hroot.start _) (ho.start _) h
  | case7 links place component rest next found hl he ih =>
    obtain ⟨hroot', hg⟩ := hroot.enter he
    refine ih hroot' ⟨all_isName_of_get? hg, ?_⟩ h
    intro text ht
    rw [hg] at ht
    cases ht
    exact hl text rfl

/-- Once a file stands at the target of a write, the path leads there. -/
theorem followFrom_of_targetFrom {links : Nat} {rest : List String} {target : Place}
    {bytes : Text.Bytes} {tree : Option Tree} (hk : Keeps old new)
    (hg : new.get? target = some (.file bytes tree))
    (h : old.targetFrom links place rest = .ok target) :
    new.followFrom links place rest = .ok target := by
  fun_induction targetFrom old links place rest with
  | case1 =>
    cases h
    rw [followFrom]
  | case2 links place component rest he hfree =>
    cases h
    simp only [Bool.and_eq_true, decide_eq_true_eq] at hfree
    obtain ⟨⟨rfl, hname⟩, hd⟩ := hfree
    rw [followFrom, enter_name (hk.directory (isDirectoryAt_iff.mp hd)) hg]
    simp only [followFrom]
  | case3 | case4 | case5 => cases h
  | case6 place component rest next text he links path ih =>
    rw [followFrom_link (hk.enter_link he)]
    exact ih h
  | case7 links place component rest next found hl he ih =>
    obtain ⟨kept, hkept, hlink⟩ := hk.enter_other hl he
    rw [followFrom_other hkept hlink]
    exact ih h

/-- Writing a file changes what stands at one place, to which its path then leads. -/
theorem writeFile_cases {changed : FileSystem} {bytes : Text.Bytes} {tree : Option Tree}
    (h : fs.writeFile path bytes tree = .ok changed) :
    ∃ place, Keeps fs changed ∧ changed.resolve path = .ok place ∧
      changed.get? place = some (.file bytes tree) ∧
      ∀ other, other ≠ place → changed.get? other = fs.get? other := by
  unfold writeFile at h
  split at h
  · cases h
  split at h
  next => cases h
  next place ht =>
    by_cases hd : fs.isDirectoryAt place = true
    · rw [if_pos hd] at h
      cases h
    rw [if_neg hd] at h
    cases h
    obtain ⟨start, hs, ht⟩ := bind_eq_ok.mp ht
    obtain ⟨hstart, rest, hf⟩ := directory_of_startOf hs
    obtain ⟨hall, hlink⟩ :=
      open_targetFrom ((rooted_nil fs).followFrom hf) (open_of_directory hstart) ht
    have hn : place ≠ [] := by
      rintro rfl
      exact hd (isDirectoryAt_iff.mpr rfl)
    have hself : (fs.set place (.file bytes tree)).get? place = some (.file bytes tree) :=
      get?_set_self hn hall
    have hkeeps : Keeps fs (fs.set place (.file bytes tree)) := by
      refine keeps_set fun found hf => ⟨hn, ?_⟩
      cases found with
      | file => trivial
      | directory => exact (hd (isDirectoryAt_iff.mpr hf)).elim
      | link text => exact (hlink text hf).elim
    refine ⟨place, hkeeps, ?_, hself, fun other ho => get?_set_of_ne ho⟩
    exact bind_eq_ok.mpr ⟨start, hkeeps.startOf hs, followFrom_of_targetFrom hkeeps hself ht⟩

/-- A path leads to a file with these bytes, and nothing else has changed but that directories
above it that were missing have been made. -/
structure Written (old new : FileSystem) (path : Path) (bytes : Text.Bytes) : Prop where
  workingDirectory : new.workingDirectory = old.workingDirectory
  holds : new.content path = .ok (bytes, none)
  elsewhere : ∀ place, new.resolve path ≠ .ok place → new.get? place = old.get? place ∨
    (old.get? place = none ∧ new.get? place = some .directory ∧
      ∃ parts, parts <+: path.parts.dropLast ∧ new.resolve ⟨path.anchor, parts⟩ = .ok place)

theorem written_of_writeFileWithParents {bytes : Text.Bytes}
    (h : (fs.writeFileWithParents path bytes none).result = .ok ()) :
    Written fs (fs.writeFileWithParents path bytes none).fs path bytes := by
  unfold writeFileWithParents Edited.andThen at h ⊢
  have hadds := makeDirectories_addsAlong fs path.parent
  cases hm : (fs.makeDirectories path.parent).result with
  | error cause => simp [hm] at h
  | ok =>
    simp only [hm] at h ⊢
    generalize (fs.makeDirectories path.parent).fs = mid at hadds h ⊢
    cases hw : mid.writeFile path bytes none with
    | error cause => simp [hw, Edited.ofStep] at h
    | ok changed =>
      obtain ⟨place, hkeeps, hresolve, hfile, hframe⟩ := writeFile_cases hw
      refine ⟨hkeeps.workingDirectory.trans hadds.workingDirectory, content_of_lookup ?_, ?_⟩
      · simp only [Edited.ofStep, lookup, hresolve, hfile]
      · intro other hother
        have hne : other ≠ place := by
          rintro rfl
          exact hother hresolve
        rcases hadds.places other with heq | ⟨hnone, hdir, parts, hp, hr⟩
        · exact Or.inl ((hframe other hne).trans heq)
        · exact Or.inr ⟨hnone, (hframe other hne).trans hdir, parts, hp, hkeeps.resolve hr⟩

end JavaLint.FileSystem
