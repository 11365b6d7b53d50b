import JavaLint.Proofs.Discovery

/-! The bound on the depth of a search is never reached, also when links are followed and lead back
to where they came from. Each directory on the way uses up some of a credit: one place of depth, or
a link and with it as much depth as there is. The search of a directory is therefore the search of
what stands in it, with no bound in sight. -/
namespace JavaLint.FileSystem

variable {fs : FileSystem} {config : Config} {path : Path} {place : Place} {name : String}

theorem followLeft_le {links left : Nat} {rest : List String} {target : Place}
    (h : fs.followLeft links place rest = .ok (left, target)) : left ≤ links := by
  fun_induction followLeft fs links place rest with
  | case1 => cases h; exact le_rfl
  | case2 | case3 => cases h
  | case4 place component rest next text he links path ih => exact (ih h).trans (Nat.le_succ _)
  | case5 links place component rest next found hl he ih => exact ih h

/-- One more name either goes one place down, or passes through a link. -/
theorem followLeft_name {links left : Nat} {target : Place} (hn : isName name = true)
    (h : fs.followLeft links place [name] = .ok (left, target)) :
    (left = links ∧ target = place ++ [name]) ∨ left < links := by
  rw [followLeft] at h
  split at h
  · cases h
  next he =>
    right
    split at h
    · cases h
    · exact Nat.lt_succ_of_le (followLeft_le h)
  next next found _ he =>
    left
    rw [followLeft] at h
    cases h
    obtain ⟨-, ⟨rfl, -⟩ | ⟨-, hp, -⟩⟩ := enter_cases he
    · exact (isName_ne_up hn rfl).elim
    · exact ⟨rfl, hp⟩

/-- How many directories a path can still go down through: to the greatest depth, and there again
for every link that is left. -/
def credit (fs : FileSystem) (left : Nat) (place : Place) : Nat :=
  left * (fs.depth + 1) + (fs.depth - place.length)

theorem credit_lt {left left' : Nat} {place' : Place}
    (hd : fs.get? place' = some .directory)
    (h : (left' = left ∧ place' = place ++ [name]) ∨ left' < left) :
    fs.credit left' place' < fs.credit left place := by
  have hlen := length_le_depth hd
  unfold credit
  rcases h with ⟨rfl, rfl⟩ | h
  · rw [List.length_append, List.length_singleton] at *
    omega
  · have hm := Nat.mul_le_mul_right (fs.depth + 1) (Nat.succ_le_of_lt h)
    rw [Nat.succ_mul] at hm
    omega

def Reaches (fs : FileSystem) (path : Path) (left : Nat) (place : Place) : Prop :=
  ∃ start, fs.startOf path.anchor = .ok start ∧
    fs.followLeft linkLimit start path.parts = .ok (left, place)

theorem Reaches.le_linkLimit {left : Nat} (h : fs.Reaches path left place) : left ≤ linkLimit := by
  obtain ⟨start, -, hf⟩ := h
  exact followLeft_le hf

theorem resolve_eq_ok_iff : fs.resolve path = .ok place ↔ ∃ left, fs.Reaches path left place := by
  constructor
  · intro h
    obtain ⟨start, hs, hf⟩ := bind_eq_ok.mp h
    rw [followFrom_eq_map] at hf
    obtain ⟨⟨left, _⟩, hl, rfl⟩ := map_eq_ok.mp hf
    exact ⟨left, start, hs, hl⟩
  · rintro ⟨left, start, hs, hl⟩
    refine bind_eq_ok.mpr ⟨start, hs, ?_⟩
    rw [followFrom_eq_map, hl]
    rfl

/-- A directory below a path has less credit than the path. -/
theorem credit_child {left : Nat} (h : fs.Reaches path left place) (hn : isName name = true)
    (hd : fs.isDirectory (path.child name) = true) :
    ∃ left' place', fs.Reaches (path.child name) left' place' ∧
      fs.get? place' = some .directory ∧ fs.credit left' place' < fs.credit left place := by
  obtain ⟨place', hr, hg⟩ := resolve_of_lookup (isDirectory_iff.mp hd)
  obtain ⟨left', hreach⟩ := resolve_eq_ok_iff.mp hr
  -- Both paths start in the same directory, so the longer one goes on from where the shorter ends.
  have hstep : fs.followLeft left place [name] = .ok (left', place') := by
    obtain ⟨start, hs, hf⟩ := h
    obtain ⟨start', hs', hf'⟩ := hreach
    cases hs.symm.trans hs'
    rw [← followLeft_append hf]
    exact hf'
  exact ⟨left', place', hreach, hg, credit_lt hg (followLeft_name hn hstep)⟩

theorem routesVia_congr {below below' : List (List String)}
    (h : fs.isDirectory (path.child name) = true → below = below') :
    fs.routesVia config path place name below = fs.routesVia config path place name below' := by
  unfold routesVia
  by_cases hd : fs.isDirectory (path.child name) = true
  · rw [h hd]
  · simp only [if_neg hd]

/-- More fuel than credit is as good as any more. -/
theorem routesWithin_of_credit_lt {left fuel more : Nat} (h : fs.Reaches path left place)
    (hd : fs.get? place = some .directory)
    (hf : fs.credit left place < fuel) (hm : fuel ≤ more) :
    fs.routesWithin config more path = fs.routesWithin config fuel path := by
  induction fuel generalizing path place left more with
  | zero => omega
  | succ fuel ih =>
    obtain ⟨more, rfl⟩ : ∃ n, more = n + 1 := ⟨more - 1, by omega⟩
    have hr := resolve_eq_ok_iff.mpr ⟨left, h⟩
    rw [routesWithin_succ hr hd, routesWithin_succ hr hd]
    apply List.flatMap_congr
    intro name hmem
    refine routesVia_congr fun hdir => ?_
    obtain ⟨left', place', h', hd', hlt⟩ :=
      credit_child h (isName_of_mem_namesAt hmem) hdir
    exact ih h' hd' (by omega) (by omega)

theorem credit_lt_searchBound (fs : FileSystem) {left : Nat} (hl : left ≤ linkLimit)
    (place : Place) :
    fs.credit left place + 1 < fs.searchBound := by
  have hm := Nat.mul_le_mul_right (fs.depth + 1) hl
  unfold credit searchBound
  rw [Nat.add_mul]
  omega

/-- The search of a directory is the search of what stands in it, in the order of the names. Links
that lead back to the directory do not make it endless. -/
theorem routes_of_directory (config : Config) (hr : fs.resolve path = .ok place)
    (hd : fs.get? place = some .directory) :
    fs.routes config path = (fs.namesAt place).flatMap fun name =>
      fs.routesVia config path place name (fs.routes config (path.child name)) := by
  obtain ⟨left, h⟩ := resolve_eq_ok_iff.mp hr
  have hb := fs.credit_lt_searchBound h.le_linkLimit place
  obtain ⟨fuel, hfuel⟩ : ∃ n, fs.searchBound = n + 1 := ⟨fs.searchBound - 1, by omega⟩
  unfold routes
  conv_lhs => rw [hfuel, routesWithin_succ hr hd]
  apply List.flatMap_congr
  intro name hmem
  refine routesVia_congr fun hdir => ?_
  obtain ⟨left', place', h', hd', hlt⟩ := credit_child h (isName_of_mem_namesAt hmem) hdir
  have hc : fs.credit left' place' < fuel := by omega
  have hle : fuel ≤ fs.searchBound := by omega
  exact (routesWithin_of_credit_lt h' hd' hc hle).symm

end JavaLint.FileSystem
