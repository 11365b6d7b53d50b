/-!
Working through a list with several workers. A pool takes the items in rounds of one item for each
worker, and hands in the results in the order of the items.
-/
namespace JavaLint.Workers

variable {α β : Type}

/-- The items in rounds of at most `others + 1`, so that a round is never empty. -/
def rounds (others : Nat) : List α → List (List α)
  | [] => []
  | item :: rest => (item :: rest.take others) :: rounds others (rest.drop others)
termination_by items => items.length
decreasing_by
  simp only [List.length_drop, List.length_cons]
  omega

def poolMap (workers : Nat) (work : α → β) (items : List α) : List β :=
  (rounds (workers - 1) items).flatMap fun round => round.map work

/-- Does the work for every item. One worker, or one item, needs no pool. -/
def mapAll (workers : Int) (work : α → β) (items : List α) : List β :=
  if workers > 1 && items.length > 1 then poolMap workers.toNat work items else items.map work

theorem flatten_rounds (others : Nat) (items : List α) : (rounds others items).flatten = items := by
  fun_induction rounds others items with
  | case1 => rfl
  | case2 item rest ih =>
    rw [List.flatten_cons, ih, List.cons_append, List.take_append_drop]

theorem poolMap_eq_map (workers : Nat) (work : α → β) (items : List α) :
    poolMap workers work items = items.map work := by
  unfold poolMap
  rw [List.flatMap_def, ← List.map_flatten, flatten_rounds]

/-- The number of workers never changes a result or its position. -/
@[simp] theorem mapAll_eq_map (workers : Int) (work : α → β) (items : List α) :
    mapAll workers work items = items.map work := by
  unfold mapAll
  split
  · exact poolMap_eq_map ..
  · rfl

end JavaLint.Workers
