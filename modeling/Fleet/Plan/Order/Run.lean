import Fleet.Scalar

/-! Runs of numbered items, least number first.

A list is cut into the runs it begins with; short runs grow by insertion, at places found by bisection.
-/

set_option autoImplicit false

namespace Fleet.Plan.Order

variable {α Item : Type} [Scalar α]

def fallingLength : List (α × Item) → Nat
  | first :: second :: rest =>
      if second.1 < first.1 then fallingLength (second :: rest) + 1 else 0
  | _ => 0

def risingLength : List (α × Item) → Nat
  | first :: second :: rest =>
      if second.1 < first.1 then 0 else risingLength (second :: rest) + 1
  | _ => 0

def splitRun (items : List (α × Item)) : List (α × Item) × List (α × Item) :=
  match fallingLength items with
  | 0 => items.splitAt (risingLength items + 1)
  | falling => ((items.take (falling + 1)).reverse, items.drop (falling + 1))

/-- The place of the number between `low` and `high`: after all items that are not greater. -/
def bisect (sorted : Array (α × Item)) (number : α) (low high : Nat) : Nat :=
  if low < high then
    let middle := low + (high - low) / 2
    match sorted[middle]? with
    | none => low
    | some entry =>
        if number < entry.1 then bisect sorted number low middle
        else bisect sorted number (middle + 1) high
  else low
termination_by high - low
decreasing_by all_goals omega

def insert (sorted : List (α × Item)) (entry : α × Item) : List (α × Item) :=
  let place := bisect sorted.toArray entry.1 0 sorted.length
  sorted.take place ++ entry :: sorted.drop place

def nextRun (least : Nat) (items : List (α × Item)) : List (α × Item) × List (α × Item) :=
  let (run, rest) := splitRun items
  let missing := least - run.length
  ((rest.take missing).foldl insert run, rest.drop missing)

theorem insert_perm (sorted : List (α × Item)) (entry : α × Item) :
    (insert sorted entry).Perm (entry :: sorted) := by
  unfold insert
  exact List.perm_middle.trans (by rw [List.take_append_drop])

theorem foldl_insert_perm (items run : List (α × Item)) :
    (items.foldl insert run).Perm (run ++ items) := by
  induction items generalizing run with
  | nil => simp
  | cons entry rest ih =>
    exact (ih (insert run entry)).trans
      (((insert_perm run entry).append_right rest).trans List.perm_middle.symm)

theorem splitRun_perm (items : List (α × Item)) :
    ((splitRun items).1 ++ (splitRun items).2).Perm items := by
  unfold splitRun
  split
  · simp
  · exact ((List.reverse_perm _).append_right _).trans (by rw [List.take_append_drop])

theorem splitRun_rest_length (entry : α × Item) (items : List (α × Item)) :
    (splitRun (entry :: items)).2.length ≤ items.length := by
  unfold splitRun
  split <;> simp

theorem nextRun_rest_length (least : Nat) (entry : α × Item) (items : List (α × Item)) :
    (nextRun least (entry :: items)).2.length ≤ items.length := by
  have rest := splitRun_rest_length entry items
  simp only [nextRun, List.length_drop]
  omega

theorem nextRun_perm (least : Nat) (items : List (α × Item)) :
    ((nextRun least items).1 ++ (nextRun least items).2).Perm items := by
  unfold nextRun
  refine ((foldl_insert_perm _ _).append_right _).trans ?_
  rw [List.append_assoc, List.take_append_drop]
  exact splitRun_perm items

end Fleet.Plan.Order
