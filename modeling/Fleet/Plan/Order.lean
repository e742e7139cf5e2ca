import Fleet.Plan.Order.Merge

/-! Ordering by a number, greatest first, with ties in their given order.

Numbers that all compare with themselves have one such order. Where a number compares with nothing, its
place is the one it gets when the list is cut into runs and neighbouring runs are merged. Of two
boundaries between runs, the one that a balanced halving of the list meets later is merged away first.
-/

set_option autoImplicit false

namespace Fleet.Plan.Order

variable {α Item : Type} [Scalar α]

/-- The leading bits of the count, with one more if bits are lost: few enough to insert one by one. -/
def leastRun (count : Nat) (lost : Nat := 0) : Nat :=
  if count < 64 then count + lost else leastRun (count / 2) (max lost (count % 2))
termination_by count

def firstDifference (count : Nat) : Nat → Nat → Nat → Nat
  | 0, _, _ => 0
  | places + 1, first, second =>
      if first / count = second / count then
        firstDifference count places (2 * first) (2 * second) + 1
      else 1

def boundaryPower (count start first second : Nat) : Nat :=
  firstDifference count count (2 * start + first) (2 * start + 2 * first + second)

structure Pending (α Item : Type) where
  start : Nat
  items : List (α × Item)
  power : Nat := 0

/-- The pending runs, the last one first, and the patience of the merges to come. -/
structure Merging (α Item : Type) where
  pending : List (Pending α Item) := []
  patience : Nat := worthwhileLeap

def Pending.join (patience : Nat) (first second : Pending α Item) : Pending α Item × Nat :=
  let (items, patience) := mergeRuns patience first.items second.items
  ({ first with items }, patience)

/-- Merges the last run with those before it whose boundaries have a greater power than its own. -/
def collapse (power patience : Nat) (last : Pending α Item) :
    List (Pending α Item) → Merging α Item
  | [] => ⟨[{ last with power }], patience⟩
  | previous :: rest =>
      if power < previous.power then
        let (joined, patience) := previous.join patience last
        collapse power patience joined rest
      else ⟨{ last with power } :: previous :: rest, patience⟩

def Merging.push (count : Nat) (merging : Merging α Item) (run : List (α × Item)) :
    Merging α Item :=
  match merging.pending with
  | [] => { merging with pending := [⟨0, run, 0⟩] }
  | last :: rest =>
      let power := boundaryPower count last.start last.items.length run.length
      let collapsed := collapse power merging.patience last rest
      { collapsed with pending := ⟨last.start + last.items.length, run, 0⟩ :: collapsed.pending }

/-- Merges the last run with all those before it. Where the run before the previous one is shorter than
the last run, both runs before the last are merged first. -/
def finish (patience : Nat) (last : Pending α Item) : List (Pending α Item) → List (α × Item)
  | [] => last.items
  | [previous] => (previous.join patience last).1.items
  | previous :: earlier :: rest =>
      if earlier.items.length < last.items.length then
        let (joined, patience) := earlier.join patience previous
        finish patience last (joined :: rest)
      else
        let (joined, patience) := previous.join patience last
        finish patience joined (earlier :: rest)
termination_by pending => pending.length

def gather (count : Nat) : Nat → List (α × Item) → Merging α Item → Merging α Item
  | 0, _, merging => merging
  | _ + 1, [], merging => merging
  | runs + 1, items, merging =>
      let (run, rest) := nextRun (leastRun count) items
      gather count runs rest (merging.push count run)

def risingRuns (items : List (α × Item)) : List (α × Item) :=
  let merging := gather items.length items.length items {}
  match merging.pending with
  | [] => []
  | last :: rest => finish merging.patience last rest

def descending (items : List (α × Item)) : List (α × Item) :=
  if items.all fun item => item.1 ≤ item.1 then items.mergeSort fun first second => second.1 ≤ first.1
  else (risingRuns items.reverse).reverse

/-! Nothing is lost or doubled -/

def held (pending : List (Pending α Item)) : List (α × Item) := pending.flatMap (·.items)

theorem join_perm (patience : Nat) (first second : Pending α Item) :
    (first.join patience second).1.items.Perm (first.items ++ second.items) :=
  mergeRuns_perm _ _ _

theorem collapse_perm (power patience : Nat) (last : Pending α Item)
    (pending : List (Pending α Item)) :
    (held (collapse power patience last pending).pending).Perm (last.items ++ held pending) := by
  induction pending generalizing patience last with
  | nil => simp [collapse, held]
  | cons previous rest ih =>
    unfold collapse
    split
    · have joined := join_perm patience previous last
      refine (ih (previous.join patience last).2 (previous.join patience last).1).trans ?_
      simp only [held, List.flatMap_cons]
      rw [← List.append_assoc]
      exact (joined.trans List.perm_append_comm).append_right _
    · simp [held]

theorem push_perm (count : Nat) (merging : Merging α Item) (run : List (α × Item)) :
    (held (merging.push count run).pending).Perm (held merging.pending ++ run) := by
  unfold Merging.push
  split
  · next absent => simp [absent, held]
  · next last rest present =>
    rw [present]
    simp only [held, List.flatMap_cons]
    exact ((collapse_perm _ _ _ _).append_left run).trans List.perm_append_comm

theorem finish_perm (patience : Nat) (last : Pending α Item) (pending : List (Pending α Item)) :
    (finish patience last pending).Perm (last.items ++ held pending) := by
  fun_induction finish patience last pending with
  | case1 => simp [held]
  | case2 patience last previous =>
    simpa [held] using (join_perm patience previous last).trans List.perm_append_comm
  | case3 patience last previous earlier rest _ joined _ join ih =>
    refine ih.trans (List.Perm.append_left _ ?_)
    have perm := join_perm patience earlier previous
    rw [join] at perm
    simp only [held, List.flatMap_cons]
    rw [← List.append_assoc]
    exact (perm.trans List.perm_append_comm).append_right _
  | case4 patience last previous earlier rest _ joined _ join ih =>
    refine ih.trans ?_
    have perm := join_perm patience previous last
    rw [join] at perm
    simp only [held, List.flatMap_cons]
    rw [← List.append_assoc last.items]
    exact (perm.trans List.perm_append_comm).append_right _

theorem gather_perm (count runs : Nat) (items : List (α × Item)) (merging : Merging α Item)
    (enough : items.length ≤ runs) :
    (held (gather count runs items merging).pending).Perm (held merging.pending ++ items) := by
  induction runs generalizing items merging with
  | zero =>
    obtain rfl := List.length_eq_zero_iff.mp (Nat.le_zero.mp enough)
    simp [gather]
  | succ runs ih =>
    cases items with
    | nil => simp [gather]
    | cons entry items =>
      have shorter := nextRun_rest_length (leastRun count) entry items
      rw [List.length_cons] at enough
      refine (ih _ _ (Nat.le_trans shorter (Nat.le_of_succ_le_succ enough))).trans
        (((push_perm _ _ _).append_right _).trans ?_)
      rw [List.append_assoc]
      exact (nextRun_perm _ _).append_left _

theorem risingRuns_perm (items : List (α × Item)) : (risingRuns items).Perm items := by
  have gathered := gather_perm items.length items.length items {} (Nat.le_refl _)
  unfold risingRuns
  dsimp only
  split
  · next absent => simpa [absent, held] using gathered
  · next last rest present =>
    rw [present] at gathered
    exact (finish_perm _ _ _).trans (by simpa [held] using gathered)

theorem descending_perm (items : List (α × Item)) : (descending items).Perm items := by
  unfold descending
  split
  · exact List.mergeSort_perm _ _
  · exact (List.reverse_perm _).trans ((risingRuns_perm _).trans (List.reverse_perm _))

end Fleet.Plan.Order
