import Fleet.Plan.Order.Run

/-! Merging two runs that follow one another.

Items move one by one until one of the runs has won several times in a row, and then by leaps over all
items that win at once. The merge begins at the end where the shorter of both runs lies; a backward
merge works on reversed runs.
-/

set_option autoImplicit false

namespace Fleet.Plan.Order

/-! Leaps -/

/-- Doubles the step as long as the items hold. The first item that does not hold lies after the
first of both positions, and not after the second. -/
def doubling (holds : Nat → Bool) (size last next : Nat) : Nat × Nat :=
  if next < size then
    if holds next then doubling holds size next (2 * next + 1) else (last, next)
  else (last, size)
termination_by size - next
decreasing_by omega

/-- Halves the gap between both positions; a backward search rounds the middle up. -/
def halving (holds : Nat → Bool) (backward : Bool) (low high : Nat) : Nat :=
  if low < high then
    let middle := if backward then high - 1 - (high - low) / 2 else low + (high - low) / 2
    if holds middle then halving holds backward (middle + 1) high
    else halving holds backward low middle
  else low
termination_by high - low
decreasing_by all_goals (split <;> omega)

def leap {Entry : Type} (holds : Entry → Bool) (backward : Bool) (items : List Entry) : Nat :=
  let array := items.toArray
  let holdsAt := fun position => array[position]?.any holds
  if holdsAt 0 then
    let (last, next) := doubling holdsAt array.size 0 1
    halving holdsAt backward (last + 1) next
  else 0

/-! Merges -/

inductive Side where
  | short
  | long
  deriving DecidableEq

def Side.other : Side → Side
  | short => long
  | long => short

inductive Phase where
  /-- Moves one item, after that many moves in a row from either run. -/
  | single (short long : Nat)
  /-- Begins a round of two leaps, each followed by the head of the other run. -/
  | firstLeap (again : Bool)
  | firstHead (leapt : Nat)
  | secondLeap (leapt : Nat)
  | secondHead (worthwhile : Bool)
  /-- Goes back to single moves. -/
  | slowDown

def worthwhileLeap : Nat := 7

/-- Move so many items of one run, and go on in a phase. Patience is the number of wins in a row after
which leaps begin. -/
structure Decision where
  side : Side
  count : Nat
  next : Phase
  patience : Nat

variable {α Item : Type} [Scalar α]

def longWins (backward : Bool) (long short : α × Item) : Bool :=
  if backward then decide (short.1 < long.1) else decide (long.1 < short.1)

def leader (backward : Bool) : Side := if backward then .long else .short

def leapOver (backward : Bool) (side : Side) (short long : List (α × Item)) : Nat :=
  match side, short, long with
  | .short, items, head :: _ => leap (fun item => !longWins backward head item) backward items
  | .long, head :: _, items => leap (fun item => longWins backward item head) backward items
  | _, _, _ => 0

def moveOne (backward : Bool) (shortMoves longMoves patience : Nat) (short long : List (α × Item)) :
    Decision :=
  let wins :=
    match short, long with
    | shortHead :: _, longHead :: _ => longWins backward longHead shortHead
    | _, _ => false
  let moves := (if wins then longMoves else shortMoves) + 1
  { side := if wins then .long else .short
    count := 1
    next :=
      if patience ≤ moves then .firstLeap false
      else if wins then .single 0 moves
      else .single moves 0
    patience }

def decision (backward : Bool) (phase : Phase) (patience : Nat) (short long : List (α × Item)) :
    Decision :=
  match phase with
  | .single shortMoves longMoves => moveOne backward shortMoves longMoves patience short long
  | .slowDown => moveOne backward 0 0 (patience + 1) short long
  | .firstLeap again =>
      let count := leapOver backward (leader backward) short long
      { side := leader backward
        count
        next := .firstHead count
        patience := if again ∧ 1 < patience then patience - 1 else patience }
  | .firstHead leapt =>
      { side := (leader backward).other, count := 1, next := .secondLeap leapt, patience }
  | .secondLeap leapt =>
      let count := leapOver backward (leader backward).other short long
      { side := (leader backward).other
        count
        next := .secondHead (worthwhileLeap ≤ max leapt count)
        patience }
  | .secondHead worthwhile =>
      { side := leader backward
        count := 1
        next := if worthwhile then .firstLeap true else .slowDown
        patience }

/-- Moves both runs, from the front, into one list. The last item of the short run moves after the
whole long run. -/
def weave (backward : Bool) :
    Nat → Phase → Nat → List (α × Item) → List (α × Item) → List (α × Item) × Nat
  | 0, _, patience, short, long => (long ++ short, patience)
  | moves + 1, phase, patience, short, long =>
      if short.length ≤ 1 ∨ long.isEmpty then (long ++ short, patience)
      else
        let decided := decision backward phase patience short long
        match decided.side with
        | .short =>
            let (others, patience) := weave backward moves decided.next decided.patience
              (short.drop decided.count) long
            (short.take decided.count ++ others, patience)
        | .long =>
            let (others, patience) := weave backward moves decided.next decided.patience
              short (long.drop decided.count)
            (long.take decided.count ++ others, patience)

/-- The head of the long run is known to move first. A round makes four moves for at least two items. -/
def weaveAll (backward : Bool) (patience : Nat) (short long : List (α × Item)) :
    List (α × Item) × Nat :=
  let (woven, patience) := weave backward (2 * (short.length + long.length) + 2) (.single 0 0)
    patience short (long.drop 1)
  (long.take 1 ++ woven, patience)

/-- Merges two runs, the first of which stands before the second. Items that already stand where they
belong, at the beginning of the first run and at the end of the second, stay there. -/
def mergeRuns (patience : Nat) (first second : List (α × Item)) : List (α × Item) × Nat :=
  match second.head? with
  | none => (first, patience)
  | some head =>
      let before := leap (fun item => !decide (head.1 < item.1)) false first
      let left := first.drop before
      match left.getLast? with
      | none => (first ++ second, patience)
      | some last =>
          let after := leap (fun item => !decide (item.1 < last.1)) true second.reverse
          let right := second.take (second.length - after)
          let (middle, patience) :=
            if right.isEmpty then (left, patience)
            else if left.length ≤ right.length then weaveAll false patience left right
            else
              let (woven, patience) := weaveAll true patience right.reverse left.reverse
              (woven.reverse, patience)
          (first.take before ++ (middle ++ second.drop (second.length - after)), patience)

/-! Nothing is lost or doubled -/

theorem weave_perm (backward : Bool) (moves : Nat) (phase : Phase) (patience : Nat)
    (short long : List (α × Item)) :
    (weave backward moves phase patience short long).1.Perm (long ++ short) := by
  induction moves generalizing phase patience short long with
  | zero => exact List.Perm.refl _
  | succ moves ih =>
    unfold weave
    split
    · exact List.Perm.refl _
    · dsimp only
      split
      · refine ((ih _ _ _ _).append_left _).trans ?_
        rw [← List.append_assoc]
        refine (List.perm_append_comm.append_right _).trans ?_
        rw [List.append_assoc, List.take_append_drop]
      · refine ((ih _ _ _ _).append_left _).trans ?_
        rw [← List.append_assoc, List.take_append_drop]

theorem weaveAll_perm (backward : Bool) (patience : Nat) (short long : List (α × Item)) :
    (weaveAll backward patience short long).1.Perm (long ++ short) := by
  unfold weaveAll
  refine ((weave_perm _ _ _ _ _ _).append_left _).trans ?_
  rw [← List.append_assoc, List.take_append_drop]

theorem mergeRuns_perm (patience : Nat) (first second : List (α × Item)) :
    (mergeRuns patience first second).1.Perm (first ++ second) := by
  unfold mergeRuns
  split
  · next absent =>
    rw [List.head?_eq_none_iff.mp absent, List.append_nil]
  · dsimp only
    split
    · exact List.Perm.refl _
    · next head _ _ last _ =>
      dsimp only
      generalize leap (fun item : α × Item => !decide (head.1 < item.1)) false first = before
      generalize second.length -
        leap (fun item : α × Item => !decide (item.1 < last.1)) true second.reverse = kept
      have middle : ∀ woven : List (α × Item), woven.Perm (first.drop before ++ second.take kept) →
          (first.take before ++ (woven ++ second.drop kept)).Perm (first ++ second) := by
        intro woven perm
        refine ((perm.append_right _).append_left _).trans ?_
        rw [List.append_assoc, List.take_append_drop, ← List.append_assoc, List.take_append_drop]
      split
      · next empty =>
        apply middle
        rw [List.isEmpty_iff.mp empty, List.append_nil]
      · split
        · exact middle _ ((weaveAll_perm _ _ _ _).trans List.perm_append_comm)
        · apply middle
          refine (List.reverse_perm _).trans ((weaveAll_perm _ _ _ _).trans ?_)
          exact (List.reverse_perm _).append (List.reverse_perm _)

end Fleet.Plan.Order
