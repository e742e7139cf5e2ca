import Fleet.Plan.Order

/-! The place of an item depends on the numbers alone, and not on what the items are. -/

set_option autoImplicit false

namespace Fleet.Plan.Order

variable {α Item Other : Type} [Scalar α] (other : Item → Other)

/-! Runs -/

theorem fallingLength_map (items : List (α × Item)) :
    fallingLength (items.map (Prod.map id other)) = fallingLength items := by
  fun_induction fallingLength items with
  | case1 first second rest falls ih => simpa [fallingLength, falls] using ih
  | case2 first second rest rises => simp [fallingLength, rises]
  | case3 items short =>
    match items, short with
    | [], _ => rfl
    | [_], _ => rfl
    | first :: second :: rest, short => exact absurd rfl (short first second rest)

theorem risingLength_map (items : List (α × Item)) :
    risingLength (items.map (Prod.map id other)) = risingLength items := by
  fun_induction risingLength items with
  | case1 first second rest falls => simp [risingLength, falls]
  | case2 first second rest rises ih => simpa [risingLength, rises] using ih
  | case3 items short =>
    match items, short with
    | [], _ => rfl
    | [_], _ => rfl
    | first :: second :: rest, short => exact absurd rfl (short first second rest)

theorem splitRun_map (items : List (α × Item)) :
    splitRun (items.map (Prod.map id other)) =
      Prod.map (List.map (Prod.map id other)) (List.map (Prod.map id other)) (splitRun items) := by
  unfold splitRun
  rw [fallingLength_map, risingLength_map]
  split <;> simp [List.map_take, List.map_drop]

theorem bisect_map (sorted : Array (α × Item)) (number : α) (low high : Nat) :
    bisect (sorted.map (Prod.map id other)) number low high = bisect sorted number low high := by
  fun_induction bisect sorted number low high with
  | case1 low high room middle absent =>
    rw [bisect, if_pos room]
    simp [middle, absent]
  | case2 low high room middle entry present below ih =>
    rw [bisect, if_pos room]
    simpa [middle, present, below] using ih
  | case3 low high room middle entry present notBelow ih =>
    rw [bisect, if_pos room]
    simpa [middle, present, notBelow] using ih
  | case4 low high full => rw [bisect, if_neg full]

theorem insert_map (sorted : List (α × Item)) (entry : α × Item) :
    insert (sorted.map (Prod.map id other)) (Prod.map id other entry) =
      (insert sorted entry).map (Prod.map id other) := by
  have place := bisect_map other sorted.toArray entry.1 0 sorted.length
  simp only [List.map_toArray] at place
  simp [insert, place, List.map_take, List.map_drop]

theorem foldl_insert_map (items run : List (α × Item)) :
    (items.map (Prod.map id other)).foldl insert (run.map (Prod.map id other)) =
      (items.foldl insert run).map (Prod.map id other) := by
  induction items generalizing run with
  | nil => rfl
  | cons entry rest ih => rw [List.map_cons, List.foldl_cons, List.foldl_cons, insert_map, ih]

theorem nextRun_map (least : Nat) (items : List (α × Item)) :
    nextRun least (items.map (Prod.map id other)) =
      Prod.map (List.map (Prod.map id other)) (List.map (Prod.map id other))
        (nextRun least items) := by
  simp only [nextRun, splitRun_map, Prod.map_fst, Prod.map_snd, List.length_map, ← List.map_take,
    ← List.map_drop, foldl_insert_map]
  rfl

/-! Merges -/

theorem leap_map {Entry Relabelled : Type} (relabel : Entry → Relabelled)
    (holds : Relabelled → Bool) (backward : Bool) (items : List Entry) :
    leap holds backward (items.map relabel) =
      leap (fun entry => holds (relabel entry)) backward items := by
  have there (position : Nat) : ((items.map relabel).toArray[position]?).any holds =
      (items.toArray[position]?).any fun entry => holds (relabel entry) := by
    simp only [List.getElem?_toArray, List.getElem?_map, Option.any_map]
  unfold leap
  simp only [there, List.size_toArray, List.length_map]

theorem leapOver_map (backward : Bool) (side : Side) (short long : List (α × Item)) :
    leapOver backward side (short.map (Prod.map id other)) (long.map (Prod.map id other)) =
      leapOver backward side short long := by
  match side, short, long with
  | .short, items, [] => cases items <;> rfl
  | .short, items, head :: rest => exact leap_map _ _ _ items
  | .long, [], items => rfl
  | .long, head :: rest, items => exact leap_map _ _ _ items

theorem moveOne_map (backward : Bool) (shortMoves longMoves patience : Nat)
    (short long : List (α × Item)) :
    moveOne backward shortMoves longMoves patience (short.map (Prod.map id other))
        (long.map (Prod.map id other)) =
      moveOne backward shortMoves longMoves patience short long := by
  cases short <;> cases long <;> rfl

theorem decision_map (backward : Bool) (phase : Phase) (patience : Nat)
    (short long : List (α × Item)) :
    decision backward phase patience (short.map (Prod.map id other))
        (long.map (Prod.map id other)) = decision backward phase patience short long := by
  cases phase <;> simp only [decision, moveOne_map, leapOver_map]

theorem weave_map (backward : Bool) (moves : Nat) (phase : Phase) (patience : Nat)
    (short long : List (α × Item)) :
    weave backward moves phase patience (short.map (Prod.map id other))
        (long.map (Prod.map id other)) =
      Prod.map (List.map (Prod.map id other)) id (weave backward moves phase patience short long) := by
  induction moves generalizing phase patience short long with
  | zero => simp [weave]
  | succ moves ih =>
    unfold weave
    -- what to take and from which side is decided by the numbers
    rw [decision_map, List.length_map, List.isEmpty_map]
    split
    · simp
    · dsimp only
      split
      · simp only [← List.map_drop, ih, Prod.map_fst, Prod.map_snd, id, ← List.map_take,
          ← List.map_append, Prod.map_apply]
      · simp only [← List.map_drop, ih, Prod.map_fst, Prod.map_snd, id, ← List.map_take,
          ← List.map_append, Prod.map_apply]

theorem weaveAll_map (backward : Bool) (patience : Nat) (short long : List (α × Item)) :
    weaveAll backward patience (short.map (Prod.map id other)) (long.map (Prod.map id other)) =
      Prod.map (List.map (Prod.map id other)) id (weaveAll backward patience short long) := by
  simp only [weaveAll, List.length_map, ← List.map_drop, ← List.map_take, weave_map, Prod.map_fst,
    Prod.map_snd, ← List.map_append]
  rfl

theorem mergeRuns_map (patience : Nat) (first second : List (α × Item)) :
    mergeRuns patience (first.map (Prod.map id other)) (second.map (Prod.map id other)) =
      Prod.map (List.map (Prod.map id other)) id (mergeRuns patience first second) := by
  unfold mergeRuns
  rw [List.head?_map]
  cases second.head? with
  | none => rfl
  | some head =>
    simp only [Option.map_some, leap_map, Prod.map_fst, id, ← List.map_drop, List.getLast?_map]
    cases (first.drop (leap (fun entry => !decide (head.1 < entry.1)) false first)).getLast? with
    | none => simp
    | some last =>
      simp only [Option.map_some, Prod.map_fst, id, ← List.map_reverse, leap_map, List.length_map,
        ← List.map_take, List.isEmpty_map, weaveAll_map, Prod.map_snd]
      split
      · simp
      · split <;> simp

/-! The whole list -/

def Pending.relabel (pending : Pending α Item) : Pending α Other :=
  ⟨pending.start, pending.items.map (Prod.map id other), pending.power⟩

def Merging.relabel (merging : Merging α Item) : Merging α Other :=
  ⟨merging.pending.map (Pending.relabel other), merging.patience⟩

omit [Scalar α] in
theorem length_relabel (pending : Pending α Item) :
    (pending.relabel other).items.length = pending.items.length := List.length_map _

theorem join_map (patience : Nat) (first second : Pending α Item) :
    (first.relabel other).join patience (second.relabel other) =
      Prod.map (Pending.relabel other) id (first.join patience second) := by
  simp only [Pending.join, Pending.relabel, mergeRuns_map]
  rfl

theorem collapse_map (power patience : Nat) (last : Pending α Item)
    (pending : List (Pending α Item)) :
    collapse power patience (last.relabel other) (pending.map (Pending.relabel other)) =
      (collapse power patience last pending).relabel other := by
  induction pending generalizing patience last with
  | nil => rfl
  | cons previous rest ih =>
    simp only [List.map_cons, collapse]
    change (if power < previous.power then _ else _) = _
    split
    · rw [join_map]
      exact ih _ _
    · rfl

theorem push_map (count : Nat) (merging : Merging α Item) (run : List (α × Item)) :
    (merging.relabel other).push count (run.map (Prod.map id other)) =
      (merging.push count run).relabel other := by
  obtain ⟨pending, patience⟩ := merging
  cases pending with
  | nil => rfl
  | cons last rest =>
    simp only [Merging.push, Merging.relabel, List.map_cons, Pending.relabel, List.length_map]
    have collapsed := collapse_map other
      (boundaryPower count last.start last.items.length run.length) patience last rest
    simp only [Pending.relabel] at collapsed
    rw [collapsed]
    rfl

theorem finish_map (patience : Nat) (last : Pending α Item) (pending : List (Pending α Item)) :
    finish patience (last.relabel other) (pending.map (Pending.relabel other)) =
      (finish patience last pending).map (Prod.map id other) := by
  fun_induction finish patience last pending with
  | case1 patience last => simp [finish, Pending.relabel]
  | case2 patience last previous =>
    simp only [List.map_cons, List.map_nil, finish, join_map]
    rfl
  | case3 patience last previous earlier rest shorter joined merged join ih =>
    rw [List.map_cons, List.map_cons, finish, length_relabel, length_relabel, if_pos shorter,
      join_map, join]
    exact ih
  | case4 patience last previous earlier rest notShorter joined merged join ih =>
    rw [List.map_cons, List.map_cons, finish, length_relabel, length_relabel, if_neg notShorter,
      join_map, join]
    exact ih

theorem gather_map (count runs : Nat) (items : List (α × Item)) (merging : Merging α Item) :
    gather count runs (items.map (Prod.map id other)) (merging.relabel other) =
      (gather count runs items merging).relabel other := by
  induction runs generalizing items merging with
  | zero => rfl
  | succ runs ih =>
    cases items with
    | nil => rfl
    | cons entry items =>
      have run := nextRun_map other (leastRun count) (entry :: items)
      simp only [List.map_cons] at run
      simp only [List.map_cons, gather, run, Prod.map_fst, Prod.map_snd, push_map]
      exact ih _ _

theorem risingRuns_map (items : List (α × Item)) :
    risingRuns (items.map (Prod.map id other)) = (risingRuns items).map (Prod.map id other) := by
  have gathered := gather_map other items.length items.length items {}
  unfold risingRuns
  rw [List.length_map]
  change (gather items.length items.length (items.map (Prod.map id other)) {} : Merging α Other) = _
    at gathered
  rw [gathered]
  dsimp only [Merging.relabel]
  cases (gather items.length items.length items {}).pending with
  | nil => rfl
  | cons last rest => exact finish_map other _ _ _

theorem descending_map (items : List (α × Item)) :
    descending (items.map (Prod.map id other)) = (descending items).map (Prod.map id other) := by
  unfold descending
  have numbers : (items.map (Prod.map id other)).all (fun item => decide (item.1 ≤ item.1)) =
      items.all fun item => decide (item.1 ≤ item.1) := by
    simp [Function.comp_def]
  rw [numbers]
  -- numbers are sorted; otherwise the list is merged run by run
  split
  · symm
    apply List.map_mergeSort
    exact fun _ _ _ _ => rfl
  · rw [← List.map_reverse, risingRuns_map, List.map_reverse]

end Fleet.Plan.Order
