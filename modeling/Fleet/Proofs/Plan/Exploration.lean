import Fleet.Proofs.Plan.Round

/-! The tentative phases of a cycle as a whole, whether they come to an end or break off. -/

set_option autoImplicit false

namespace Fleet.Plan.Planner

open Step

variable {α State : Type} {cluster : Cluster α} {overloaded : List String} {selected : Occupancy α}

variable [Scalar α] {planner : Planner α State} {progress : Progress α State}

def selection (planner : Planner α State) (tick : Tick α) :
    Step α State (List (Machine α) × List (Vm α × String)) := do
  enter .detectOverloaded
  let overloaded ← planner.detect tick
  clock fun timings => { timings with hostSelection := timings.hostSelection + 1 }
  enter .selectVictims
  let evicted ← planner.selectVictims overloaded
  pure (overloaded, evicted)

def relocation (planner : Planner α State) (overloaded : List (Machine α))
    (evicted : List (Vm α × String)) : Step α State Findings := do
  clock fun timings => { timings with vmSelection := timings.vmSelection + 1 }
  enter .placeVictims
  let ids := overloaded.map (·.id)
  let placed ← planner.placeVictims ids (← byDemand (·.1) evicted)
  clock fun timings => { timings with reallocation := timings.reallocation + 1 }
  let drained ← planner.drainUnderloaded ids placed
  pure { moves := placed ++ drained, overloaded := ids, evicted := evicted.map (·.1.id) }

def placement (planner : Planner α State) (overloaded : List (Machine α))
    (evicted : List (Vm α × String)) : Step α State (List Move) := do
  clock fun timings => { timings with vmSelection := timings.vmSelection + 1 }
  enter .placeVictims
  let placed ← planner.placeVictims (overloaded.map (·.id)) (← byDemand (·.1) evicted)
  clock fun timings => { timings with reallocation := timings.reallocation + 1 }
  pure placed

theorem relocation_eq (planner : Planner α State) (overloaded : List (Machine α))
    (evicted : List (Vm α × String)) : planner.relocation overloaded evicted =
      planner.placement overloaded evicted >>= fun placed =>
        planner.drainUnderloaded (overloaded.map (·.id)) placed >>= fun drained =>
          pure ⟨placed ++ drained, overloaded.map (·.id), evicted.map (·.1.id)⟩ := by
  simp only [relocation, placement, bind_assoc, pure_bind]

theorem explore_eq (planner : Planner α State) (tick : Tick α) :
    planner.explore tick = planner.selection tick >>= fun (overloaded, evicted) =>
      planner.relocation overloaded evicted := by
  simp only [explore, selection, relocation, bind_assoc, pure_bind]

def afterSelection (planner : Planner α State) (tick : Tick α) (progress : Progress α State) :
    Occupancy α :=
  ((planner.selection tick).run.run progress).2.occupancy

/-- The occupancy when the tentative phases are over, or have broken off. -/
def afterExploration (planner : Planner α State) (tick : Tick α) (progress : Progress α State) :
    Occupancy α :=
  ((planner.explore tick).run.run progress).2.occupancy

def closedFirst (overloaded : List String) (off : List (Machine α)) : List String :=
  addAll (off.map (·.id)) (addAll overloaded [])

def settledFirst (overloaded : List String) (off : List (Machine α)) (placed : List Move) :
    List String :=
  addAll (placed.map (·.destination)) (closedFirst overloaded off)

theorem Standing.first {placed : List Move} {now : Occupancy α}
    (sheltered : Sheltered cluster overloaded selected now)
    (rehearsed : Rehearsed cluster overloaded placed now) (off : List (Machine α)) :
    Standing cluster overloaded overloaded (closedFirst overloaded off)
      (settledFirst overloaded off placed) selected placed now where
  ledger :=
    { overloaded := List.Subset.refl _
      loose := fun _ inside => mem_addAll.mpr (.inr (mem_addAll.mpr (.inl inside)))
      closed := fun _ inside => mem_addAll.mpr (.inr inside)
      received := fun _ moveMem => mem_addAll.mpr (.inl (List.mem_map_of_mem moveMem)) }
  sheltered := sheltered
  rehearsed := rehearsed

variable (reliable : planner.advisors.Reliable) (distinct : cluster.DistinctVms)
  (same : planner.machines = cluster.machines)
include reliable distinct same

theorem consolidate_ships (attempts : Nat) {settled closed loose : List String} {moves : List Move}
    (standing : Standing cluster overloaded loose closed settled selected moves
      progress.occupancy) :
    (planner.consolidate attempts settled closed).Ends progress
      (fun more later => Sheltered cluster overloaded selected later.occupancy ∧
        ∃ loose, Rehearsed cluster loose (moves ++ more) later.occupancy)
      (fun _ later => Sheltered cluster overloaded selected later.occupancy) := by
  induction attempts generalizing settled closed loose moves progress with
  | zero => exact ⟨standing.sheltered, loose, by simpa using standing.rehearsed⟩
  | succ attempts ih =>
    rw [consolidate_succ]
    split
    case isFalse => exact ⟨standing.sheltered, loose, by simpa using standing.rehearsed⟩
    refine Ends.bind (round_ships reliable distinct same standing) ?_
    rintro (_ | attempt) later ended
    · rw [ends_pure, show later.occupancy = progress.occupancy from ended]
      exact ⟨standing.sheltered, loose, by simpa using standing.rehearsed⟩
    · refine Ends.bind (ih ended.2.2) ?_
      rintro more last ⟨kept, loose, rehearsed⟩
      exact ⟨kept, loose, by simpa using rehearsed⟩

theorem drainUnderloaded_ships {placed : List Move}
    (sheltered : Sheltered cluster overloaded selected progress.occupancy)
    (rehearsed : Rehearsed cluster overloaded placed progress.occupancy) :
    (planner.drainUnderloaded overloaded placed).Ends progress
      (fun more later => Sheltered cluster overloaded selected later.occupancy ∧
        ∃ loose, Rehearsed cluster loose (placed ++ more) later.occupancy)
      (fun _ later => Sheltered cluster overloaded selected later.occupancy) := by
  rw [drainUnderloaded, ends_bind]
  refine ends_switchedOff (fun _ => ?_) fun _ => sheltered
  exact consolidate_ships reliable distinct same _ (Standing.first sheltered rehearsed _)

theorem selection_evicts (tick : Tick α) (start : progress.occupancy = cluster.occupancy) :
    (planner.selection tick).Ends progress
      (fun (overloaded, evicted) later => Evicted cluster evicted later.occupancy ∧
        (∀ pair ∈ evicted, pair.2 ∈ overloaded.map (·.id)) ∧ overloaded.Sublist planner.machines)
      (fun _ later => ∃ left, Evicted cluster left later.occupancy) := by
  rw [selection, ends_bind, ends_enter, ends_bind]
  refine ends_detect (fun overloaded advisors sublist => ?_)
    fun _ _ => ⟨[], start ▸ Evicted.nil distinct⟩
  rw [ends_bind, ends_clock, ends_bind, ends_enter]
  refine Ends.bind (selectVictims_evicts reliable distinct (same ▸ sublist.subset)
    (start ▸ Evicted.nil distinct)) ?_
  rintro evicted later ⟨left, origins⟩
  exact ⟨left, origins, sublist⟩

theorem placement_ships {machines : List (Machine α)} {evicted : List (Vm α × String)}
    (left : Evicted cluster evicted progress.occupancy)
    (origins : ∀ pair ∈ evicted, pair.2 ∈ machines.map (·.id)) :
    (planner.placement machines evicted).Ends progress
      (fun placed later =>
        Sheltered cluster (machines.map (·.id)) progress.occupancy later.occupancy ∧
          Rehearsed cluster (machines.map (·.id)) placed later.occupancy)
      (fun _ later =>
        Sheltered cluster (machines.map (·.id)) progress.occupancy later.occupancy) := by
  have sheltered := left.sheltered distinct origins
  rw [placement, ends_bind, ends_clock, ends_bind, ends_enter, ends_bind]
  refine ends_byDemand (fun ordered order => ?_) fun _ => sheltered
  have evictedIds : (ordered.map (·.1)).Perm (evicted.map (·.1)) := order.map _
  have calm : ∀ machine ∈ cluster.machines, machine.id ∉ machines.map (·.id) →
      progress.occupancy.residents machine.id = cluster.occupancy.residents machine.id :=
    fun machine member outside => left.residents_eq distinct member fun pair pairMem here =>
      outside (here ▸ origins pair pairMem)
  refine Ends.bind (placeVictims_places reliable distinct same sheltered (.nil calm)
    (left.adrift.of_perm evictedIds) (fun pair pairMem => ?_) fun _ _ => List.not_mem_nil) ?_
  · have pairMem := order.subset pairMem
    exact ⟨left.origin pair pairMem, origins pair pairMem⟩
  · exact fun _ _ ends => ends

theorem relocation_ships {machines : List (Machine α)} {evicted : List (Vm α × String)}
    (left : Evicted cluster evicted progress.occupancy)
    (origins : ∀ pair ∈ evicted, pair.2 ∈ machines.map (·.id)) :
    (planner.relocation machines evicted).Ends progress
      (fun findings later =>
        Sheltered cluster (machines.map (·.id)) progress.occupancy later.occupancy ∧
          ∃ loose, Rehearsed cluster loose findings.moves later.occupancy)
      (fun _ later =>
        Sheltered cluster (machines.map (·.id)) progress.occupancy later.occupancy) := by
  rw [relocation_eq]
  refine Ends.bind (placement_ships reliable distinct same left origins) ?_
  rintro placed later ⟨kept, rehearsed⟩
  rw [ends_bind]
  exact drainUnderloaded_ships reliable distinct same kept rehearsed

/-- However a cycle's exploration ends, no VM is lost track of, and those that were migrating in are
where selection left them. If it does not break off, its moves can be replayed. -/
theorem explore_ends (tick : Tick α) (start : progress.occupancy = cluster.occupancy) :
    (planner.explore tick).Ends progress
      (fun findings later =>
        Retained cluster (planner.afterSelection tick progress) later.occupancy ∧
          ∃ loose, Rehearsed cluster loose findings.moves later.occupancy)
      (fun _ later => Retained cluster (planner.afterSelection tick progress) later.occupancy) := by
  have selecting := selection_evicts reliable distinct same tick start
  unfold Ends at selecting ⊢
  rw [explore_eq, Attempt.run_bind]
  have stopped : planner.afterSelection tick progress =
    ((planner.selection tick).run.run progress).2.occupancy := rfl
  -- if selection breaks off, so does the cycle, in the very state in which selection stopped
  rcases run : (planner.selection tick).run.run progress with ⟨fault | ⟨overloaded, evicted⟩, later⟩
  · rw [run] at selecting stopped
    rw [stopped]
    obtain ⟨_, left⟩ := selecting
    exact ⟨left.tracked, fun _ _ _ _ _ => Iff.rfl, left.unmarked⟩
  · rw [run] at selecting stopped
    rw [stopped]
    obtain ⟨left, origins, _⟩ := selecting
    have initially := left.sheltered distinct origins
    exact (relocation_ships reliable distinct same left origins).mono
      (fun findings last ends => ⟨ends.1.retained initially, ends.2⟩)
      fun _ last kept => kept.retained initially

end Fleet.Plan.Planner
