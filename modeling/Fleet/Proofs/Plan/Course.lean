import Fleet.Proofs.Plan.Exploration
import Fleet.Proofs.Plan.Rounds

/-! A cycle that comes to an end, told phase by phase. -/

set_option autoImplicit false

namespace Fleet.Plan

open Step

variable {α State : Type} [Scalar α]

/-- What each phase decided, and what the cycle had changed by then: when victims had been selected,
when places had been found for them, and at the end. -/
structure Course (planner : Planner α State) (tick : Tick α) (start : Progress α State) where
  overloaded : List (Machine α)
  evicted : List (Vm α × String)
  selected : Progress α State
  selects : (planner.selection tick).run.run start = (.ok (overloaded, evicted), selected)
  placed : List Move
  midway : Progress α State
  places : (planner.placement overloaded evicted).run.run selected = (.ok placed, midway)
  off : List (Machine α)
  judges : (sieve Planner.isSwitchedOff planner.machines).run.run midway = (.ok off, midway)
  attempts : List (Attempt α State)
  last : Progress α State
  rounds : planner.Rounds (Planner.settledFirst (overloaded.map (·.id)) off placed)
    (Planner.closedFirst (overloaded.map (·.id)) off) midway attempts last

namespace Course

variable {planner : Planner α State} {tick : Tick α} {start : Progress α State}

/-- The moves of the drains that were carried through. -/
def drains (course : Course planner tick start) : List Move := course.attempts.flatMap (·.moves)

def findings (course : Course planner tick start) : Findings where
  moves := course.placed ++ course.drains
  overloaded := course.overloaded.map (·.id)
  evicted := course.evicted.map (·.1.id)

/-- The hosts that never receive a VM of a drain. -/
def closed (course : Course planner tick start) : List String :=
  Planner.closedFirst (course.overloaded.map (·.id)) course.off

/-- The hosts that are never drained. -/
def settled (course : Course planner tick start) : List String :=
  Planner.settledFirst (course.overloaded.map (·.id)) course.off course.placed

theorem mem_closed {course : Course planner tick start} {id : String} : id ∈ course.closed ↔
    id ∈ course.off.map (·.id) ∨ id ∈ course.overloaded.map (·.id) := by
  simp only [closed, Planner.closedFirst, Planner.mem_addAll, List.not_mem_nil, or_false]

theorem mem_settled {course : Course planner tick start} {id : String} :
    id ∈ course.settled ↔ id ∈ course.placed.map (·.destination) ∨ id ∈ course.closed :=
  Planner.mem_addAll

theorem exists_course {findings : Findings} {last : Progress α State}
    (run : (planner.explore tick).run.run start = (.ok findings, last)) :
    ∃ course : Course planner tick start, course.findings = findings ∧ course.last = last := by
  rw [Planner.explore_eq] at run
  obtain ⟨⟨overloaded, evicted⟩, selected, selects, run⟩ := of_run_bind run
  dsimp only at run
  rw [Planner.relocation_eq] at run
  obtain ⟨placed, midway, places, run⟩ := of_run_bind run
  obtain ⟨moves, _, drains, run⟩ := of_run_bind run
  cases run
  obtain ⟨off, judged, judges, consolidates⟩ := of_run_bind drains
  have looking : (sieve Planner.isSwitchedOff planner.machines : Step α State _).Keeps id :=
    Planner.keeps_sieve Planner.keeps_isSwitchedOff _
  obtain rfl : judged = midway := looking.of_run judges
  obtain ⟨attempts, rounds, rfl⟩ := Planner.consolidate_rounds (Nat.le_add_left _ _) consolidates
  exact ⟨⟨overloaded, evicted, selected, selects, placed, judged, places, off, judges, attempts, _,
    rounds⟩, rfl, rfl⟩

theorem off_eq (course : Course planner tick start) :
    course.off = (planner.machines.filter fun machine =>
      Planner.isIdle (course.midway.occupancy.host machine)) ∧
    ∀ machine ∈ planner.machines, ∃ utilization,
      (course.midway.occupancy.host machine).utilization = .ok utilization := by
  have judged : (sieve Planner.isSwitchedOff planner.machines).Ends course.midway
      (fun off _ => off = (planner.machines.filter fun machine =>
          Planner.isIdle (course.midway.occupancy.host machine)) ∧
        ∀ machine ∈ planner.machines, ∃ utilization,
          (course.midway.occupancy.host machine).utilization = .ok utilization)
      fun _ _ => True :=
    Planner.ends_switchedOff (fun known => ⟨rfl, known⟩) fun _ => trivial
  exact judged.of_ok course.judges

/-! What is written down of the drains -/

open Planner

omit [Scalar α] in
theorem keeps_selection {Shown : Type} {view : Progress α State → Shown} (aloof : Aloof view)
    (hidden : ∀ progress timings, view { progress with timings } = view progress)
    (planner : Planner α State) (tick : Tick α) : (planner.selection tick).Keeps view :=
  keeps_bind (aloof.enter _) fun _ => keeps_bind (keeps_detect aloof _ _) fun _ =>
    keeps_bind (keeps_modify fun _ => hidden _ _) fun _ => keeps_bind (aloof.enter _)
      fun _ => keeps_bind (keeps_selectVictims (aloof.discreet _) _) fun _ => keeps_pure _

theorem keeps_placement {Shown : Type} {view : Progress α State → Shown} (aloof : Aloof view)
    (hidden : ∀ progress timings, view { progress with timings } = view progress)
    (misses : ∀ progress misses, view { progress with misses } = view progress)
    (planner : Planner α State) (overloaded : List (Machine α)) (evicted : List (Vm α × String)) :
    (planner.placement overloaded evicted).Keeps view :=
  keeps_bind (keeps_modify fun _ => hidden _ _) fun _ => keeps_bind (aloof.enter _)
    fun _ => keeps_bind (keeps_byDemand _ _) fun _ =>
      keeps_bind (keeps_placeVictims (aloof.discreet _) misses _ _) fun _ =>
        keeps_bind (keeps_modify fun _ => hidden _ _) fun _ => keeps_pure _

theorem marks_midway (course : Course planner tick start) : marks course.midway = marks start := by
  have hidden : ∀ (progress : Progress α State) (timings : Timings),
      marks { progress with timings } = marks progress := fun _ _ => rfl
  have placement : (planner.placement course.overloaded course.evicted).Keeps marks :=
    keeps_placement aloof_marks hidden (fun _ _ => rfl) _ _ _
  have selection : (planner.selection tick).Keeps marks :=
    keeps_selection aloof_marks hidden planner tick
  rw [placement.of_run course.places, selection.of_run course.selects]

/-! What is known of a course in the end -/

/-- Moves lead away from loose hosts and never to one of them. Among the loose hosts are those that
were overloaded and those that were picked, and what became of these is written down. -/
structure Sound (course : Course planner tick start) (cluster : Cluster α) (loose : List String) :
    Prop where
  distinct : cluster.DistinctVms
  machines : planner.machines = cluster.machines
  listed : course.overloaded ⊆ cluster.machines
  standing : Standing cluster (course.overloaded.map (·.id)) (course.overloaded.map (·.id))
    course.closed course.settled course.selected.occupancy course.placed course.midway.occupancy
  tried : ∀ attempt ∈ course.attempts, Tried cluster course.closed attempt
  sheltered : Sheltered cluster (course.overloaded.map (·.id)) course.selected.occupancy
    course.last.occupancy
  rehearsed : Rehearsed cluster loose course.findings.moves course.last.occupancy
  overloaded : course.overloaded.map (·.id) ⊆ loose
  picked : ∀ attempt ∈ course.attempts, attempt.machine.id ∈ loose
  drained : course.last.drained =
    (course.attempts.filter (·.outcome.isSome)).map (·.machine.id)
  cancelled : course.last.cancelled =
    (course.attempts.filter (·.outcome.isNone)).map (·.machine.id)

theorem exists_sound (course : Course planner tick start) {cluster : Cluster α}
    (reliable : planner.advisors.Reliable) (distinct : cluster.DistinctVms)
    (same : planner.machines = cluster.machines) (begins : start.occupancy = cluster.occupancy)
    (unmarked : marks start = ([], [])) : ∃ loose, course.Sound cluster loose := by
  obtain ⟨evicted, origins, listed⟩ :=
    (selection_evicts reliable distinct same tick begins).of_ok course.selects
  obtain ⟨sheltered, rehearsed⟩ :=
    (placement_ships reliable distinct same evicted origins).of_ok course.places
  have standing := Standing.first sheltered rehearsed course.off
  obtain ⟨tried, loose, _, _, last, inside⟩ := course.rounds.ships reliable distinct same standing
  obtain ⟨picked, _⟩ := List.append_subset.mp inside
  obtain ⟨drained, cancelled⟩ := Prod.mk.inj (course.marks_midway.trans unmarked)
  have marked := course.rounds.marks_eq fun attempt attemptMem =>
    (tried attempt attemptMem).outcome_ne
  rw [drained, cancelled, List.nil_append, List.nil_append] at marked
  exact ⟨loose, distinct, same, same ▸ listed.subset, standing, tried, last.sheltered,
    last.rehearsed, last.ledger.overloaded,
    fun attempt attemptMem => picked (List.mem_map_of_mem attemptMem),
    congrArg Prod.fst marked, congrArg Prod.snd marked⟩

namespace Sound

variable {course : Course planner tick start} {cluster : Cluster α} {loose : List String}
  (sound : course.Sound cluster loose)
include sound

theorem marked :
    (course.attempts.map (·.machine.id)).Perm (course.last.drained ++ course.last.cancelled) := by
  rw [sound.drained, sound.cancelled, ← List.map_append]
  simpa using
    (List.filter_append_perm (·.outcome.isSome) course.attempts).symm.map (·.machine.id)

theorem sorted {Related : String → String → Prop}
    (attempts : course.attempts.Pairwise fun first second =>
      Related first.machine.id second.machine.id) :
    course.last.drained.Pairwise Related ∧ course.last.cancelled.Pairwise Related := by
  rw [sound.drained, sound.cancelled]
  exact ⟨List.pairwise_map.mpr (attempts.sublist List.filter_sublist),
    List.pairwise_map.mpr (attempts.sublist List.filter_sublist)⟩

end Sound

end Course

end Fleet.Plan
