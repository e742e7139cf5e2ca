import Fleet.Proofs.Plan.Advice
import Fleet.Proofs.Plan.Exploration
import Fleet.Proofs.Plan.Rounds

/-! The loops of a cycle, told without a count.

A cycle allows each of its loops a number of turns. Here a loop goes on for as long as its own
condition says, and every cycle turns out to do what such loops do: no loop ends for want of turns,
also where VMs share an id and where numbers are beyond all bounds. A fault breaks a loop off in the
middle of a turn.
-/

set_option autoImplicit false

namespace Fleet.Plan

open Step

variable {α State : Type}

namespace Planner

variable (planner : Planner α State)

/-! Evictions -/

/-- Asks which VM is to leave the host. -/
def nominate (machine : Machine α) : Step α State (Option (Vm α)) := do
  ask (planner.advisors.victim? (← look machine))

def evict (machine : Machine α) (vm : Vm α) : Step α State Bool := do
  release machine.id vm
  ask (planner.advisors.staysOverloaded (← look machine))

theorem relieve_succ (machine : Machine α) (rounds : Nat) :
    planner.relieve machine (rounds + 1) = (do
      match ← planner.nominate machine with
      | none => pure []
      | some vm =>
          if ← planner.evict machine vm then
            let others ← planner.relieve machine rounds
            pure (vm :: others)
          else pure [vm]) := by
  rw [relieve, nominate, bind_assoc]
  rfl

/-- One VM after the other leaves the host, until there is none to leave it or enough have left. -/
inductive Relieves (machine : Machine α) :
    Progress α State → List (Vm α) → Except (Fault α) Unit × Progress α State → Prop
  | unasked {now last : Progress α State} {fault : Fault α} :
      (planner.nominate machine).run.run now = (.error fault, last) →
      Relieves machine now [] (.error fault, last)
  | spent {now last : Progress α State} :
      (planner.nominate machine).run.run now = (.ok none, last) →
      Relieves machine now [] (.ok (), last)
  | unjudged {now asked last : Progress α State} {vm : Vm α} {fault : Fault α} :
      (planner.nominate machine).run.run now = (.ok (some vm), asked) →
      (planner.evict machine vm).run.run asked = (.error fault, last) →
      Relieves machine now [vm] (.error fault, last)
  | relieved {now asked last : Progress α State} {vm : Vm α} :
      (planner.nominate machine).run.run now = (.ok (some vm), asked) →
      (planner.evict machine vm).run.run asked = (.ok false, last) →
      Relieves machine now [vm] (.ok (), last)
  | next {now asked later : Progress α State} {vm : Vm α} {vms : List (Vm α)}
      {outcome : Except (Fault α) Unit × Progress α State} :
      (planner.nominate machine).run.run now = (.ok (some vm), asked) →
      (planner.evict machine vm).run.run asked = (.ok true, later) →
      Relieves machine later vms outcome →
      Relieves machine now (vm :: vms) outcome

inductive Selects : List (Machine α) → Progress α State → List (Vm α × String) →
    Except (Fault α) Unit × Progress α State → Prop
  | done {now : Progress α State} : Selects [] now [] (.ok (), now)
  | broken {machine : Machine α} {rest : List (Machine α)} {now last : Progress α State}
      {vms : List (Vm α)} {fault : Fault α} :
      planner.Relieves machine now vms (.error fault, last) →
      Selects (machine :: rest) now (vms.map (·, machine.id)) (.error fault, last)
  | next {machine : Machine α} {rest : List (Machine α)} {now later : Progress α State}
      {vms : List (Vm α)} {evicted : List (Vm α × String)}
      {outcome : Except (Fault α) Unit × Progress α State} :
      planner.Relieves machine now vms (.ok (), later) → Selects rest later evicted outcome →
      Selects (machine :: rest) now (vms.map (·, machine.id) ++ evicted) outcome

variable {planner} {now : Progress α State} {machine : Machine α}

theorem ends_nominate [Scalar α] (reliable : planner.advisors.Reliable) :
    (planner.nominate machine).Ends now
      (fun found later => later.occupancy = now.occupancy ∧
        ∀ vm, found = some vm → vm ∈ now.occupancy.residents machine.id)
      (fun _ later => later.occupancy = now.occupancy) := by
  rw [nominate, ends_bind, ends_look, ends_ask]
  refine ⟨fun found advisors answered => ⟨rfl, fun vm same => ?_⟩, fun _ _ _ => rfl⟩
  exact (reliable.victim (same ▸ answered)).1

theorem ends_evict (vm : Vm α) :
    (planner.evict machine vm).Ends now
      (fun _ later => later.occupancy = now.occupancy.release machine.id vm)
      (fun _ later => later.occupancy = now.occupancy.release machine.id vm) := by
  rw [evict, ends_bind, ends_release, ends_bind, ends_look, ends_ask]
  exact ⟨fun _ _ _ => rfl, fun _ _ _ => rfl⟩

theorem evict_shrinks {asked later : Progress α State} {vm : Vm α} [Scalar α]
    (reliable : planner.advisors.Reliable) {result : Except (Fault α) Bool}
    (nominated : (planner.nominate machine).run.run now = (.ok (some vm), asked))
    (evicted : (planner.evict machine vm).run.run asked = (result, later)) :
    (later.occupancy.residents machine.id).length < (now.occupancy.residents machine.id).length ∧
      ∀ id, (later.occupancy.residents id).Sublist (now.occupancy.residents id) := by
  obtain ⟨same, resident⟩ := (ends_nominate reliable).of_ok nominated
  have left : later.occupancy = now.occupancy.release machine.id vm := by
    rw [← same]
    cases result with
    | error fault => exact (ends_evict vm).of_error evicted
    | ok stays => exact (ends_evict vm).of_ok evicted
  refine ⟨?_, fun id => left ▸ now.occupancy.residents_release_sublist machine.id vm id⟩
  rw [left, Occupancy.residents_release, if_pos rfl, List.length_filter_lt_length_iff_exists]
  exact ⟨vm, resident vm rfl, by simp⟩

theorem exists_relieves [Scalar α] (reliable : planner.advisors.Reliable) (machine : Machine α)
    (now : Progress α State) :
    ∃ vms ended last, planner.Relieves machine now vms (ended, last) := by
  induction left : (now.occupancy.residents machine.id).length using Nat.strongRecOn
    generalizing now with
  | ind left ih =>
    rcases nominated : (planner.nominate machine).run.run now with ⟨fault | _ | vm, asked⟩
    · exact ⟨_, _, _, .unasked nominated⟩
    · exact ⟨_, _, _, .spent nominated⟩
    · rcases evicted : (planner.evict machine vm).run.run asked with ⟨fault | _ | _, later⟩
      · exact ⟨_, _, _, .unjudged nominated evicted⟩
      · exact ⟨_, _, _, .relieved nominated evicted⟩
      · have fewer := (evict_shrinks reliable nominated evicted).1
        obtain ⟨_, _, _, relieves⟩ := ih _ (left ▸ fewer) later rfl
        exact ⟨_, _, _, .next nominated evicted relieves⟩

theorem Relieves.run_eq [Scalar α] (reliable : planner.advisors.Reliable) {vms : List (Vm α)}
    {outcome : Except (Fault α) Unit × Progress α State} {rounds : Nat}
    (relieves : planner.Relieves machine now vms outcome)
    (enough : (now.occupancy.residents machine.id).length ≤ rounds) :
    (planner.relieve machine (rounds + 1)).run.run now =
      (outcome.1.map fun _ => vms, outcome.2) := by
  induction relieves generalizing rounds with
  | unasked nominated | spent nominated =>
    rw [relieve_succ, Attempt.run_bind, nominated]
    rfl
  | unjudged nominated evicted | relieved nominated evicted =>
    rw [relieve_succ, Attempt.run_bind, nominated]
    dsimp only
    rw [Attempt.run_bind, evicted]
    rfl
  | @next _ _ _ _ _ outcome nominated evicted _ ih =>
    have fewer := (evict_shrinks reliable nominated evicted).1
    obtain ⟨rounds, rfl⟩ := Nat.exists_eq_add_one_of_ne_zero (by omega : rounds ≠ 0)
    rw [relieve_succ, Attempt.run_bind, nominated]
    dsimp only
    rw [Attempt.run_bind, evicted]
    dsimp only
    rw [if_pos rfl, run_made, ih (by omega)]
    cases outcome with
    | mk ended last => cases ended <;> rfl

theorem run_selectVictims_cons (rest : List (Machine α)) :
    (planner.selectVictims (machine :: rest)).run.run now =
      (planner.relieve machine ((now.occupancy.residents machine.id).length + 1) >>= fun vms =>
        planner.selectVictims rest >>= fun others =>
          pure (vms.map (·, machine.id) ++ others)).run.run now := rfl

theorem exists_selects [Scalar α] (reliable : planner.advisors.Reliable)
    (machines : List (Machine α)) (now : Progress α State) :
    ∃ evicted ended last, planner.Selects machines now evicted (ended, last) := by
  induction machines generalizing now with
  | nil => exact ⟨_, _, _, .done⟩
  | cons machine rest ih =>
    obtain ⟨vms, ended, later, relieves⟩ := exists_relieves reliable machine now
    cases ended with
    | error fault => exact ⟨_, _, _, .broken relieves⟩
    | ok =>
      obtain ⟨_, _, _, selects⟩ := ih later
      exact ⟨_, _, _, .next relieves selects⟩

theorem Selects.run_eq [Scalar α] (reliable : planner.advisors.Reliable)
    {machines : List (Machine α)} {evicted : List (Vm α × String)}
    {outcome : Except (Fault α) Unit × Progress α State}
    (selects : planner.Selects machines now evicted outcome) :
    (planner.selectVictims machines).run.run now =
      (outcome.1.map fun _ => evicted, outcome.2) := by
  induction selects with
  | done => rfl
  | broken relieves =>
    rw [run_selectVictims_cons, Attempt.run_bind, relieves.run_eq reliable (Nat.le_refl _)]
    rfl
  | @next _ _ _ _ _ _ outcome relieves _ ih =>
    rw [run_selectVictims_cons, Attempt.run_bind, relieves.run_eq reliable (Nat.le_refl _)]
    dsimp only [Except.map]
    rw [run_made, ih]
    cases outcome with
    | mk ended last => cases ended <;> rfl

/-! Phases -/

section

variable [Scalar α] (planner)

def detection (tick : Tick α) : Step α State (List (Machine α)) := do
  enter .detectOverloaded
  let overloaded ← planner.detect tick
  clock fun timings => { timings with hostSelection := timings.hostSelection + 1 }
  enter .selectVictims
  pure overloaded

def survey (overloaded : List (Machine α)) (evicted : List (Vm α × String)) :
    Step α State (List Move × List (Machine α)) := do
  let placed ← planner.placement overloaded evicted
  let off ← sieve isSwitchedOff planner.machines
  pure (placed, off)

theorem explore_phases (tick : Tick α) :
    planner.explore tick = (do
      let overloaded ← planner.detection tick
      let evicted ← planner.selectVictims overloaded
      let (placed, off) ← planner.survey overloaded evicted
      let ids := overloaded.map (·.id)
      let drained ← planner.consolidate planner.machines.length (settledFirst ids off placed)
        (closedFirst ids off)
      pure ⟨placed ++ drained, ids, evicted.map (·.1.id)⟩) := by
  simp only [explore, detection, survey, placement, drainUnderloaded, bind_assoc, pure_bind]
  rfl

end

structure Work (α : Type) where
  overloaded : List (Machine α)
  evicted : List (Vm α × String)
  attempted : List (Machine α)

/-- A cycle up to its commit, phase by phase, to its end or to a fault. -/
inductive Explores [Scalar α] (planner : Planner α State) (tick : Tick α) (start : Progress α State) :
    Work α → Except (Fault α) Findings × Progress α State → Prop
  | undetected {last : Progress α State} {fault : Fault α} :
      (planner.detection tick).run.run start = (.error fault, last) →
      Explores planner tick start ⟨[], [], []⟩ (.error fault, last)
  | unselected {overloaded : List (Machine α)} {evicted : List (Vm α × String)}
      {detected last : Progress α State} {fault : Fault α} :
      (planner.detection tick).run.run start = (.ok overloaded, detected) →
      planner.Selects overloaded detected evicted (.error fault, last) →
      Explores planner tick start ⟨overloaded, evicted, []⟩ (.error fault, last)
  | unplaced {overloaded : List (Machine α)} {evicted : List (Vm α × String)}
      {detected selected last : Progress α State} {fault : Fault α} :
      (planner.detection tick).run.run start = (.ok overloaded, detected) →
      planner.Selects overloaded detected evicted (.ok (), selected) →
      (planner.survey overloaded evicted).run.run selected = (.error fault, last) →
      Explores planner tick start ⟨overloaded, evicted, []⟩ (.error fault, last)
  | consolidated {overloaded off attempted : List (Machine α)} {evicted : List (Vm α × String)}
      {placed : List Move} {detected selected surveyed last : Progress α State}
      {ended : Except (Fault α) (List Move)} :
      (planner.detection tick).run.run start = (.ok overloaded, detected) →
      planner.Selects overloaded detected evicted (.ok (), selected) →
      (planner.survey overloaded evicted).run.run selected = (.ok (placed, off), surveyed) →
      planner.Consolidates (settledFirst (overloaded.map (·.id)) off placed)
        (closedFirst (overloaded.map (·.id)) off) surveyed attempted (ended, last) →
      Explores planner tick start ⟨overloaded, evicted, attempted⟩
        (ended.map fun drained =>
          ⟨placed ++ drained, overloaded.map (·.id), evicted.map (·.1.id)⟩, last)

theorem exists_explores [Scalar α] {planner : Planner α State}
    (reliable : planner.advisors.Reliable) (tick : Tick α) (start : Progress α State) :
    ∃ work outcome, planner.Explores tick start work outcome := by
  rcases detects : (planner.detection tick).run.run start with ⟨fault | overloaded, detected⟩
  · exact ⟨_, _, .undetected detects⟩
  obtain ⟨evicted, ended, selected, selects⟩ := exists_selects reliable overloaded detected
  cases ended with
  | error fault => exact ⟨_, _, .unselected detects selects⟩
  | ok =>
    rcases surveys : (planner.survey overloaded evicted).run.run selected with
      ⟨fault | ⟨placed, off⟩, surveyed⟩
    · exact ⟨_, _, .unplaced detects selects surveys⟩
    · obtain ⟨_, _, _, consolidates⟩ := exists_consolidates planner
        (settledFirst (overloaded.map (·.id)) off placed)
        (closedFirst (overloaded.map (·.id)) off) surveyed
      exact ⟨_, _, .consolidated detects selects surveys consolidates⟩

theorem Explores.run_eq [Scalar α] {planner : Planner α State}
    (reliable : planner.advisors.Reliable) {tick : Tick α} {start : Progress α State} {work : Work α}
    {outcome : Except (Fault α) Findings × Progress α State}
    (explores : planner.Explores tick start work outcome) :
    (planner.explore tick).run.run start = outcome := by
  rw [explore_phases, Attempt.run_bind]
  cases explores with
  | undetected detects => rw [detects]
  | unselected detects selects =>
    rw [detects]
    dsimp only
    rw [Attempt.run_bind, selects.run_eq reliable]
    rfl
  | unplaced detects selects surveys =>
    rw [detects]
    dsimp only
    rw [Attempt.run_bind, selects.run_eq reliable]
    dsimp only [Except.map]
    rw [Attempt.run_bind, surveys]
  | consolidated detects selects surveys consolidates =>
    rw [detects]
    dsimp only
    rw [Attempt.run_bind, selects.run_eq reliable]
    dsimp only [Except.map]
    rw [Attempt.run_bind, surveys]
    dsimp only
    rw [run_made, consolidates.run_eq (Nat.le_add_left _ _)]
    rfl

end Planner

end Fleet.Plan
