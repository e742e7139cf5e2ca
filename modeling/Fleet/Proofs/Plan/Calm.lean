import Fleet.Proofs.Plan.Confined
import Fleet.Proofs.Renaming.Policy

/-! In the tentative phases of a cycle, no host refuses a VM.

A VM is only put where a search has just found room for it, or back on the host that it has left. So
a cycle that breaks off there does so with a fault of its advisors, or over a load that cannot be
computed.
-/

set_option autoImplicit false

namespace Fleet

variable {α : Type}

def Fault.Calm (fault : Fault α) : Prop := fault.kind ≠ .capacity

def CalmlyFails {Result : Type} (given : Except (Fault α) Result) : Prop :=
  ∀ fault, given = .error fault → fault.Calm

theorem Alike.calmlyFails {Result Renamed : Type} {rename : Result → Renamed}
    {first : Except (Fault α) Result} {second : Except (Fault α) Renamed}
    (alike : Alike Renaming.id rename first second) : CalmlyFails first := by
  intro fault failed
  cases alike with
  | ok _ => cases failed
  | error _ calm =>
    cases failed
    exact calm

theorem Host.refusal?_eq_none [Scalar α] {host : Host α} {vm : Vm α} {check : Bool}
    (free : host.holds vm.id = false) (roomy : check = true → host.fits vm = true) :
    host.refusal? vm check = none := by
  unfold refusal?
  rw [free, if_neg Bool.false_ne_true, if_neg fun both => ?_]
  obtain ⟨checked, misfit⟩ := Bool.and_eq_true_iff.mp both
  rw [roomy checked] at misfit
  cases misfit

theorem Host.fits_of_isSuitable [Scalar α] {host : Host α} {vm : Vm α}
    (suitable : host.isSuitable vm = .ok true) : host.fits vm = true := by
  unfold isSuitable at suitable
  split at suitable
  · next fits => exact fits
  · cases suitable

namespace Plan

variable {State Draws Mood Answer Other Item : Type}

/-! Advisors -/

def Ask.Gentle (question : Ask α State Answer) : Prop :=
  ∀ state fault later, question.run.run state = (.error fault, later) → fault.Calm

namespace Ask.Gentle

theorem pure (answer : Answer) : Gentle (pure answer : Ask α State Answer) := FailsOnly.pure answer

theorem bind {question : Ask α State Other} {next : Other → Ask α State Answer}
    (first : Gentle question) (second : ∀ answer, Gentle (next answer)) :
    Gentle (question >>= next) := FailsOnly.bind first second

theorem answer {given : Except (Fault α) Answer} (calm : CalmlyFails given) :
    Gentle (Policy.answer given : Ask α State Answer) := FailsOnly.answer calm

theorem guarded {question : Ask α State Answer} {strike : Mood → Option (Fault α) × Mood}
    (gentle : Gentle question)
    (strikes : ∀ mood fault, (strike mood).1 = some fault → fault.Calm) :
    Gentle (guarded strike question) := by
  rintro ⟨state, mood⟩ fault later run
  rcases stricken : strike mood with ⟨_ | struck, after⟩
  · simp only [Plan.guarded, ExceptT.run_mk, StateT.run, stricken] at run
    obtain ⟨failed, _⟩ := Prod.mk.inj run
    exact gentle state fault _ (Prod.ext failed rfl)
  · simp only [Plan.guarded, ExceptT.run_mk, StateT.run, stricken] at run
    cases run
    exact strikes mood fault (congrArg Prod.fst stricken)

end Ask.Gentle

structure Advisors.Gentle (advisors : Advisors α State) : Prop where
  isOverloaded : ∀ host tick, (advisors.isOverloaded host tick).Gentle
  staysOverloaded : ∀ host, (advisors.staysOverloaded host).Gentle
  victim : ∀ host, (advisors.victim? host).Gentle
  destination : ∀ vm hosts closed, (advisors.destination? vm hosts closed).Gentle

theorem Advisors.Gentle.disturbed {advisors : Advisors α State}
    {strike : Mood → Option (Fault α) × Mood} (gentle : advisors.Gentle)
    (strikes : ∀ mood fault, (strike mood).1 = some fault → fault.Calm) :
    (advisors.disturbed strike).Gentle where
  isOverloaded host tick := (gentle.isOverloaded host tick).guarded strikes
  staysOverloaded host := (gentle.staysOverloaded host).guarded strikes
  victim host := (gentle.victim host).guarded strikes
  destination vm hosts closed := (gentle.destination vm hosts closed).guarded strikes

theorem Advisors.Gentle.failOnly {advisors : Advisors α State} (gentle : advisors.Gentle)
    (machines : List (Machine α)) (tick : Tick α) :
    advisors.FailOnly machines (fun _ => True) tick Fault.Calm where
  isOverloaded host _ := gentle.isOverloaded host tick
  staysOverloaded host _ := gentle.staysOverloaded host
  victim host _ := gentle.victim host
  destination vm _ hosts _ closed := gentle.destination vm hosts closed

variable [Scalar α]

theorem Policy.gentle (policy : Policy α) (draw : Draws → α × Draws) :
    (policy.advisors draw).Gentle where
  isOverloaded host tick := by
    have observed := (policy.overload.observe_alike policy.table host tick).calmlyFails
    refine .bind (.answer observed) fun _ => .bind ?_ fun _ => .pure _
    -- what was observed is put on record, and that cannot fail
    intro _ _ _ run
    cases run
  staysOverloaded host :=
    .bind (.answer (policy.overload.assess_alike policy.table host []).calmlyFails) fun _ => .pure _
  victim host := .answer (policy.eviction.victim?_alike policy.table host).calmlyFails
  destination vm hosts closed := by
    have searched := (policy.destination.search_alike policy.table vm hosts closed).calmlyFails
    refine .bind (.answer searched) fun search => ?_
    cases search with
    | settled host => exact .pure host
    | contested scored =>
      -- a draw settles it, and drawing cannot fail
      intro _ _ _ run
      cases run

/-! Calm steps -/

namespace Step

def Calm (kept : Occupancy α → Prop) (step : Step α State Answer) : Prop :=
  ∀ progress, kept progress.occupancy →
    step.Ends progress (fun _ later => kept later.occupancy) fun fault _ => fault.Calm

variable {kept : Occupancy α → Prop}

omit [Scalar α] in
theorem calm_bind {step : Step α State Other} {next : Other → Step α State Answer}
    (first : step.Calm kept) (second : ∀ answer, (next answer).Calm kept) :
    (step >>= next).Calm kept := FailsOnly.bind first second

omit [Scalar α] in
theorem calm_ask {question : Ask α State Answer} (gentle : question.Gentle) :
    (ask question).Calm kept := FailsOnly.ask gentle

omit [Scalar α] in
theorem Ends.calmly {step : Step α State Answer} {progress : Progress α State}
    {after : Answer → Progress α State → Prop} (ends : step.Ends progress after fun _ _ => True)
    (calm : step.Calm fun _ => True) : step.Ends progress after fun fault _ => fault.Calm :=
  (ends.confined (show FailsOnly (fun _ => True) Fault.Calm step from calm) trivial).imp
    fun _ _ both => both.1

theorem ends_accepted {after : Unit → Progress α State → Prop}
    {broken : Fault α → Progress α State → Prop} {progress : Progress α State}
    {machine : Machine α} {vm : Vm α} {check : Bool}
    (free : (progress.occupancy.host machine).holds vm.id = false)
    (roomy : check = true → (progress.occupancy.host machine).fits vm = true)
    (placed : after () { progress with occupancy := progress.occupancy.place machine.id vm }) :
    (accept machine vm check : Step α State Unit).Ends progress after broken := by
  refine ends_accept (fun _ => placed) fun fault refused => ?_
  rw [Host.refusal?_eq_none free roomy] at refused
  cases refused

end Step

open Step

namespace Planner

variable {kept : Occupancy α → Prop}

theorem calm_byDemand (vm : Item → Vm α) (items : List Item) :
    (byDemand vm items : Step α State (List Item)).Calm kept :=
  byDemand_failsOnly fun item _ => (Host.demand_alike_of_vm (vm item)).calmlyFails

theorem calm_utilization {machines : List (Machine α)} (now : Occupancy α) (_ : kept now)
    (machine : Machine α) (_ : machine ∈ machines) : CalmlyFails (now.host machine).utilization :=
  (now.host machine).utilization_alike.calmlyFails

theorem calm_leastLoaded? (skipped : List String) (limit : α) (best : Option (Machine α))
    (machines : List (Machine α)) :
    (leastLoaded? skipped limit best machines : Step α State _).Calm kept :=
  leastLoaded?_failsOnly calm_utilization (List.Subset.refl machines)

section

variable {planner : Planner α State} (gentle : planner.advisors.Gentle)
include gentle

theorem ends_search (reliable : planner.advisors.Reliable) {vm : Vm α} {closed : List String}
    {progress : Progress α State} {after : Option (Host α) → Progress α State → Prop}
    (missing : ∀ advisors, after none { progress with advisors })
    (found : ∀ machine ∈ planner.machines, machine.id ∉ closed →
      (progress.occupancy.host machine).fits vm = true → ∀ advisors,
      after (some (progress.occupancy.host machine)) { progress with advisors }) :
    (ask (planner.advisors.destination? vm (planner.machines.map progress.occupancy.host)
      closed)).Ends progress after fun fault _ => fault.Calm := by
  refine Ends.calmly ?_ (calm_ask (gentle.destination _ _ _))
  exact ends_destination? reliable missing (fun machine member open_ suitable =>
    found machine member open_ (Host.fits_of_isSuitable suitable)) fun _ _ => trivial

end

end Planner

/-! Steps that put VMs on hosts -/

variable {cluster : Cluster α} {machine : Machine α} {moved : List (Vm α × String)}
  {now : Occupancy α}

/-- The VMs that have left the machine so far are on the hosts beside them. -/
structure Away (cluster : Cluster α) (machine : Machine α) (moved : List (Vm α × String))
    (now : Occupancy α) : Prop where
  there : ∀ pair ∈ moved, ∃ destination ∈ cluster.machines, destination.id = pair.2 ∧
    destination.id ≠ machine.id ∧ pair.1 ∈ now.residents destination.id
  once : (moved.map (·.1.id)).Nodup

namespace Away

omit [Scalar α] in
theorem nil : Away cluster machine [] now where
  there _ absent := by cases absent
  once := .nil

variable {destination : Machine α} {vm : Vm α} (member : destination ∈ cluster.machines)
  (apart : destination.id ≠ machine.id)
include member apart

omit [Scalar α] in
theorem leave (away : Away cluster machine moved now) (tracked : Tracked cluster now)
    (distinct : cluster.DistinctVms) (machineMem : machine ∈ cluster.machines)
    (resident : vm ∈ now.residents machine.id) :
    Away cluster machine ((vm, destination.id) :: moved)
      ((now.release machine.id vm).place destination.id vm) where
  there := by
    refine List.forall_mem_cons.mpr ⟨?_, fun pair pairMem => ?_⟩
    · exact ⟨destination, member, rfl, apart, by simp [Occupancy.residents_place]⟩
    · obtain ⟨host, hostMem, same, hostApart, there⟩ := away.there pair pairMem
      have different := tracked.id_ne distinct hostMem machineMem hostApart there resident
      exact ⟨host, hostMem, same, hostApart, Occupancy.mem_residents_carry there different⟩
  once := by
    refine List.nodup_cons.mpr ⟨fun again => ?_, away.once⟩
    obtain ⟨pair, pairMem, same⟩ := List.mem_map.mp again
    obtain ⟨host, hostMem, -, hostApart, there⟩ := away.there pair pairMem
    exact tracked.id_ne distinct hostMem machineMem hostApart there resident same

omit [Scalar α] member apart in
theorem comeBack (away : Away cluster machine ((vm, destination.id) :: moved) now) :
    Away cluster machine moved ((now.release destination.id vm).place machine.id vm) := by
  obtain ⟨fresh, once⟩ := List.nodup_cons.mp away.once
  refine ⟨fun pair pairMem => ?_, once⟩
  obtain ⟨host, hostMem, same, hostApart, there⟩ := away.there pair (.tail _ pairMem)
  have listed : pair.1.id ∈ moved.map (·.1.id) := List.mem_map_of_mem pairMem
  have different : pair.1.id ≠ vm.id := fun same => fresh (show vm.id ∈ _ from same ▸ listed)
  exact ⟨host, hostMem, same, hostApart, Occupancy.mem_residents_carry there different⟩

end Away

namespace Planner

variable {progress : Progress α State} (distinct : cluster.DistinctVms)
include distinct

section

variable (member : machine ∈ cluster.machines)
include member

theorem undo_calm (tracked : Tracked cluster progress.occupancy)
    (away : Away cluster machine moved progress.occupancy) :
    (undo machine moved : Step α State Unit).Ends progress
      (fun _ later => Tracked cluster later.occupancy) fun fault _ => fault.Calm := by
  -- the one that left last comes back first, and those before it are still away then
  induction moved generalizing progress with
  | nil => exact tracked
  | cons pair rest ih =>
    obtain ⟨vm, host⟩ := pair
    obtain ⟨destination, destinationMem, rfl, apart, resident⟩ := away.there _ List.mem_cons_self
    rw [undo, ends_bind, ends_release, ends_bind]
    refine ends_accepted (tracked.holds_release_eq_false distinct destinationMem member resident)
      (fun checked => by cases checked) ?_
    exact ih (tracked.carry distinct destinationMem member resident) away.comeBack

end

variable {planner : Planner α State} (reliable : planner.advisors.Reliable)
  (gentle : planner.advisors.Gentle) (same : planner.machines = cluster.machines)
include reliable gentle same

theorem placeVictims_calm {excluded : List String} {pairs : List (Vm α × String)}
    (tracked : Tracked cluster progress.occupancy)
    (adrift : Adrift cluster progress.occupancy (pairs.map (·.1))) :
    (planner.placeVictims excluded pairs).Ends progress
      (fun _ later => Tracked cluster later.occupancy) fun fault _ => fault.Calm := by
  induction pairs generalizing progress with
  | nil => exact tracked
  | cons pair rest ih =>
    obtain ⟨vm, origin⟩ := pair
    rw [placeVictims, ends_bind, ends_lookAll, ends_bind]
    refine ends_search gentle reliable (fun advisors => ?_) fun machine member _ fits advisors => ?_
    · rw [ends_bind, ends_miss]
      exact ih tracked adrift.tail
    · rw [same] at member
      have known := adrift.known vm List.mem_cons_self
      have nowhere := adrift.nowhere vm List.mem_cons_self
      rw [ends_bind]
      refine ends_accepted (tracked.holds_eq_false distinct member known (nowhere machine member))
        (fun _ => fits) ?_
      exact (ih (tracked.place distinct member known nowhere) (adrift.place machine.id)).bind
        fun _ _ tracked => tracked

variable (member : machine ∈ cluster.machines) {closed : List String}
  (shut : machine.id ∈ closed)
include member shut

theorem moveAll_calm {waiting : List (Vm α)} (tracked : Tracked cluster progress.occupancy)
    (away : Away cluster machine moved progress.occupancy)
    (ready : waiting ⊆ progress.occupancy.residents machine.id)
    (once : (waiting.map (·.id)).Nodup) :
    (planner.moveAll machine closed moved waiting).Ends progress
      (fun _ later => Tracked cluster later.occupancy) fun fault _ => fault.Calm := by
  induction waiting generalizing moved progress with
  | nil => exact tracked
  | cons vm rest ih =>
    obtain ⟨resident, ready⟩ := List.cons_subset.mp ready
    obtain ⟨fresh, once⟩ := List.nodup_cons.mp once
    rw [moveAll, ends_bind, ends_lookAll, ends_bind]
    refine ends_search gentle reliable (fun advisors => ?_)
      fun destination destinationMem open_ fits advisors => ?_
    · rw [ends_bind, ends_miss, ends_bind]
      exact undo_calm distinct member tracked away
    · rw [same] at destinationMem
      -- the machine is closed to the search, so no VM is sent where it comes from
      have apart : destination.id ≠ machine.id := fun here => open_ (here ▸ shut)
      have unmoved : (progress.occupancy.release machine.id vm).host destination =
          progress.occupancy.host destination := by
        simp only [Occupancy.host, Occupancy.residents_release, if_neg apart]
      rw [ends_bind, ends_release, ends_bind]
      refine ends_accepted (tracked.holds_release_eq_false distinct member destinationMem resident)
        (fun _ => unmoved ▸ fits) ?_
      refine ih (tracked.carry distinct member destinationMem resident)
        (away.leave destinationMem apart tracked distinct member resident)
        (fun other otherMem => ?_) once
      have different : other.id ≠ vm.id := fun same =>
        fresh (List.mem_map.mpr ⟨other, otherMem, same⟩)
      exact Occupancy.mem_residents_carry (ready otherMem) different

theorem drain_calm (tracked : Tracked cluster progress.occupancy) :
    (planner.drain machine closed).Ends progress
      (fun _ later => Tracked cluster later.occupancy) fun fault _ => fault.Calm := by
  rw [drain, ends_bind, ends_look, ends_bind]
  refine Ends.calmly (ends_byDemand (fun waiting order => ?_) fun _ => trivial)
    (calm_byDemand _ _)
  have once : (waiting.map (·.id)).Nodup :=
    (order.map _).nodup_iff.mpr
      ((tracked.once machine member).sublist (List.filter_sublist.map _))
  exact (moveAll_calm distinct reliable gentle same member shut tracked .nil
    (fun vm vmMem => List.filter_sublist.subset (order.subset vmMem)) once).bind
      fun _ _ tracked => tracked

omit member shut in
theorem round_calm (settled closed : List String) :
    (planner.round settled closed).Calm (Tracked cluster) := by
  intro progress tracked
  rw [round, ends_bind, ends_enter, ends_bind]
  refine Ends.calmly (ends_leastLoaded? (fun found named => ?_) fun _ => trivial)
    (calm_leastLoaded? _ _ _ _)
  cases found with
  | none => exact tracked
  | some machine =>
    have member := same ▸ (named machine rfl).1
    rw [ends_bind, ends_enter, ends_bind, ends_get, ends_bind]
    refine Ends.imp (drain_calm distinct reliable gentle same member List.mem_insert_self tracked)
      fun outcome ended tracked => ?_
    rw [ends_bind, ends_get, ends_bind, ends_modify, ends_pure, Progress.occupancy_note]
    exact tracked

omit member shut in
theorem relocation_calm {machines : List (Machine α)} {evicted : List (Vm α × String)}
    (left : Evicted cluster evicted progress.occupancy) :
    (planner.relocation machines evicted).Ends progress (fun _ _ => True)
      fun fault _ => fault.Calm := by
  rw [relocation, ends_bind, ends_clock, ends_bind, ends_enter, ends_bind]
  refine Ends.calmly (ends_byDemand (fun ordered order => ?_) fun _ => trivial)
    (calm_byDemand _ _)
  refine Ends.bind (placeVictims_calm distinct reliable gentle same left.tracked
    (left.adrift.of_perm (order.map _))) fun placed later tracked => ?_
  rw [ends_bind, ends_clock, ends_bind]
  have switching : (sieve isSwitchedOff planner.machines : Step α State _).FailsOnly
      (Tracked cluster) Fault.Calm :=
    .sieve fun _ => isSwitchedOff_failsOnly calm_utilization
  have draining : (planner.drainUnderloaded (machines.map (·.id)) placed).Calm (Tracked cluster) :=
    calm_bind switching fun _ =>
      consolidate_failsOnly (round_calm distinct reliable gentle same) _ _ _
  exact Ends.imp (draining _ tracked) fun _ _ _ => trivial

omit member shut in
theorem explore_calm (tick : Tick α) (start : progress.occupancy = cluster.occupancy) :
    (planner.explore tick).Ends progress (fun _ _ => True) fun fault _ => fault.Calm := by
  rw [explore_eq]
  have selecting := (selection_evicts reliable distinct same tick start).and
    (selection_confined reliable (gentle.failOnly planner.machines tick) fun _ _ _ _ => trivial)
  refine (ends_bind _ _).mpr (selecting.mono (fun selected later both => ?_) fun _ _ both => both.2)
  exact relocation_calm distinct reliable gentle same both.1.1

end Planner

end Plan

end Fleet
