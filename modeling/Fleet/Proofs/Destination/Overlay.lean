import Fleet.Proofs.Destination.Choice

/-! A host with one more VM on it.

Whether a host can take a VM, how much power it would draw and what load it would have is worked out
without placing the VM. All of that agrees with the host on which the VM has been placed.
-/

set_option autoImplicit false

namespace Fleet

variable {α : Type} [Scalar α]

/-! The host on which the VM has been placed -/

namespace Host

def joined (host : Host α) (vm : Vm α) : Host α := { host with vms := host.vms ++ [vm] }

variable (host : Host α) (vm : Vm α)

theorem allocatedRam_joined : (host.joined vm).allocatedRam = host.allocatedRam + vm.ramMb := by
  unfold allocatedRam joined
  rw [List.map_append]
  exact Scalar.sum_concat _ _

theorem fits_eq : host.fits vm =
    (vm.within host.toShape && (host.joined vm).allocatedRam ≤ host.ramMb) := by
  rw [allocatedRam_joined]
  rfl

variable {vm}

/-- The VM adds its demand, without the cost of a migration under way. -/
theorem demand_joined (settled : vm.id ∉ host.arriving) :
    (host.joined vm).demand = (do
      let demand ← host.demand
      pure (demand + (← vm.demand))) := by
  have step (total : α) :
      (host.joined vm).addDemand total vm = (do pure (total + (← vm.demand))) := by
    unfold addDemand joined
    simp [settled]
  unfold demand
  change (host.vms ++ [vm]).foldlM (host.joined vm).addDemand 0.0 = _
  rw [List.foldlM_append]
  apply bind_congr
  intro demand
  simp [step]

end Host

namespace Forecast

theorem one_le_volatilityWindow {history : List α} {gamma : α} {window : Int}
    (read : volatilityWindow history gamma = .ok window) : 1 ≤ window := by
  unfold volatilityWindow at read
  split at read
  · obtain ⟨width, -, same⟩ := Attempt.bind_ok read
    have same : max 1 width = window := Except.ok.inj same
    omega
  · obtain ⟨width, -, same⟩ := Attempt.bind_ok read
    have same : max 1 (min width history.length) = window := Except.ok.inj same
    omega

end Forecast

namespace DestinationRule

variable (rule : DestinationRule α) (table : FlavorTable α) (host : Host α) (vm : Vm α)

/-! Forecasts of the newcomer -/

theorem forecast?_eq_none {rule : DestinationRule α} {vm : Vm α}
    (read : rule.forecast? vm = .ok none) : vm.samples = [] := by
  obtain ⟨window, wide, read⟩ := Attempt.bind_ok read
  have read : Forecast.weightedMean? vm.samples.reverse window = none := Except.ok.inj read
  have positive := Forecast.one_le_volatilityWindow wide
  unfold Forecast.weightedMean? at read
  split at read
  · next absent => simpa [show ¬window < 1 by omega] using absent
  · cases read

theorem arrivalCpu_eq (unit : (0.0 : α) < 1.0) : rule.arrivalCpu vm = rule.residentCpu vm := by
  unfold arrivalCpu residentCpu
  cases read : rule.forecast? vm with
  | error fault => rfl
  | ok forecast =>
    cases forecast with
    | some cpu => rfl
    | none =>
      -- there is no forecast only where there are no samples, and then the demand is zero
      have idle : Scalar.min (1.0 : α) (Scalar.max 0.0 vm.current) = 0.0 := by
        simp [Vm.current, forecast?_eq_none read, Scalar.max, Scalar.min, unit]
      exact congrArg Except.ok idle

/-! Loads that are forecast for all residents -/

def cpuShare : Except (Fault α) α := do
  pure ((← rule.residentCpu vm) * (← vm.capacity))

def memoryShare : Except (Fault α) α := do
  let cpu ← rule.residentCpu vm
  pure ((← table.require vm.id vm.toShape).memoryFraction cpu * vm.ramMb)

def forecastCpu : Except (Fault α) α := do
  let shares ← host.vms.mapM rule.cpuShare
  pure (Scalar.sum shares / (← host.capacity))

def forecastMemory : Except (Fault α) α := do
  pure (Scalar.sum (← host.vms.mapM (rule.memoryShare table)) / host.ramMb)

theorem foldlM_joined (unit : (0.0 : α) < 1.0) (add : α → α → Vm α → Except (Fault α) α)
    (share : Vm α → Except (Fault α) α)
    (adds : ∀ total vm, (do add total (← rule.residentCpu vm) vm) =
      (do pure (total + (← share vm)))) :
    (do
      let resident ← host.vms.foldlM (fun total old => do add total (← rule.residentCpu old) old) 0.0
      add resident (← rule.arrivalCpu vm) vm) =
      (do pure (Scalar.sum (← (host.joined vm).vms.mapM share))) := by
  rw [arrivalCpu_eq rule vm unit]
  simp only [adds]
  change _ = (do pure (((← (host.vms ++ [vm]).mapM share).foldl (· + ·) 0.0)))
  rw [← Attempt.foldlM_add, List.foldlM_append]
  simp

variable {host}

theorem cpuAfter_eq (unit : (0.0 : α) < 1.0) {capacity : α} (known : host.capacity = .ok capacity)
    (positive : 0.0 < capacity) : rule.cpuAfter host vm = rule.forecastCpu (host.joined vm) := by
  have same : (host.joined vm).capacity = .ok capacity := known
  -- residents and newcomer are summed up before the capacity is read
  have grouped : rule.cpuAfter host vm = (do
      let demand ← (do
        let resident ← host.vms.foldlM
          (fun total old => do addCpu total (← rule.residentCpu old) old) 0.0
        addCpu resident (← rule.arrivalCpu vm) vm)
      let capacity ← host.capacity
      pure (if 0.0 < capacity then demand / capacity else 0.0)) := by simp [cpuAfter]
  rw [grouped, rule.foldlM_joined host vm unit addCpu rule.cpuShare
    fun total vm => by simp [addCpu, cpuShare]]
  unfold forecastCpu
  rw [known, same]
  cases (host.joined vm).vms.mapM rule.cpuShare with
  | error fault => rfl
  | ok shares => exact congrArg Except.ok (if_pos positive)

theorem memoryAfter_eq (unit : (0.0 : α) < 1.0) (positive : 0.0 < host.ramMb) :
    rule.memoryAfter table host vm = rule.forecastMemory table (host.joined vm) := by
  have grouped : rule.memoryAfter table host vm = (do
      let used ← (do
        let resident ← host.vms.foldlM
          (fun total old => do addMemory table total (← rule.residentCpu old) old) 0.0
        addMemory table resident (← rule.arrivalCpu vm) vm)
      pure (if 0.0 < host.ramMb then used / host.ramMb else 0.0)) := by simp [memoryAfter]
  rw [grouped, rule.foldlM_joined host vm unit (addMemory table) (rule.memoryShare table)
    fun total vm => by simp [addMemory, memoryShare]]
  unfold forecastMemory
  cases (host.joined vm).vms.mapM (rule.memoryShare table) with
  | error fault => rfl
  | ok shares => exact congrArg Except.ok (if_pos positive)

/-! Power and suitability -/

variable {vm}

theorem powerAfter_eq [Scalar.Linear α] {capacity : α} (known : host.capacity = .ok capacity)
    (positive : 0.0 < capacity) (settled : vm.id ∉ host.arriving) :
    powerAfter host vm = (do host.power.draw (← (host.joined vm).utilization)) := by
  have same : (host.joined vm).capacity = .ok capacity := known
  have above : ¬capacity ≤ 0.0 := Scalar.not_le_of_lt positive
  unfold powerAfter Host.utilization
  rw [known, same, host.demand_joined settled]
  change (if capacity ≤ 0.0 then _ else _) =
    (if capacity ≤ 0.0 then _ else _) >>= host.power.draw
  rw [if_neg above, if_neg above]
  simp only [bind_assoc, pure_bind]

end DestinationRule

theorem Host.isSuitable_eq {host : Host α} {vm : Vm α} (settled : vm.id ∉ host.arriving) :
    host.isSuitable vm =
      if vm.mips ≤ host.mips ∧ vm.cores ≤ host.cores ∧ (host.joined vm).allocatedRam ≤ host.ramMb then
        (do
          let demand ← (host.joined vm).demand
          pure (decide (demand ≤ (← (host.joined vm).capacity))))
      else .ok false := by
  have same : (host.joined vm).capacity = host.capacity := rfl
  have shape : host.fits vm = true ↔ vm.mips ≤ host.mips ∧ vm.cores ≤ host.cores ∧
      (host.joined vm).allocatedRam ≤ host.ramMb := by
    rw [host.fits_eq vm]
    simp [Shape.within, and_assoc]
  unfold isSuitable
  rw [same, host.demand_joined settled]
  simp only [shape, bind_assoc, pure_bind]
  rfl

theorem OverloadRule.assess_joined (overload : OverloadRule α) (table : FlavorTable α)
    (host : Host α) (vm : Vm α) :
    overload.assess table host [vm] = overload.assess table (host.joined vm) := by
  unfold assess Host.joined
  simp only [List.append_nil]
  rfl

theorem Occupancy.accept_joined {occupancy : Occupancy α} {machine : Machine α} {vm : Vm α}
    (absent : (occupancy.host machine).holds vm.id = false) :
    ∃ after, occupancy.accept machine vm false = .ok after ∧
      after.host machine = (occupancy.host machine).joined vm := by
  refine ⟨occupancy.place machine.id vm, ?_, ?_⟩
  · simp [accept, Host.refusal?, absent]
  · simp [host, Host.joined, residents_place]

namespace DestinationRule

/-- What is worked out for a host and one more VM is what the host has after the VM was placed. -/
structure Anticipates (rule : DestinationRule α) (table : FlavorTable α) (host : Host α) (vm : Vm α)
    (after : Host α) : Prop where
  verdict (overload : OverloadRule α) :
    overload.assess table host [vm] = overload.assess table after
  suitable : host.isSuitable vm =
    if vm.mips ≤ host.mips ∧ vm.cores ≤ host.cores ∧ after.allocatedRam ≤ host.ramMb then
      (do
        let demand ← after.demand
        pure (decide (demand ≤ (← after.capacity))))
    else .ok false
  power : powerAfter host vm = (do host.power.draw (← after.utilization))
  cpu : rule.cpuAfter host vm = rule.forecastCpu after
  memory : rule.memoryAfter table host vm = rule.forecastMemory table after

/-- A VM that is not on a host is placed there, and everything has been worked out as it then is. -/
theorem accept_anticipated (rule : DestinationRule Float) (table : FlavorTable Float)
    {occupancy : Occupancy Float} {machine : Machine Float} {vm : Vm Float} {capacity : Float}
    (known : machine.capacity = .ok capacity) (powerful : 0.0 < capacity)
    (roomy : 0.0 < machine.ramMb) (absent : (occupancy.host machine).holds vm.id = false)
    (settled : vm.id ∉ machine.arriving) :
    ∃ after, occupancy.accept machine vm false = .ok after ∧
      rule.Anticipates table (occupancy.host machine) vm (after.host machine) := by
  obtain ⟨after, accepted, same⟩ := Occupancy.accept_joined absent
  have unit : (0.0 : Float) < 1.0 := by decide +kernel
  refine ⟨after, accepted, ?_⟩
  rw [same]
  exact {
    verdict := fun overload => overload.assess_joined table _ vm
    suitable := Host.isSuitable_eq settled
    power := powerAfter_eq known powerful settled
    cpu := rule.cpuAfter_eq vm unit known powerful
    memory := rule.memoryAfter_eq table vm unit roomy }

namespace Sample

def unsampled : Vm Float := { newcomer with samples := [] }

def occupied : Occupancy Float where
  residents _ := [vm "x" 8 0.6]
  home _ := none

end Sample

theorem accept_anticipated_unsampled :
    ∃ after, Sample.occupied.accept (Sample.host "a" []).toMachine Sample.unsampled false = .ok after ∧
      Sample.policy.destination.Anticipates Sample.policy.table
        (Sample.occupied.host (Sample.host "a" []).toMachine) Sample.unsampled
        (after.host (Sample.host "a" []).toMachine) := by
  have known : (Sample.host "a" []).capacity = .ok 20000.0 :=
    Attempt.ok_of_toOption (by decide +kernel)
  exact accept_anticipated _ _ known (by decide +kernel) (by decide +kernel) (by decide +kernel)
    (by decide +kernel)

end DestinationRule

end Fleet
