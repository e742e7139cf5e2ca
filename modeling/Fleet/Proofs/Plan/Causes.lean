import Fleet.Plan.Advisor
import Fleet.Proofs.Failing

/-! Which faults the rules of a policy can end with.

The rules only compute: where each number that they start from can be had, they do not fail. So a
fault of theirs is a fault of one of these numbers, of which there are a capacity, a window, a flavor
and a reading of a power curve.
-/

set_option autoImplicit false

namespace Fleet

variable {α : Type}

/-- The host is one of the machines, and its residents are known. -/
structure Host.Among (machines : List (Machine α)) (known : Vm α → Prop) (host : Host α) : Prop where
  machine : host.toMachine ∈ machines
  residents : ∀ vm ∈ host.vms, known vm

variable [Scalar α]

namespace Plan

/-- For known VMs and these machines, the numbers that the policy starts from can be had, or one of
the allowed faults says why not. -/
structure Policy.Founded (policy : Policy α) (machines : List (Machine α)) (known : Vm α → Prop)
    (allowed : Fault α → Prop) : Prop where
  capacity : ∀ vm, known vm → FailsOnly allowed vm.capacity
  hostCapacity : ∀ machine ∈ machines, FailsOnly allowed machine.capacity
  draw : ∀ machine ∈ machines, ∀ utilization,
    FailsOnly allowed (machine.power.draw (Scalar.min 1.0 (Scalar.max 0.0 utilization)))
  flavor : ∀ vm, known vm → FailsOnly allowed (policy.table.require vm.id vm.toShape)
  forecast : ∀ vm, known vm → FailsOnly allowed (policy.overload.forecast vm)
  supposedForecast : ∀ vm, known vm → FailsOnly allowed (policy.destination.overload.forecast vm)
  evictionWindow : ∀ vm, known vm →
    FailsOnly allowed (Forecast.volatilityWindow vm.samples policy.eviction.gamma)
  cycleWindow : ∀ vm, known vm →
    FailsOnly allowed (Forecast.volatilityWindow vm.samples policy.destination.gamma)
  cycle : ∀ vm, known vm → ∀ window,
    Forecast.volatilityWindow vm.samples policy.destination.gamma = .ok window →
    FailsOnly allowed ((Scalar.ofInt? window : Option α).elim (.error .integerTooLarge) .ok)

namespace Policy.Founded

variable {policy : Policy α} {machines : List (Machine α)} {known : Vm α → Prop}
  {allowed : Fault α → Prop} (founded : policy.Founded machines known allowed)
include founded

theorem demand {vm : Vm α} (member : known vm) : FailsOnly allowed vm.demand :=
  (founded.capacity vm member).bind fun _ _ => .pure _

section

variable {host : Host α} (among : host.Among machines known)
include among

theorem capacityOf : FailsOnly allowed host.capacity := founded.hostCapacity _ among.machine

theorem hostDemand : FailsOnly allowed host.demand :=
  .foldlM fun vm member _ =>
    (founded.demand (among.residents vm member)).bind fun _ _ => .pure _

theorem utilization : FailsOnly allowed host.utilization := by
  refine (founded.capacityOf among).bind fun capacity _ => ?_
  split
  · exact .pure _
  · exact (founded.hostDemand among).bind fun _ _ => .pure _

theorem isSuitable {vm : Vm α} (member : known vm) : FailsOnly allowed (host.isSuitable vm) := by
  unfold Host.isSuitable
  split
  · exact (founded.hostDemand among).bind fun _ _ => (founded.demand member).bind fun _ _ =>
      (founded.capacityOf among).bind fun _ _ => .pure _
  · exact .pure _

theorem assess {rule : OverloadRule α}
    (forecast : ∀ vm, known vm → FailsOnly allowed (rule.forecast vm)) {extra : List (Vm α)}
    (added : ∀ vm ∈ extra, known vm) :
    FailsOnly allowed (rule.assess policy.table host extra) := by
  have all : ∀ vm ∈ host.vms ++ extra, known vm := fun vm member =>
    (List.mem_append.mp member).elim (among.residents vm) (added vm)
  unfold OverloadRule.assess
  dsimp only
  split
  · exact .pure _
  · refine FailsOnly.bind (.mapM fun vm member => (forecast vm (all vm member)).bind fun _ _ =>
      .pure _) fun forecasts read => ?_
    have listed : ∀ entry ∈ forecasts, known entry.2 := by
      intro entry member
      obtain ⟨vm, vmMem, read⟩ := Attempt.mapM_mem read entry member
      obtain ⟨cpu, -, same⟩ := Attempt.bind_ok read
      cases same
      exact all vm vmMem
    have cpu : FailsOnly allowed (OverloadRule.predictedCpu host forecasts) :=
      FailsOnly.bind (.foldlM fun entry member _ =>
        (founded.capacity _ (listed entry member)).bind fun _ _ => .pure _) fun _ _ =>
          (founded.capacityOf among).bind fun _ _ => .pure _
    have memory : FailsOnly allowed (OverloadRule.predictedMemory policy.table forecasts) :=
      .foldlM fun entry member _ =>
        (founded.flavor _ (listed entry member)).bind fun _ _ => .pure _
    refine cpu.bind fun _ _ => ?_
    split
    · exact .pure _
    · refine memory.bind fun _ _ => ?_
      split <;> exact .pure _

theorem assess_now : FailsOnly allowed (policy.overload.assess policy.table host) :=
  founded.assess among founded.forecast fun _ absent => absurd absent List.not_mem_nil

theorem observe {tick : Tick α} (stamp : FailsOnly allowed tick.stamp) :
    FailsOnly allowed (policy.overload.observe policy.table host tick) :=
  (founded.assess_now among).bind fun _ _ => (founded.utilization among).bind fun _ _ =>
    stamp.bind fun _ _ => .pure _

theorem victim? : FailsOnly allowed (policy.eviction.victim? policy.table host) := by
  refine FailsOnly.bind (.mapM fun vm member => ?_) fun _ _ => .pure _
  have resident := among.residents vm (List.mem_filter.mp member).1
  refine FailsOnly.bind ((founded.evictionWindow vm resident).bind fun window _ => ?_)
    fun _ _ => .pure _
  split
  · exact .pure _
  · exact (founded.flavor vm resident).bind fun _ _ => .pure _

end

/-! Destinations -/

theorem residentCpu {vm : Vm α} (member : known vm) :
    FailsOnly allowed (policy.destination.residentCpu vm) :=
  ((founded.cycleWindow vm member).bind fun _ _ => .pure _).bind fun _ _ => .pure _

theorem arrivalCpu {vm : Vm α} (member : known vm) :
    FailsOnly allowed (policy.destination.arrivalCpu vm) :=
  ((founded.cycleWindow vm member).bind fun _ _ => .pure _).bind fun _ _ => .pure _

theorem addCpu {vm : Vm α} (member : known vm) (total cpu : α) :
    FailsOnly allowed (DestinationRule.addCpu total cpu vm) :=
  (founded.capacity vm member).bind fun _ _ => .pure _

theorem addMemory {vm : Vm α} (member : known vm) (total cpu : α) :
    FailsOnly allowed (DestinationRule.addMemory policy.table total cpu vm) :=
  (founded.flavor vm member).bind fun _ _ => .pure _

section

variable {host : Host α} (among : host.Among machines known) {vm : Vm α} (member : known vm)
include among member

theorem cpuAfter : FailsOnly allowed (policy.destination.cpuAfter host vm) :=
  FailsOnly.bind (.foldlM fun old resident total =>
    (founded.residentCpu (among.residents old resident)).bind fun cpu _ =>
      founded.addCpu (among.residents old resident) total cpu) fun resident _ =>
    (founded.arrivalCpu member).bind fun cpu _ => (founded.addCpu member resident cpu).bind
      fun _ _ => (founded.capacityOf among).bind fun _ _ => .pure _

theorem memoryAfter : FailsOnly allowed (policy.destination.memoryAfter policy.table host vm) :=
  FailsOnly.bind (.foldlM fun old resident total =>
    (founded.residentCpu (among.residents old resident)).bind fun cpu _ =>
      founded.addMemory (among.residents old resident) total cpu) fun resident _ =>
    (founded.arrivalCpu member).bind fun cpu _ => (founded.addMemory member resident cpu).bind
      fun _ _ => .pure _

theorem powerAfter : FailsOnly allowed (DestinationRule.powerAfter host vm) := by
  refine (founded.capacityOf among).bind fun capacity _ => ?_
  split
  · exact .pure _
  · exact (founded.hostDemand among).bind fun _ _ => (founded.demand member).bind fun _ _ =>
      founded.draw _ among.machine _

theorem score : FailsOnly allowed (policy.destination.score policy.table host vm) :=
  (founded.cycleWindow vm member).bind fun window read =>
    (founded.cycle vm member window read).bind fun _ _ =>
      (founded.cpuAfter among member).bind fun _ _ =>
        (founded.memoryAfter among member).bind fun _ _ =>
          (founded.assess among founded.supposedForecast
            (List.forall_mem_singleton.mpr member)).bind fun _ _ => .pure _

theorem isCandidate (excluded : List String) :
    FailsOnly allowed (DestinationRule.isCandidate vm excluded host) := by
  unfold DestinationRule.isCandidate
  split
  · exact .pure _
  · refine (founded.isSuitable among member).bind fun suitable _ => ?_
    split
    · exact (founded.powerAfter among member).bind fun _ _ => .pure _
    · exact .pure _

end

theorem search {hosts : List (Host α)} (among : ∀ host ∈ hosts, host.Among machines known)
    {vm : Vm α} (member : known vm) (excluded : List String) :
    FailsOnly allowed (policy.destination.search policy.table vm hosts excluded) := by
  refine FailsOnly.bind (.sieve fun host hostMem =>
    founded.isCandidate (among host hostMem) member excluded) fun passed sieved => ?_
  split
  · exact .pure _
  · exact .pure _
  · refine FailsOnly.bind (.mapM fun host hostMem => ?_) fun scored _ => ?_
    · have offered := (Attempt.sieve_ok sieved host hostMem).1
      exact (founded.score (among host offered) member).bind fun _ _ => .pure _
    · split
      · exact .pure _
      · split <;> exact .pure _

end Policy.Founded

end Plan

end Fleet
