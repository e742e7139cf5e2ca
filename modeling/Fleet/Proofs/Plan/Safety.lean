import Fleet.Proofs.Flavor
import Fleet.Proofs.Plan.Failure
import Fleet.Proofs.Power
import Fleet.Proofs.Settings

/-! Which settings are safe to plan with.

What a cycle computes with loaded settings is computed from windows, capacities, shapes and readings of
power curves. For inventories of ordinary size all of these can be had, if the settings are finite where
a window is computed from them. Then nothing but a host without room can keep a cycle from its moves.
-/

set_option autoImplicit false

namespace Fleet.Plan

open Number

/-- VMs have ids of their own, samples between zero and one, and shapes of the table; no number of cores
is above what a significand holds. -/
structure Ordinary (table : FlavorTable Float) (cluster : Cluster Float) : Prop where
  distinct : cluster.DistinctVms
  sampled : ∀ vm ∈ cluster.residents, Forecast.Sampled vm.samples
  listed : ∀ vm ∈ cluster.residents,
    ∃ flavor ∈ table.flavors, flavor.agreesWith vm.mips (.whole vm.cores) = true
  flavorCores : ∀ flavor ∈ table.flavors, flavor.cores.natAbs ≤ 2 ^ 53
  machineCores : ∀ machine ∈ cluster.machines, machine.cores.natAbs ≤ 2 ^ 53

/-- The settings that widen windows are finite, and so is every window that is widened. -/
structure Widening (settings : Settings) (cluster : Cluster Float) : Prop where
  selection : settings.selectionGamma.isFinite = true
  cycle : settings.cycleGamma.isFinite = true
  growth : ∀ vm ∈ cluster.residents, vm.samples ≠ [] →
    (Forecast.grown vm.samples settings.baseWindow settings.epsilon).isFinite = true

variable {settings : Settings} {table : FlavorTable Float} {cluster : Cluster Float}

theorem Ordinary.vmCores (ordinary : Ordinary table cluster) {vm : Vm Float}
    (member : vm ∈ cluster.residents) : vm.cores.natAbs ≤ 2 ^ 53 := by
  obtain ⟨flavor, flavorMem, agrees⟩ := ordinary.listed vm member
  obtain ⟨-, same⟩ := Bool.and_eq_true_iff.mp agrees
  exact beq_iff_eq.mp same ▸ ordinary.flavorCores flavor flavorMem

/-- Power curves are read for shares only, and windows are of a size that converts. So capacities,
shapes and the windows themselves are all that the rules can fail with. -/
theorem founded_of {machines : List (Machine Float)} {known : Vm Float → Prop}
    {allowed : Fault Float → Prop}
    (capacity : ∀ vm, known vm → FailsOnly allowed vm.capacity)
    (hostCapacity : ∀ machine ∈ machines, FailsOnly allowed machine.capacity)
    (flavor : ∀ vm, known vm → FailsOnly allowed (table.require vm.id vm.toShape))
    (growth : ∀ vm, known vm → vm.samples ≠ [] →
      (Forecast.grown vm.samples settings.baseWindow settings.epsilon).isFinite = true)
    (selection : ∀ vm, known vm →
      FailsOnly allowed (Forecast.volatilityWindow vm.samples settings.selectionGamma))
    (cycle : ∀ vm, known vm →
      FailsOnly allowed (Forecast.volatilityWindow vm.samples settings.cycleGamma)) :
    (settings.rules table).Founded machines known allowed := by
  have forecast (vm : Vm Float) (member : known vm) :
      FailsOnly allowed (settings.overloadRule.forecast vm) := by
    obtain ⟨window, read⟩ := Forecast.adaptiveWindow_ok settings.theta (growth vm member)
    exact .bind (.of_ok read) fun _ _ => .pure _
  exact {
    capacity, hostCapacity, flavor, forecast
    draw := fun machine _ utilization => by
      obtain ⟨watts, read⟩ := machine.power.draw_ok (within_kept utilization)
      exact .of_ok read
    supposedForecast := forecast
    evictionWindow := selection
    cycleWindow := cycle
    cycle := fun vm _ window read => by
      obtain ⟨x, converted⟩ := Forecast.exists_ofInt?_of_window read
      rw [converted]
      exact .ok x }

theorem founded_rules (ordinary : Ordinary table cluster) (widening : Widening settings cluster)
    (allowed : Fault Float → Prop) :
    (settings.rules table).Founded cluster.machines (· ∈ cluster.residents) allowed := by
  have near {vm : Vm Float} (member : vm ∈ cluster.residents) :
      ∀ flavor ∈ table.flavors, (vm.cores - flavor.cores).natAbs ≤ 2 ^ 511 := fun flavor listed =>
    le_two_pow (natAbs_sub_le (ordinary.vmCores member) (ordinary.flavorCores flavor listed))
      (by decide)
  refine founded_of (fun vm member => ?_) (fun machine member => ?_) (fun vm member => ?_)
    widening.growth (fun vm member => ?_) fun vm member => ?_
  · obtain ⟨capacity, read⟩ := Shape.capacity_ok (le_two_pow (ordinary.vmCores member) (by decide))
    exact .of_ok read
  · obtain ⟨capacity, read⟩ :=
      Shape.capacity_ok (le_two_pow (ordinary.machineCores machine member) (by decide))
    exact .of_ok read
  · obtain ⟨flavor, read⟩ := FlavorTable.require_ok (near member) (ordinary.listed vm member) vm.id
    exact .of_ok read
  · obtain ⟨window, read⟩ :=
      Forecast.volatilityWindow_ok (fun _ => ordinary.sampled vm member) widening.selection
    exact .of_ok read
  · obtain ⟨window, read⟩ :=
      Forecast.volatilityWindow_ok (fun _ => ordinary.sampled vm member) widening.cycle
    exact .of_ok read

/-- A cycle with loaded settings makes its rules, and then either returns its moves or finds a host that
cannot take a VM. -/
theorem plan_safe {Draws : Type} {sources : Settings.Sources}
    (loaded : Settings.load sources = .ok settings)
    {engine : Engine Float (World Float Draws)} (ordinary : Ordinary table engine.cluster)
    (widening : Widening settings engine.cluster) {tick : Tick Float}
    (plain : tick.unstamped = none) (draw : Draws → Float × Draws) :
    ∃ policy, settings.policy table = .ok policy ∧
      ((∃ moves, (engine.plan (policy.advisors draw) policy.underload tick).1 = .ok moves) ∨
        ∃ fault, (engine.plan (policy.advisors draw) policy.underload tick).1 = .error fault ∧
          fault.kind = .capacity) := by
  refine ⟨_, (Settings.load_sound loaded).policy_eq table, ?_⟩
  have stamped : FailsOnly (·.kind = .capacity) tick.stamp :=
    .of_ok (show tick.stamp = .ok tick.value by rw [Tick.stamp, plain])
  have failing := (founded_rules ordinary widening (·.kind = .capacity)).plan_failsOnly stamped
    (absurd ordinary.distinct) (fun _ _ _ _ => rfl) draw (settings.rules table).underload
  cases planned : (engine.plan ((settings.rules table).advisors draw)
      (settings.rules table).underload tick).1 with
  | ok moves => exact .inl ⟨moves, rfl⟩
  | error fault => exact .inr ⟨fault, rfl, failing fault planned⟩

namespace Sample

def busy : Host Float where
  mips := 2500.0
  cores := 4
  id := "h"
  ramMb := 65536.0
  samples := []
  arriving := []
  power := PowerCurve.xeonE5 Float
  vms :=
    [{ mips := 2500.0, cores := 4, serial := 0, id := "v", ramMb := 32768.0, samples := [1.0],
       migrating := false }]

def strained : Engine Float (World Float Unit) where
  cluster := Cluster.ofHosts [busy] fun _ => none
  advisors := ⟨{}, ()⟩

def widened : Settings := { Settings.standard with selectionGamma := 1e300, cycleGamma := 3.0 }

theorem load_widened : Settings.load ⟨[("CYCLE_GAMMA", "3")], [("selection_gamma", .decimal 1e300)]⟩ =
    .ok widened := Attempt.ok_of_toOption (by decide +kernel)

end Sample

theorem plan_safe_strained :
    ∃ policy, Sample.widened.policy FlavorTable.reference = .ok policy ∧
      ((∃ moves, (Sample.strained.plan (policy.advisors fun _ => (0.5, ())) policy.underload
          ⟨300.0, none⟩).1 = .ok moves) ∨
        ∃ fault, (Sample.strained.plan (policy.advisors fun _ => (0.5, ())) policy.underload
          ⟨300.0, none⟩).1 = .error fault ∧ fault.kind = .capacity) :=
  plan_safe Sample.load_widened
    { distinct := (Cluster.settled_ofHosts _ (by decide +kernel)).distinct
      sampled := by unfold Forecast.Sampled; decide +kernel
      listed := by decide +kernel
      flavorCores := by decide +kernel
      machineCores := by decide +kernel }
    { selection := by decide +kernel
      cycle := by decide +kernel
      growth := by decide +kernel } rfl _

/-- Without a finite setting for its windows, eviction breaks off at every VM. -/
theorem metric_fails {rule : EvictionRule Float} (infinite : rule.gamma.isFinite = false)
    (table : FlavorTable Float) (vm : Vm Float) :
    ∃ cause, rule.metric table vm = .error (.noInteger cause) := by
  obtain ⟨cause, failed⟩ := Forecast.volatilityWindow_fails vm.samples infinite
  refine ⟨cause, ?_⟩
  unfold EvictionRule.metric
  rw [failed]
  rfl

example : (Settings.load ⟨[], [("selection_gamma", .text "inf")]⟩).isOk = true := by decide +kernel

end Fleet.Plan
