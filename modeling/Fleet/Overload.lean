import Fleet.Cluster
import Fleet.Flavor
import Fleet.Tick
import Fleet.Timeline

/-! Whether a host is, or would be, overloaded.

CPU is forecast for each VM over an adaptive window. A host is overloaded if the forecast exceeds the
CPU threshold or, failing that, if the memory that goes with it reaches the memory threshold.
-/

set_option autoImplicit false

namespace Fleet

inductive Cause where
  | cpu
  | memory
  deriving DecidableEq, Repr

structure Verdict (α : Type) where
  cause : Option Cause
  cpu : α
  memoryMb : α

def Verdict.overloaded {α : Type} (verdict : Verdict α) : Bool := verdict.cause.isSome

structure OverloadRule (α : Type) where
  epsilon : α
  baseWindow : Int
  theta : α
  cpuThreshold : α
  memoryThreshold : α

namespace OverloadRule

variable {α : Type} [Scalar α]

def standard : OverloadRule α where
  epsilon := 0.2
  baseWindow := 5
  theta := 0.1
  cpuThreshold := 0.9
  memoryThreshold := 0.9

def validate (rule : OverloadRule α) : Except (Fault α) (OverloadRule α) :=
  if rule.epsilon < 0.0 then .error (.parameter .epsilon)
  else if rule.baseWindow < 1 then .error (.parameter .baseWindow)
  else if rule.theta < 0.0 then .error (.parameter .theta)
  else if rule.cpuThreshold ≤ 0.0 ∨ 1.0 < rule.cpuThreshold then .error (.parameter .cpuThreshold)
  else if rule.memoryThreshold ≤ 0.0 ∨ 1.0 < rule.memoryThreshold then
    .error (.parameter .memoryThreshold)
  else .ok rule

/-- The forecast CPU fraction of a VM; without samples it is zero. -/
def forecast (rule : OverloadRule α) (vm : Vm α) : Except (Fault α) α := do
  let window ← Forecast.adaptiveWindow vm.samples rule.baseWindow rule.epsilon rule.theta
  pure ((Forecast.weightedAverage? vm.samples window).getD 0.0)

def predictedCpu (host : Host α) (forecasts : List (α × Vm α)) : Except (Fault α) α := do
  let demand ← forecasts.foldlM
    (fun total (cpu, vm) => do pure (total + cpu * (← vm.capacity))) 0.0
  let capacity ← host.capacity
  pure (if 0.0 < capacity then demand / capacity else 0.0)

def predictedMemory (table : FlavorTable α) (forecasts : List (α × Vm α)) : Except (Fault α) α :=
  forecasts.foldlM (fun total (cpu, vm) => do
    let flavor ← table.require vm.id vm.toShape
    pure (total + flavor.memoryFraction cpu * vm.ramMb)) 0.0

/-- Judges the host as if the extra VMs were resident as well. -/
def assess (rule : OverloadRule α) (table : FlavorTable α) (host : Host α)
    (extra : List (Vm α) := []) : Except (Fault α) (Verdict α) := do
  let vms := host.vms ++ extra
  if vms.isEmpty then pure ⟨none, 0.0, 0.0⟩
  else
    let forecasts ← vms.mapM fun vm => do pure ((← rule.forecast vm), vm)
    let cpu ← predictedCpu host forecasts
    if rule.cpuThreshold < cpu then pure ⟨some .cpu, cpu, 0.0⟩
    else
      let memory ← predictedMemory table forecasts
      if rule.memoryThreshold * host.ramMb ≤ memory then pure ⟨some .memory, cpu, memory⟩
      else pure ⟨none, cpu, memory⟩

def observe (rule : OverloadRule α) (table : FlavorTable α) (host : Host α) (tick : Tick α) :
    Except (Fault α) (Verdict α × Metric α) := do
  let verdict ← rule.assess table host
  let utilization ← host.utilization
  pure (verdict, ⟨← tick.stamp, utilization, rule.cpuThreshold⟩)

end OverloadRule

end Fleet
