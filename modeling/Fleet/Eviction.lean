import Fleet.Flavor
import Fleet.Host

/-! Which VM leaves an overloaded host first: the one with the least predicted memory pressure. -/

set_option autoImplicit false

namespace Fleet

structure EvictionRule (α : Type) where
  gamma : α

namespace EvictionRule

variable {α : Type} [Scalar α]

def standard : EvictionRule α := ⟨1.0⟩

/-- Predicted memory in use; a VM without samples counts with its whole RAM. -/
def metric (rule : EvictionRule α) (table : FlavorTable α) (vm : Vm α) : Except (Fault α) α := do
  let window ← Forecast.volatilityWindow vm.samples rule.gamma
  match Forecast.plainAverage? vm.samples window with
  | none => pure vm.ramMb
  | some cpu =>
      let flavor ← table.require vm.id vm.toShape
      pure (flavor.memoryFraction cpu * vm.ramMb)

def victim? (rule : EvictionRule α) (table : FlavorTable α) (host : Host α) :
    Except (Fault α) (Option (Vm α)) := do
  let scored ← (host.vms.filter (!·.migrating)).mapM fun vm => do
    pure (vm, (← rule.metric table vm))
  pure ((Scalar.firstLeast scored).map (·.1))

end EvictionRule

end Fleet
