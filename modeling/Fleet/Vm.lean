import Fleet.Power

/-! Virtual machines: a shape, a memory size and the utilization samples seen so far. -/

set_option autoImplicit false

namespace Fleet

/-- The serial tells VMs of one id apart. -/
structure Vm (α : Type) extends Shape α where
  serial : Nat
  id : String
  ramMb : α
  /-- Oldest first. -/
  samples : List α
  migrating : Bool

variable {α : Type} [Scalar α]

def Shape.capacity (shape : Shape α) : Except (Fault α) α :=
  match (Scalar.ofInt? shape.cores : Option α) with
  | some cores => .ok (shape.mips * cores)
  | none => .error .integerTooLarge

def Shape.within (inner outer : Shape α) : Bool :=
  inner.mips ≤ outer.mips && inner.cores ≤ outer.cores

/-- What tells VMs apart, also those that share an id. -/
abbrev VmKey := String × Nat

namespace Vm

omit [Scalar α] in
def key (vm : Vm α) : VmKey := (vm.id, vm.serial)

def current (vm : Vm α) : α := vm.samples.getLast?.getD 0.0

def demand (vm : Vm α) : Except (Fault α) α := do
  pure (vm.current * (← vm.capacity))

def record (vm : Vm α) (sample : α) : Except (Fault α) (Vm α) :=
  if Scalar.isFraction sample then .ok { vm with samples := vm.samples ++ [sample] }
  else .error (.sample sample)

end Vm

end Fleet
