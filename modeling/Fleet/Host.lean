import Fleet.Vm

/-! Hosts and the load that their residents put on them. -/

set_option autoImplicit false

namespace Fleet

structure Machine (α : Type) extends Shape α where
  id : String
  ramMb : α
  /-- CPU utilization, oldest first. -/
  samples : List α
  /-- The ids of VMs that are still migrating in. -/
  arriving : List String
  power : PowerCurve α

structure Host (α : Type) extends Machine α where
  vms : List (Vm α)

namespace Host

variable {α : Type} [Scalar α]

def vmIds (host : Host α) : List String := host.vms.map (·.id)

def holds (host : Host α) (vm : String) : Bool := host.vms.any (·.id == vm)

def allocatedRam (host : Host α) : α := Scalar.sum (host.vms.map (·.ramMb))

/-- A VM that is migrating in costs nine times its demand on top. -/
def migrationOverhead : α := 9.0

def addDemand (host : Host α) (total : α) (vm : Vm α) : Except (Fault α) α := do
  let demand ← vm.demand
  let total := total + demand
  pure (if vm.id ∈ host.arriving then total + demand * migrationOverhead else total)

def demand (host : Host α) : Except (Fault α) α := host.vms.foldlM host.addDemand 0.0

def utilization (host : Host α) : Except (Fault α) α := do
  let capacity ← host.capacity
  if capacity ≤ 0.0 then pure 0.0
  else pure (Scalar.min 1.0 (Scalar.max 0.0 ((← host.demand) / capacity)))

def fits (host : Host α) (vm : Vm α) : Bool :=
  vm.within host.toShape && host.allocatedRam + vm.ramMb ≤ host.ramMb

def isSuitable (host : Host α) (vm : Vm α) : Except (Fault α) Bool := do
  if host.fits vm then
    let demand ← host.demand
    let added ← vm.demand
    pure (decide (demand + added ≤ (← host.capacity)))
  else pure false

/-- Why the host refuses the VM, if it does. With `check` off, only a resident of that id counts. -/
def refusal? (host : Host α) (vm : Vm α) (check : Bool := true) : Option (Fault α) :=
  if host.holds vm.id then some (.refused host.id vm.id .alreadyResident none)
  else if check && !host.fits vm then
    some <| .refused host.id vm.id
      (.doesNotFit host.allocatedRam vm.ramMb host.ramMb vm.toShape host.toShape) none
  else none

end Host

def Host.summary (host : Host Float) : Except (Fault Float) String := do
  let utilization ← host.utilization
  pure <| s!"Host({host.id}, cpu={Number.fixedText 2 utilization}, " ++
    s!"ram={Number.fixedText 0 host.allocatedRam}/{Number.fixedText 0 host.ramMb}, " ++
    s!"vms={host.vms.length})"

end Fleet
