import Fleet.Host
import Fleet.Keyed

/-! A cluster: its machines in order, the VMs on each of them, and the host each VM believes to be on.

Planning moves VMs and changes nothing else, so the machines and the occupancy are kept apart.
-/

set_option autoImplicit false

namespace Fleet

/-- The residents of every machine, and for every VM the host it is labelled with. -/
structure Occupancy (α : Type) where
  residents : String → List (Vm α)
  home : VmKey → Option String

namespace Occupancy

variable {α : Type}

def empty : Occupancy α := ⟨fun _ => [], fun _ => none⟩

def host (occupancy : Occupancy α) (machine : Machine α) : Host α :=
  { toMachine := machine, vms := occupancy.residents machine.id }

def setResidents (occupancy : Occupancy α) (host : String) (vms : List (Vm α)) : Occupancy α :=
  { occupancy with residents := fun id => if id = host then vms else occupancy.residents id }

def setHome (occupancy : Occupancy α) (vm : Vm α) (host : Option String) : Occupancy α :=
  { occupancy with home := fun key => if key = vm.key then host else occupancy.home key }

def place (occupancy : Occupancy α) (host : String) (vm : Vm α) : Occupancy α :=
  (occupancy.setResidents host (occupancy.residents host ++ [vm])).setHome vm host

/-- Residents with the id of the VM leave the host; the label of the VM is dropped only if it names
this host. -/
def release (occupancy : Occupancy α) (host : String) (vm : Vm α) : Occupancy α :=
  let kept := occupancy.setResidents host ((occupancy.residents host).filter (·.id != vm.id))
  if occupancy.home vm.key = some host then kept.setHome vm none else kept

@[simp] theorem residents_setHome (occupancy : Occupancy α) (vm : Vm α) (host : Option String) :
    (occupancy.setHome vm host).residents = occupancy.residents := rfl

@[simp] theorem home_setResidents (occupancy : Occupancy α) (host : String) (vms : List (Vm α)) :
    (occupancy.setResidents host vms).home = occupancy.home := rfl

theorem residents_place (occupancy : Occupancy α) (host : String) (vm : Vm α) (id : String) :
    (occupancy.place host vm).residents id =
      if id = host then occupancy.residents host ++ [vm] else occupancy.residents id := rfl

theorem residents_release (occupancy : Occupancy α) (host : String) (vm : Vm α) (id : String) :
    (occupancy.release host vm).residents id =
      if id = host then (occupancy.residents host).filter (·.id != vm.id)
      else occupancy.residents id := by
  unfold release
  split <;> rfl

theorem home_place (occupancy : Occupancy α) (host : String) (vm : Vm α) (key : VmKey) :
    (occupancy.place host vm).home key =
      if key = vm.key then some host else occupancy.home key := rfl

variable [Scalar α]

def accept (occupancy : Occupancy α) (machine : Machine α) (vm : Vm α) (check : Bool := true) :
    Except (Fault α) (Occupancy α) :=
  match (occupancy.host machine).refusal? vm check with
  | some fault => .error fault
  | none => .ok (occupancy.place machine.id vm)

end Occupancy

structure Cluster (α : Type) where
  machines : List (Machine α)
  distinct : (machines.map (·.id)).Nodup
  occupancy : Occupancy α

namespace Cluster

variable {α : Type}

def hosts (cluster : Cluster α) : List (Host α) := cluster.machines.map cluster.occupancy.host

def host? (cluster : Cluster α) (id : String) : Option (Host α) :=
  cluster.hosts.find? (·.id == id)

def findHost (cluster : Cluster α) (id : String) : Except (Fault α) (Host α) :=
  (cluster.host? id).elim (.error (.unknown id)) .ok

/-- Every VM id once, in order of first residence, with the last resident of that id. -/
def allVms (cluster : Cluster α) : List (Vm α) :=
  Keyed.ofList (·.id) (cluster.hosts.flatMap (·.vms))

def labelled (occupancy : Occupancy α) (hosts : List (Host α)) : Occupancy α :=
  hosts.foldl (fun occupancy host =>
    host.vms.foldl (fun occupancy vm => occupancy.setHome vm host.id) occupancy) occupancy

/-- A later host replaces an earlier one with its id, in the place of the earlier one. -/
def ofHosts (hosts : List (Host α)) (home : VmKey → Option String) : Cluster α :=
  let kept := Keyed.ofList (·.id) hosts
  { machines := kept.map (·.toMachine)
    distinct := by
      have distinct := Keyed.nodup_ofList (fun host : Host α => host.id) hosts
      simpa [kept, List.map_map, Function.comp_def] using distinct
    occupancy :=
      labelled { residents := fun id => ((kept.find? (·.id == id)).map (·.vms)).getD [], home } hosts }

def setMachine (cluster : Cluster α) (machine : Machine α) : Cluster α :=
  { cluster with
    machines := cluster.machines.map fun old => if old.id = machine.id then machine else old
    distinct := by
      have same : (cluster.machines.map fun old =>
          if old.id = machine.id then machine else old).map (·.id) = cluster.machines.map (·.id) := by
        rw [List.map_map]
        apply List.map_congr_left
        intro old _
        by_cases h : old.id = machine.id <;> simp [h]
      rw [same]
      exact cluster.distinct }

def modifyVm (cluster : Cluster α) (key : VmKey) (change : Vm α → Vm α) : Cluster α :=
  let apply := fun vm : Vm α => if vm.key = key then change vm else vm
  { cluster with
    occupancy := cluster.machines.foldl (fun occupancy machine =>
      occupancy.setResidents machine.id ((occupancy.residents machine.id).map apply))
      cluster.occupancy }

end Cluster

end Fleet
