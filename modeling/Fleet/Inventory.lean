import Fleet.Flavor
import Fleet.Membership
import Fleet.Payload.Entry
import Fleet.Payload.Record

/-! Clusters from described hosts and VMs.

A VM is attached to the host it names, without a check of capacity; one that names no host is left out.
A VM described without a RAM size gets the reference size of its shape as stated.
-/

set_option autoImplicit false

namespace Fleet.Inventory

open Payload (Entry Fields HostRecord Value VmRecord)

def vmOf (serial : Nat) (record : VmRecord) : Vm Float where
  mips := record.mips
  cores := record.cores
  serial := serial
  id := record.id
  ramMb := record.ramMb
  samples := record.samples
  migrating := record.migrating

def numbered (first : Nat) (records : List VmRecord) : List (Vm Float) :=
  records.mapIdx fun position record => vmOf (first + position) record

def hostOf (power : PowerCurve Float) (record : HostRecord) (vms : List (Vm Float)) : Host Float where
  mips := record.mips
  cores := record.cores
  id := record.id
  ramMb := record.ramMb
  samples := record.samples
  arriving := record.arriving
  power := power
  vms := vms

def hostsOf : Nat → List (PowerCurve Float × HostRecord) → List (Host Float)
  | _, [] => []
  | first, (power, record) :: rest =>
      hostOf power record (numbered first record.vms) ::
        hostsOf (first + record.vms.length) rest

def nestedVms (hosts : List (PowerCurve Float × HostRecord)) : List VmRecord :=
  hosts.flatMap fun entry => entry.2.vms

def attach (host : Host Float) (vms : List (Vm Float × VmRecord)) : Host Float :=
  { host with
    vms := host.vms ++ (vms.filter fun entry => entry.2.home == some host.id).map (·.1) }

/-- Assembles a cluster. A VM keeps its stated home as label unless it is resident somewhere. -/
def assemble (hosts : List (PowerCurve Float × HostRecord)) (vms : List VmRecord) : Cluster Float :=
  let nested := nestedVms hosts
  let loose := (numbered nested.length vms).zip vms
  let records := nested ++ vms
  Cluster.ofHosts ((hostsOf 0 hosts).map (attach · loose))
    fun (_, serial) => records[serial]?.bind (·.home)

/-! Stated shapes -/

def statedMips : Option Value → Except (Fault Float) Float
  | none => .ok 0.0
  | some (.integer value) => (Number.ofInt? value).elim (.error .integerTooLarge) .ok
  | some (.decimal value) => .ok value
  | some (.boolean value) => .ok (if value then 1.0 else 0.0)
  | some _ => .error .wrongType

def statedCores : Option Value → Except (Fault Float) (CoreCount Float)
  | none => .ok (.whole 1)
  | some (.integer value) => .ok (.whole value)
  | some (.decimal value) => .ok (.decimal value)
  | some (.boolean value) => .ok (.whole (if value then 1 else 0))
  | some _ => .error .wrongType

def withRam (table : FlavorTable Float) (entry : Entry) : Except (Fault Float) Entry := do
  match entry.fields.lookup "ram_mb" with
  | none | some .null =>
      let mips ← statedMips (entry.fields.lookup "mips")
      let cores ← statedCores (entry.fields.lookup "pes")
      let ram ← table.referenceRam? mips cores
      pure { entry with fields := entry.fields.set "ram_mb" (ram.elim .null .decimal) }
  | some _ => pure entry

def readVm (table : FlavorTable Float) (value : Value) : Except (Fault Float) VmRecord := do
  let entry ← withRam table (← Entry.read value)
  VmRecord.read (← entry.recordFields)

/-- The curve of that name; an unknown name stands for the first server. -/
def powerOf : Option Value → Except (Fault Float) (PowerCurve Float)
  | some (.list _) | some (.object _) => .error .wrongType
  | some (.text name) => .ok ((PowerCurve.named? Float name).getD (PowerCurve.xeonE5 Float))
  | _ => .ok (PowerCurve.xeonE5 Float)

def readHost (value : Value) : Except (Fault Float) (PowerCurve Float × HostRecord) := do
  let entry ← Entry.read value
  let power ← powerOf (entry.fields.lookup "power_model")
  pure (power, ← HostRecord.read (← entry.recordFields))

def load (table : FlavorTable Float) (hosts vms : Value) : Except (Fault Float) (Cluster Float) := do
  let hosts ← (← hosts.iterate).mapM readHost
  let vms ← (← vms.iterate).mapM (readVm table)
  pure (assemble hosts vms)

end Fleet.Inventory
