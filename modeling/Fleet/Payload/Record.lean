import Fleet.Membership
import Fleet.Payload.Value
import Fleet.Tick

/-! The records that payloads describe: VMs, hosts, whole inventories, moves and ticks. -/

set_option autoImplicit false

namespace Fleet.Payload

structure VmRecord where
  id : String
  mips : Float
  cores : Int
  ramMb : Float
  samples : List Float
  migrating : Bool
  home : Option String

structure HostRecord where
  id : String
  mips : Float
  cores : Int
  ramMb : Float
  vms : List VmRecord
  samples : List Float
  arriving : List String

structure InventoryRecord where
  hosts : List Fields
  vms : List Fields
  tick : Option Float

namespace VmRecord

def ofFields (fields : Fields) : Checked VmRecord :=
  VmRecord.mk <$> fields.required "vm_id" Value.toText
    <*> fields.required "mips" Value.toNumber
    <*> fields.optional "pes" 1 Value.toInteger
    <*> fields.required "ram_mb" Value.toNumber
    <*> fields.optional "utilization_history" [] Value.toSamples
    <*> fields.optional "in_migration" false Value.toBoolean
    <*> fields.optional "host_id" none (Value.toOptional Value.toText)

def ofValue : Value → Checked VmRecord
  | .object fields => ofFields fields
  | _ => .fail (.notRecord "VM")

def read (fields : Fields) : Except (Fault Float) VmRecord :=
  (ofFields fields).orFault (.invalid "VM")

end VmRecord

namespace HostRecord

def ofFields (fields : Fields) : Checked HostRecord :=
  HostRecord.mk <$> fields.required "host_id" Value.toText
    <*> fields.required "mips" Value.toNumber
    <*> fields.optional "pes" 1 Value.toInteger
    <*> fields.required "ram_mb" Value.toNumber
    <*> fields.optional "vms" [] (Value.toList VmRecord.ofValue)
    <*> fields.optional "utilization_history" [] Value.toSamples
    <*> fields.optional "vms_migrating_in" [] Value.toIdSet

def read (fields : Fields) : Except (Fault Float) HostRecord :=
  (ofFields fields).orFault (.invalid "Host")

end HostRecord

namespace InventoryRecord

def ofFields (fields : Fields) : Checked InventoryRecord :=
  InventoryRecord.mk <$> fields.required "hosts" (Value.toList Value.toFields)
    <*> fields.required "vms" (Value.toList Value.toFields)
    <*> fields.optional "tick" none (Value.toOptional Value.toNumber)

def read (value : Value) : Except (Fault Float) InventoryRecord :=
  Checked.orFault (.invalid "Inventory") <|
    match value with
    | .object fields => ofFields fields
    | _ => .fail (.notRecord "Inventory")

end InventoryRecord

def readMove (fields : Fields) : Except (Fault Float) Move :=
  let checked := Move.mk <$> fields.required "vm_id" Value.toText
    <*> fields.required "source_host_id" Value.toText
    <*> fields.required "destination_host_id" Value.toText
  checked.orFault (.invalid "MigrationAction")

def unstampedText? : Value → Option String
  | .text text => if (Number.readGroupedDecimal? text).isNone then some text else none
  | _ => none

def readTick (value : Value) : Except (Fault Float) (Tick Float) := do
  let number ← ((Value.toNumber value).within "tick").orFault (.invalid "CycleReport")
  pure ⟨number, unstampedText? value⟩

end Fleet.Payload
