import Fleet.Host
import Fleet.Sieve
import Mathlib.Data.List.Basic

/-! Other names for VMs and hosts.

A rule decides alike under other names if it comes to the same result, in these names. A fault of a
rule may name a VM, but it is never that of a host that refuses one: rules only look.
-/

set_option autoImplicit false

namespace Fleet

/-- New ids, different ones for different VMs and for different hosts. -/
structure Renaming where
  vm : String → String
  host : String → String
  vm_injective : Function.Injective vm
  host_injective : Function.Injective host

variable {α : Type}

def Vm.renamed (names : Renaming) (vm : Vm α) : Vm α := { vm with id := names.vm vm.id }

def Machine.renamed (names : Renaming) (machine : Machine α) : Machine α :=
  { machine with id := names.host machine.id, arriving := machine.arriving.map names.vm }

def Host.renamed (names : Renaming) (host : Host α) : Host α :=
  { toMachine := host.toMachine.renamed names, vms := host.vms.map (Vm.renamed names) }

def Fault.renamed (names : Renaming) : Fault α → Fault α
  | unknownShape vm shape index nearest distance =>
      unknownShape (names.vm vm) shape index nearest distance
  | refused host vm reason none => refused (names.host host) (names.vm vm) reason none
  | refused host vm reason (some first) =>
      refused (names.host host) (names.vm vm) reason (some (first.renamed names))
  | unknown id => unknown (names.host id)
  | fault => fault

variable {names : Renaming}

@[simp] theorem Fault.kind_renamed (fault : Fault α) :
    (fault.renamed names).kind = fault.kind := by
  unfold renamed
  split <;> rfl

@[simp] theorem Machine.id_renamed (machine : Machine α) :
    (machine.renamed names).id = names.host machine.id := rfl

@[simp] theorem Host.toMachine_renamed (host : Host α) :
    (host.renamed names).toMachine = host.toMachine.renamed names := rfl

@[simp] theorem Host.vms_renamed (host : Host α) :
    (host.renamed names).vms = host.vms.map (Vm.renamed names) := rfl

theorem Vm.ids_renamed (vms : List (Vm α)) :
    (vms.map (Vm.renamed names)).map (·.id) = (vms.map (·.id)).map names.vm := by
  rw [List.map_map, List.map_map]
  rfl

@[simp] theorem Host.vmIds_renamed (host : Host α) :
    (host.renamed names).vmIds = host.vmIds.map names.vm := Vm.ids_renamed host.vms

@[simp] theorem Vm.id_renamed (vm : Vm α) : (vm.renamed names).id = names.vm vm.id := rfl

@[simp] theorem Vm.samples_renamed (vm : Vm α) : (vm.renamed names).samples = vm.samples := rfl

@[simp] theorem Vm.ramMb_renamed (vm : Vm α) : (vm.renamed names).ramMb = vm.ramMb := rfl

@[simp] theorem Vm.migrating_renamed (vm : Vm α) :
    (vm.renamed names).migrating = vm.migrating := rfl

namespace Renaming

@[simp] theorem vm_mem {id : String} {ids : List String} :
    names.vm id ∈ ids.map names.vm ↔ id ∈ ids := List.mem_map_of_injective names.vm_injective

@[simp] theorem host_mem {id : String} {ids : List String} :
    names.host id ∈ ids.map names.host ↔ id ∈ ids := List.mem_map_of_injective names.host_injective

@[simp] theorem vm_eq {first second : String} :
    names.vm first = names.vm second ↔ first = second := names.vm_injective.eq_iff

@[simp] theorem host_eq {first second : String} :
    names.host first = names.host second ↔ first = second := names.host_injective.eq_iff

protected def id : Renaming := ⟨fun id => id, fun id => id, fun _ _ same => same, fun _ _ same => same⟩

end Renaming

/-- The second computation is the first one under the new names. -/
inductive Alike {Result Renamed : Type} (names : Renaming) (rename : Result → Renamed) :
    Except (Fault α) Result → Except (Fault α) Renamed → Prop
  | ok (result : Result) : Alike names rename (.ok result) (.ok (rename result))
  | error (fault : Fault α) : fault.kind ≠ .capacity →
      Alike names rename (.error fault) (.error (fault.renamed names))

namespace Alike

variable {Item Other Result Renamed : Type} {rename : Result → Renamed}

theorem pure (result : Result) :
    Alike names rename (pure result : Except (Fault α) Result) (pure (rename result)) := .ok result

theorem bind {other : Item → Other} {first : Except (Fault α) Item}
    {second : Except (Fault α) Other} {next : Item → Except (Fault α) Result}
    {after : Other → Except (Fault α) Renamed} (alike : Alike names other first second)
    (later : ∀ item, Alike names rename (next item) (after (other item))) :
    Alike names rename (first >>= next) (second >>= after) := by
  cases alike with
  | ok item => exact later item
  | error fault calm => exact .error fault calm

theorem mapM {other : Item → Other} {read : Item → Except (Fault α) Result}
    {readOther : Other → Except (Fault α) Renamed}
    (each : ∀ item, Alike names rename (read item) (readOther (other item))) (items : List Item) :
    Alike names (List.map rename) (items.mapM read) ((items.map other).mapM readOther) := by
  induction items with
  | nil => exact .ok []
  | cons item rest ih =>
    rw [List.map_cons, List.mapM_cons, List.mapM_cons]
    exact (each item).bind fun result => ih.bind fun others => .ok (result :: others)

theorem foldlM {other : Item → Other} {step : Result → Item → Except (Fault α) Result}
    {stepOther : Renamed → Other → Except (Fault α) Renamed}
    (each : ∀ result item,
      Alike names rename (step result item) (stepOther (rename result) (other item)))
    (items : List Item) (start : Result) :
    Alike names rename (items.foldlM step start)
      ((items.map other).foldlM stepOther (rename start)) := by
  induction items generalizing start with
  | nil => exact .ok start
  | cons item rest ih =>
    rw [List.map_cons, List.foldlM_cons, List.foldlM_cons]
    exact (each start item).bind ih

theorem foldlM_id {other : Item → Other} {step : Result → Item → Except (Fault α) Result}
    {stepOther : Result → Other → Except (Fault α) Result}
    (each : ∀ result item, Alike names id (step result item) (stepOther result (other item)))
    (items : List Item) (start : Result) :
    Alike names id (items.foldlM step start) ((items.map other).foldlM stepOther start) :=
  foldlM each items start

theorem sieve {other : Item → Other} {test : Item → Except (Fault α) Bool}
    {testOther : Other → Except (Fault α) Bool}
    (each : ∀ item, Alike names id (test item) (testOther (other item))) (items : List Item) :
    Alike names (List.map other) (sieve test items) (Fleet.sieve testOther (items.map other)) := by
  induction items with
  | nil => exact .ok []
  | cons item rest ih =>
    refine (each item).bind fun passed => ih.bind fun others => ?_
    cases passed with
    | true => exact .ok (item :: others)
    | false => exact .ok others

end Alike

end Fleet
