import Fleet.Proofs.Inventory
import Fleet.Proofs.Membership

/-! Where the VMs of a loaded inventory reside.

VMs come in two ways: described inside a host, or beside the hosts with the id of one. Loading does not
ask whether a VM has come in already. Ids are therefore those of one VM each only if the inventory
gives each of them once.
-/

set_option autoImplicit false

namespace Fleet

/-! Clusters in which ids are unambiguous -/

namespace Cluster

variable {α : Type} {cluster : Cluster α}

/-- An id is on one host at most and once there, and wherever the VM of that id is looked up, it is
found there. -/
structure Unambiguous (cluster : Cluster α) : Prop where
  once : ∀ host ∈ cluster.hosts, host.vmIds.Nodup
  apart : ∀ first ∈ cluster.hosts, ∀ second ∈ cluster.hosts, ∀ id ∈ first.vmIds,
    id ∈ second.vmIds → first = second
  listed : cluster.allVms = cluster.residents
  captured : ∀ host ∈ cluster.hosts, ∀ id,
    (Membership.capture cluster).hostOf id = some host.id ↔ id ∈ host.vmIds ∧ id ∉ host.arriving

theorem hostOf_capture (distinct : cluster.DistinctVms) {host : Host α}
    (member : host ∈ cluster.hosts) (id : String) :
    (Membership.capture cluster).hostOf id = some host.id ↔
      id ∈ host.vmIds ∧ id ∉ host.arriving := by
  have row : (host.id, host.vmIds.filter (· ∉ host.arriving)) ∈ (Membership.capture cluster).rows :=
    List.mem_map_of_mem member
  rw [(Membership.orderly_capture distinct).hostOf_eq_iff row]
  simp

theorem unambiguous_iff : cluster.Unambiguous ↔ cluster.DistinctVms where
  mp unambiguous := distinctVms_iff.mpr ⟨unambiguous.once, unambiguous.apart⟩
  mpr distinct :=
    { once := (distinctVms_iff.mp distinct).1
      apart := (distinctVms_iff.mp distinct).2
      listed := distinct.allVms_eq
      captured := fun _ member => hostOf_capture distinct member }

end Cluster

namespace Inventory

open Payload (HostRecord Value VmRecord)

variable {records : List VmRecord}

/-! Residents by their ids -/

/-- The ids that a host gets: of the VMs described inside it, and of those that name it. -/
def idsOn (records : List VmRecord) (host : HostRecord) : List String :=
  host.vms.map (·.id) ++ (records.filter (·.home == some host.id)).map (·.id)

/-- The ids on all hosts. Of hosts that share an id, the last one is kept. -/
def residentIds (entries : List (PowerCurve Float × HostRecord)) (records : List VmRecord) :
    List String :=
  (Keyed.ofList (fun entry : PowerCurve Float × HostRecord => entry.2.id) entries).flatMap
    fun entry => idsOn records entry.2

theorem numbered_cons (first : Nat) (record : VmRecord) (records : List VmRecord) :
    numbered first (record :: records) = vmOf first record :: numbered (first + 1) records := by
  unfold numbered
  rw [List.mapIdx_cons]
  simp only [Nat.add_zero, Nat.add_right_comm, Nat.add_assoc]

theorem ids_numbered (first : Nat) (records : List VmRecord) :
    (numbered first records).map (·.id) = records.map (·.id) := by
  induction records generalizing first with
  | nil => rfl
  | cons record rest ih =>
    rw [numbered_cons, List.map_cons, ih]
    rfl

theorem ids_attach (host : Host Float) (first : Nat) (records : List VmRecord) :
    (attach host ((numbered first records).zip records)).vmIds =
      host.vmIds ++ (records.filter (·.home == some host.id)).map (·.id) := by
  have loose (first : Nat) :
      ((((numbered first records).zip records).filter
        fun entry => entry.2.home == some host.id).map (·.1)).map (·.id) =
        (records.filter (·.home == some host.id)).map (·.id) := by
    induction records generalizing first with
    | nil => rfl
    | cons record rest ih =>
      rw [numbered_cons, List.zip_cons_cons, List.filter_cons, List.filter_cons]
      dsimp only
      split
      · rw [List.map_cons, List.map_cons, List.map_cons, ih]
        rfl
      · exact ih (first + 1)
  unfold attach Host.vmIds
  rw [List.map_append, loose]

theorem ids_hostsOf (first : Nat) (loose : Nat)
    (entries : List (PowerCurve Float × HostRecord)) :
    ((hostsOf first entries).map (attach · ((numbered loose records).zip records))).map
        (fun host => (host.id, host.vmIds)) =
      entries.map fun entry => (entry.2.id, idsOn records entry.2) := by
  induction entries generalizing first with
  | nil => rfl
  | cons entry rest ih =>
    obtain ⟨power, record⟩ := entry
    unfold hostsOf
    simp only [List.map_cons]
    rw [ih, ids_attach]
    have nested : (hostOf power record (numbered first record.vms)).vmIds = record.vms.map (·.id) :=
      ids_numbered first record.vms
    rw [nested]
    rfl

theorem ids_residents (entries : List (PowerCurve Float × HostRecord)) (records : List VmRecord) :
    (assemble entries records).residents.map (·.id) = residentIds entries records := by
  have rows : (assemble entries records).hosts.map (fun host => (host.id, host.vmIds)) =
      (Keyed.ofList (fun entry : PowerCurve Float × HostRecord => entry.2.id) entries).map
        fun entry => (entry.2.id, idsOn records entry.2) := by
    have hostRows (hosts : List (Host Float)) :
        Keyed.ofList Prod.fst (hosts.map fun host => (host.id, host.vmIds)) =
          (Keyed.ofList (·.id) hosts).map fun host => (host.id, host.vmIds) :=
      Keyed.ofList_map (fun _ _ => Iff.rfl) hosts
    have entryRows :
        Keyed.ofList Prod.fst (entries.map fun entry => (entry.2.id, idsOn records entry.2)) =
          (Keyed.ofList (fun entry : PowerCurve Float × HostRecord => entry.2.id) entries).map
            fun entry => (entry.2.id, idsOn records entry.2) :=
      Keyed.ofList_map (fun _ _ => Iff.rfl) entries
    unfold assemble
    rw [Cluster.hosts_ofHosts, ← hostRows, ids_hostsOf, entryRows]
  have ids := congrArg (List.flatMap Prod.snd) rows
  rw [List.flatMap_map, List.flatMap_map] at ids
  unfold Cluster.residents residentIds
  rw [List.map_flatMap]
  exact ids

/-- Every inventory that can be read is loaded. In the cluster each id is that of one VM exactly if the
inventory brings no id to the hosts twice. -/
theorem load_unambiguous_iff (table : FlavorTable Float) (hosts vms : Value)
    (cluster : Cluster Float) :
    load table hosts vms = .ok cluster ↔
      ∃ entries records, Described table hosts vms entries records ∧
        cluster = assemble entries records ∧
        (cluster.Unambiguous ↔ (residentIds entries records).Nodup) := by
  rw [load_eq_ok_iff]
  constructor
  · rintro ⟨entries, records, described, rfl⟩
    refine ⟨entries, records, described, rfl, ?_⟩
    rw [Cluster.unambiguous_iff, Cluster.DistinctVms, ids_residents]
  · rintro ⟨entries, records, described, rfl, -⟩
    exact ⟨entries, records, described, rfl⟩

/-- A VM described inside one host, and again beside the hosts with the id of another. -/
example :
    let vm (home : List (String × Value)) : Value :=
      .object (home ++ [("vm_id", .text "v"), ("mips", .integer 250), ("ram_mb", .integer 1024)])
    let host (id : String) (vms : List Value) : Value :=
      .object [("host_id", .text id), ("mips", .integer 250), ("ram_mb", .integer 4096),
        ("vms", .list vms)]
    (load .reference (.list [host "a" [vm []], host "b" []])
        (.list [vm [("host_id", .text "b")]])).toOption.map
      (fun cluster => (cluster.hosts.map (·.vmIds), cluster.allVms.map (·.id))) =
        some ([["v"], ["v"]], ["v"]) := by
  decide +kernel

end Inventory

end Fleet
