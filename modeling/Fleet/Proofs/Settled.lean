import Fleet.Cluster
import Fleet.Proofs.Keyed

/-! Clusters in which every VM is on one host, once, and knows which.

Building a cluster settles it, and planning keeps it settled where nothing is migrating in. A VM that
is put back on its host as one that is migrating in is not labelled again.
-/

set_option autoImplicit false

namespace Fleet

namespace Cluster

variable {α : Type} {cluster : Cluster α}

def residents (cluster : Cluster α) : List (Vm α) := cluster.hosts.flatMap (·.vms)

/-- The VM is on the host of that id. -/
def Holds (cluster : Cluster α) (host : String) (vm : Vm α) : Prop :=
  ∃ machine ∈ cluster.machines, machine.id = host ∧ vm ∈ cluster.occupancy.residents host

theorem mem_residents {vm : Vm α} :
    vm ∈ cluster.residents ↔
      ∃ machine ∈ cluster.machines, vm ∈ cluster.occupancy.residents machine.id := by
  simp [residents, hosts, Occupancy.host]

theorem machine_eq_of_id {first second : Machine α} (firstMem : first ∈ cluster.machines)
    (secondMem : second ∈ cluster.machines) (same : first.id = second.id) : first = second :=
  List.inj_on_of_nodup_map cluster.distinct firstMem secondMem same

theorem nodup_hosts (cluster : Cluster α) : (cluster.hosts.map (·.id)).Nodup := by
  simpa [hosts, List.map_map, Function.comp_def, Occupancy.host] using cluster.distinct

theorem machines_hosts (cluster : Cluster α) :
    cluster.hosts.map (·.toMachine) = cluster.machines := by
  unfold hosts
  rw [List.map_map]
  exact List.map_id cluster.machines

theorem host?_eq {machine : Machine α} (member : machine ∈ cluster.machines) :
    cluster.host? machine.id = some (cluster.occupancy.host machine) :=
  Keyed.find_eq cluster.nodup_hosts (List.mem_map_of_mem member)

def DistinctVms (cluster : Cluster α) : Prop := (cluster.residents.map (·.id)).Nodup

theorem distinctVms_iff :
    cluster.DistinctVms ↔ (∀ host ∈ cluster.hosts, host.vmIds.Nodup) ∧
      ∀ first ∈ cluster.hosts, ∀ second ∈ cluster.hosts, ∀ id ∈ first.vmIds,
        id ∈ second.vmIds → first = second := by
  unfold DistinctVms residents
  rw [List.map_flatMap]
  constructor
  · intro distinct
    exact ⟨(List.nodup_flatMap.mp distinct).1, fun first firstMem second secondMem id here there =>
      Keyed.part_eq distinct firstMem secondMem here there⟩
  · rintro ⟨once, apart⟩
    apply List.nodup_flatMap.mpr
    refine ⟨once, cluster.nodup_hosts.of_map.pairwise_of_forall_ne ?_⟩
    intro first firstMem second secondMem different id here there
    exact different (apart first firstMem second secondMem id here there)

namespace DistinctVms

variable (distinct : cluster.DistinctVms)
include distinct

theorem eq_of_id {vm other : Vm α} (vmMem : vm ∈ cluster.residents)
    (otherMem : other ∈ cluster.residents) (same : vm.id = other.id) : vm = other :=
  List.inj_on_of_nodup_map distinct vmMem otherMem same

theorem eq_of_key {vm other : Vm α} (vmMem : vm ∈ cluster.residents)
    (otherMem : other ∈ cluster.residents) (same : vm.key = other.key) : vm = other :=
  distinct.eq_of_id vmMem otherMem (congrArg Prod.fst same)

theorem nodup_ids {machine : Machine α} (member : machine ∈ cluster.machines) :
    ((cluster.occupancy.residents machine.id).map (·.id)).Nodup :=
  (distinctVms_iff.mp distinct).1 _ (List.mem_map_of_mem member)

theorem machine_eq {first second : Machine α} (firstMem : first ∈ cluster.machines)
    (secondMem : second ∈ cluster.machines) {vm : Vm α}
    (onFirst : vm ∈ cluster.occupancy.residents first.id)
    (onSecond : vm ∈ cluster.occupancy.residents second.id) : first = second := by
  unfold DistinctVms residents hosts at distinct
  rw [List.flatMap_map] at distinct
  exact Keyed.part_eq distinct.of_map firstMem secondMem onFirst onSecond

theorem allVms_eq : cluster.allVms = cluster.residents := Keyed.ofList_eq_self distinct

end DistinctVms

/-- The VM is labelled with the host it is on. -/
def Labelled (cluster : Cluster α) (vm : Vm α) : Prop :=
  ∀ host, cluster.Holds host vm → cluster.occupancy.home vm.key = some host

theorem DistinctVms.labelled_iff (distinct : cluster.DistinctVms) {machine : Machine α}
    (member : machine ∈ cluster.machines) {vm : Vm α}
    (resident : vm ∈ cluster.occupancy.residents machine.id) :
    cluster.Labelled vm ↔ cluster.occupancy.home vm.key = some machine.id := by
  refine ⟨fun labelled => labelled _ ⟨machine, member, rfl, resident⟩, ?_⟩
  rintro home _ ⟨other, otherMem, rfl, there⟩
  exact distinct.machine_eq otherMem member there resident ▸ home

def Quiet (cluster : Cluster α) : Prop :=
  ∀ machine ∈ cluster.machines, ∀ vm ∈ cluster.occupancy.residents machine.id,
    vm.id ∉ machine.arriving

/-- No two residents share an id, and each is labelled with the host it is on. -/
structure Settled (cluster : Cluster α) : Prop where
  distinct : cluster.DistinctVms
  labelled : ∀ vm, cluster.Labelled vm

/-! Building a cluster settles it -/

theorem home_setHomes (occupancy : Occupancy α) (host : String) (vms : List (Vm α)) (key : VmKey) :
    (vms.foldl (fun occupancy vm => occupancy.setHome vm (some host)) occupancy).home key =
      if key ∈ vms.map Vm.key then some host else occupancy.home key := by
  induction vms generalizing occupancy with
  | nil => simp
  | cons vm rest ih =>
    rw [List.foldl_cons, ih]
    by_cases later : key ∈ rest.map Vm.key
    · simp [later]
    · by_cases same : key = vm.key <;> simp [Occupancy.setHome, later, same]

theorem home_labelled_of_notMem (occupancy : Occupancy α) {hosts : List (Host α)} {key : VmKey}
    (absent : key ∉ (hosts.flatMap (·.vms)).map Vm.key) :
    (labelled occupancy hosts).home key = occupancy.home key := by
  induction hosts generalizing occupancy with
  | nil => rfl
  | cons host rest ih =>
    rw [List.flatMap_cons, List.map_append, List.mem_append, not_or] at absent
    refine (ih _ absent.2).trans ?_
    rw [home_setHomes, if_neg absent.1]

theorem home_labelled (occupancy : Occupancy α) {hosts : List (Host α)}
    (distinct : ((hosts.flatMap (·.vms)).map Vm.key).Nodup) {host : Host α} (member : host ∈ hosts)
    {vm : Vm α} (resident : vm ∈ host.vms) :
    (labelled occupancy hosts).home vm.key = some host.id := by
  induction hosts generalizing occupancy with
  | nil => cases member
  | cons first rest ih =>
    rw [List.flatMap_cons, List.map_append, List.nodup_append] at distinct
    rcases List.mem_cons.mp member with rfl | later
    · have absent : vm.key ∉ (rest.flatMap (·.vms)).map Vm.key := fun again =>
        distinct.2.2 _ (List.mem_map_of_mem resident) _ again rfl
      refine (home_labelled_of_notMem _ absent).trans ?_
      rw [home_setHomes, if_pos (List.mem_map_of_mem resident)]
    · exact ih _ distinct.2.1 later

theorem residents_labelled (occupancy : Occupancy α) (hosts : List (Host α)) :
    (labelled occupancy hosts).residents = occupancy.residents := by
  unfold labelled
  induction hosts generalizing occupancy with
  | nil => rfl
  | cons host rest ih =>
    rw [List.foldl_cons, ih]
    generalize host.vms = vms
    induction vms generalizing occupancy with
    | nil => rfl
    | cons vm others ih => exact ih (occupancy.setHome vm (some host.id))

theorem hosts_ofHosts (hosts : List (Host α)) (home : VmKey → Option String) :
    (ofHosts hosts home).hosts = Keyed.ofList (·.id) hosts := by
  have distinct := Keyed.nodup_ofList (fun host : Host α => host.id) hosts
  unfold Cluster.hosts ofHosts
  dsimp only
  rw [List.map_map]
  conv_rhs => rw [← List.map_id (Keyed.ofList (·.id) hosts)]
  refine List.map_congr_left fun host member => ?_
  simp only [Function.comp_apply, Occupancy.host, residents_labelled, id_eq]
  rw [Keyed.find_eq distinct member]
  rfl

theorem settled_ofHosts {hosts : List (Host α)} (home : VmKey → Option String)
    (distinct : ((hosts.flatMap (·.vms)).map (·.id)).Nodup) : (ofHosts hosts home).Settled := by
  have kept : ∀ host ∈ (ofHosts hosts home).hosts, host ∈ hosts := fun host member =>
    Keyed.mem_of_mem_ofList (hosts_ofHosts hosts home ▸ member)
  constructor
  · have apart := distinct
    rw [List.map_flatMap] at apart
    apply distinctVms_iff.mpr
    exact ⟨fun host member => (List.nodup_flatMap.mp apart).1 host (kept host member),
      fun first firstMem second secondMem id here there =>
        Keyed.part_eq apart (kept first firstMem) (kept second secondMem) here there⟩
  -- ids differ, so keys do, and the last label a VM is given is that of its only host
  · rintro vm _ ⟨machine, member, rfl, resident⟩
    have keys : ((hosts.flatMap (·.vms)).map Vm.key).Nodup :=
      .of_map Prod.fst (by rw [List.map_map]; exact distinct)
    have present : (ofHosts hosts home).occupancy.host machine ∈ (ofHosts hosts home).hosts :=
      List.mem_map_of_mem member
    exact home_labelled _ keys (kept _ present) resident

end Cluster

end Fleet
