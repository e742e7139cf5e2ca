import Fleet.Proofs.Plan.Reinstatement
import Fleet.Proofs.Renaming.Cycle

/-! Clusters and memberships under other names, and the way back to a membership. -/

set_option autoImplicit false

namespace Fleet

variable {α : Type} {names : Renaming}

/-! Clusters -/

theorem Renaming.find?_map {Item Other : Type} (other : Item → Other) {test : Other → Bool}
    {passes : Item → Bool} (same : ∀ item, test (other item) = passes item) (items : List Item) :
    (items.map other).find? test = (items.find? passes).map other := by
  rw [List.find?_map]
  congr 2
  funext item
  exact same item

structure Cluster.Renamed (names : Renaming) (first second : Cluster α) : Prop where
  machines : second.machines = first.machines.map (Machine.renamed names)
  occupancy : first.occupancy.Renamed names second.occupancy

namespace Cluster.Renamed

variable {first second : Cluster α} (renamed : first.Renamed names second)
include renamed

theorem hosts : second.hosts = first.hosts.map (Host.renamed names) := by
  unfold Cluster.hosts
  rw [renamed.machines, List.map_map, List.map_map]
  exact List.map_congr_left fun machine _ => renamed.occupancy.host_eq machine

theorem host?_eq (id : String) :
    second.host? (names.host id) = (first.host? id).map (Host.renamed names) := by
  unfold Cluster.host?
  rw [renamed.hosts]
  exact Renaming.find?_map _ (fun host => by simp [Bool.beq_eq_decide_eq]) _

theorem allVms : second.allVms = first.allVms.map (Vm.renamed names) := by
  have vms : second.hosts.flatMap (·.vms) =
      (first.hosts.flatMap (·.vms)).map (Vm.renamed names) := by
    rw [renamed.hosts, List.flatMap_map, List.map_flatMap]
    rfl
  unfold Cluster.allVms
  rw [vms]
  apply Keyed.ofList_map
  exact fun _ _ => Renaming.vm_eq

end Cluster.Renamed

theorem Occupancy.Renamed.setHomes {first second : Occupancy α} (same : first.Renamed names second)
    (host : String) (vms : List (Vm α)) :
    (vms.foldl (fun occupancy vm => occupancy.setHome vm host) first).Renamed names
      ((vms.map (Vm.renamed names)).foldl
        (fun occupancy vm => occupancy.setHome vm (names.host host)) second) := by
  induction vms generalizing first second with
  | nil => exact same
  | cons vm rest ih => exact ih (same.setHome vm (some host))

theorem Occupancy.Renamed.labelled {first second : Occupancy α} (same : first.Renamed names second)
    (hosts : List (Host α)) :
    (Cluster.labelled first hosts).Renamed names
      (Cluster.labelled second (hosts.map (Host.renamed names))) := by
  unfold Cluster.labelled
  induction hosts generalizing first second with
  | nil => exact same
  | cons host rest ih => exact ih (same.setHomes host.id host.vms)

theorem Cluster.renamed_ofHosts (hosts : List (Host α)) {home homeOther : VmKey → Option String}
    (labels : ∀ vm serial, homeOther (names.vm vm, serial) = (home (vm, serial)).map names.host) :
    (ofHosts hosts home).Renamed names (ofHosts (hosts.map (Host.renamed names)) homeOther) := by
  have kept : Keyed.ofList (fun host : Host α => host.id) (hosts.map (Host.renamed names)) =
      (Keyed.ofList (fun host : Host α => host.id) hosts).map (Host.renamed names) := by
    apply Keyed.ofList_map
    exact fun _ _ => Renaming.host_eq
  constructor
  · simp only [ofHosts, kept, List.map_map]
    rfl
  · refine Occupancy.Renamed.labelled ⟨fun id => ?_, labels⟩ hosts
    have found : ((Keyed.ofList (fun host : Host α => host.id) hosts).map
        (Host.renamed names)).find? (·.id == names.host id) =
        ((Keyed.ofList (fun host : Host α => host.id) hosts).find? (·.id == id)).map
          (Host.renamed names) :=
      Renaming.find?_map _ (fun host => by simp [Bool.beq_eq_decide_eq]) _
    simp only [kept, found]
    cases (Keyed.ofList (fun host : Host α => host.id) hosts).find? (·.id == id) <;> rfl

/-- A name that nothing is renamed to stands for an empty host, or for a VM without a label. -/
noncomputable def Occupancy.renamed (names : Renaming) (occupancy : Occupancy α) : Occupancy α where
  residents := Function.extend names.host
    (fun id => (occupancy.residents id).map (Vm.renamed names)) fun _ => []
  home key := Function.extend names.vm
    (fun vm => (occupancy.home (vm, key.2)).map names.host) (fun _ => none) key.1

theorem Occupancy.renamed_renames (names : Renaming) (occupancy : Occupancy α) :
    occupancy.Renamed names (occupancy.renamed names) where
  residents id := by
    dsimp only [Occupancy.renamed]
    rw [names.host_injective.extend_apply]
  home vm serial := by
    dsimp only [Occupancy.renamed]
    rw [names.vm_injective.extend_apply]

theorem Cluster.exists_renamed (names : Renaming) (cluster : Cluster α) :
    ∃ other, cluster.Renamed names other := by
  have distinct : ((cluster.machines.map (Machine.renamed names)).map (·.id)).Nodup := by
    have ids := cluster.distinct.map names.host_injective
    rwa [List.map_map] at ids ⊢
  exact ⟨⟨_, distinct, cluster.occupancy.renamed names⟩, rfl,
    cluster.occupancy.renamed_renames names⟩

/-! Memberships -/

namespace Membership

def renamed (names : Renaming) (membership : Membership) : Membership :=
  ⟨membership.rows.map fun row => (names.host row.1, row.2.map names.vm)⟩

theorem capture_renamed {first second : Cluster α} (same : first.Renamed names second) :
    capture second = (capture first).renamed names := by
  unfold capture renamed
  rw [same.hosts, List.map_map, List.map_map]
  congr 1
  refine List.map_congr_left fun host _ => ?_
  simp only [Function.comp_apply, Host.vmIds_renamed, List.filter_map]
  congr 3
  funext id
  have arriving : (host.renamed names).arriving = host.arriving.map names.vm := rfl
  simp only [Function.comp_apply, arriving, Renaming.vm_mem]

theorem vmsOf_renamed (membership : Membership) (host : String) :
    (membership.renamed names).vmsOf (names.host host) =
      (membership.vmsOf host).map names.vm := by
  unfold vmsOf renamed
  dsimp only
  induction membership.rows with
  | nil => rfl
  | cons row rest ih =>
    obtain ⟨id, vms⟩ := row
    by_cases here : host = id
    · subst here
      simp [List.lookup_cons_self]
    · have elsewhere : (names.host host == names.host id) = false := by simpa using here
      rw [List.map_cons, List.lookup_cons, List.lookup_cons, elsewhere, beq_false_of_ne here]
      exact ih

theorem hostOf_renamed (membership : Membership) (vm : String) :
    (membership.renamed names).hostOf (names.vm vm) =
      (membership.hostOf vm).map names.host := by
  unfold hostOf renamed
  rw [Renaming.find?_map _ (fun row => ?_), Option.map_map, Option.map_map]
  · rfl
  · rw [Bool.eq_iff_iff]
    simp

theorem remove_renamed (membership : Membership) (host vm : String) :
    (membership.renamed names).remove (names.host host) (names.vm vm) =
      (membership.remove host vm).renamed names := by
  simp only [remove, renamed, List.map_map]
  congr 1
  refine List.map_congr_left fun row _ => ?_
  simp only [Function.comp_apply, Renaming.host_eq]
  split
  · rw [List.map_erase names.vm_injective]
  · rfl

theorem add_renamed (membership : Membership) (host vm : String) :
    (membership.renamed names).add (names.host host) (names.vm vm) =
      (membership.add host vm).renamed names := by
  have known : (membership.rows.map fun row => (names.host row.1, row.2.map names.vm)).any
      (·.1 == names.host host) = membership.rows.any (·.1 == host) := by
    simp [Function.comp_def, Bool.beq_eq_decide_eq]
  simp only [add, renamed, known, List.map_map]
  split
  · congr 1
    rw [List.map_map]
    refine List.map_congr_left fun row _ => ?_
    simp only [Function.comp_apply, Renaming.host_eq]
    split
    · rw [List.map_append, List.map_singleton]
    · rfl
  · simp

theorem apply_alike (before current : Membership) (move : Move) :
    Alike names (renamed names) (before.apply current move : Except (Fault α) Membership)
      ((before.renamed names).apply (current.renamed names) (move.renamed names)) := by
  unfold apply
  simp only [Move.renamed, hostOf_renamed]
  cases before.hostOf move.vm with
  | none =>
    rw [Option.map_none, add_renamed]
    exact .ok _
  | some source =>
    have present : ((current.renamed names).vmsOf (names.host source)).contains (names.vm move.vm) =
        (current.vmsOf source).contains move.vm := by
      rw [vmsOf_renamed, Bool.eq_iff_iff]
      simp
    simp only [Option.map_some, present, remove_renamed, add_renamed]
    split
    · exact .ok _
    · exact .error .notMember (by simp [Fault.kind])

theorem after_alike (membership : Membership) (moves : List Move) :
    Alike names (renamed names) (membership.after moves : Except (Fault α) Membership)
      ((membership.renamed names).after (moves.map (Move.renamed names))) :=
  .foldlM membership.apply_alike moves membership

end Membership

end Fleet
