import Fleet.Proofs.Plan.Advice
import Fleet.Proofs.Plan.Inspection
import Fleet.Proofs.Plan.Tracking

/-! What victim selection does: it takes VMs off their hosts, and nothing else. -/

set_option autoImplicit false

namespace Fleet.Plan

open Step

variable {α State : Type} {cluster : Cluster α} {now : Occupancy α}

/-- The VMs, each beside the host it was on, have left; all others are where they were. -/
structure Evicted (cluster : Cluster α) (pairs : List (Vm α × String)) (now : Occupancy α) :
    Prop where
  tracked : Tracked cluster now
  adrift : Adrift cluster now (pairs.map (·.1))
  origin : ∀ pair ∈ pairs, cluster.Holds pair.2 pair.1 ∧ pair.1.migrating = false
  remaining : ∀ machine ∈ cluster.machines, now.residents machine.id =
    (cluster.occupancy.residents machine.id).filter fun vm => vm.id ∉ pairs.map (·.1.id)
  home : ∀ vm : Vm α, vm.id ∉ pairs.map (·.1.id) →
    now.home vm.key = cluster.occupancy.home vm.key

namespace Evicted

theorem nil (distinct : cluster.DistinctVms) : Evicted cluster [] cluster.occupancy where
  tracked := distinct.tracked
  adrift := .nil cluster cluster.occupancy
  origin _ absent := by cases absent
  remaining machine _ := by simp
  home _ _ := rfl

variable {pairs : List (Vm α × String)} (evicted : Evicted cluster pairs now)
include evicted

theorem once : (pairs.map (·.1.id)).Nodup := by
  simpa [Function.comp_def] using evicted.adrift.once

theorem residents_eq (distinct : cluster.DistinctVms) {machine : Machine α}
    (member : machine ∈ cluster.machines) (calm : ∀ pair ∈ pairs, pair.2 ≠ machine.id) :
    now.residents machine.id = cluster.occupancy.residents machine.id := by
  rw [evicted.remaining machine member]
  refine List.filter_eq_self.mpr fun vm resident => decide_eq_true fun gone => ?_
  obtain ⟨pair, pairMem, same⟩ := List.mem_map.mp gone
  obtain ⟨⟨source, sourceMem, sourceId, sourceRes⟩, _⟩ := evicted.origin pair pairMem
  rw [← sourceId] at sourceRes
  have known := Cluster.mem_residents.mpr ⟨machine, member, resident⟩
  have leftKnown := Cluster.mem_residents.mpr ⟨source, sourceMem, sourceRes⟩
  rw [distinct.eq_of_id leftKnown known same] at sourceRes
  obtain rfl := distinct.machine_eq sourceMem member sourceRes resident
  exact calm pair pairMem sourceId.symm

theorem evict (distinct : cluster.DistinctVms) {machine : Machine α}
    (member : machine ∈ cluster.machines) {vm : Vm α} (resident : vm ∈ now.residents machine.id)
    (still : vm.migrating = false) :
    Evicted cluster (pairs ++ [(vm, machine.id)]) (now.release machine.id vm) where
  tracked := evicted.tracked.release distinct member resident
  adrift := by simpa using evicted.adrift.release evicted.tracked distinct member resident
  origin pair pairMem := by
    rcases List.mem_append.mp pairMem with before | added
    · exact evicted.origin pair before
    · obtain rfl := List.mem_singleton.mp added
      rw [evicted.remaining machine member] at resident
      exact ⟨⟨machine, member, rfl, (List.mem_filter.mp resident).1⟩, still⟩
  remaining other otherMem := by
    rw [Occupancy.residents_release]
    have here := resident
    rw [evicted.remaining machine member] at here
    have start := (List.mem_filter.mp here).1
    -- the host that the VM leaves has one resident less, and no other host ever had the VM
    split
    · next same =>
      obtain rfl := Cluster.machine_eq_of_id otherMem member same
      rw [evicted.remaining other otherMem, List.filter_filter]
      refine List.filter_congr fun old _ => Bool.eq_iff_iff.mpr ?_
      by_cases left : old.id = vm.id <;> simp [left]
    · next elsewhere =>
      rw [evicted.remaining other otherMem]
      refine List.filter_congr fun old oldMem => Bool.eq_iff_iff.mpr ?_
      have different : old.id ≠ vm.id := fun same => by
        have oldKnown := Cluster.mem_residents.mpr ⟨other, otherMem, oldMem⟩
        have known := evicted.tracked.known machine member vm resident
        obtain rfl := distinct.eq_of_id oldKnown known same
        exact elsewhere (congrArg _ (distinct.machine_eq otherMem member oldMem start))
      simp [different]
  home old stays := by
    rw [List.map_append, List.mem_append, not_or] at stays
    have different : old.key ≠ vm.key := fun same =>
      stays.2 (List.mem_singleton.mpr (congrArg Prod.fst same))
    rw [now.home_release_of_ne machine.id different, evicted.home old stays.1]

end Evicted

namespace Planner

variable [Scalar α] {planner : Planner α State} (reliable : planner.advisors.Reliable)
  (distinct : cluster.DistinctVms)
include reliable distinct

theorem relieve_evicts {machine : Machine α} (member : machine ∈ cluster.machines) (rounds : Nat)
    {pairs : List (Vm α × String)} {progress : Progress α State}
    (evicted : Evicted cluster pairs progress.occupancy) :
    (planner.relieve machine rounds).Ends progress
      (fun vms later => Evicted cluster (pairs ++ vms.map (·, machine.id)) later.occupancy)
      (fun _ later => ∃ left, Evicted cluster left later.occupancy) := by
  -- the pairs evicted so far grow with every round, on this host and on those before it
  induction rounds generalizing pairs progress with
  | zero => simpa [relieve] using evicted
  | succ rounds ih =>
    rw [relieve, ends_bind, ends_look, ends_bind, ends_ask]
    refine ⟨fun victim advisors answered => ?_, fun _ _ _ => ⟨pairs, evicted⟩⟩
    cases victim with
    | none => simpa using evicted
    | some vm =>
      obtain ⟨resident, still⟩ := reliable.victim answered
      have later := evicted.evict distinct member resident still
      rw [ends_bind, ends_release, ends_bind, ends_look, ends_bind, ends_ask]
      refine ⟨fun overloaded advisors _ => ?_, fun _ _ _ => ⟨_, later⟩⟩
      split
      · refine (ih later).bind fun vms last evicted => ?_
        simpa using evicted
      · simpa using later

theorem selectVictims_evicts {machines : List (Machine α)} (inside : machines ⊆ cluster.machines)
    {pairs : List (Vm α × String)} {progress : Progress α State}
    (evicted : Evicted cluster pairs progress.occupancy) :
    (planner.selectVictims machines).Ends progress
      (fun more later => Evicted cluster (pairs ++ more) later.occupancy ∧
        ∀ pair ∈ more, pair.2 ∈ machines.map (·.id))
      (fun _ later => ∃ left, Evicted cluster left later.occupancy) := by
  induction machines generalizing pairs progress with
  | nil => simpa [selectVictims] using evicted
  | cons machine rest ih =>
    obtain ⟨member, inside⟩ := List.cons_subset.mp inside
    rw [selectVictims, ends_bind, ends_look]
    refine (relieve_evicts reliable distinct member _ evicted).bind fun vms later evicted => ?_
    refine (ih inside evicted).bind ?_
    rintro others last ⟨evicted, origins⟩
    refine ⟨by simpa using evicted, fun pair pairMem => ?_⟩
    rcases List.mem_append.mp pairMem with here | there
    · obtain ⟨vm, _, rfl⟩ := List.mem_map.mp here
      exact List.mem_cons_self
    · exact List.mem_cons_of_mem machine.id (origins pair there)

end Planner

end Fleet.Plan
