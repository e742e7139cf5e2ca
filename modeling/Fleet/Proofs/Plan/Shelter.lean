import Fleet.Proofs.Plan.Selection

/-! What placing and draining leave alone once victims have been selected.

Overloaded hosts keep the VMs that selection left them, and every other host keeps the VMs that were
still migrating in at the beginning. None of these VMs is labelled anew.
-/

set_option autoImplicit false

namespace Fleet.Plan

variable {α : Type} {cluster : Cluster α} {overloaded : List String} {selected now : Occupancy α}

/-- A VM that was migrating in, and still is on its host, has the label that it had. -/
def Unmarked (cluster : Cluster α) (now : Occupancy α) : Prop :=
  ∀ machine ∈ cluster.machines, ∀ vm ∈ cluster.occupancy.residents machine.id,
    vm.id ∈ machine.arriving → vm ∈ now.residents machine.id →
      now.home vm.key = cluster.occupancy.home vm.key

structure Sheltered (cluster : Cluster α) (overloaded : List String) (selected now : Occupancy α) :
    Prop where
  tracked : Tracked cluster now
  steady : ∀ id ∈ overloaded, now.residents id = selected.residents id
  anchored : ∀ machine ∈ cluster.machines, machine.id ∉ overloaded →
    ∀ vm ∈ cluster.occupancy.residents machine.id, vm.id ∈ machine.arriving →
      vm ∈ now.residents machine.id
  unmarked : Unmarked cluster now

/-- No VM is lost track of, and each that was migrating in is on its host exactly if selection left
it there, with the label that it had. -/
structure Retained (cluster : Cluster α) (selected now : Occupancy α) : Prop where
  tracked : Tracked cluster now
  arriving : ∀ machine ∈ cluster.machines, ∀ vm ∈ cluster.occupancy.residents machine.id,
    vm.id ∈ machine.arriving → (vm ∈ now.residents machine.id ↔ vm ∈ selected.residents machine.id)
  unmarked : Unmarked cluster now

/-- The VM was not migrating into a host that is not overloaded. -/
def Movable (cluster : Cluster α) (overloaded : List String) (vm : Vm α) : Prop :=
  ∀ machine ∈ cluster.machines, machine.id ∉ overloaded →
    vm ∈ cluster.occupancy.residents machine.id → vm.id ∉ machine.arriving

theorem Evicted.unmarked {pairs : List (Vm α × String)} (evicted : Evicted cluster pairs now) :
    Unmarked cluster now := by
  intro machine member vm _ _ there
  rw [evicted.remaining machine member] at there
  exact evicted.home vm (of_decide_eq_true (List.mem_filter.mp there).2)

theorem Evicted.sheltered {pairs : List (Vm α × String)} (evicted : Evicted cluster pairs selected)
    (distinct : cluster.DistinctVms) (origins : ∀ pair ∈ pairs, pair.2 ∈ overloaded) :
    Sheltered cluster overloaded selected selected where
  tracked := evicted.tracked
  steady _ _ := rfl
  anchored machine member calm vm resident _ := by
    have calmOrigins : ∀ pair ∈ pairs, pair.2 ≠ machine.id := fun pair pairMem same =>
      calm (same ▸ origins pair pairMem)
    exact (evicted.residents_eq distinct member calmOrigins).symm ▸ resident
  unmarked := evicted.unmarked

namespace Sheltered

variable (sheltered : Sheltered cluster overloaded selected now)
include sheltered

theorem movable {machine : Machine α} (member : machine ∈ cluster.machines)
    (free : Planner.isPinned (now.host machine) = false) {vm : Vm α}
    (resident : vm ∈ now.residents machine.id) : Movable cluster overloaded vm := by
  intro other otherMem calm start arriving
  -- it would still be on the host it migrates into, so that host is this one, and pinned
  have there := sheltered.anchored other otherMem calm vm start arriving
  obtain rfl := Cluster.machine_eq_of_id otherMem member
    (sheltered.tracked.single other otherMem machine member vm there resident)
  exact (Planner.isPinned_eq_false.mp free).1 vm resident arriving

variable (distinct : cluster.DistinctVms) {machine : Machine α}
  (member : machine ∈ cluster.machines)
  (calm : machine.id ∉ overloaded)
include distinct member calm

theorem release {vm : Vm α} (resident : vm ∈ now.residents machine.id)
    (movable : Movable cluster overloaded vm) :
    Sheltered cluster overloaded selected (now.release machine.id vm) where
  tracked := sheltered.tracked.release distinct member resident
  steady id inside := by
    have apart : id ≠ machine.id := fun same => calm (same ▸ inside)
    rw [Occupancy.residents_release, if_neg apart]
    exact sheltered.steady id inside
  anchored other otherMem otherCalm old start arriving := by
    have there := sheltered.anchored other otherMem otherCalm old start arriving
    rw [Occupancy.residents_release]
    split
    · next here =>
      have known := sheltered.tracked.known machine member vm resident
      have oldKnown := Cluster.mem_residents.mpr ⟨other, otherMem, start⟩
      have different : old.id ≠ vm.id := fun same =>
        movable other otherMem otherCalm (distinct.eq_of_id oldKnown known same ▸ start)
          (same ▸ arriving)
      simpa [different] using here ▸ there
    · exact there
  unmarked other otherMem old start arriving still := by
    have known := sheltered.tracked.known machine member vm resident
    have oldKnown := Cluster.mem_residents.mpr ⟨other, otherMem, start⟩
    have different : old.key ≠ vm.key := fun same => by
      obtain rfl := distinct.eq_of_key oldKnown known same
      exact sheltered.tracked.nowhere_release member resident other otherMem still
    have there := (now.residents_release_sublist machine.id vm other.id).subset still
    rw [now.home_release_of_ne machine.id different]
    exact sheltered.unmarked other otherMem old start arriving there

theorem place {vm : Vm α} (known : vm ∈ cluster.residents)
    (nowhere : ∀ other ∈ cluster.machines, vm ∉ now.residents other.id) :
    Sheltered cluster overloaded selected (now.place machine.id vm) where
  tracked := sheltered.tracked.place distinct member known nowhere
  steady id inside := by
    have apart : id ≠ machine.id := fun same => calm (same ▸ inside)
    rw [Occupancy.residents_place, if_neg apart]
    exact sheltered.steady id inside
  anchored other otherMem otherCalm old start arriving := by
    have there := sheltered.anchored other otherMem otherCalm old start arriving
    rw [Occupancy.residents_place]
    split
    · next here => exact List.mem_append_left _ (here ▸ there)
    · exact there
  unmarked other otherMem old start arriving still := by
    have oldKnown := Cluster.mem_residents.mpr ⟨other, otherMem, start⟩
    by_cases same : old.key = vm.key
    -- a VM that is placed was nowhere, so it is none that was migrating into a host that is calm
    · obtain rfl := distinct.eq_of_key oldKnown known same
      rw [Occupancy.residents_place] at still
      split at still
      · next here =>
        have there := sheltered.anchored other otherMem (here ▸ calm) old start arriving
        exact absurd there (nowhere other otherMem)
      · exact absurd still (nowhere other otherMem)
    · rw [now.home_place_of_ne machine.id same]
      refine sheltered.unmarked other otherMem old start arriving ?_
      rw [Occupancy.residents_place] at still
      split at still
      · next here =>
        refine here ▸ (List.mem_append.mp still).resolve_right fun added => ?_
        exact same (congrArg Vm.key (List.mem_singleton.mp added))
      · exact still

theorem carry {destination : Machine α} (destinationMem : destination ∈ cluster.machines)
    (destinationCalm : destination.id ∉ overloaded) {vm : Vm α}
    (resident : vm ∈ now.residents machine.id) (movable : Movable cluster overloaded vm) :
    Sheltered cluster overloaded selected
      ((now.release machine.id vm).place destination.id vm) :=
  (sheltered.release distinct member calm resident movable).place distinct destinationMem
    destinationCalm (sheltered.tracked.known machine member vm resident)
    (sheltered.tracked.nowhere_release member resident)

omit distinct member calm in
theorem retained (initially : Sheltered cluster overloaded selected selected) :
    Retained cluster selected now where
  tracked := sheltered.tracked
  arriving machine member vm start arriving := by
    by_cases calm : machine.id ∈ overloaded
    · rw [sheltered.steady machine.id calm]
    · exact iff_of_true (sheltered.anchored machine member calm vm start arriving)
        (initially.anchored machine member calm vm start arriving)
  unmarked := sheltered.unmarked

end Sheltered

end Fleet.Plan
