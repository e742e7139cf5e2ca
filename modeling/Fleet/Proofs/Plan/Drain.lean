import Fleet.Proofs.Plan.Placement

/-! Draining a host: all of its VMs that are not migrating leave it, or none of them does.

While VMs leave one after the other, the hosts that received them would be as before without them.
So a drain that is cancelled gives every other host back exactly what it held, in the same order.
-/

set_option autoImplicit false

namespace Fleet.Plan

open Step

variable {α State : Type} {cluster : Cluster α} {machine : Machine α} {overloaded : List String}
  {selected base now : Occupancy α} {moved : List (Vm α × String)}

/-- The VMs that left the machine are on the hosts beside them; without them, every other host holds
what it held at the base, and with them the machine does. -/
structure Shipped (cluster : Cluster α) (machine : Machine α) (overloaded : List String)
    (base : Occupancy α) (moved : List (Vm α × String)) (now : Occupancy α) : Prop where
  there : ∀ pair ∈ moved, ∃ destination ∈ cluster.machines, destination.id = pair.2 ∧
    destination.id ≠ machine.id ∧ destination.id ∉ overloaded ∧
    pair.1 ∈ now.residents destination.id
  movable : ∀ pair ∈ moved, Movable cluster overloaded pair.1
  once : (moved.map (·.1.id)).Nodup
  rest : ∀ other ∈ cluster.machines, other.id ≠ machine.id → base.residents other.id =
    (now.residents other.id).filter fun vm => vm.id ∉ moved.map (·.1.id)
  source : (base.residents machine.id).Perm (now.residents machine.id ++ moved.map (·.1))

namespace Shipped

theorem nil : Shipped cluster machine overloaded now [] now where
  there _ absent := by cases absent
  movable _ absent := by cases absent
  once := .nil
  rest other _ _ := by simp
  source := by simp

theorem ship (shipped : Shipped cluster machine overloaded base moved now)
    (tracked : Tracked cluster now) (distinct : cluster.DistinctVms)
    (member : machine ∈ cluster.machines) {destination : Machine α}
    (destinationMem : destination ∈ cluster.machines) (apart : destination.id ≠ machine.id)
    (calm : destination.id ∉ overloaded) {vm : Vm α} (resident : vm ∈ now.residents machine.id)
    (movable : Movable cluster overloaded vm) :
    Shipped cluster machine overloaded base ((vm, destination.id) :: moved)
      ((now.release machine.id vm).place destination.id vm) := by
  refine ⟨List.forall_mem_cons.mpr ⟨?_, fun pair pairMem => ?_⟩,
    List.forall_mem_cons.mpr ⟨movable, shipped.movable⟩,
    List.nodup_cons.mpr ⟨fun again => ?_, shipped.once⟩, fun other otherMem elsewhere => ?_, ?_⟩
  · exact ⟨destination, destinationMem, rfl, apart, calm, by simp [Occupancy.residents_place]⟩
  · obtain ⟨host, hostMem, same, hostApart, hostCalm, there⟩ := shipped.there pair pairMem
    refine ⟨host, hostMem, same, hostApart, hostCalm, ?_⟩
    rw [Occupancy.residents_carry now apart hostApart, Occupancy.residents_place]
    split
    · next here => exact List.mem_append_left _ (here ▸ there)
    · exact there
  · obtain ⟨pair, pairMem, same⟩ := List.mem_map.mp again
    obtain ⟨host, hostMem, -, hostApart, -, there⟩ := shipped.there pair pairMem
    exact tracked.id_ne distinct hostMem member hostApart there resident same
  -- the VM is new to every other host, so leaving it out as well changes nothing there
  · have unchanged : ((now.residents other.id).filter fun old =>
        old.id ∉ ((vm, destination.id) :: moved).map (·.1.id)) = base.residents other.id := by
      rw [shipped.rest other otherMem elsewhere]
      refine List.filter_congr fun old oldMem => Bool.eq_iff_iff.mpr ?_
      simp [tracked.id_ne distinct otherMem member elsewhere oldMem resident]
    rw [Occupancy.residents_carry now apart elsewhere, Occupancy.residents_place]
    split
    · next here =>
      rw [List.filter_append, congrArg now.residents here.symm, unchanged]
      simp
    · exact unchanged.symm
  · rw [Occupancy.residents_place, if_neg apart.symm, Occupancy.residents_release, if_pos rfl]
    have taken := (Keyed.perm_cons_filter (tracked.once machine member) resident).append_right
      (moved.map (·.1))
    exact shipped.source.trans (taken.trans List.perm_middle.symm)

theorem takeBack {vm : Vm α} {destination : Machine α}
    (shipped : Shipped cluster machine overloaded base ((vm, destination.id) :: moved) now)
    (tracked : Tracked cluster now) (distinct : cluster.DistinctVms)
    (member : destination ∈ cluster.machines) (apart : destination.id ≠ machine.id)
    (resident : vm ∈ now.residents destination.id) :
    Shipped cluster machine overloaded base moved
      ((now.release destination.id vm).place machine.id vm) := by
  obtain ⟨fresh, once⟩ := List.nodup_cons.mp shipped.once
  refine ⟨fun pair pairMem => ?_, fun pair pairMem => shipped.movable pair (.tail _ pairMem), once,
    fun other otherMem elsewhere => ?_, ?_⟩
  · obtain ⟨host, hostMem, same, hostApart, hostCalm, there⟩ := shipped.there pair (.tail _ pairMem)
    refine ⟨host, hostMem, same, hostApart, hostCalm, ?_⟩
    have listed : pair.1.id ∈ moved.map (·.1.id) := List.mem_map_of_mem pairMem
    have different : pair.1.id ≠ vm.id := fun same => fresh (show vm.id ∈ _ from same ▸ listed)
    rw [Occupancy.residents_place, if_neg hostApart, Occupancy.residents_release]
    split
    · next here => simpa [different] using here ▸ there
    · exact there
  · rw [shipped.rest other otherMem elsewhere, Occupancy.residents_place, if_neg elsewhere,
      Occupancy.residents_release]
    split
    · next here =>
      rw [List.filter_filter, here]
      refine List.filter_congr fun old _ => Bool.eq_iff_iff.mpr ?_
      simp [and_comm]
    · next notHere =>
      refine List.filter_congr fun old oldMem => Bool.eq_iff_iff.mpr ?_
      simp [tracked.id_ne distinct otherMem member notHere oldMem resident]
  · rw [Occupancy.residents_place, if_pos rfl, Occupancy.residents_release, if_neg apart.symm]
    simpa using shipped.source

end Shipped

/-- A host from which all VMs were taken back holds the VMs it held, and every other host holds its
VMs in the order in which it held them. -/
structure Restored (cluster : Cluster α) (machine : Machine α) (base now : Occupancy α) :
    Prop where
  others : ∀ other ∈ cluster.machines, other.id ≠ machine.id →
    now.residents other.id = base.residents other.id
  source : (now.residents machine.id).Perm (base.residents machine.id)

/-- The moves take every VM that is not migrating from the machine to a host that is open. -/
structure Emptied (machine : Machine α) (closed : List String) (base : Occupancy α)
    (moves : List Move) : Prop where
  vms : (moves.map (·.vm)).Perm (((base.residents machine.id).filter (!·.migrating)).map (·.id))
  source : ∀ move ∈ moves, move.source = machine.id
  destination : ∀ move ∈ moves, move.destination ∉ closed

namespace Planner

variable [Scalar α] {planner : Planner α State} {progress : Progress α State}

def shipment (machine : Machine α) (pair : Vm α × String) : Move :=
  ⟨pair.1.id, machine.id, pair.2⟩

section

variable (reliable : planner.advisors.Reliable) {closed : List String}
include reliable

theorem moveAll_empties {waiting : List (Vm α)} :
    (planner.moveAll machine closed moved waiting).Ends progress
      (fun outcome _ => ∀ pairs, outcome = some pairs → ∃ more, pairs = moved.reverse ++ more ∧
        more.map (·.1) = waiting ∧ ∀ pair ∈ more, pair.2 ∉ closed)
      (fun _ _ => True) := by
  induction waiting generalizing moved progress with
  | nil =>
    intro pairs same
    cases same
    exact ⟨[], (List.append_nil _).symm, rfl, fun _ absent => by cases absent⟩
  | cons vm rest ih =>
    rw [moveAll, ends_bind, ends_lookAll, ends_bind]
    refine ends_destination? reliable (fun advisors => ?_) (fun host member open_ _ advisors => ?_)
      fun _ _ => trivial
    · rw [ends_bind, ends_miss, ends_bind]
      exact .of_run (fun _ _ _ _ same => by cases same) fun _ _ _ => trivial
    · rw [ends_bind, ends_release, ends_bind]
      refine ends_accept (fun _ => ih.imp fun outcome _ shipped pairs same => ?_) fun _ _ => trivial
      obtain ⟨more, rfl, listed, moreOpen⟩ := shipped pairs same
      exact ⟨(vm, host.id) :: more, by simp [Occupancy.host], by rw [List.map_cons, listed],
        List.forall_mem_cons.mpr ⟨open_, moreOpen⟩⟩

theorem drain_empties :
    (planner.drain machine closed).Ends progress
      (fun outcome _ => ∀ moves, outcome = some moves →
        Emptied machine closed progress.occupancy moves)
      (fun _ _ => True) := by
  rw [drain, ends_bind, ends_look, ends_bind]
  refine ends_byDemand (fun waiting order => ?_) fun _ => trivial
  refine (moveAll_empties reliable).bind ?_
  rintro outcome _ shipped moves same
  obtain ⟨pairs, moved, rfl⟩ := Option.map_eq_some_iff.mp same
  obtain ⟨more, rfl, listed, open_⟩ := shipped pairs moved
  refine ⟨?_, ?_, ?_⟩
  · have vms : (pairs.map (shipment machine)).map (·.vm) = (pairs.map (·.1)).map (·.id) := by
      simp [shipment, Function.comp_def]
    exact vms ▸ listed ▸ order.map _
  · exact List.forall_mem_map.mpr fun _ _ => rfl
  · exact List.forall_mem_map.mpr open_

end

variable (distinct : cluster.DistinctVms) (member : machine ∈ cluster.machines)
  (calm : machine.id ∉ overloaded)
include distinct member calm

theorem undo_restores (shipped : Shipped cluster machine overloaded base moved progress.occupancy)
    (sheltered : Sheltered cluster overloaded selected progress.occupancy) :
    (undo machine moved : Step α State Unit).Ends progress
      (fun _ later => Sheltered cluster overloaded selected later.occupancy ∧
        Restored cluster machine base later.occupancy)
      (fun _ later => Sheltered cluster overloaded selected later.occupancy) := by
  induction moved generalizing progress with
  | nil =>
    refine ⟨sheltered, fun other otherMem apart => by simp [shipped.rest other otherMem apart], ?_⟩
    simpa using shipped.source.symm
  | cons pair rest ih =>
    obtain ⟨vm, host⟩ := pair
    obtain ⟨destination, destinationMem, rfl, apart, destinationCalm, resident⟩ :=
      shipped.there _ List.mem_cons_self
    have movable := shipped.movable _ List.mem_cons_self
    rw [undo, ends_bind, ends_release, ends_bind]
    refine ends_accept (fun _ => ?_) fun _ _ =>
      sheltered.release distinct destinationMem destinationCalm resident movable
    exact ih (shipped.takeBack sheltered.tracked distinct destinationMem apart resident)
      (sheltered.carry distinct destinationMem destinationCalm member calm resident movable)

variable (reliable : planner.advisors.Reliable) (same : planner.machines = cluster.machines)
  {loose closed : List String} (looseClosed : machine.id :: loose ⊆ closed)
  (overloadedClosed : overloaded ⊆ closed)
include reliable same looseClosed overloadedClosed

theorem moveAll_ships {waiting : List (Vm α)} {moves : List Move}
    (shipped : Shipped cluster machine overloaded base moved progress.occupancy)
    (sheltered : Sheltered cluster overloaded selected progress.occupancy)
    (rehearsed : Rehearsed cluster (machine.id :: loose)
      (moves ++ moved.reverse.map (shipment machine)) progress.occupancy)
    (ready : ∀ vm ∈ waiting, vm ∈ progress.occupancy.residents machine.id ∧
      vm ∈ cluster.occupancy.residents machine.id ∧ vm.migrating = false ∧
      Movable cluster overloaded vm)
    (unnamed : ∀ vm ∈ waiting,
      vm.id ∉ (moves ++ moved.reverse.map (shipment machine)).map (·.vm))
    (once : (waiting.map (·.id)).Nodup) :
    (planner.moveAll machine closed moved waiting).Ends progress
      (fun outcome later => Sheltered cluster overloaded selected later.occupancy ∧
        match outcome with
        | some pairs => Rehearsed cluster (machine.id :: loose)
            (moves ++ pairs.map (shipment machine)) later.occupancy
        | none => Restored cluster machine base later.occupancy)
      (fun _ later => Sheltered cluster overloaded selected later.occupancy) := by
  -- induction on the VMs that wait; those that have left are behind them, newest first
  induction waiting generalizing moved progress with
  | nil => exact ⟨sheltered, rehearsed⟩
  | cons vm rest ih =>
    obtain ⟨⟨resident, start, still, movable⟩, restReady⟩ := List.forall_mem_cons.mp ready
    obtain ⟨vmUnnamed, restUnnamed⟩ := List.forall_mem_cons.mp unnamed
    obtain ⟨fresh, restOnce⟩ := List.nodup_cons.mp once
    rw [moveAll, ends_bind, ends_lookAll, ends_bind]
    refine ends_destination? reliable (fun advisors => ?_)
      (fun destination destinationMem open_ suitable advisors => ?_) fun _ _ => sheltered
    · rw [ends_bind, ends_miss, ends_bind]
      exact undo_restores distinct member calm shipped sheltered
    · rw [same] at destinationMem
      have tight : destination.id ∉ machine.id :: loose := fun inside => open_ (looseClosed inside)
      have apart : destination.id ≠ machine.id := List.ne_of_not_mem_cons tight
      have destinationCalm : destination.id ∉ overloaded := fun inside =>
        open_ (overloadedClosed inside)
      have different : ∀ other ∈ rest, other.id ≠ vm.id := by
        intro other otherMem same
        exact fresh (List.mem_map.mpr ⟨other, otherMem, same⟩)
      rw [ends_bind, ends_release, ends_bind]
      refine ends_accept (fun taken => ?_) fun _ _ =>
        sheltered.release distinct member calm resident movable
      -- what the destination holds does not depend on the release
      have unmoved : (progress.occupancy.release machine.id vm).host destination =
          progress.occupancy.host destination := by
        simp only [Occupancy.host, Occupancy.residents_release, if_neg apart]
      have extended := rehearsed.extend
        ((progress.occupancy.release machine.id vm).place destination.id vm) member
        List.mem_cons_self destinationMem tight start still vmUnnamed
        (unmoved ▸ Host.holds_of_refusal? taken) suitable
        fun other _ otherTight =>
          Occupancy.residents_carry _ apart (List.ne_of_not_mem_cons otherTight)
      have stay : ∀ other ∈ rest, other ∈
          ((progress.occupancy.release machine.id vm).place destination.id vm).residents
            machine.id := by
        intro other otherMem
        rw [Occupancy.residents_place, if_neg apart.symm, Occupancy.residents_release, if_pos rfl]
        simpa [different other otherMem] using (restReady other otherMem).1
      refine ih
        (shipped.ship sheltered.tracked distinct member destinationMem apart destinationCalm
          resident movable)
        (sheltered.carry distinct member calm destinationMem destinationCalm resident movable)
        ?_ (fun other otherMem => ⟨stay other otherMem, (restReady other otherMem).2⟩) ?_ restOnce
      · simpa [shipment, Occupancy.host] using extended
      · intro other otherMem
        simpa [shipment, different other otherMem] using restUnnamed other otherMem

theorem drain_ships {moves : List Move}
    (sheltered : Sheltered cluster overloaded selected progress.occupancy)
    (rehearsed : Rehearsed cluster loose moves progress.occupancy)
    (free : isPinned (progress.occupancy.host machine) = false)
    (tight : machine.id ∉ loose) (fresh : machine.id ∉ moves.map (·.destination)) :
    (planner.drain machine closed).Ends progress
      (fun outcome later => Sheltered cluster overloaded selected later.occupancy ∧
        Rehearsed cluster (machine.id :: loose) (moves ++ outcome.getD []) later.occupancy ∧
        (outcome = none → Restored cluster machine progress.occupancy later.occupancy))
      (fun _ later => Sheltered cluster overloaded selected later.occupancy) := by
  rw [drain, ends_bind, ends_look, ends_bind]
  refine ends_byDemand (fun waiting order => ?_) fun _ => sheltered
  have loosened := rehearsed.loosen fresh
  have movable : ∀ vm ∈ waiting, vm ∈ progress.occupancy.residents machine.id ∧
      vm.migrating = false := fun vm vmMem => by
    simpa [Occupancy.host] using order.subset vmMem
  have present := fun vm vmMem => (movable vm vmMem).1
  have start : ∀ vm ∈ waiting, vm ∈ cluster.occupancy.residents machine.id := fun vm vmMem =>
    rehearsed.residents_eq member tight fresh ▸ present vm vmMem
  have once : (waiting.map (·.id)).Nodup :=
    (order.map _).nodup_iff.mpr
      ((sheltered.tracked.once machine member).sublist (List.filter_sublist.map _))
  refine (moveAll_ships distinct member calm reliable same looseClosed overloadedClosed .nil
    sheltered (by simpa using loosened)
    (fun vm vmMem => ⟨present vm vmMem, start vm vmMem, (movable vm vmMem).2,
      sheltered.movable member free (present vm vmMem)⟩)
    (fun vm vmMem => by simpa using rehearsed.unnamed distinct member tight (start vm vmMem))
    once).bind ?_
  -- a cancelled drain is felt at the drained host only, which is loose
  rintro (_ | pairs) later ⟨kept, outcome⟩
  · refine ⟨kept, ?_, fun _ => outcome⟩
    simpa using loosened.congr fun other otherMem otherTight =>
      outcome.others other otherMem (List.ne_of_not_mem_cons otherTight)
  · exact ⟨kept, outcome, fun absent => by cases absent⟩

end Planner

end Fleet.Plan
