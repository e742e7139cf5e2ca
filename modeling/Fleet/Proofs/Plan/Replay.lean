import Fleet.Membership
import Fleet.Proofs.Plan.Tracking

/-! Carrying out a list of moves, one after the other, from where the VMs are at the beginning.

A cycle decides on its moves in an occupancy of its own, from which VMs without a place are missing
and which a cancelled drain has passed through. That occupancy and the replay of the moves agree on
every host that is not loose: on all that a move may still end at.
-/

set_option autoImplicit false

namespace Fleet.Plan

variable {α : Type} [Scalar α]

/-- At every move the VM is on the source, and the destination does not have it and is suitable. -/
inductive Executable (machines : List (Machine α)) :
    Occupancy α → List Move → Occupancy α → Prop where
  | done (now : Occupancy α) : Executable machines now [] now
  | next {now final : Occupancy α} {source destination : Machine α} {vm : Vm α} {rest : List Move} :
      source ∈ machines → destination ∈ machines → vm ∈ now.residents source.id →
      (now.host destination).holds vm.id = false →
      (now.host destination).isSuitable vm = .ok true →
      Executable machines ((now.release source.id vm).place destination.id vm) rest final →
      Executable machines now (⟨vm.id, source.id, destination.id⟩ :: rest) final

namespace Executable

variable {machines : List (Machine α)} {start middle final : Occupancy α} {moves later : List Move}

theorem append (first : Executable machines start moves middle)
    (second : Executable machines middle later final) :
    Executable machines start (moves ++ later) final := by
  induction first with
  | done => exact second
  | next source destination resident free suitable _ ih =>
    exact .next source destination resident free suitable (ih second)

theorem stays (run : Executable machines start moves final) {host : String} {vm : Vm α}
    (resident : vm ∈ start.residents host) (unnamed : vm.id ∉ moves.map (·.vm)) :
    vm ∈ final.residents host := by
  induction run with
  | done => exact resident
  | next _ _ _ _ _ _ ih =>
    rw [List.map_cons, List.mem_cons, not_or] at unnamed
    exact ih (Occupancy.mem_residents_carry resident unnamed.1) unnamed.2

theorem untouched (run : Executable machines start moves final) {host : String}
    (noSource : host ∉ moves.map (·.source)) (noDestination : host ∉ moves.map (·.destination)) :
    final.residents host = start.residents host := by
  induction run with
  | done => rfl
  | next _ _ _ _ _ _ ih =>
    rw [List.map_cons, List.mem_cons, not_or] at noSource noDestination
    rw [ih noSource.2 noDestination.2, Occupancy.residents_place, if_neg noDestination.1,
      Occupancy.residents_release, if_neg noSource.1]

theorem destination_mem (run : Executable machines start moves final) :
    ∀ move ∈ moves, ∃ machine ∈ machines, machine.id = move.destination := by
  induction run with
  | done => exact fun _ absent => absurd absent List.not_mem_nil
  | next _ destination _ _ _ _ ih => exact List.forall_mem_cons.mpr ⟨⟨_, destination, rfl⟩, ih⟩

theorem arrives (run : Executable machines start moves final) (once : (moves.map (·.vm)).Nodup) :
    ∀ move ∈ moves, ∃ vm ∈ final.residents move.destination, vm.id = move.vm := by
  induction run with
  | done => exact fun _ absent => absurd absent List.not_mem_nil
  | next _ _ _ _ _ run ih =>
    obtain ⟨unnamed, once⟩ := List.nodup_cons.mp once
    refine List.forall_mem_cons.mpr ⟨⟨_, run.stays ?_ unnamed, rfl⟩, ih once⟩
    simp [Occupancy.residents_place]

end Executable

variable {cluster : Cluster α} {loose : List String} {moves : List Move} {now : Occupancy α}

/-- The moves can be replayed, and the replay agrees with the occupancy on all but the loose hosts.
Moves lead from loose hosts to others, no VM that is migrating moves, and none moves twice. -/
structure Rehearsed (cluster : Cluster α) (loose : List String) (moves : List Move)
    (now : Occupancy α) : Prop where
  replay : ∃ final, Executable cluster.machines cluster.occupancy moves final ∧
    ∀ machine ∈ cluster.machines, machine.id ∉ loose →
      final.residents machine.id = now.residents machine.id
  source : ∀ move ∈ moves, move.source ∈ loose
  destination : ∀ move ∈ moves, move.destination ∉ loose
  departure : ∀ move ∈ moves, ∃ vm, vm.id = move.vm ∧ vm.migrating = false ∧
    cluster.Holds move.source vm
  once : (moves.map (·.vm)).Nodup

namespace Rehearsed

theorem nil (agree : ∀ machine ∈ cluster.machines, machine.id ∉ loose →
    now.residents machine.id = cluster.occupancy.residents machine.id) :
    Rehearsed cluster loose [] now where
  replay := ⟨_, .done _, fun machine member tight => (agree machine member tight).symm⟩
  source _ absent := by cases absent
  destination _ absent := by cases absent
  departure _ absent := by cases absent
  once := .nil

variable (rehearsed : Rehearsed cluster loose moves now)
include rehearsed

theorem apart : ∀ move ∈ moves, move.destination ≠ move.source := fun move moveMem same =>
  rehearsed.destination move moveMem (same ▸ rehearsed.source move moveMem)

theorem origin : ∀ move ∈ moves, ∃ vm, vm.id = move.vm ∧ cluster.Holds move.source vm := by
  intro move moveMem
  obtain ⟨vm, named, _, held⟩ := rehearsed.departure move moveMem
  exact ⟨vm, named, held⟩

theorem congr {later : Occupancy α} (agree : ∀ machine ∈ cluster.machines, machine.id ∉ loose →
    later.residents machine.id = now.residents machine.id) :
    Rehearsed cluster loose moves later := by
  obtain ⟨final, run, same⟩ := rehearsed.replay
  exact { rehearsed with
    replay := ⟨final, run, fun machine member tight =>
      (same machine member tight).trans (agree machine member tight).symm⟩ }

theorem loosen {host : String} (fresh : host ∉ moves.map (·.destination)) :
    Rehearsed cluster (host :: loose) moves now := by
  obtain ⟨final, run, same⟩ := rehearsed.replay
  refine ⟨⟨final, run, fun machine member tight => same machine member fun old =>
      tight (List.mem_cons_of_mem host old)⟩,
    fun move moveMem => List.mem_cons_of_mem host (rehearsed.source move moveMem),
    fun move moveMem inside => ?_, rehearsed.departure, rehearsed.once⟩
  rcases List.mem_cons.mp inside with here | old
  · exact fresh (here ▸ List.mem_map_of_mem moveMem)
  · exact rehearsed.destination move moveMem old

theorem residents_eq {machine : Machine α} (member : machine ∈ cluster.machines)
    (tight : machine.id ∉ loose) (fresh : machine.id ∉ moves.map (·.destination)) :
    now.residents machine.id = cluster.occupancy.residents machine.id := by
  obtain ⟨final, run, same⟩ := rehearsed.replay
  refine (same machine member tight).symm.trans (run.untouched (fun there => ?_) fresh)
  obtain ⟨move, moveMem, source⟩ := List.mem_map.mp there
  exact tight (source ▸ rehearsed.source move moveMem)

theorem departs (distinct : cluster.DistinctVms) {move : Move} (moveMem : move ∈ moves)
    {machine : Machine α} (member : machine ∈ cluster.machines) {vm : Vm α}
    (resident : vm ∈ cluster.occupancy.residents machine.id) (named : move.vm = vm.id) :
    move.source = machine.id ∧ vm.migrating = false := by
  obtain ⟨other, same, still, source, sourceMem, sourceId, otherMem⟩ :=
    rehearsed.departure move moveMem
  rw [← sourceId] at otherMem
  have known := Cluster.mem_residents.mpr ⟨machine, member, resident⟩
  have otherKnown := Cluster.mem_residents.mpr ⟨source, sourceMem, otherMem⟩
  obtain rfl := distinct.eq_of_id otherKnown known (same.trans named)
  obtain rfl := distinct.machine_eq sourceMem member otherMem resident
  exact ⟨sourceId.symm, still⟩

theorem unnamed (distinct : cluster.DistinctVms) {machine : Machine α}
    (member : machine ∈ cluster.machines) (tight : machine.id ∉ loose) {vm : Vm α}
    (resident : vm ∈ cluster.occupancy.residents machine.id) : vm.id ∉ moves.map (·.vm) := by
  intro there
  obtain ⟨move, moveMem, named⟩ := List.mem_map.mp there
  obtain ⟨source, _⟩ := rehearsed.departs distinct moveMem member resident named
  exact tight (source ▸ rehearsed.source move moveMem)

theorem vacated (distinct : cluster.DistinctVms) (tracked : Tracked cluster now)
    {machine : Machine α}
    (member : machine ∈ cluster.machines) {vm : Vm α}
    (start : vm ∈ cluster.occupancy.residents machine.id) (named : vm.id ∈ moves.map (·.vm)) :
    vm ∉ now.residents machine.id := by
  intro still
  obtain ⟨move, moveMem, same⟩ := List.mem_map.mp named
  obtain ⟨final, run, agree⟩ := rehearsed.replay
  obtain ⟨destination, destinationMem, destinationId⟩ := run.destination_mem move moveMem
  have tight : destination.id ∉ loose := destinationId ▸ rehearsed.destination move moveMem
  obtain ⟨other, there, otherId⟩ := run.arrives rehearsed.once move moveMem
  rw [← destinationId, agree destination destinationMem tight] at there
  -- the source is loose, the destination is not, and ids tell residents of two hosts apart
  have loosened : machine.id ∈ loose := by
    by_contra outside
    exact rehearsed.unnamed distinct member outside start named
  exact tracked.id_ne distinct destinationMem member (fun here => tight (here ▸ loosened)) there
    still (otherId.trans same)

theorem extend (later : Occupancy α) {source destination : Machine α} {vm : Vm α}
    (sourceMem : source ∈ cluster.machines) (sourceLoose : source.id ∈ loose)
    (destinationMem : destination ∈ cluster.machines) (destinationTight : destination.id ∉ loose)
    (resident : vm ∈ cluster.occupancy.residents source.id) (still : vm.migrating = false)
    (unnamed : vm.id ∉ moves.map (·.vm))
    (free : (now.host destination).holds vm.id = false)
    (suitable : (now.host destination).isSuitable vm = .ok true)
    (agree : ∀ machine ∈ cluster.machines, machine.id ∉ loose →
      later.residents machine.id = (now.place destination.id vm).residents machine.id) :
    Rehearsed cluster loose (moves ++ [⟨vm.id, source.id, destination.id⟩]) later := by
  obtain ⟨final, run, same⟩ := rehearsed.replay
  -- the search saw the destination as the replay has it
  have there : final.host destination = now.host destination := by
    simp only [Occupancy.host, same destination destinationMem destinationTight]
  refine ⟨⟨(final.release source.id vm).place destination.id vm, run.append ?_, ?_⟩, ?_, ?_, ?_, ?_⟩
  · exact .next sourceMem destinationMem (run.stays resident unnamed) (there ▸ free)
      (there ▸ suitable) (.done _)
  -- the source is loose, so only the arrival is seen from hosts that are not
  · intro machine member tight
    have apart : ∀ host, host ∉ loose → host ≠ source.id := fun host tight same =>
      tight (same ▸ sourceLoose)
    rw [agree machine member tight,
      Occupancy.residents_carry final (apart _ destinationTight) (apart _ tight)]
    simp only [Occupancy.residents_place, same machine member tight,
      same destination destinationMem destinationTight]
  · simpa [or_imp, forall_and, sourceLoose] using rehearsed.source
  · simpa [or_imp, forall_and, destinationTight] using rehearsed.destination
  · intro move moveMem
    rcases List.mem_append.mp moveMem with before | added
    · exact rehearsed.departure move before
    · rw [List.mem_singleton.mp added]
      exact ⟨vm, rfl, still, source, sourceMem, rfl, resident⟩
  · rw [List.map_append, List.map_singleton, ← List.concat_eq_append, List.nodup_concat]
    exact ⟨unnamed, rehearsed.once⟩

end Rehearsed

end Fleet.Plan
