import Fleet.Proofs.Plan.Replay
import Fleet.Proofs.Plan.Shelter

/-! Placing the victims of a selection on hosts that are not overloaded. -/

set_option autoImplicit false

namespace Fleet

variable {α : Type} [Scalar α]

theorem Host.holds_of_refusal? {host : Host α} {vm : Vm α} {check : Bool}
    (taken : host.refusal? vm check = none) : host.holds vm.id = false := by
  unfold refusal? at taken
  split at taken
  · cases taken
  · next free => simpa using free

namespace Plan

open Step

variable {State : Type} {cluster : Cluster α} {overloaded : List String}
  {selected : Occupancy α}

namespace Planner

variable {planner : Planner α State} {progress : Progress α State}

theorem ends_destination? (reliable : planner.advisors.Reliable) {vm : Vm α} {closed : List String}
    {after : Option (Host α) → Progress α State → Prop} {broken : Fault α → Progress α State → Prop}
    (missing : ∀ advisors, after none { progress with advisors })
    (found : ∀ machine ∈ planner.machines, machine.id ∉ closed →
      (progress.occupancy.host machine).isSuitable vm = .ok true → ∀ advisors,
      after (some (progress.occupancy.host machine)) { progress with advisors })
    (failed : ∀ fault advisors, broken fault { progress with advisors }) :
    (ask (planner.advisors.destination? vm (planner.machines.map progress.occupancy.host)
      closed)).Ends progress after broken := by
  rw [ends_ask]
  refine ⟨fun destination advisors answered => ?_, fun fault advisors _ => failed fault advisors⟩
  cases destination with
  | none => exact missing advisors
  | some host =>
    obtain ⟨offered, open_, suitable⟩ := reliable.destination answered
    obtain ⟨machine, member, rfl⟩ := List.mem_map.mp offered
    exact found machine member open_ suitable advisors

theorem placeVictims_places (reliable : planner.advisors.Reliable)
    (distinct : cluster.DistinctVms) (same : planner.machines = cluster.machines)
    {pairs : List (Vm α × String)} {moves : List Move}
    (sheltered : Sheltered cluster overloaded selected progress.occupancy)
    (rehearsed : Rehearsed cluster overloaded moves progress.occupancy)
    (adrift : Adrift cluster progress.occupancy (pairs.map (·.1)))
    (origins : ∀ pair ∈ pairs, (cluster.Holds pair.2 pair.1 ∧ pair.1.migrating = false) ∧
      pair.2 ∈ overloaded)
    (unnamed : ∀ pair ∈ pairs, pair.1.id ∉ moves.map (·.vm)) :
    (planner.placeVictims overloaded pairs).Ends progress
      (fun more later => Sheltered cluster overloaded selected later.occupancy ∧
        Rehearsed cluster overloaded (moves ++ more) later.occupancy)
      (fun _ later => Sheltered cluster overloaded selected later.occupancy) := by
  -- induction on the VMs left to place; a VM without a place stays adrift and is not asked for
  -- again
  induction pairs generalizing moves progress with
  | nil => exact ⟨sheltered, by simpa using rehearsed⟩
  | cons pair rest ih =>
    obtain ⟨vm, host⟩ := pair
    obtain ⟨⟨⟨⟨source, sourceMem, rfl, resident⟩, still⟩, sourceLoose⟩, restOrigins⟩ :=
      List.forall_mem_cons.mp origins
    obtain ⟨vmUnnamed, restUnnamed⟩ := List.forall_mem_cons.mp unnamed
    rw [placeVictims, ends_bind, ends_lookAll, ends_bind]
    refine ends_destination? reliable (fun advisors => ?_)
      (fun destination member calm suitable advisors => ?_) fun _ _ => sheltered
    · rw [ends_bind, ends_miss]
      exact ih sheltered rehearsed adrift.tail restOrigins restUnnamed
    · rw [same] at member
      rw [ends_bind]
      refine ends_accept (fun taken => ?_) fun _ _ => sheltered
      have placed := sheltered.place distinct member calm
        (adrift.known vm List.mem_cons_self) (adrift.nowhere vm List.mem_cons_self)
      have extended := rehearsed.extend (progress.occupancy.place destination.id vm) sourceMem
        sourceLoose member calm resident still vmUnnamed (Host.holds_of_refusal? taken) suitable
        fun _ _ _ => rfl
      refine (ih placed extended (adrift.place destination.id) restOrigins ?_).bind ?_
      · intro other otherMem
        have listed : other.1.id ∈ (rest.map (·.1)).map (·.id) :=
          List.mem_map_of_mem (List.mem_map_of_mem otherMem)
        have fresh : vm.id ∉ (rest.map (·.1)).map (·.id) := (List.nodup_cons.mp adrift.once).1
        have different : other.1.id ≠ vm.id := fun same => fresh (same ▸ listed)
        simpa [different] using restUnnamed other otherMem
      · rintro more later ⟨kept, rehearsed⟩
        exact ⟨kept, by simpa [Occupancy.host] using rehearsed⟩

end Planner

end Plan

end Fleet
