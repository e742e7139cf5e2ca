import Fleet.Proofs.Plan.Conclusion
import Fleet.Proofs.Plan.Confined

/-! Which faults a planning call can end with.

Besides the faults of its tentative phases there are those of reinstating the membership. With VMs of
one id a membership may lose a VM that is still to be moved; all others come from hosts that cannot
take a VM.
-/

set_option autoImplicit false

namespace Fleet

variable {α State : Type}

theorem Membership.after_failsOnly (membership : Membership) (moves : List Move) :
    FailsOnly (· = .notMember) (membership.after moves : Except (Fault α) Membership) := by
  refine .foldlM fun move _ current => ?_
  unfold apply
  split
  · exact .ok _
  · split
    · exact .ok _
    · exact fun _ failed => (Except.error.inj failed).symm

namespace Plan

variable [Scalar α] {known : Vm α → Prop} {tick : Tick α} {allowed : Fault α → Prop}

theorem Planner.reinstate_breaks {planner : Planner α State} {snapshot : Snapshot α}
    {moves : List Move} {progress last : Progress α State} {fault : Fault α}
    (reinstate : (planner.reinstate snapshot moves).run.run progress = (.error fault, last)) :
    fault = .notMember ∨ Unrestored fault := by
  cases aimed : (snapshot.membership.after moves : Except (Fault α) Membership) with
  | error cause =>
    have lost := Membership.after_failsOnly _ _ cause aimed
    rw [Planner.reinstate, aimed] at reinstate
    cases reinstate
    exact .inl lost
  | ok target => exact .inr ((Planner.reinstate_restocks aimed).of_error reinstate)

/-- A planning call adds refusals to the faults of its phases, and the loss of a VM if there are VMs of
one id. -/
theorem Engine.plan_failsOnly {engine : Engine α State} {advisors : Advisors α State} {underload : α}
    (confined : (engine.planner advisors underload).Confined known tick allowed)
    (holds : Known engine.cluster.machines known engine.cluster.occupancy)
    (lost : ¬engine.cluster.DistinctVms → allowed .notMember)
    (refusal : ∀ host vm reason during, allowed (.refused host vm reason during)) :
    FailsOnly allowed (engine.plan advisors underload tick).1 := by
  have refused {fault : Fault α} : Unrestored fault → allowed fault := by
    rintro ⟨host, vm, reason, rfl⟩
    exact refusal host vm reason none
  have exploring := Planner.explore_confined confined
    (show Known _ known engine.begin.occupancy from holds)
  intro fault failed
  generalize planned : engine.plan advisors underload tick = ended at failed
  obtain ⟨result, after⟩ := ended
  cases failed
  cases conclusion planned with
  | rolledBack explore _ => exact exploring.of_error explore
  | stranded explore reinstate =>
    -- with nothing to move, the membership is that of the beginning, and no VM is missed
    have unrestored := (Planner.reinstate_restocks (Membership.after_nil _)).of_error reinstate
    obtain ⟨host, vm, reason, rfl⟩ := unrestored
    exact refusal host vm reason _
  | uncommitted explore reinstate =>
    by_cases distinct : engine.cluster.DistinctVms
    · obtain ⟨-, loose, rehearsed⟩ :=
        (Planner.explore_ends confined.reliable distinct rfl tick rfl).of_ok explore
      obtain ⟨final, run, -⟩ := rehearsed.replay
      exact refused (reinstate_breaks rfl distinct _ rehearsed.once run.destination_mem reinstate)
    · rcases Planner.reinstate_breaks reinstate with rfl | unrestored
      · exact lost distinct
      · exact refused unrestored

theorem Policy.Founded.plan_failsOnly {Draws : Type} {engine : Engine α (World α Draws)}
    {policy : Policy α}
    (founded : policy.Founded engine.cluster.machines (· ∈ engine.cluster.residents) allowed)
    (stamp : FailsOnly allowed tick.stamp) (lost : ¬engine.cluster.DistinctVms → allowed .notMember)
    (refusal : ∀ host vm reason during, allowed (.refused host vm reason during))
    (draw : Draws → α × Draws) (underload : α) :
    FailsOnly allowed (engine.plan (policy.advisors draw) underload tick).1 := by
  have confined : (engine.planner (policy.advisors draw) underload).Confined
      (· ∈ engine.cluster.residents) tick allowed :=
    { reliable := policy.reliable draw
      answers := founded.advisors stamp draw
      demand := fun _ member => founded.demand member
      utilization := fun _ among => founded.utilization among
      refusal := fun host vm reason => refusal host vm reason none }
  exact Engine.plan_failsOnly confined
    (fun machine member _ resident => Cluster.mem_residents.mpr ⟨machine, member, resident⟩)
    lost refusal

end Plan

end Fleet
