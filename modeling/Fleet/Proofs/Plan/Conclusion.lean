import Fleet.Plan.Engine
import Fleet.Proofs.Plan.Course
import Fleet.Proofs.Plan.Shares

/-! How a planning call ends.

The tentative phases break off or not, and the membership is reinstated or not. In each case it is
known what the cluster is like in the end, or which kind of fault is raised.
-/

set_option autoImplicit false

namespace Fleet.Plan

open Step

variable {α State : Type} [Scalar α]

namespace Engine

def planner (engine : Engine α State) (advisors : Advisors α State) (underload : α) :
    Planner α State :=
  { machines := engine.cluster.machines, advisors, underload }

/-- The ways in which a planning call can end, by how its exploration and its reinstatement end. -/
inductive Conclusion (engine : Engine α State) (planner : Planner α State) (tick : Tick α) :
    Except (Fault α) (List Move) → Engine α State → Prop
  | committed {findings : Findings} {explored last : Progress α State} {after : Engine α State} :
      (planner.explore tick).run.run engine.begin = (.ok findings, explored) →
      (planner.reinstate (.capture engine.cluster) findings.moves).run.run explored =
        (.ok (), last) →
      after.cluster = { engine.cluster with occupancy := last.occupancy } →
      after.report = some (reportOf tick.value findings last) →
      after.advisors = last.advisors →
      Conclusion engine planner tick (.ok findings.moves) after
  | uncommitted {findings : Findings} {explored last : Progress α State} {fault : Fault α} :
      (planner.explore tick).run.run engine.begin = (.ok findings, explored) →
      (planner.reinstate (.capture engine.cluster) findings.moves).run.run explored =
        (.error fault, last) →
      Conclusion engine planner tick (.error fault) (engine.finish last .restoreAndCommit)
  | rolledBack {broken last : Progress α State} {fault : Fault α} :
      (planner.explore tick).run.run engine.begin = (.error fault, broken) →
      (planner.reinstate (.capture engine.cluster) []).run.run broken = (.ok (), last) →
      Conclusion engine planner tick (.error fault) (engine.finish last .idle)
  | stranded {broken last : Progress α State} {fault second : Fault α} :
      (planner.explore tick).run.run engine.begin = (.error fault, broken) →
      (planner.reinstate (.capture engine.cluster) []).run.run broken = (.error second, last) →
      Conclusion engine planner tick (.error (duringFault fault second)) (engine.finish last .idle)

theorem conclusion {engine after : Engine α State} {advisors : Advisors α State} {underload : α}
    {tick : Tick α} {result : Except (Fault α) (List Move)}
    (planned : engine.plan advisors underload tick = (result, after)) :
    engine.Conclusion (engine.planner advisors underload) tick result after := by
  unfold plan at planned
  dsimp only at planned
  split at planned
  · next explore =>
    split at planned
    · next reinstate =>
      cases planned
      exact .rolledBack explore reinstate
    · next reinstate =>
      cases planned
      exact .stranded explore reinstate
  · next explore =>
    split at planned
    · next reinstate =>
      cases planned
      exact .uncommitted explore reinstate
    · next reinstate =>
      cases planned
      exact .committed explore reinstate rfl rfl rfl

section

variable {engine : Engine α State} {planner : Planner α State} {tick : Tick α}
  (same : planner.machines = engine.cluster.machines) (reliable : planner.advisors.Reliable)
  (distinct : engine.cluster.DistinctVms)
include same reliable distinct

/-- What a committed cycle leaves is the membership after its moves, and these can be replayed. -/
theorem commit_reinstates {findings : Findings} {explored last : Progress α State}
    (explore : (planner.explore tick).run.run engine.begin = (.ok findings, explored))
    (reinstate : (planner.reinstate (.capture engine.cluster) findings.moves).run.run explored =
      (.ok (), last)) :
    Retained engine.cluster (planner.afterSelection tick engine.begin) explored.occupancy ∧
      (∃ loose, Rehearsed engine.cluster loose findings.moves explored.occupancy) ∧
      last.occupancy = reinstated engine.cluster findings.moves explored.occupancy := by
  obtain ⟨retained, loose, rehearsed⟩ :=
    (Planner.explore_ends reliable distinct same tick rfl).of_ok explore
  obtain ⟨final, run, _⟩ := rehearsed.replay
  exact ⟨retained, ⟨loose, rehearsed⟩,
    (reinstate_ends _ same distinct rehearsed.once run.destination_mem).of_ok reinstate⟩

/-- What a cycle that was rolled back leaves is the membership at its beginning. -/
theorem rollback_reinstates {fault : Fault α} {broken last : Progress α State}
    (explore : (planner.explore tick).run.run engine.begin = (.error fault, broken))
    (reinstate : (planner.reinstate (.capture engine.cluster) []).run.run broken = (.ok (), last)) :
    Retained engine.cluster (planner.afterSelection tick engine.begin) broken.occupancy ∧
      last.occupancy = reinstated engine.cluster [] broken.occupancy := by
  refine ⟨(Planner.explore_ends reliable distinct same tick rfl).of_error explore, ?_⟩
  exact (reinstate_ends [] same distinct .nil fun _ absent => by cases absent).of_ok reinstate

omit reliable in
theorem reinstate_breaks (moves : List Move) {fault : Fault α} {progress last : Progress α State}
    (once : (moves.map (·.vm)).Nodup)
    (known : ∀ move ∈ moves, ∃ machine ∈ engine.cluster.machines, machine.id = move.destination)
    (reinstate : (planner.reinstate (.capture engine.cluster) moves).run.run progress =
      (.error fault, last)) : Unrestored fault :=
  (reinstate_ends moves same distinct once known).of_error reinstate

end

theorem plan_course {engine after : Engine α State} {advisors : Advisors α State} {underload : α}
    {tick : Tick α} {moves : List Move} (reliable : advisors.Reliable)
    (distinct : engine.cluster.DistinctVms)
    (planned : engine.plan advisors underload tick = (.ok moves, after)) :
    ∃ (course : Course (engine.planner advisors underload) tick engine.begin) (loose : List String),
      course.Sound engine.cluster loose ∧ course.findings.moves = moves ∧
      after.report = some (reportOf tick.value course.findings course.last) ∧
      after.cluster = { engine.cluster with
        occupancy := reinstated engine.cluster moves course.last.occupancy } := by
  generalize result : (.ok moves : Except (Fault α) (List Move)) = answer at planned
  cases conclusion planned with
  | committed explore reinstate cluster report =>
    cases result
    obtain ⟨course, rfl, rfl⟩ := Course.exists_course explore
    obtain ⟨_, _, last⟩ := commit_reinstates rfl reliable distinct explore reinstate
    have aloof : Aloof (reportOf tick.value course.findings : Progress α State → _) :=
      ⟨⟨fun _ _ => rfl, fun _ _ => rfl⟩, fun _ _ => rfl⟩
    have unchanged := (Planner.keeps_reinstate aloof.toStill _ _ _).of_run reinstate
    obtain ⟨loose, sound⟩ := course.exists_sound reliable distinct rfl rfl rfl
    exact ⟨course, loose, sound, rfl, unchanged ▸ report, last ▸ cluster⟩
  | uncommitted | rolledBack | stranded => cases result

end Engine

omit [Scalar α] in
/-- A call that could not roll back does not hand on the fault it was recovering from. -/
theorem duringFault_ne {first second : Fault α} (unrestored : Unrestored second) :
    duringFault first second ≠ first := by
  obtain ⟨host, vm, reason, rfl⟩ := unrestored
  intro same
  -- the fault handed on contains the first one, so it is larger
  have size := congrArg sizeOf same
  simp only [duringFault, Fault.refused.sizeOf_spec, Option.some.sizeOf_spec] at size
  omega

end Fleet.Plan
