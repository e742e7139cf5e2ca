import Fleet.Plan.Cycle

/-! The planning engine: a cluster, and what planning cycles leave behind. -/

set_option autoImplicit false

namespace Fleet.Plan

structure Engine (α State : Type) where
  cluster : Cluster α
  /-- What the advisors keep from one cycle to the next. -/
  advisors : State
  phase : Phase := .idle
  /-- The report of the last cycle that was completed. -/
  report : Option (Report α) := none
  timings : Timings := {}

def duringFault {α : Type} (first : Fault α) : Fault α → Fault α
  | .refused host vm reason _ => .refused host vm reason (some first)
  | other => other

namespace Engine

variable {α State : Type} [Scalar α]

def begin (engine : Engine α State) : Progress α State where
  occupancy := engine.cluster.occupancy
  phase := .snapshot
  timings := engine.timings
  misses := []
  drained := []
  cancelled := []
  advisors := engine.advisors

def finish (engine : Engine α State) (progress : Progress α State) (phase : Phase) :
    Engine α State :=
  { engine with
    cluster := { engine.cluster with occupancy := progress.occupancy }
    advisors := progress.advisors
    phase
    timings := progress.timings }

def reportOf (tick : α) (findings : Findings) (progress : Progress α State) : Report α where
  tick
  moves := findings.moves
  overloaded := findings.overloaded
  evicted := findings.evicted
  misses := progress.misses
  drained := progress.drained
  cancelled := progress.cancelled

/-- Plans one cycle. A fault before the commit restores the membership; a fault of the commit itself
leaves the engine in the committing phase. A report appears only for a completed cycle. -/
def plan (engine : Engine α State) (advisors : Advisors α State) (underload : α) (tick : Tick α) :
    Except (Fault α) (List Move) × Engine α State :=
  let planner : Planner α State := { machines := engine.cluster.machines, advisors, underload }
  let snapshot := Snapshot.capture engine.cluster
  match (planner.explore tick).run.run engine.begin with
  | (.error fault, progress) =>
      match (planner.reinstate snapshot []).run.run progress with
      | (.ok (), restored) => (.error fault, engine.finish restored .idle)
      | (.error second, broken) => (.error (duringFault fault second), engine.finish broken .idle)
  | (.ok findings, progress) =>
      match (planner.reinstate snapshot findings.moves).run.run progress with
      | (.error fault, broken) => (.error fault, engine.finish broken .restoreAndCommit)
      | (.ok (), committed) =>
          let finished := engine.finish committed .idle
          (.ok findings.moves,
            { finished with
              report := some (reportOf tick.value findings committed)
              timings := { finished.timings with total := finished.timings.total + 1 } })

end Engine

end Fleet.Plan
