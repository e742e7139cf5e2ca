import Fleet.Proofs.Plan.Contract
import Fleet.Proofs.Plan.Loops

/-! Which durations planning calls record.

A duration is recorded when its stage ends. A call that breaks off has recorded those of the stages
before: nothing takes them back, and no later call makes up for the others.
-/

set_option autoImplicit false

namespace Fleet.Plan

open Step

inductive Stage where
  /-- It breaks off while hosts are judged. -/
  | detecting
  /-- It breaks off while victims are selected. -/
  | selecting
  /-- It breaks off while victims are placed. -/
  | placing
  /-- It breaks off when victims have been placed. -/
  | settling
  | completed
  deriving DecidableEq, Repr

def Stage.clocks : Stage → Nat
  | detecting => 0
  | selecting => 1
  | placing => 2
  | settling => 3
  | completed => 4

namespace Timings

def record (timings : Timings) (clocks : Nat) : Timings where
  hostSelection := timings.hostSelection + if 1 ≤ clocks then 1 else 0
  vmSelection := timings.vmSelection + if 2 ≤ clocks then 1 else 0
  reallocation := timings.reallocation + if 3 ≤ clocks then 1 else 0
  total := timings.total + if 4 ≤ clocks then 1 else 0

def recordAll (timings : Timings) (stages : List Stage) : Timings :=
  stages.foldl (fun timings stage => timings.record stage.clocks) timings

/-- Each duration has been recorded as often. -/
structure Aligned (timings : Timings) : Prop where
  vmSelection : timings.vmSelection = timings.hostSelection
  reallocation : timings.reallocation = timings.hostSelection
  total : timings.total = timings.hostSelection

structure Ordered (timings : Timings) : Prop where
  vmSelection : timings.vmSelection ≤ timings.hostSelection
  reallocation : timings.reallocation ≤ timings.vmSelection
  total : timings.total ≤ timings.reallocation

variable {timings : Timings}

theorem Ordered.record (ordered : timings.Ordered) (clocks : Nat) :
    (timings.record clocks).Ordered := by
  obtain ⟨vmSelection, reallocation, total⟩ := ordered
  constructor <;> dsimp only [Timings.record] <;> split <;> split <;> omega

theorem Ordered.aligned_iff (ordered : timings.Ordered) :
    timings.Aligned ↔ timings.total = timings.hostSelection := by
  obtain ⟨vmSelection, reallocation, total⟩ := ordered
  refine ⟨Aligned.total, fun same => ?_⟩
  constructor <;> omega

theorem Ordered.aligned_record_iff (ordered : timings.Ordered) (stage : Stage) :
    (timings.record stage.clocks).Aligned ↔
      timings.Aligned ∧ (stage = .detecting ∨ stage = .completed) := by
  rw [(ordered.record _).aligned_iff, ordered.aligned_iff]
  obtain ⟨vmSelection, reallocation, total⟩ := ordered
  cases stage <;> simp [Timings.record, Stage.clocks] <;> omega

theorem Ordered.aligned_recordAll_iff (ordered : timings.Ordered) (stages : List Stage) :
    (timings.recordAll stages).Aligned ↔
      timings.Aligned ∧ ∀ stage ∈ stages, stage = .detecting ∨ stage = .completed := by
  induction stages generalizing timings with
  | nil => simp [recordAll]
  | cons stage rest ih =>
    rw [recordAll, List.foldl_cons, ← recordAll, ih (ordered.record _), ordered.aligned_record_iff,
      and_assoc, List.forall_mem_cons]

theorem recordAll_eq (timings : Timings) (stages : List Stage) : timings.recordAll stages =
    { hostSelection := timings.hostSelection + stages.countP (1 ≤ ·.clocks)
      vmSelection := timings.vmSelection + stages.countP (2 ≤ ·.clocks)
      reallocation := timings.reallocation + stages.countP (3 ≤ ·.clocks)
      total := timings.total + stages.countP (4 ≤ ·.clocks) } := by
  induction stages generalizing timings with
  | nil => rfl
  | cons stage rest ih =>
    rw [recordAll, List.foldl_cons, ← recordAll, ih]
    simp only [record, List.countP_cons, decide_eq_true_eq, Nat.add_assoc, Nat.add_comm (ite _ _ _)]

end Timings

variable {α State : Type}

theorem aloof_timings : Aloof (Progress.timings : Progress α State → Timings) :=
  ⟨⟨fun _ _ => rfl, fun _ _ => rfl⟩, fun _ _ => rfl⟩

namespace Planner

variable (planner : Planner α State) (tick : Tick α) (start : Progress α State)
  (overloaded : List (Machine α)) (evicted : List (Vm α × String))

theorem detection_records : (planner.detection tick).Ends start
    (fun _ later => later.timings = start.timings.record 1)
    fun _ later => later.timings = start.timings := by
  rw [detection, ends_bind, ends_enter, ends_bind]
  refine ((keeps_detect aloof_timings planner tick).ends _).imp fun _ later kept => ?_
  rw [ends_bind, ends_clock, ends_bind, ends_enter, ends_pure, kept]
  rfl

variable [Scalar α]

theorem placement_records {timings : Timings} (selected : start.timings = timings.record 1) :
    (planner.placement overloaded evicted).Ends start
      (fun _ later => later.timings = timings.record 3)
      fun _ later => later.timings = timings.record 2 := by
  have order : (byDemand (·.1) evicted : Step α State _).Keeps Progress.timings :=
    keeps_byDemand _ _
  have search := keeps_placeVictims (aloof_timings.discreet planner) (fun _ _ => rfl)
    (overloaded.map (·.id))
  rw [placement, ends_bind, ends_clock, ends_bind, ends_enter, ends_bind]
  refine (order.ends _).mono (fun ordered now kept => ?_) fun _ now kept => ?_
  · rw [ends_bind]
    refine ((search ordered).ends _).mono (fun placed later same => ?_) fun _ later same => ?_
    · rw [ends_bind, ends_clock, ends_pure, same, kept, selected]
      rfl
    · rw [same, kept, selected]
      rfl
  · rw [kept, selected]
    rfl

def stage : Stage :=
  match (planner.detection tick).run.run start with
  | (.error _, _) => .detecting
  | (.ok overloaded, detected) =>
      match (planner.selectVictims overloaded).run.run detected with
      | (.error _, _) => .selecting
      | (.ok evicted, selected) =>
          match (planner.placement overloaded evicted).run.run selected with
          | (.error _, _) => .placing
          | (.ok _, _) => .settling

theorem explore_stages : planner.explore tick = (do
    let overloaded ← planner.detection tick
    let evicted ← planner.selectVictims overloaded
    let placed ← planner.placement overloaded evicted
    let drained ← planner.drainUnderloaded (overloaded.map (·.id)) placed
    pure ⟨placed ++ drained, overloaded.map (·.id), evicted.map (·.1.id)⟩) := by
  simp only [explore, detection, placement, bind_assoc, pure_bind]

theorem explore_ends_stage : (planner.explore tick).Ends start
    (fun _ later => planner.stage tick start = .settling ∧ later.timings = start.timings.record 3)
    fun _ later => later.timings = start.timings.record (planner.stage tick start).clocks := by
  unfold stage Ends
  rw [explore_stages, Attempt.run_bind]
  -- stage by stage: a cycle that breaks off stops at what the stages before have recorded
  have detection := planner.detection_records tick start
  rcases detects : (planner.detection tick).run.run start with ⟨fault | overloaded, detected⟩
  · exact detection.of_error detects
  dsimp only
  rw [Attempt.run_bind]
  have selection := (keeps_selectVictims (aloof_timings.discreet planner) overloaded).ends detected
  rcases selects : (planner.selectVictims overloaded).run.run detected with
    ⟨fault | evicted, selected⟩
  · exact (selection.of_error selects).trans (detection.of_ok detects)
  dsimp only
  rw [Attempt.run_bind]
  have placement := planner.placement_records selected overloaded evicted
    ((selection.of_ok selects).trans (detection.of_ok detects))
  rcases places : (planner.placement overloaded evicted).run.run selected with
    ⟨fault | placed, midway⟩
  · exact placement.of_error places
  dsimp only
  have consolidation : (planner.drainUnderloaded (overloaded.map (·.id)) placed).Keeps
      Progress.timings :=
    keeps_drainUnderloaded (aloof_timings.discreet planner) (fun _ _ => rfl) (fun _ _ => rfl)
      (fun _ _ => rfl) _ _
  have kept := (consolidation midway).trans (placement.of_ok places)
  rw [run_made]
  revert kept
  rcases (planner.drainUnderloaded _ placed).run.run midway with ⟨fault | drained, last⟩
  · exact id
  · exact fun kept => ⟨rfl, kept⟩

end Planner

namespace Engine

variable [Scalar α] (engine : Engine α State)

def stage (advisors : Advisors α State) (underload : α) (tick : Tick α) : Stage :=
  if (engine.plan advisors underload tick).1.isOk then .completed
  else (engine.planner advisors underload).stage tick engine.begin

theorem plan_records_stage {advisors : Advisors α State} {underload : α} {tick : Tick α}
    {result : Except (Fault α) (List Move)} {after : Engine α State}
    (planned : engine.plan advisors underload tick = (result, after)) :
    after.timings = engine.timings.record (engine.stage advisors underload tick).clocks := by
  have explored := (engine.planner advisors underload).explore_ends_stage tick engine.begin
  have reinstated (moves : List Move) : ((engine.planner advisors underload).reinstate
      (.capture engine.cluster) moves).Keeps Progress.timings :=
    Planner.keeps_reinstate aloof_timings.toStill _ _ _
  rw [stage, planned]
  unfold plan at planned
  dsimp only at planned
  split at planned
  · next explore =>
    split at planned
    · next reinstate =>
      cases planned
      exact ((reinstated []).of_run reinstate).trans (explored.of_error explore)
    · next reinstate =>
      cases planned
      exact ((reinstated []).of_run reinstate).trans (explored.of_error explore)
  · next explore =>
    obtain ⟨settling, recorded⟩ := explored.of_ok explore
    split at planned
    · next reinstate =>
      cases planned
      rw [settling]
      exact ((reinstated _).of_run reinstate).trans recorded
    · next last reinstate =>
      cases planned
      change { last.timings with total := last.timings.total + 1 } = engine.timings.record 4
      rw [(reinstated _).of_run reinstate, recorded]
      rfl

end Engine

structure Occasion (α State : Type) where
  cluster : Cluster α
  kept : State
  advisors : Advisors α State
  underload : α
  tick : Tick α

namespace Engine

variable [Scalar α] (engine : Engine α State)

/-- Between calls, all may change but what the engine itself records. -/
def meet (occasion : Occasion α State) : Engine α State :=
  { engine with cluster := occasion.cluster, advisors := occasion.kept }

def call (occasion : Occasion α State) : Engine α State :=
  ((engine.meet occasion).plan occasion.advisors occasion.underload occasion.tick).2

/-- The engine after calls, whether or not they fail. -/
def afterAll (occasions : List (Occasion α State)) : Engine α State :=
  occasions.foldl call engine

/-- How far each of the calls comes. -/
def stages : Engine α State → List (Occasion α State) → List Stage
  | _, [] => []
  | engine, occasion :: rest =>
      (engine.meet occasion).stage occasion.advisors occasion.underload occasion.tick ::
        (engine.call occasion).stages rest

theorem afterAll_records (occasions : List (Occasion α State)) :
    (engine.afterAll occasions).timings = engine.timings.recordAll (engine.stages occasions) := by
  induction occasions generalizing engine with
  | nil => rfl
  | cons occasion rest ih =>
    have recorded : (engine.call occasion).timings = _ :=
      (engine.meet occasion).plan_records_stage (Prod.eta _).symm
    rw [afterAll, List.foldl_cons, ← afterAll, ih, recorded]
    rfl

/-- What an engine has recorded after any calls, completed or not, whatever has changed between them:
each duration once for every call that came through its stage. The four lists are of one length
exactly if every call was completed or broke off while hosts were judged. -/
theorem timings_aligned_iff (cluster : Cluster α) (kept : State)
    (occasions : List (Occasion α State)) :
    let engine : Engine α State := { cluster, advisors := kept }
    let stages := engine.stages occasions
    let timings := (engine.afterAll occasions).timings
    timings.hostSelection = stages.countP (1 ≤ ·.clocks) ∧
      timings.vmSelection = stages.countP (2 ≤ ·.clocks) ∧
      timings.reallocation = stages.countP (3 ≤ ·.clocks) ∧
      timings.total = stages.countP (4 ≤ ·.clocks) ∧
      (timings.Aligned ↔ ∀ stage ∈ stages, stage = .detecting ∨ stage = .completed) := by
  intro engine stages timings
  have recorded : timings = Timings.recordAll {} stages := engine.afterAll_records occasions
  have counted := recorded.trans (Timings.recordAll_eq {} stages)
  simp only [Nat.zero_add] at counted
  refine ⟨by rw [counted], by rw [counted], by rw [counted], by rw [counted], ?_⟩
  have ordered : ({} : Timings).Ordered := ⟨Nat.le_refl 0, Nat.le_refl 0, Nat.le_refl 0⟩
  rw [recorded, ordered.aligned_recordAll_iff]
  exact and_iff_right ⟨rfl, rfl, rfl⟩

/-- A call that breaks off at a VM of unknown shape, and one that is completed. -/
example :
    let misfit : Vm Rat := { Sample.vm "x" 0.95 with mips := 2000 }
    let occasion (engine : Engine Rat (World Rat Unit)) : Occasion Rat (World Rat Unit) :=
      ⟨engine.cluster, engine.advisors, Sample.advisors, Sample.policy.underload, Sample.tick⟩
    let calls := [Sample.engine ⟨{}, ()⟩ [Sample.host "a" 2 [] [misfit]], Sample.spread]
    (Sample.spread.afterAll (calls.map occasion)).timings = ⟨2, 1, 1, 1⟩ := by
  decide +kernel

end Engine

end Fleet.Plan
