import Fleet.Plan.Cycle
import Fleet.Proofs.Attempt

/-! How a step of a cycle ends: with an answer or with a fault, and what has been changed by then.

A statement about a step names both endings, since a fault keeps the changes made before it.
Statements about compound steps are taken apart with `ends_bind` until they speak of single changes.
-/

set_option autoImplicit false

namespace Fleet.Plan.Step

variable {α State Answer Other Item : Type}

/-- Run from `progress`, the step ends as `after` says of its answer, or breaks off as `broken` says
of the fault. -/
def Ends (step : Step α State Answer) (progress : Progress α State)
    (after : Answer → Progress α State → Prop) (broken : Fault α → Progress α State → Prop) :
    Prop :=
  match step.run.run progress with
  | (.ok answer, later) => after answer later
  | (.error fault, later) => broken fault later

variable {progress : Progress α State}

theorem Ends.mono {step : Step α State Answer} {after after' : Answer → Progress α State → Prop}
    {broken broken' : Fault α → Progress α State → Prop} (ends : step.Ends progress after broken)
    (answers : ∀ answer later, after answer later → after' answer later)
    (faults : ∀ fault later, broken fault later → broken' fault later) :
    step.Ends progress after' broken' := by
  unfold Ends at ends ⊢
  split at ends
  · exact answers _ _ ends
  · exact faults _ _ ends

theorem Ends.imp {step : Step α State Answer} {after after' : Answer → Progress α State → Prop}
    {broken : Fault α → Progress α State → Prop} (ends : step.Ends progress after broken)
    (answers : ∀ answer later, after answer later → after' answer later) :
    step.Ends progress after' broken :=
  ends.mono answers fun _ _ fault => fault

variable {after : Answer → Progress α State → Prop} {broken : Fault α → Progress α State → Prop}

theorem Ends.of_ok {step : Step α State Answer} (ends : step.Ends progress after broken)
    {answer : Answer} {later : Progress α State}
    (run : step.run.run progress = (.ok answer, later)) :
    after answer later := by
  simpa only [Ends, run] using ends

theorem Ends.of_error {step : Step α State Answer} (ends : step.Ends progress after broken)
    {fault : Fault α} {later : Progress α State}
    (run : step.run.run progress = (.error fault, later)) : broken fault later := by
  simpa only [Ends, run] using ends

theorem Ends.and {step : Step α State Answer} {after after' : Answer → Progress α State → Prop}
    {broken broken' : Fault α → Progress α State → Prop} (first : step.Ends progress after broken)
    (second : step.Ends progress after' broken') :
    step.Ends progress (fun answer later => after answer later ∧ after' answer later)
      (fun fault later => broken fault later ∧ broken' fault later) := by
  unfold Ends at first second ⊢
  split at first
  · next run =>
    rw [run] at second
    exact ⟨first, second⟩
  · next run =>
    rw [run] at second
    exact ⟨first, second⟩

theorem Ends.of_run {step : Step α State Answer}
    (answers : ∀ answer later, step.run.run progress = (.ok answer, later) → after answer later)
    (faults : ∀ fault later, step.run.run progress = (.error fault, later) → broken fault later) :
    step.Ends progress after broken := by
  unfold Ends
  split
  · next run => exact answers _ _ run
  · next run => exact faults _ _ run

/-! Compound steps -/

theorem run_made (step : Step α State Answer) (make : Answer → Other) (progress : Progress α State) :
    (step >>= fun answer => pure (make answer)).run.run progress =
      ((step.run.run progress).1.map make, (step.run.run progress).2) := by
  rw [Attempt.run_bind]
  rcases step.run.run progress with ⟨_ | _, _⟩ <;> rfl

theorem of_run_bind {step : Step α State Other} {next : Other → Step α State Answer}
    {answer : Answer} {last : Progress α State}
    (run : (step >>= next).run.run progress = (.ok answer, last)) :
    ∃ middle later, step.run.run progress = (.ok middle, later) ∧
      (next middle).run.run later = (.ok answer, last) := by
  rw [Attempt.run_bind] at run
  split at run
  · next middle later first => exact ⟨middle, later, first, run⟩
  · cases run

@[simp] theorem ends_bind (step : Step α State Other) (next : Other → Step α State Answer) :
    (step >>= next).Ends progress after broken ↔
      step.Ends progress (fun answer later => (next answer).Ends later after broken) broken := by
  unfold Ends
  rw [Attempt.run_bind]
  rcases step.run.run progress with ⟨_ | _, _⟩ <;> rfl

theorem Ends.bind {step : Step α State Other} {next : Other → Step α State Answer}
    {middle : Other → Progress α State → Prop} (first : step.Ends progress middle broken)
    (second : ∀ answer later, middle answer later → (next answer).Ends later after broken) :
    (step >>= next).Ends progress after broken :=
  (ends_bind step next).mpr (first.imp second)

@[simp] theorem ends_pure (answer : Answer) :
    (pure answer : Step α State Answer).Ends progress after broken ↔ after answer progress :=
  Iff.rfl

@[simp] theorem ends_get {after : Progress α State → Progress α State → Prop} :
    (get : Step α State (Progress α State)).Ends progress after broken ↔ after progress progress :=
  Iff.rfl

@[simp] theorem ends_modify {after : Unit → Progress α State → Prop}
    (change : Progress α State → Progress α State) :
    (modify change : Step α State Unit).Ends progress after broken ↔ after () (change progress) :=
  Iff.rfl

/-! Single changes -/

theorem ends_attempt (given : Except (Fault α) Answer) :
    (attempt given : Step α State Answer).Ends progress after broken ↔
      (∀ answer, given = .ok answer → after answer progress) ∧
        ∀ fault, given = .error fault → broken fault progress := by
  have run : (attempt given : Step α State Answer).run.run progress = (given, progress) := rfl
  cases given <;> simp [Ends, run]

theorem ends_ask (question : Ask α State Answer) :
    (ask question).Ends progress after broken ↔
      (∀ answer advisors, question.run.run progress.advisors = (.ok answer, advisors) →
        after answer { progress with advisors }) ∧
      ∀ fault advisors, question.run.run progress.advisors = (.error fault, advisors) →
        broken fault { progress with advisors } := by
  have run : (ask question).run.run progress =
      ((question.run.run progress.advisors).1,
        { progress with advisors := (question.run.run progress.advisors).2 }) := rfl
  unfold Ends
  rw [run]
  rcases question.run.run progress.advisors with ⟨fault | answer, advisors⟩
  · refine ⟨fun holds => ⟨fun _ _ same => ?_, fun _ _ same => ?_⟩, fun holds => holds.2 _ _ rfl⟩
    · cases same
    · cases same
      exact holds
  · refine ⟨fun holds => ⟨fun _ _ same => ?_, fun _ _ same => ?_⟩, fun holds => holds.1 _ _ rfl⟩
    · cases same
      exact holds
    · cases same

@[simp] theorem ends_enter {after : Unit → Progress α State → Prop} (phase : Phase) :
    (enter phase : Step α State Unit).Ends progress after broken ↔
      after () { progress with phase } :=
  Iff.rfl

@[simp] theorem ends_clock {after : Unit → Progress α State → Prop} (change : Timings → Timings) :
    (clock change : Step α State Unit).Ends progress after broken ↔
      after () { progress with timings := change progress.timings } := Iff.rfl

@[simp] theorem ends_miss {after : Unit → Progress α State → Prop} (vm : Vm α) (origin : String)
    (phase : Phase) :
    (miss vm origin phase : Step α State Unit).Ends progress after broken ↔
      after () { progress with misses := progress.misses ++ [⟨vm.id, origin, phase⟩] } := Iff.rfl

@[simp] theorem ends_setOccupancy {after : Unit → Progress α State → Prop}
    (change : Occupancy α → Occupancy α) :
    (setOccupancy change : Step α State Unit).Ends progress after broken ↔
      after () { progress with occupancy := change progress.occupancy } := Iff.rfl

@[simp] theorem ends_release {after : Unit → Progress α State → Prop} (host : String) (vm : Vm α) :
    (release host vm : Step α State Unit).Ends progress after broken ↔
      after () { progress with occupancy := progress.occupancy.release host vm } := Iff.rfl

variable [Scalar α]

theorem run_accept (machine : Machine α) (vm : Vm α) (check : Bool) (now : Progress α State) :
    (accept machine vm check : Step α State Unit).run.run now =
      match (now.occupancy.host machine).refusal? vm check with
      | some fault => (.error fault, now)
      | none => (.ok (), { now with occupancy := now.occupancy.place machine.id vm }) := by
  change (attempt (now.occupancy.accept machine vm check) >>= fun occupancy =>
    setOccupancy fun _ => occupancy : Step α State Unit).run.run now = _
  unfold Occupancy.accept
  cases (now.occupancy.host machine).refusal? vm check <;> rfl

theorem ends_accept {after : Unit → Progress α State → Prop} {machine : Machine α} {vm : Vm α}
    {check : Bool}
    (taken : (progress.occupancy.host machine).refusal? vm check = none →
      after () { progress with occupancy := progress.occupancy.place machine.id vm })
    (refused : ∀ fault, (progress.occupancy.host machine).refusal? vm check = some fault →
      broken fault progress) :
    (accept machine vm check : Step α State Unit).Ends progress after broken := by
  unfold Ends
  rw [run_accept]
  cases refusal : (progress.occupancy.host machine).refusal? vm check with
  | some fault => exact refused fault refusal
  | none => exact taken refusal

end Fleet.Plan.Step
