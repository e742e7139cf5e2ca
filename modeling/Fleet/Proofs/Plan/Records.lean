import Fleet.Plan.Engine
import Fleet.Proofs.Attempt
import Fleet.Proofs.Plan.Conclusion

/-! What a cycle records.

While it looks for overloaded hosts, a cycle records one metric for each host, in their order and before
any VM has moved. Later phases record nothing, and a cycle that breaks off takes no record back.
-/

set_option autoImplicit false

namespace Fleet

variable {α : Type} [Scalar α]

/-- The metric shows the utilization of the host at the tick. -/
structure Metric.Shows (metric : Metric α) (host : Host α) (tick : Tick α) : Prop where
  utilization : host.utilization = .ok metric.utilization
  timestamp : metric.timestamp = tick.value

/-- The second timeline is the first one with one more metric for each of the hosts, in their order. -/
inductive Timeline.Recorded (tick : Tick α) : List (Host α) → Timeline α → Timeline α → Prop
  | nil (timeline : Timeline α) : Recorded tick [] timeline timeline
  | cons {host : Host α} {metric : Metric α} {rest : List (Host α)} {before after : Timeline α} :
      metric.Shows host tick → Recorded tick rest (before.append host.id metric) after →
      Recorded tick (host :: rest) before after

namespace Timeline.Recorded

variable {tick : Tick α} {hosts : List (Host α)} {before after : Timeline α}

theorem entries (recorded : Recorded tick hosts before after) :
    ∃ added, after.entries = before.entries ++ added ∧ added.map (·.1) = hosts.map (·.id) := by
  induction recorded with
  | nil timeline => exact ⟨[], by simp⟩
  | @cons host metric rest before after shows recorded ih =>
    obtain ⟨added, extended, named⟩ := ih
    exact ⟨(host.id, metric) :: added, by simp [extended, append], by simp [named]⟩

theorem records_of_absent (recorded : Recorded tick hosts before after) {id : String}
    (absent : id ∉ hosts.map (·.id)) : after.records id = before.records id := by
  induction recorded with
  | nil timeline => rfl
  | @cons host metric rest before after shows recorded ih =>
    obtain ⟨other, absent⟩ := List.ne_and_not_mem_of_not_mem_cons absent
    rw [ih absent, records_append, if_neg (Ne.symm other), List.append_nil]

theorem records_of_mem (recorded : Recorded tick hosts before after)
    (distinct : (hosts.map (·.id)).Nodup) :
    ∀ host ∈ hosts, ∃ metric : Metric α, metric.Shows host tick ∧
      after.records host.id = before.records host.id ++ [metric] := by
  induction recorded with
  | nil timeline => exact fun _ absent => absurd absent List.not_mem_nil
  | @cons host metric rest before after shows recorded ih =>
    obtain ⟨fresh, distinct⟩ := List.nodup_cons.mp distinct
    refine List.forall_mem_cons.mpr ⟨⟨metric, shows, ?_⟩, fun other otherMem => ?_⟩
    · rw [recorded.records_of_absent fresh, records_append, if_pos rfl]
    · obtain ⟨later, laterShows, added⟩ := ih distinct other otherMem
      have apart : host.id ≠ other.id :=
        fun same => fresh (List.mem_map.mpr ⟨other, otherMem, same.symm⟩)
      refine ⟨later, laterShows, ?_⟩
      rw [added, records_append, if_neg apart, List.append_nil]

end Timeline.Recorded

namespace Plan

open Step

variable {Draws : Type} {planner : Planner α (World α Draws)} {progress : Progress α (World α Draws)}

def recordedSoFar (progress : Progress α (World α Draws)) : Timeline α := progress.advisors.timeline

namespace Planner

variable {policy : Policy α} {draw : Draws → α × Draws} {tick : Tick α}

theorem ends_isOverloaded (host : Host α) {after : Bool → Progress α (World α Draws) → Prop}
    {broken : Fault α → Progress α (World α Draws) → Prop}
    (judged : ∀ verdict metric, metric.Shows host tick →
      after verdict { progress with advisors := { progress.advisors with
        timeline := progress.advisors.timeline.append host.id metric } })
    (failed : ∀ fault, broken fault progress) :
    (ask (policy.isOverloaded host tick)).Ends progress after broken := by
  cases observed : policy.overload.observe policy.table host tick with
  | error fault =>
    have run : (policy.isOverloaded host tick).run.run progress.advisors =
        (.error fault, progress.advisors) := by
      rw [Policy.isOverloaded, observed]
      rfl
    rw [ends_ask, run]
    refine ⟨fun _ _ same => (by cases same), fun _ _ same => ?_⟩
    cases same
    exact failed fault
  | ok judgement =>
    obtain ⟨verdict, metric⟩ := judgement
    have run : (policy.isOverloaded host tick).run.run progress.advisors =
        (.ok verdict.overloaded, { progress.advisors with
          timeline := progress.advisors.timeline.append host.id metric }) := by
      rw [Policy.isOverloaded, observed]
      rfl
    obtain ⟨_, _, observed⟩ := Attempt.bind_ok observed
    obtain ⟨utilization, measured, observed⟩ := Attempt.bind_ok observed
    obtain ⟨time, stamped, observed⟩ := Attempt.bind_ok observed
    cases observed
    rw [ends_ask, run]
    refine ⟨fun _ _ same => ?_, fun _ _ same => by cases same⟩
    cases same
    exact judged _ _ ⟨measured, Tick.eq_value_of_stamp stamped⟩

theorem detect_records (advised : planner.advisors = policy.advisors draw) :
    (planner.detect tick).Ends progress
      (fun _ later => Timeline.Recorded tick (planner.machines.map progress.occupancy.host)
        (recordedSoFar progress) (recordedSoFar later))
      (fun _ later => ∃ seen, seen <+: planner.machines.map progress.occupancy.host ∧
        Timeline.Recorded tick seen (recordedSoFar progress) (recordedSoFar later)) := by
  unfold detect
  rw [advised]
  -- each record extends the timeline that the judgements before it have left
  induction planner.machines generalizing progress with
  | nil => exact .nil _
  | cons machine rest ih =>
    rw [sieve, ends_bind, ends_bind, ends_look]
    refine ends_isOverloaded (progress.occupancy.host machine) (fun _ metric shows => ?_)
      fun _ => ⟨[], List.nil_prefix, .nil _⟩
    rw [ends_bind]
    refine ih.mono (fun _ _ recorded => .cons shows recorded) ?_
    rintro _ _ ⟨seen, before, recorded⟩
    exact ⟨_ :: seen, List.prefix_cons_inj _ |>.mpr before, .cons shows recorded⟩

/-! Later phases -/

omit [Scalar α] in
theorem still_recordedSoFar : Still (@recordedSoFar α Draws) :=
  ⟨fun _ _ => rfl, fun _ _ => rfl⟩

theorem discreet_recordedSoFar (advised : planner.advisors = policy.advisors draw) :
    Discreet recordedSoFar planner where
  toStill := still_recordedSoFar
  victim host := by
    rw [advised]
    exact fun _ => rfl
  stays host := by
    rw [advised]
    intro progress
    change ((do pure (← Policy.answer (policy.overload.assess policy.table host)).overloaded :
      Ask α (World α Draws) Bool).run.run progress.advisors).2.timeline = _
    cases policy.overload.assess policy.table host <;> rfl
  destination vm hosts closed := by
    rw [advised]
    intro progress
    change ((policy.destination? draw vm hosts closed).run.run progress.advisors).2.timeline = _
    unfold Policy.destination?
    cases policy.destination.search policy.table vm hosts closed with
    | error fault => rfl
    | ok search => cases search <;> rfl

theorem explore_records (advised : planner.advisors = policy.advisors draw) :
    (planner.explore tick).Ends progress
      (fun _ later => Timeline.Recorded tick (planner.machines.map progress.occupancy.host)
        (recordedSoFar progress) (recordedSoFar later))
      (fun _ later => ∃ seen, seen <+: planner.machines.map progress.occupancy.host ∧
        Timeline.Recorded tick seen (recordedSoFar progress) (recordedSoFar later)) := by
  have discreet := discreet_recordedSoFar advised
  rw [explore, ends_bind, ends_enter]
  refine (detect_records advised).bind fun overloaded now recorded => ?_
  have quiet : Step.Keeps recordedSoFar (do
      clock fun timings => { timings with hostSelection := timings.hostSelection + 1 }
      enter .selectVictims
      let evicted ← planner.selectVictims overloaded
      planner.relocation overloaded evicted) :=
    keeps_bind (keeps_modify fun _ => rfl) fun _ => keeps_bind (discreet.enter _) fun _ =>
      keeps_bind (keeps_selectVictims discreet _) fun evicted =>
        keeps_bind (keeps_modify fun _ => rfl) fun _ => keeps_bind (discreet.enter _) fun _ =>
          keeps_bind (keeps_byDemand _ _) fun _ =>
            keeps_bind (keeps_placeVictims discreet (fun _ _ => rfl) _ _) fun _ =>
              keeps_bind (keeps_modify fun _ => rfl) fun _ =>
                keeps_bind (keeps_drainUnderloaded discreet (fun _ _ => rfl) (fun _ _ => rfl)
                  (fun _ _ => rfl) _ _) fun _ => keeps_pure _
  change Ends (do
      clock fun timings => { timings with hostSelection := timings.hostSelection + 1 }
      enter .selectVictims
      let evicted ← planner.selectVictims overloaded
      planner.relocation overloaded evicted) now _ _
  apply Ends.of_run
  · intro _ later run
    rwa [quiet.of_run run]
  · intro _ later run
    exact ⟨_, List.prefix_refl _, by rwa [quiet.of_run run]⟩

end Planner

/-- A cycle records one metric for each host of the cluster as it was before the cycle, in their order;
one that breaks off may end before it has come to the last host. -/
theorem Engine.plan_records {engine after : Engine α (World α Draws)} {policy : Policy α}
    {draw : Draws → α × Draws} {underload : α} {tick : Tick α}
    {result : Except (Fault α) (List Move)}
    (planned : engine.plan (policy.advisors draw) underload tick = (result, after)) :
    ∃ seen, seen <+: engine.cluster.hosts ∧
      Timeline.Recorded tick seen engine.advisors.timeline after.advisors.timeline ∧
      ∀ moves, result = .ok moves → seen = engine.cluster.hosts := by
  have explored : ((engine.planner (policy.advisors draw) underload).explore tick).Ends engine.begin
      _ _ := Planner.explore_records (rfl : _ = policy.advisors draw)
  have reinstating (snapshot : Snapshot α) (moves : List Move) :=
    Planner.keeps_reinstate Planner.still_recordedSoFar
      (engine.planner (policy.advisors draw) underload) snapshot moves
  cases conclusion planned with
  | committed explore reinstate _ _ advisors =>
    have recorded := explored.of_ok explore
    rw [← (reinstating _ _).of_run reinstate] at recorded
    exact ⟨_, List.prefix_refl _, advisors ▸ recorded, fun _ _ => rfl⟩
  | uncommitted explore reinstate =>
    have recorded := explored.of_ok explore
    rw [← (reinstating _ _).of_run reinstate] at recorded
    exact ⟨_, List.prefix_refl _, recorded, fun _ _ => rfl⟩
  | rolledBack explore reinstate =>
    obtain ⟨seen, before, recorded⟩ := explored.of_error explore
    rw [← (reinstating _ _).of_run reinstate] at recorded
    exact ⟨seen, before, recorded, fun _ done => by cases done⟩
  | stranded explore reinstate =>
    obtain ⟨seen, before, recorded⟩ := explored.of_error explore
    rw [← (reinstating _ _).of_run reinstate] at recorded
    exact ⟨seen, before, recorded, fun _ done => by cases done⟩

end Plan

end Fleet
