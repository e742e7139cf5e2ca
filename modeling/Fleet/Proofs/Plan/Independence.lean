import Fleet.Proofs.Renaming.Engine

/-! Planning does not depend on what was recorded, nor on the time.

Metrics are recorded for others to read. Two cycles over the same cluster that draw the same numbers
decide the same, whatever was recorded before them and whenever they take place.
-/

set_option autoImplicit false

namespace Fleet

variable {α State Draws : Type}

/-! Names that stay as they are -/

@[simp] theorem Renaming.host_id : Renaming.id.host = id := rfl

@[simp] theorem Renaming.vm_id : Renaming.id.vm = id := rfl

@[simp] theorem Vm.map_renamed_id (vms : List (Vm α)) : vms.map (Vm.renamed Renaming.id) = vms :=
  List.map_id vms

@[simp] theorem Move.renamed_id : Move.renamed Renaming.id = id := rfl

@[simp] theorem Machine.renamed_id (machine : Machine α) :
    machine.renamed Renaming.id = machine := by
  simp [Machine.renamed]

@[simp] theorem Fault.renamed_id (fault : Fault α) : fault.renamed Renaming.id = fault := by
  fun_induction Fault.renamed Renaming.id fault with
  | case3 host vm reason first ih => rw [ih]; rfl
  | _ => rfl

theorem Cluster.renamed_id (cluster : Cluster α) : cluster.Renamed Renaming.id cluster where
  machines := by simp [funext Machine.renamed_id]
  occupancy := ⟨fun id => by simp, fun vm serial => by simp⟩

namespace Plan

@[simp] theorem Miss.renamed_id : Miss.renamed Renaming.id = id := rfl

@[simp] theorem Report.renamed_id (report : Report α) : report.renamed Renaming.id = report := by
  simp [Report.renamed]

/-! Advisors that do not look back -/

variable [Scalar α]

/-- Two worlds that draw the same numbers; nothing is said of what they have recorded. -/
def World.Level (first second : World α Draws) : Prop := second.draws = first.draws

theorem Policy.isOverloaded_level (policy : Policy α) (host : Host α) {tick time : Tick α}
    {retime : α → α} (stamps : Alike Renaming.id retime tick.stamp time.stamp) :
    Mirrors Renaming.id (@World.Level α Draws) id (policy.isOverloaded host tick)
      (policy.isOverloaded (host.renamed Renaming.id) time) :=
  policy.mirrors_isOverloaded host stamps fun _ _ _ same => same

theorem Policy.advisors_level (policy : Policy α) (draw : Draws → α × Draws) :
    (policy.advisors draw).Renamed Renaming.id World.Level (policy.advisors draw) where
  isOverloaded host tick := policy.isOverloaded_level host tick.stamp_alike
  staysOverloaded := policy.mirrors_staysOverloaded draw
  victim host := mirrors_answer (policy.eviction.victim?_alike policy.table host)
  destination := policy.mirrors_destination? draw (fun _ _ same => same) fun _ _ _ _ => rfl

namespace Engine

variable {first second : Engine α (World α Draws)}

theorem plan_reports {engine after : Engine α State} {advisors : Advisors α State} {underload : α}
    {tick : Tick α} {moves : List Move}
    (planned : engine.plan advisors underload tick = (.ok moves, after)) :
    after.report ≠ none := by
  generalize result : (.ok moves : Except (Fault α) (List Move)) = answer at planned
  cases conclusion planned with
  | committed _ _ _ report => simp [report]
  | uncommitted | rolledBack | stranded => cases result

theorem plan_level (policy : Policy α) (draw : Draws → α × Draws) (underload : α)
    {tick time : Tick α} {stamp stampOther : α} (stamped : tick.stamp = .ok stamp)
    (stampedOther : time.stamp = .ok stampOther)
    (same : first.Renamed Renaming.id World.Level second) (fresh : first.report = none) :
    (second.plan (policy.advisors draw) underload time).1 =
        (first.plan (policy.advisors draw) underload tick).1 ∧
      ∀ moves, (first.plan (policy.advisors draw) underload tick).1 = .ok moves →
        ∃ report : Report α,
          (first.plan (policy.advisors draw) underload tick).2.report =
              some { report with tick := tick.value } ∧
            (second.plan (policy.advisors draw) underload time).2.report =
              some { report with tick := time.value } := by
  have stamps : Alike Renaming.id (fun _ => stampOther) tick.stamp time.stamp := by
    rw [stamped, stampedOther]
    exact .ok stamp
  have ending : Ending Renaming.id _ _ (first.plan (policy.advisors draw) underload tick)
      (second.plan (policy.advisors draw) underload time) :=
    plan_ends_retimed same (policy.advisors_level draw) fun host =>
      policy.isOverloaded_level host stamps
  generalize planned : first.plan (policy.advisors draw) underload tick = ended at ending ⊢
  generalize second.plan (policy.advisors draw) underload time = endedOther at ending ⊢
  cases ending with
  | error fault => exact ⟨by rw [Fault.renamed_id], fun _ done => by cases done⟩
  | @ok moves later last retimed =>
    refine ⟨by simp, fun _ _ => ?_⟩
    have reports := retimed.report
    dsimp only
    generalize told : later.report = report at reports ⊢
    generalize last.report = reportOther at reports ⊢
    cases reports with
    | kept => exact absurd (told.trans fresh) (plan_reports planned)
    | told report ticked => exact ⟨report, by rw [← ticked], by rw [Report.renamed_id]⟩

end Engine

end Plan

end Fleet
