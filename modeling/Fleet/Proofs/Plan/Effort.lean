import Fleet.Proofs.Plan.Contract
import Fleet.Proofs.Plan.Loops
import Mathlib.Data.List.Flatten
import Mathlib.Data.List.Perm.Subperm

/-! How much a planning call does before it ends.

An eviction takes a VM off the host it was chosen from, and no host gains one meanwhile. An attempt to
drain a host settles it, also if its VMs are taken back. So there are no more evictions than residents
on overloaded hosts, and no more attempts than hosts, whatever the ids and the numbers are.
-/

set_option autoImplicit false

namespace Fleet.Plan

open Step

variable {α State : Type} [Scalar α]

namespace Planner

variable {planner : Planner α State} {machine : Machine α} {now last : Progress α State}
  {vms : List (Vm α)} {machines attempted : List (Machine α)} {evicted : List (Vm α × String)}
  {settled closed : List String}

/-! Evictions -/

theorem Relieves.spends (reliable : planner.advisors.Reliable)
    {outcome : Except (Fault α) Unit × Progress α State}
    (relieves : planner.Relieves machine now vms outcome) :
    vms.length + (outcome.2.occupancy.residents machine.id).length ≤
        (now.occupancy.residents machine.id).length ∧
      ∀ id, (outcome.2.occupancy.residents id).Sublist (now.occupancy.residents id) := by
  induction relieves with
  | unasked asked =>
    have same := (ends_nominate reliable).of_error asked
    simp [same]
  | spent asked =>
    have same := ((ends_nominate reliable).of_ok asked).1
    simp [same]
  | unjudged nominated evicted =>
    obtain ⟨fewer, kept⟩ := evict_shrinks reliable nominated evicted
    exact ⟨Nat.one_add_le_iff.mpr fewer, kept⟩
  | relieved nominated evicted =>
    obtain ⟨fewer, kept⟩ := evict_shrinks reliable nominated evicted
    exact ⟨Nat.one_add_le_iff.mpr fewer, kept⟩
  | next nominated evicted _ ih =>
    obtain ⟨fewer, kept⟩ := evict_shrinks reliable nominated evicted
    obtain ⟨rest, later⟩ := ih
    refine ⟨?_, fun id => (later id).trans (kept id)⟩
    rw [List.length_cons]
    omega

theorem Selects.few (reliable : planner.advisors.Reliable)
    {outcome : Except (Fault α) Unit × Progress α State}
    (selects : planner.Selects machines now evicted outcome) :
    evicted.length ≤
      (machines.flatMap fun machine => now.occupancy.residents machine.id).length := by
  induction selects with
  | done => exact Nat.zero_le _
  | broken relieves =>
    have few := (relieves.spends reliable).1
    rw [List.length_map, List.flatMap_cons, List.length_append]
    omega
  | @next machine rest now later vms evicted outcome relieves _ ih =>
    obtain ⟨few, kept⟩ := relieves.spends reliable
    -- the hosts that follow have by now no more residents than at the beginning
    have fewer := (List.Sublist.flatMap_right rest fun other _ => kept other.id).length_le
    rw [List.length_append, List.length_map, List.flatMap_cons, List.length_append]
    dsimp only at fewer few
    omega

/-! What is written down -/

def tried (progress : Progress α State) : List String := progress.drained ++ progress.cancelled

omit [Scalar α] in
theorem aloof_tried : Aloof (tried : Progress α State → _) :=
  ⟨⟨fun _ _ => rfl, fun _ _ => rfl⟩, fun _ _ => rfl⟩

theorem Made.tried_perm {later : Progress α State} {attempt : Attempt α State}
    (made : planner.Made settled closed now attempt later)
    (reliable : planner.advisors.Reliable) :
    (tried later).Perm (tried now ++ [attempt.machine.id]) := by
  have marked := made.marks_eq (made.outcome_ne reliable)
  split at marked
  · obtain ⟨drained, cancelled⟩ := Prod.mk.inj marked
    rw [tried, tried, drained, cancelled, List.append_assoc, List.append_assoc]
    exact List.perm_append_comm.append_left _
  · obtain ⟨drained, cancelled⟩ := Prod.mk.inj marked
    rw [tried, tried, drained, cancelled, List.append_assoc]

theorem Consolidates.tried_perm {outcome : Except (Fault α) (List Move) × Progress α State}
    (consolidates : planner.Consolidates settled closed now attempted outcome)
    (reliable : planner.advisors.Reliable) (came : outcome.1.isOk = true) :
    (tried outcome.2).Perm (tried now ++ attempted.map (·.id)) := by
  induction consolidates with
  | full => simp
  | unseen | broken => cases came
  | idle _ round =>
    rw [(of_run_round round).2]
    simp [tried]
  | @next _ _ _ _ _ attempt _ ended _ round _ ih =>
    have rest : ended.isOk = true := by
      cases ended with
      | error fault => cases came
      | ok moves => rfl
    have here := (of_run_round round).tried_perm reliable
    rw [List.map_cons, List.append_cons]
    exact (ih rest).trans (here.append_right _)

end Planner

/-! What a cycle does in all -/

namespace Planner.Work

/-- VMs are evicted from overloaded hosts only, not more often than these have residents. Each host
is attempted at most once. -/
structure Bounded (work : Work α) (cluster : Cluster α) : Prop where
  overloaded : work.overloaded.Sublist cluster.machines
  evicted : work.evicted.length ≤
    (work.overloaded.flatMap fun machine => cluster.occupancy.residents machine.id).length
  known : ∀ machine ∈ work.attempted, machine ∈ cluster.machines
  once : (work.attempted.map (·.id)).Nodup
  attempted : work.attempted.length ≤ cluster.machines.length

/-- The report tells what the loops have done. -/
structure Reported (work : Work α) (report : Report α) : Prop where
  overloaded : report.overloaded = work.overloaded.map (·.id)
  evicted : report.evicted = work.evicted.map (·.1.id)
  attempted : (report.drained ++ report.cancelled).Perm (work.attempted.map (·.id))

end Planner.Work

namespace Planner

variable {planner : Planner α State} {tick : Tick α} {start detected : Progress α State}
  {work : Work α} {overloaded : List (Machine α)}

omit [Scalar α] in
theorem detection_detects (detects : (planner.detection tick).run.run start =
    (.ok overloaded, detected)) :
    overloaded.Sublist planner.machines ∧ detected.occupancy = start.occupancy := by
  have ends : (planner.detection tick).Ends start
      (fun overloaded later => overloaded.Sublist planner.machines ∧
        later.occupancy = start.occupancy) fun _ _ => True := by
    rw [detection, ends_bind, ends_enter, ends_bind]
    refine ends_detect (fun overloaded advisors sublist => ?_) fun _ _ => trivial
    exact ⟨sublist, rfl⟩
  exact ends.of_ok detects

section

variable {cluster : Cluster α} (reliable : planner.advisors.Reliable)
  (same : planner.machines = cluster.machines) (begins : start.occupancy = cluster.occupancy)
include reliable same begins

theorem Selects.bounded {attempted : List (Machine α)} {evicted : List (Vm α × String)}
    {ended : Except (Fault α) Unit × Progress α State}
    (detects : (planner.detection tick).run.run start = (.ok overloaded, detected))
    (selects : planner.Selects overloaded detected evicted ended)
    (known : ∀ machine ∈ attempted, machine ∈ planner.machines)
    (once : (attempted.map (·.id)).Nodup) :
    Work.Bounded ⟨overloaded, evicted, attempted⟩ cluster := by
  obtain ⟨sublist, unmoved⟩ := detection_detects detects
  have few := selects.few reliable
  rw [unmoved, begins] at few
  rw [same] at sublist known
  exact ⟨sublist, few, known, once, (List.subperm_of_subset (once.of_map _) known).length_le⟩

theorem Explores.bounded {outcome : Except (Fault α) Findings × Progress α State}
    (explores : planner.Explores tick start work outcome) : work.Bounded cluster := by
  have none : ∀ machine ∈ ([] : List (Machine α)), machine ∈ planner.machines := by simp
  cases explores with
  | undetected => exact ⟨List.nil_sublist _, Nat.zero_le _, by simp, .nil, Nat.zero_le _⟩
  | unselected detects selects | unplaced detects selects =>
    exact selects.bounded reliable same begins detects none .nil
  | consolidated detects selects _ consolidates =>
    exact selects.bounded reliable same begins detects
      (fun machine member => (consolidates.fresh machine member).1) consolidates.once

end

omit [Scalar α] in
theorem keeps_detection : (planner.detection tick).Keeps tried :=
  keeps_bind (aloof_tried.enter _) fun _ => keeps_bind (keeps_detect aloof_tried _ _) fun _ =>
    keeps_bind (keeps_modify fun _ => rfl) fun _ => keeps_bind (aloof_tried.enter _) fun _ =>
      keeps_pure _

theorem keeps_survey {evicted : List (Vm α × String)} :
    (planner.survey overloaded evicted).Keeps tried :=
  keeps_bind (Course.keeps_placement aloof_tried (fun _ _ => rfl) (fun _ _ => rfl) _ _ _)
    fun _ => keeps_bind (keeps_sieve keeps_isSwitchedOff _) fun _ => keeps_pure _

theorem Explores.tells (reliable : planner.advisors.Reliable) {findings : Findings}
    {last : Progress α State}
    (explores : planner.Explores tick start work (.ok findings, last)) :
    findings.overloaded = work.overloaded.map (·.id) ∧
      findings.evicted = work.evicted.map (·.1.id) ∧
      (tried last).Perm (tried start ++ work.attempted.map (·.id)) := by
  generalize result : ((.ok findings, last) : Except (Fault α) Findings × Progress α State) =
    outcome at explores
  cases explores with
  | undetected | unselected | unplaced => cases result
  | @consolidated _ _ _ _ _ _ _ _ _ ended detects selects surveys consolidates =>
    cases ended with
    | error fault => cases result
    | ok drained =>
      cases result
      refine ⟨rfl, rfl, ?_⟩
      have selected := selects.run_eq reliable
      -- nothing is written down before the first attempt
      rw [← keeps_detection.of_run detects,
        ← (keeps_selectVictims (aloof_tried.discreet planner) _).of_run selected,
        ← keeps_survey.of_run surveys]
      exact consolidates.tried_perm reliable rfl

end Planner

/-- An overloaded host with two VMs of one id, and two hosts of which one can be drained. -/
def Sample.doubled : Engine Rat (World Rat Unit) :=
  engine ⟨{}, ()⟩
    [host "a" 2 [] [vm "x" 0.5, { vm "x" 0.45 with serial := 1 }], host "b" 4 [] [vm "y" 0.1],
      host "c" 4 [] [vm "z" 0.05]]

namespace Engine

variable {Draws : Type}

/-- Whatever the ids and the numbers are, and whether or not it breaks off, a planning call comes to
its end by what its loops find, and these do no more than is bounded by the cluster. A report tells
what they have done. -/
theorem plan_bounded (engine : Engine α (World α Draws)) (policy : Policy α)
    (draw : Draws → α × Draws) (underload : α) (tick : Tick α) :
    (∃ work, (engine.planner (policy.advisors draw) underload).Explores tick engine.begin work
      (((engine.planner (policy.advisors draw) underload).explore tick).run.run engine.begin)) ∧
    ∀ work explored, (engine.planner (policy.advisors draw) underload).Explores tick engine.begin
        work explored →
      explored =
        ((engine.planner (policy.advisors draw) underload).explore tick).run.run engine.begin ∧
      work.Bounded engine.cluster ∧
      ∀ moves after, engine.plan (policy.advisors draw) underload tick = (.ok moves, after) →
        ∃ report, after.report = some report ∧ work.Reported report := by
  have reliable := policy.reliable draw
  obtain ⟨work, outcome, found⟩ : ∃ work outcome, (engine.planner (policy.advisors draw)
      underload).Explores tick engine.begin work outcome :=
    Planner.exists_explores reliable tick engine.begin
  refine ⟨⟨work, found.run_eq reliable ▸ found⟩, fun work explored explores =>
    ⟨(explores.run_eq reliable).symm, explores.bounded reliable rfl rfl, ?_⟩⟩
  intro moves after planned
  generalize came : (.ok moves : Except (Fault α) (List Move)) = result at planned
  cases conclusion planned with
  | @committed findings before last _ explore reinstate _ report =>
    have told := explores
    rw [← explores.run_eq reliable, explore] at told
    obtain ⟨overloaded, evicted, attempted⟩ := told.tells reliable
    have unmarked : Planner.tried last = Planner.tried before :=
      (Planner.keeps_reinstate Planner.aloof_tried.toStill _ _ _).of_run reinstate
    rw [← unmarked] at attempted
    exact ⟨_, report, overloaded, evicted, attempted⟩
  | uncommitted | rolledBack | stranded => cases came

/-- One eviction takes both VMs of that id away. -/
theorem plan_bounded_doubled :
    ∃ work, (Sample.doubled.planner Sample.advisors Sample.policy.underload).Explores Sample.tick
        Sample.doubled.begin work
        (((Sample.doubled.planner Sample.advisors Sample.policy.underload).explore
          Sample.tick).run.run Sample.doubled.begin) ∧
      work.Bounded Sample.doubled.cluster ∧
      work.evicted.map (·.1.id) = ["x"] ∧ work.attempted.map (·.id) = ["b"] := by
  obtain ⟨⟨work, explores⟩, each⟩ := plan_bounded Sample.doubled Sample.policy (fun _ => (0, ()))
    Sample.policy.underload Sample.tick
  obtain ⟨_, bounded, tells⟩ := each work _ explores
  have planned : (Sample.doubled.plan Sample.advisors Sample.policy.underload Sample.tick).1 =
      .ok [⟨"x", "a", "c"⟩, ⟨"y", "b", "c"⟩] := Attempt.ok_of_toOption (by decide +kernel)
  let seen := fun report : Report Rat => (report.evicted, report.drained ++ report.cancelled)
  have known : (Sample.doubled.plan Sample.advisors Sample.policy.underload
      Sample.tick).2.report.map seen = some (["x"], ["b"]) := by decide +kernel
  obtain ⟨report, found, told⟩ := tells _ _ (Prod.ext planned rfl)
  have same := (congrArg (Option.map seen) found).symm.trans known
  obtain ⟨evicted, tried⟩ := Prod.mk.inj (Option.some.inj same)
  have attempted := told.attempted
  rw [tried] at attempted
  exact ⟨work, explores, bounded, told.evicted ▸ evicted,
    List.perm_singleton.mp attempted.symm⟩

end Engine

end Fleet.Plan
