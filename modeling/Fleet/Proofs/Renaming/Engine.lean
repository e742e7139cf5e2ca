import Fleet.Plan.Engine
import Fleet.Proofs.Plan.Contract
import Fleet.Proofs.Renaming.Membership
import Mathlib.Logic.Equiv.Basic

/-! Planning does not depend on names.

Whatever ids the VMs and the hosts have, a cycle with the same draws comes to the same plan, the
same report and the same membership, in these ids and in the same order, or to the same fault.
-/

set_option autoImplicit false

namespace Fleet

namespace Plan

variable {α State Draws : Type} {names : Renaming}

/-! Reinstating a membership -/

structure Snapshot.Renamed (names : Renaming) (first second : Snapshot α) : Prop where
  membership : second.membership = first.membership.renamed names
  vms : second.vms = first.vms.map (Vm.renamed names)
  arriving : ∀ id, second.arriving (names.host id) = (first.arriving id).map (Vm.renamed names)

theorem Snapshot.capture_renamed {first second : Cluster α} (same : first.Renamed names second) :
    (capture first).Renamed names (capture second) where
  membership := Membership.capture_renamed same
  vms := same.allVms
  arriving id := by
    simp only [capture, same.host?_eq]
    cases first.host? id with
    | none => rfl
    | some host =>
      simp only [Option.map_some, Option.getD_some, Host.vms_renamed, List.filter_map]
      congr 2
      funext vm
      simp [Machine.renamed]

theorem Snapshot.Renamed.wantedBy {first second : Snapshot α} (same : first.Renamed names second)
    (target : Membership) (host : String) :
    Planner.wantedBy second (target.renamed names) (names.host host) =
      (Planner.wantedBy first target host).map (Vm.renamed names) := by
  unfold Planner.wantedBy
  rw [Membership.vmsOf_renamed, same.vms, List.filterMap_map, List.map_filterMap]
  congr 1
  funext id
  exact Renaming.find?_map _ (fun vm => by simp [Bool.beq_eq_decide_eq]) _

variable [Scalar α] {states : State → State → Prop}

namespace Planner

open Step

theorem mirrors_refill (machine : Machine α) (vms : List (Vm α)) :
    Mirrors names (Progress.Renamed names states) id (refill machine vms : Step α State Unit)
      (refill (machine.renamed names) (vms.map (Vm.renamed names))) := by
  induction vms with
  | nil => exact .pure ()
  | cons vm rest ih =>
    refine (mirrors_look machine).bind fun host => ?_
    rw [Host.fits_renamed]
    split
    · exact (mirrors_accept machine vm false).bind fun _ => ih
    · exact .throw (.refused machine.id vm.id .notRestored none)

theorem mirrors_reinstateHost {first second : Snapshot α} (same : first.Renamed names second)
    (target : Membership) (machine : Machine α) :
    Mirrors names (Progress.Renamed names states) id
      (reinstateHost first target machine : Step α State Unit)
      (reinstateHost second (target.renamed names) (machine.renamed names)) := by
  have kept := same.arriving machine.id
  have wanted := same.wantedBy target machine.id
  refine (mirrors_look machine).bind fun host => ?_
  have settled : sameIds (host.renamed names).vmIds
      ((second.arriving (names.host machine.id) ++
        wantedBy second (target.renamed names) (names.host machine.id)).map (·.id)) =
      sameIds host.vmIds
        ((first.arriving machine.id ++ wantedBy first target machine.id).map (·.id)) := by
    have shares : (second.arriving (names.host machine.id) ++
        wantedBy second (target.renamed names) (names.host machine.id)).map (·.id) =
        ((first.arriving machine.id ++ wantedBy first target machine.id).map (·.id)).map names.vm := by
      rw [kept, wanted, ← List.map_append, Vm.ids_renamed]
    rw [shares, Host.vmIds_renamed, sameIds_renamed]
  change Mirrors names _ _ (if sameIds _ ((_ ++ wantedBy first target machine.id).map _) then _ else _)
    (if sameIds _ ((second.arriving (names.host machine.id) ++
      wantedBy second (target.renamed names) (names.host machine.id)).map _) then _ else _)
  rw [settled]
  split
  · exact .pure ()
  · refine (mirrors_setOccupancy fun _ _ related => ?_).bind fun _ => ?_
    · rw [Machine.id_renamed, kept]
      exact related.setResidents machine.id _
    · change Mirrors names _ _ (refill machine (wantedBy first target machine.id))
        (refill _ (wantedBy second (target.renamed names) (names.host machine.id)))
      rw [wanted]
      exact mirrors_refill machine _

theorem mirrors_reinstate {planner other : Planner α State}
    (same : planner.Renamed names states other) {first second : Snapshot α}
    (snapshots : first.Renamed names second) (moves : List Move) :
    Mirrors names (Progress.Renamed names states) id (planner.reinstate first moves)
      (other.reinstate second (moves.map (Move.renamed names))) := by
  unfold reinstate
  rw [snapshots.membership, same.machines]
  refine (mirrors_attempt (Membership.after_alike _ moves)).bind fun target => ?_
  -- the hosts are gone through in the same order under both names
  induction planner.machines with
  | nil => exact .pure ()
  | cons machine rest ih =>
    rw [List.map_cons, List.forM_eq_forM, List.forM_cons, List.forM_cons]
    exact (mirrors_reinstateHost snapshots target machine).bind fun _ => ih

end Planner

/-! Advisors -/

structure World.Renamed (names : Renaming) (first second : World α Draws) : Prop where
  timeline : second.timeline.entries = first.timeline.entries.map (Prod.map names.host id)
  draws : second.draws = first.draws

omit [Scalar α] in
theorem mirrors_answer {Answer Other : Type} {rename : Answer → Other} {related : State → State → Prop}
    {first : Except (Fault α) Answer} {second : Except (Fault α) Other}
    (alike : Alike names rename first second) :
    Mirrors names related rename (Policy.answer first : Ask α State Answer)
      (Policy.answer second) := by
  intro now other same
  cases alike with
  | ok answer => exact .ok answer same
  | error fault _ => exact .error fault same

theorem Policy.mirrors_isOverloaded (policy : Policy α)
    {states : World α Draws → World α Draws → Prop} (host : Host α) {tick time : Tick α}
    {retime : α → α} (stamps : Alike names retime tick.stamp time.stamp)
    (recorded : ∀ now other metric, states now other →
      states { now with timeline := now.timeline.append host.id metric }
        { other with
          timeline := other.timeline.append (names.host host.id) (metric.retimed retime) }) :
    Mirrors names states id (policy.isOverloaded host tick)
      (policy.isOverloaded (host.renamed names) time) := by
  refine (mirrors_answer (policy.overload.observe_retimed policy.table host stamps)).bind
    fun observed => ?_
  have records : Mirrors names states id
      (modify fun world => { world with timeline := world.timeline.append host.id observed.2 } :
        Ask α (World α Draws) Unit)
      (modify fun world => { world with
        timeline := world.timeline.append (host.renamed names).id (observed.2.retimed retime) }) :=
    fun now other same => .ok () (recorded now other observed.2 same)
  exact records.bind fun _ => .pure observed.1.overloaded

theorem Policy.mirrors_destination? (policy : Policy α) (draw : Draws → α × Draws)
    {states : World α Draws → World α Draws → Prop}
    (draws : ∀ now other, states now other → other.draws = now.draws)
    (drawn : ∀ now other draws, states now other →
      states { now with draws := draws } { other with draws := draws })
    (vm : Vm α) (hosts : List (Host α)) (closed : List String) :
    Mirrors names states (Option.map (Host.renamed names))
      (policy.destination? draw vm hosts closed)
      (policy.destination? draw (vm.renamed names) (hosts.map (Host.renamed names))
        (closed.map names.host)) := by
  refine (mirrors_answer (policy.destination.search_alike policy.table vm hosts closed)).bind
    fun search => ?_
  cases search with
  | settled host => exact .pure host
  | contested scored =>
    intro now other same
    have settled : ((Search.contested scored).renamed names).settle (draw now.draws).1 =
        ((Search.contested scored).settle (draw now.draws).1).map (Host.renamed names) :=
      Search.settle_renamed _ _
    change Ending names _ _
      (.ok ((Search.contested scored).settle (draw now.draws).1),
        { now with draws := (draw now.draws).2 })
      (.ok (((Search.contested scored).renamed names).settle (draw other.draws).1),
        { other with draws := (draw other.draws).2 })
    rw [draws now other same, settled]
    exact .ok _ (drawn now other _ same)

theorem Policy.mirrors_staysOverloaded (policy : Policy α) (draw : Draws → α × Draws)
    {states : World α Draws → World α Draws → Prop} (host : Host α) :
    Mirrors names states id ((policy.advisors draw).staysOverloaded host)
      ((policy.advisors draw).staysOverloaded (host.renamed names)) :=
  (mirrors_answer (policy.overload.assess_alike policy.table host [])).bind fun verdict =>
    .pure verdict.overloaded

theorem Policy.advisors_renamed (policy : Policy α) (draw : Draws → α × Draws) :
    (policy.advisors draw).Renamed names (World.Renamed names) (policy.advisors draw) where
  isOverloaded host tick := policy.mirrors_isOverloaded host tick.stamp_alike
    fun _ _ _ same => { same with timeline := by simp [Timeline.append, same.timeline] }
  staysOverloaded := policy.mirrors_staysOverloaded draw
  victim host := mirrors_answer (policy.eviction.victim?_alike policy.table host)
  destination := policy.mirrors_destination? draw (fun _ _ same => same.draws)
    fun _ _ _ same => ⟨same.timeline, rfl⟩

/-! Engines -/

def Report.renamed (names : Renaming) (report : Report α) : Report α where
  tick := report.tick
  moves := report.moves.map (Move.renamed names)
  overloaded := report.overloaded.map names.host
  evicted := report.evicted.map names.vm
  misses := report.misses.map (Miss.renamed names)
  drained := report.drained.map names.host
  cancelled := report.cancelled.map names.host

structure Engine.Renamed (names : Renaming) (states : State → State → Prop)
    (first second : Engine α State) : Prop where
  cluster : first.cluster.Renamed names second.cluster
  advisors : states first.advisors second.advisors
  phase : second.phase = first.phase
  report : second.report = first.report.map (Report.renamed names)
  timings : second.timings = first.timings

omit [Scalar α] in
/-- Every engine can be given the new names. -/
theorem Engine.exists_renamed (names : Renaming) (engine : Engine α (World α Draws)) :
    ∃ other, engine.Renamed names (World.Renamed names) other := by
  obtain ⟨cluster, renamed⟩ := engine.cluster.exists_renamed names
  let world : World α Draws :=
    { engine.advisors with
      timeline := ⟨engine.advisors.timeline.entries.map (Prod.map names.host id)⟩ }
  exact ⟨⟨cluster, world, engine.phase, engine.report.map (Report.renamed names), engine.timings⟩,
    renamed, ⟨rfl, rfl⟩, rfl, rfl, rfl⟩

omit [Scalar α] in
theorem duringFault_renamed (first second : Fault α) :
    duringFault (first.renamed names) (second.renamed names) =
      (duringFault first second).renamed names := by
  cases second with
  | refused host vm reason cause => cases cause <;> rfl
  | _ => rfl

namespace Sample

/-- The two VMs exchange their names, and so do the two hosts. -/
def exchange : Renaming where
  vm := Equiv.swap "x" "y"
  host := Equiv.swap "a" "b"
  vm_injective := Equiv.injective _
  host_injective := Equiv.injective _

def exchanged : Engine Rat (World Rat Unit) :=
  engine ⟨{}, ()⟩ [host "b" 4 [] [vm "y" 0.1], host "a" 4 [] [vm "x" 0.5]]

theorem exchanged_renamed : spread.Renamed exchange (World.Renamed exchange) exchanged where
  cluster := Cluster.renamed_ofHosts [host "a" 4 [] [vm "x" 0.1], host "b" 4 [] [vm "y" 0.5]]
    fun _ _ => rfl
  advisors := ⟨rfl, rfl⟩
  phase := rfl
  report := rfl
  timings := rfl

end Sample

namespace Engine

variable {first second : Engine α State}

omit [Scalar α] in
theorem Renamed.begin (same : first.Renamed names states second) :
    first.begin.Renamed names states second.begin where
  occupancy := same.cluster.occupancy
  phase := rfl
  timings := same.timings
  misses := rfl
  drained := rfl
  cancelled := rfl
  advisors := same.advisors

omit [Scalar α] in
theorem reportOf_renamed (tick : α) (findings : Findings) {now other : Progress α State}
    (progress : now.Renamed names states other) :
    reportOf tick (findings.renamed names) other =
      (reportOf tick findings now).renamed names := by
  simp only [reportOf, Report.renamed, Findings.renamed, progress.misses, progress.drained,
    progress.cancelled]

/-- What two calls leave as reports: what was there before, or their own ones, which tell the same
under the new names and each the time of its call. -/
inductive Reported (names : Renaming) (tick time : α) (before beforeOther : Option (Report α)) :
    Option (Report α) → Option (Report α) → Prop
  | kept : Reported names tick time before beforeOther before beforeOther
  | told (report : Report α) : report.tick = tick →
      Reported names tick time before beforeOther (some report)
        (some { report.renamed names with tick := time })

/-- The second engine is the first one under the new names, but for what the reports tell of time. -/
structure Retimed (names : Renaming) (states : State → State → Prop) (tick time : α)
    (first second later last : Engine α State) : Prop where
  cluster : later.cluster.Renamed names last.cluster
  advisors : states later.advisors last.advisors
  phase : last.phase = later.phase
  timings : last.timings = later.timings
  report : Reported names tick time first.report second.report later.report last.report

omit [Scalar α] in
theorem Renamed.retimed (same : first.Renamed names states second) {tick time : α}
    {now other : Progress α State} (progress : now.Renamed names states other) (phase : Phase) :
    Retimed names states tick time first second (first.finish now phase)
      (second.finish other phase) where
  cluster := ⟨same.cluster.machines, progress.occupancy⟩
  advisors := progress.advisors
  phase := rfl
  timings := progress.timings
  report := .kept

omit [Scalar α] in
theorem Retimed.renamed {tick : α} {later last : Engine α State}
    (same : first.Renamed names states second)
    (retimed : Retimed names states tick tick first second later last) :
    later.Renamed names states last where
  cluster := retimed.cluster
  advisors := retimed.advisors
  phase := retimed.phase
  report := by
    have reports := retimed.report
    generalize later.report = told at reports ⊢
    generalize last.report = toldOther at reports ⊢
    cases reports with
    | kept => exact same.report
    | told report time =>
      subst time
      rfl
  timings := retimed.timings

theorem plan_ends_retimed {advisors others : Advisors α State} {underload : α} {tick time : Tick α}
    (same : first.Renamed names states second)
    (blind : advisors.Renamed names states others)
    (judged : ∀ host, Mirrors names states id (advisors.isOverloaded host tick)
      (others.isOverloaded (host.renamed names) time)) :
    Ending names (Retimed names states tick.value time.value first second)
      (List.map (Move.renamed names)) (first.plan advisors underload tick)
      (second.plan others underload time) := by
  have planners : Planner.Renamed names states
      (⟨first.cluster.machines, advisors, underload⟩ : Planner α State)
      ⟨second.cluster.machines, others, underload⟩ := ⟨same.cluster.machines, blind, rfl⟩
  have snapshots := Snapshot.capture_renamed same.cluster
  have explored := Planner.mirrors_explore planners judged _ _ same.begin
  unfold plan
  dsimp only
  -- what the two runs work with is fixed by now, so only the runs themselves are followed
  generalize (⟨first.cluster.machines, advisors, underload⟩ : Planner α State) = planner
    at planners explored ⊢
  generalize (⟨second.cluster.machines, others, underload⟩ : Planner α State) = other
    at planners explored ⊢
  generalize Snapshot.capture first.cluster = snapshot at snapshots ⊢
  generalize Snapshot.capture second.cluster = snapshotOther at snapshots ⊢
  generalize (planner.explore tick).run.run first.begin = left at explored ⊢
  generalize (other.explore time).run.run second.begin = right at explored ⊢
  cases explored with
  | @error fault later last broken =>
    have restored := Planner.mirrors_reinstate planners snapshots [] _ _ broken
    dsimp only
    rw [List.map_nil] at restored
    generalize (planner.reinstate snapshot []).run.run later = left at restored ⊢
    generalize (other.reinstate snapshotOther []).run.run last = right at restored ⊢
    cases restored with
    | ok _ restored => exact .error fault (same.retimed restored .idle)
    | error second broken =>
      dsimp only
      rw [duringFault_renamed]
      exact .error (duringFault fault second) (same.retimed broken .idle)
  | @ok findings later last explored =>
    have committed := Planner.mirrors_reinstate planners snapshots findings.moves _ _ explored
    dsimp only [Findings.renamed]
    generalize (planner.reinstate snapshot findings.moves).run.run later = left at committed ⊢
    generalize (other.reinstate snapshotOther (findings.moves.map (Move.renamed names))).run.run
      last = right at committed ⊢
    cases committed with
    | error fault broken => exact .error fault (same.retimed broken .restoreAndCommit)
    | @ok _ ended endedOther committed =>
      have told := reportOf_renamed tick.value findings committed
      refine .ok findings.moves ⟨⟨same.cluster.machines, committed.occupancy⟩, committed.advisors,
        rfl, by dsimp only [finish]; rw [committed.timings], ?_⟩
      have retold : reportOf time.value (findings.renamed names) endedOther =
          { (reportOf tick.value findings ended).renamed names with tick := time.value } := by
        rw [← told]
        rfl
      exact retold ▸ .told (reportOf tick.value findings ended) rfl

/-- With advisors that do not look at names, neither does the cycle. -/
theorem plan_ends_renamed {advisors : Advisors α State}
    (blind : advisors.Renamed names states advisors) (same : first.Renamed names states second)
    (underload : α) (tick : Tick α) :
    Ending names (Renamed names states) (List.map (Move.renamed names))
      (first.plan advisors underload tick) (second.plan advisors underload tick) :=
  (plan_ends_retimed same blind fun host => blind.isOverloaded host tick).imp
    fun _ _ retimed => retimed.renamed same

/-- Under other names, planning returns the same moves or the same fault in these names, and leaves
the same cluster, report and records behind. -/
theorem plan_renamed {policy : Policy α} {draw : Draws → α × Draws} {underload : α} {tick : Tick α}
    {first second : Engine α (World α Draws)} (same : first.Renamed names (World.Renamed names) second) :
    Ending names (Renamed names (World.Renamed names)) (List.map (Move.renamed names))
      (first.plan (policy.advisors draw) underload tick)
      (second.plan (policy.advisors draw) underload tick) :=
  plan_ends_renamed (policy.advisors_renamed draw) same underload tick

theorem plan_renamed_exchanged :
    Sample.spread.Renamed Sample.exchange (World.Renamed Sample.exchange) Sample.exchanged ∧
      Ending Sample.exchange (Renamed Sample.exchange (World.Renamed Sample.exchange))
        (List.map (Move.renamed Sample.exchange))
        (Sample.spread.plan Sample.advisors Sample.policy.underload Sample.tick)
        (Sample.exchanged.plan Sample.advisors Sample.policy.underload Sample.tick) :=
  ⟨Sample.exchanged_renamed, plan_renamed Sample.exchanged_renamed⟩

end Engine

end Plan

end Fleet
