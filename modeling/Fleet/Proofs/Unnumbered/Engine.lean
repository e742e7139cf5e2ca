import Fleet.Proofs.Unnumbered.Cycle

/-! Planning depends on the VMs of each host and not on their serials.

What a cycle returns, reports and records is the same for two clusters of the same machines with the same
VMs on them, however these are numbered and labelled.
-/

set_option autoImplicit false

namespace Fleet

variable {α : Type}

/-! Clusters -/

/-- The second cluster is the first one without serials. -/
structure Cluster.Unnumbered (first second : Cluster α) : Prop where
  machines : second.machines = first.machines
  residents : first.occupancy.Unnumbered second.occupancy

def Cluster.unnumbered (cluster : Cluster α) : Cluster α :=
  { cluster with
    occupancy := ⟨fun id => (cluster.occupancy.residents id).map Vm.unnumbered, fun _ => none⟩ }

namespace Cluster.Unnumbered

variable {first second : Cluster α} (same : first.Unnumbered second)
include same

theorem hosts : second.hosts = first.hosts.map Host.unnumbered := by
  unfold Cluster.hosts
  rw [same.machines, List.map_map]
  exact List.map_congr_left fun machine _ => same.residents.host_eq machine

theorem host?_eq (id : String) : second.host? id = (first.host? id).map Host.unnumbered := by
  unfold Cluster.host?
  rw [same.hosts, List.find?_map]
  rfl

theorem allVms : second.allVms = first.allVms.map Vm.unnumbered := by
  have vms : second.hosts.flatMap (·.vms) = (first.hosts.flatMap (·.vms)).map Vm.unnumbered := by
    rw [same.hosts, List.flatMap_map, List.map_flatMap]
    rfl
  unfold Cluster.allVms
  rw [vms]
  exact Keyed.ofList_map (fun _ _ => Iff.rfl) _

theorem capture : Membership.capture second = Membership.capture first := by
  unfold Membership.capture
  rw [same.hosts, List.map_map]
  congr 1
  refine List.map_congr_left fun host _ => ?_
  rw [Function.comp_apply, Host.vmIds_unnumbered]
  rfl

end Cluster.Unnumbered

namespace Plan

variable {State Draws : Type}

/-! Reinstating the membership -/

structure Snapshot.Unnumbered (first second : Snapshot α) : Prop where
  membership : second.membership = first.membership
  vms : second.vms = first.vms.map Vm.unnumbered
  arriving : ∀ id, second.arriving id = (first.arriving id).map Vm.unnumbered

theorem Snapshot.capture_unnumbered {first second : Cluster α} (same : first.Unnumbered second) :
    (capture first).Unnumbered (capture second) where
  membership := same.capture
  vms := same.allVms
  arriving id := by
    simp only [capture, same.host?_eq]
    cases first.host? id with
    | none => rfl
    | some host =>
      simp only [Option.map_some, Option.getD_some, Host.vms_unnumbered, List.filter_map]
      rfl

theorem Snapshot.Unnumbered.wantedBy {first second : Snapshot α} (same : first.Unnumbered second)
    (target : Membership) (host : String) :
    Planner.wantedBy second target host =
      (Planner.wantedBy first target host).map Vm.unnumbered := by
  unfold Planner.wantedBy
  rw [same.vms, List.map_filterMap]
  congr 1
  funext id
  rw [List.find?_map]
  rfl

variable [Scalar α]

namespace Planner

open Step

theorem follows_refill (machine : Machine α) (vms : List (Vm α)) :
    Follows id (refill machine vms : Step α State Unit)
      (refill machine (vms.map Vm.unnumbered)) := by
  induction vms with
  | nil => exact .pure ()
  | cons vm rest ih =>
    refine (follows_look machine).bind fun host => ?_
    rw [Host.fits_unnumbered]
    split
    · exact (follows_accept machine vm false).bind fun _ => ih
    · exact follows_attempt_id rfl

theorem follows_reinstateHost {first second : Snapshot α} (same : first.Unnumbered second)
    (target : Membership) (machine : Machine α) :
    Follows id (reinstateHost first target machine : Step α State Unit)
      (reinstateHost second target machine) := by
  refine (follows_look machine).bind fun host => ?_
  have wanted := same.wantedBy target machine.id
  have shares : (second.arriving machine.id ++ wantedBy second target machine.id).map (·.id) =
      (first.arriving machine.id ++ wantedBy first target machine.id).map (·.id) := by
    rw [same.arriving, wanted, ← List.map_append, Vm.ids_unnumbered]
  change Follows id
    (if sameIds host.vmIds ((first.arriving _ ++ wantedBy first target machine.id).map _) then _ else _)
    (if sameIds _ ((second.arriving _ ++ wantedBy second target machine.id).map _) then _ else _)
  rw [shares, Host.vmIds_unnumbered]
  split
  · exact .pure ()
  · refine (follows_setOccupancy fun _ _ related => ?_).bind fun _ => ?_
    · rw [same.arriving]
      exact related.setResidents machine.id _
    · change Follows id (refill machine (wantedBy first target machine.id))
        (refill _ (wantedBy second target machine.id))
      rw [wanted]
      exact follows_refill machine _

theorem follows_reinstate (planner : Planner α State) {first second : Snapshot α}
    (same : first.Unnumbered second) (moves : List Move) :
    Follows id (planner.reinstate first moves) (planner.reinstate second moves) := by
  unfold reinstate
  rw [same.membership]
  refine (follows_attempt_id rfl).bind fun target => ?_
  -- the hosts are gone through in the same order in both runs
  unfold id
  generalize planner.machines = machines
  induction machines with
  | nil => exact .pure ()
  | cons machine rest ih =>
    rw [List.forM_eq_forM, List.forM_cons, List.forM_cons]
    exact (follows_reinstateHost same target machine).bind fun _ => ih

end Planner

/-! Advisors -/

/-- Policies judge by load, shape and id, and never by serial. -/
theorem Policy.advisors_unnumbered (policy : Policy α) (draw : Draws → α × Draws) :
    (policy.advisors draw).Unnumbered where
  isOverloaded host tick := by
    change policy.isOverloaded host.unnumbered tick = policy.isOverloaded host tick
    unfold isOverloaded
    rw [policy.overload.observe_unnumbered]
    rfl
  staysOverloaded host := by
    have judged := policy.overload.assess_unnumbered policy.table host []
    change (do pure (← answer (policy.overload.assess policy.table host.unnumbered)).overloaded) = _
    rw [← List.map_nil, judged]
    rfl
  victim host := by
    change answer (policy.eviction.victim? policy.table host.unnumbered) = _
    rw [policy.eviction.victim?_unnumbered]
    change _ = Option.map Vm.unnumbered <$> answer (policy.eviction.victim? policy.table host)
    cases policy.eviction.victim? policy.table host <;> rfl
  destination vm hosts closed := by
    change policy.destination? draw vm.unnumbered (hosts.map Host.unnumbered) closed = _
    unfold destination?
    rw [policy.destination.search_unnumbered]
    change _ = Option.map Host.unnumbered <$> policy.destination? draw vm hosts closed
    unfold destination?
    rcases policy.destination.search policy.table vm hosts closed with fault | host | scored
    · rfl
    · rfl
    · funext world
      change (Except.ok ((Search.contested scored).unnumbered.settle (draw world.draws).1),
          { world with draws := (draw world.draws).2 }) =
        (Except.ok (((Search.contested scored).settle (draw world.draws).1).map Host.unnumbered),
          { world with draws := (draw world.draws).2 })
      rw [Search.settle_unnumbered]

/-! Engines -/

structure Engine.Unnumbered (first second : Engine α State) : Prop where
  cluster : first.cluster.Unnumbered second.cluster
  advisors : second.advisors = first.advisors
  phase : second.phase = first.phase
  report : second.report = first.report
  timings : second.timings = first.timings

namespace Engine

variable {first second : Engine α State}

omit [Scalar α] in
theorem Unnumbered.begin (same : first.Unnumbered second) :
    first.begin.Unnumbered second.begin := by
  unfold Engine.begin
  rw [same.advisors, same.timings]
  exact .mk same.cluster.residents

omit [Scalar α] in
theorem Unnumbered.finish (same : first.Unnumbered second) {now other : Progress α State}
    (progress : now.Unnumbered other) (phase : Phase) :
    (first.finish now phase).Unnumbered (second.finish other phase) := by
  cases progress with
  | mk residents => exact ⟨⟨same.cluster.machines, residents⟩, rfl, rfl, same.report, rfl⟩

theorem plan_unnumbered {advisors : Advisors α State} (blind : advisors.Unnumbered)
    (same : first.Unnumbered second) (underload : α) (tick : Tick α) :
    Ending Renaming.id Unnumbered id (first.plan advisors underload tick)
      (second.plan advisors underload tick) := by
  have snapshots := Snapshot.capture_unnumbered same.cluster
  have explored := Planner.follows_explore
    ⟨first.cluster.machines, advisors, underload⟩ blind tick _ _ same.begin
  unfold plan
  dsimp only
  rw [same.cluster.machines]
  generalize (⟨first.cluster.machines, advisors, underload⟩ : Planner α State) = planner
    at explored ⊢
  generalize Snapshot.capture first.cluster = snapshot at snapshots ⊢
  generalize Snapshot.capture second.cluster = snapshotOther at snapshots ⊢
  generalize (planner.explore tick).run.run first.begin = left at explored ⊢
  generalize (planner.explore tick).run.run second.begin = right at explored ⊢
  cases explored with
  | @error fault later last broken =>
    have restored := planner.follows_reinstate snapshots [] _ _ broken
    dsimp only
    generalize (planner.reinstate snapshot []).run.run later = left at restored ⊢
    generalize (planner.reinstate snapshotOther []).run.run last = right at restored ⊢
    cases restored with
    | ok _ restored => exact .error fault (same.finish restored .idle)
    | error second broken =>
      dsimp only
      rw [duringFault_renamed]
      exact .error (duringFault fault second) (same.finish broken .idle)
  | @ok findings later last explored =>
    have committed := planner.follows_reinstate snapshots findings.moves _ _ explored
    dsimp only [id]
    generalize (planner.reinstate snapshot findings.moves).run.run later = left at committed ⊢
    generalize (planner.reinstate snapshotOther findings.moves).run.run last = right at committed ⊢
    cases committed with
    | error fault broken => exact .error fault (same.finish broken .restoreAndCommit)
    | ok _ committed =>
      cases committed with
      | mk residents =>
        exact .ok findings.moves ⟨⟨same.cluster.machines, residents⟩, rfl, rfl, rfl, rfl⟩

omit [Scalar α] in
theorem of_ending {result resultOther : Except (Fault α) (List Move)} {later last : Engine α State}
    (ending : Ending Renaming.id Unnumbered id (result, later) (resultOther, last)) :
    resultOther = result ∧ later.Unnumbered last := by
  cases ending with
  | ok moves same => exact ⟨rfl, same⟩
  | error fault same => exact ⟨congrArg _ fault.renamed_id, same⟩

theorem plan_congr {advisors : Advisors α State} (blind : advisors.Unnumbered)
    {common : Engine α State} (firstSame : first.Unnumbered common)
    (secondSame : second.Unnumbered common) (underload : α) (tick : Tick α) :
    let planned := first.plan advisors underload tick
    let plannedOther := second.plan advisors underload tick
    plannedOther.1 = planned.1 ∧ plannedOther.2.report = planned.2.report ∧
      plannedOther.2.advisors = planned.2.advisors := by
  obtain ⟨result, later⟩ := of_ending (plan_unnumbered blind firstSame underload tick)
  obtain ⟨resultOther, last⟩ := of_ending (plan_unnumbered blind secondSame underload tick)
  exact ⟨resultOther.symm.trans result, last.report.symm.trans later.report,
    last.advisors.symm.trans later.advisors⟩

end Engine

end Plan

end Fleet
