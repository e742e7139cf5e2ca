import Fleet.Proofs.Accumulation
import Fleet.Proofs.Plan.Calm
import Fleet.Proofs.Plan.Contract

/-! Clusters in which every host has room for its VMs.

Moves that can be made one by one leave it so. What a host is to have after a cycle is what such moves
leave it, in the same order, and it is put back one by one; so it fits all the way.
-/

set_option autoImplicit false

namespace Fleet

open Scalar

variable {α State : Type} [Scalar α] {cluster : Cluster α}

/-- No VM is too large for the machine, and together they fit its memory. -/
structure Machine.Takes (machine : Machine α) (vms : List (Vm α)) : Prop where
  shape : ∀ vm ∈ vms, vm.within machine.toShape = true
  memory : sum (vms.map (·.ramMb)) ≤ machine.ramMb

def Cluster.Sized (cluster : Cluster α) : Prop := ∀ vm ∈ cluster.residents, IsSize vm.ramMb

/-- Every host has room for its VMs. -/
def Cluster.Roomy (cluster : Cluster α) : Prop :=
  ∀ machine ∈ cluster.machines, machine.Takes (cluster.occupancy.residents machine.id)

namespace Machine.Takes

variable {machine : Machine α} {vms : List (Vm α)}

theorem of_fits {host : Host α} {vm : Vm α}
    (shape : ∀ other ∈ host.vms, other.within host.toShape = true) (fits : host.fits vm = true) :
    host.Takes (host.vms ++ [vm]) := by
  unfold Host.fits at fits
  obtain ⟨within, memory⟩ := Bool.and_eq_true_iff.mp fits
  refine ⟨fun other otherMem => ?_, ?_⟩
  · rcases List.mem_append.mp otherMem with before | added
    · exact shape other before
    · exact List.mem_singleton.mp added ▸ within
  · rw [List.map_append, List.map_singleton, sum_concat]
    exact of_decide_eq_true memory

theorem concat {host : Host α} {vm : Vm α} (takes : host.Takes host.vms)
    (fits : host.fits vm = true) : host.Takes (host.vms ++ [vm]) :=
  of_fits takes.shape fits

theorem fits {before after : List (Vm α)} {vm : Vm α} [Linear α] [Accumulating α]
    (takes : machine.Takes (before ++ vm :: after))
    (sizes : ∀ other ∈ before ++ vm :: after, IsSize other.ramMb) :
    (⟨machine, before⟩ : Host α).fits vm = true := by
  have front : (before ++ [vm]).Sublist (before ++ vm :: after) :=
    (List.Sublist.refl before).append (List.singleton_sublist.mpr List.mem_cons_self)
  have memory := sum_le_of_sublist (front.map (·.ramMb)) (List.forall_mem_map.mpr sizes) takes.memory
  rw [List.map_append, List.map_singleton, sum_concat] at memory
  exact Bool.and_eq_true_iff.mpr ⟨takes.shape vm (by simp), decide_eq_true memory⟩

theorem sublist {fewer : List (Vm α)} [Linear α] [Accumulating α] (takes : machine.Takes vms)
    (sub : fewer.Sublist vms) (sizes : ∀ vm ∈ vms, IsSize vm.ramMb) : machine.Takes fewer where
  shape vm member := takes.shape vm (sub.subset member)
  memory := sum_le_of_sublist (sub.map (·.ramMb)) (List.forall_mem_map.mpr sizes) takes.memory

end Machine.Takes

namespace Plan

open Step

variable {moves : List Move} {start final now : Occupancy α}

/-! Making moves one by one -/

namespace Executable

theorem tracked (distinct : cluster.DistinctVms)
    (run : Executable cluster.machines start moves final) (tracked : Tracked cluster start) :
    Tracked cluster final := by
  induction run with
  | done => exact tracked
  | next sourceMem destinationMem resident _ _ _ ih =>
    exact ih (tracked.carry distinct sourceMem destinationMem resident)

theorem takes [Linear α] [Accumulating α] (distinct : cluster.DistinctVms) (sized : cluster.Sized)
    (run : Executable cluster.machines start moves final) (tracked : Tracked cluster start)
    (room : ∀ machine ∈ cluster.machines, machine.Takes (start.residents machine.id)) :
    ∀ machine ∈ cluster.machines, machine.Takes (final.residents machine.id) := by
  induction run with
  | done => exact room
  | @next now _ source destination vm _ sourceMem destinationMem resident _ suitable _ ih =>
    have known := tracked.known _ sourceMem _ resident
    refine ih (tracked.carry distinct sourceMem destinationMem resident) fun machine member => ?_
    -- the source only loses the VM, and the destination had room for it before
    have fewer := now.residents_release_sublist source.id vm machine.id
    have sizes : ∀ vm ∈ now.residents machine.id, IsSize vm.ramMb := fun vm vmMem =>
      sized vm (tracked.known machine member vm vmMem)
    rw [Occupancy.residents_place]
    split
    · next here =>
      obtain rfl := Cluster.machine_eq_of_id member destinationMem here
      refine ((room machine member).concat (Host.fits_of_isSuitable suitable)).sublist
        (fewer.append_right [vm]) fun other otherMem => ?_
      rcases List.mem_append.mp otherMem with before | added
      · exact sizes other before
      · exact List.mem_singleton.mp added ▸ sized vm known
    · exact (room machine member).sublist fewer sizes

theorem ids_eq (distinct : cluster.DistinctVms) (run : Executable cluster.machines start moves final)
    (tracked : Tracked cluster start) (once : (moves.map (·.vm)).Nodup) {machine : Machine α}
    (member : machine ∈ cluster.machines) :
    (final.residents machine.id).map (·.id) =
      ((start.residents machine.id).map (·.id)).filter (· ∉ moves.map (·.vm)) ++
        (moves.filter (·.destination = machine.id)).map (·.vm) := by
  induction run with
  | done => simp
  | @next now _ source destination vm rest sourceMem destinationMem resident _ _ _ ih =>
    obtain ⟨fresh, once⟩ := List.nodup_cons.mp once
    have stayed : ((now.release source.id vm).residents machine.id).map (·.id) =
        ((now.residents machine.id).map (·.id)).filter (· != vm.id) := by
      rw [tracked.residents_release_eq distinct sourceMem resident member, List.filter_map]
      rfl
    have settled : ((now.residents machine.id).map (·.id)).filter
        (fun id => id ∉ vm.id :: rest.map (·.vm)) =
        (((now.residents machine.id).map (·.id)).filter (· != vm.id)).filter
          fun id => id ∉ rest.map (·.vm) := by
      rw [List.filter_filter]
      refine List.filter_congr fun id _ => Bool.eq_iff_iff.mpr ?_
      simp [and_comm]
    rw [ih (tracked.carry distinct sourceMem destinationMem resident) once, List.map_cons, settled,
      ← stayed, Occupancy.residents_place]
    -- the VM does not move again, so it stays behind those that were there
    have arrived : [vm.id].filter (· ∉ rest.map (·.vm)) = [vm.id] :=
      List.filter_cons_of_pos (decide_eq_true fresh)
    by_cases here : machine.id = destination.id
    · rw [if_pos here, ← here, List.map_append, List.filter_append, List.map_singleton, arrived,
        List.append_assoc]
      simp
    · simp [here, Ne.symm here]

end Executable

/-- A host is to have, in this order, the VMs that making the moves one by one leaves it. -/
theorem wantedAt_eq (distinct : cluster.DistinctVms) (quiet : cluster.Quiet)
    (run : Executable cluster.machines cluster.occupancy moves final)
    (once : (moves.map (·.vm)).Nodup) {machine : Machine α} (member : machine ∈ cluster.machines) :
    wantedAt cluster moves machine.id = final.residents machine.id := by
  have tracked := run.tracked distinct distinct.tracked
  -- no resident is on its way in, so the moves start from all that a host has
  have settled : ((cluster.occupancy.residents machine.id).map (·.id)).filter
      (· ∉ machine.arriving) = (cluster.occupancy.residents machine.id).map (·.id) := by
    refine List.filter_eq_self.mpr fun id idMem => decide_eq_true ?_
    obtain ⟨vm, resident, rfl⟩ := List.mem_map.mp idMem
    exact quiet machine member vm resident
  have ids : ((Membership.capture cluster).moved moves).vmsOf machine.id =
      (final.residents machine.id).map (·.id) := by
    rw [run.ids_eq distinct distinct.tracked once member, (Membership.orderly_capture
      distinct).vmsOf_moved (Membership.mem_capture member), settled]
  have vms : (Snapshot.capture cluster).vms = cluster.residents := distinct.allVms_eq
  unfold wantedAt Planner.wantedBy
  rw [ids, vms, List.filterMap_map]
  refine (List.filterMap_congr fun vm vmMem => ?_).trans List.filterMap_some
  exact Keyed.find_eq distinct (tracked.known machine member vm vmMem)

/-! Reinstating -/

namespace Planner

variable {progress : Progress α State}

theorem refill_fits [Linear α] [Accumulating α] {machine : Machine α} {vms : List (Vm α)}
    (takes : machine.Takes (progress.occupancy.residents machine.id ++ vms))
    (sizes : ∀ vm ∈ progress.occupancy.residents machine.id ++ vms, IsSize vm.ramMb)
    (once : ((progress.occupancy.residents machine.id ++ vms).map (·.id)).Nodup) :
    (refill machine vms : Step α State Unit).Ends progress (fun _ _ => True) fun _ _ => False := by
  -- what the host has by then and what is still to come are the same list at every turn
  induction vms generalizing progress with
  | nil => trivial
  | cons vm rest ih =>
    have fits : (progress.occupancy.host machine).fits vm = true := takes.fits sizes
    have fresh : (progress.occupancy.host machine).holds vm.id = false := by
      rw [List.map_append, List.map_cons, List.nodup_middle, List.nodup_cons] at once
      have absent : vm.id ∉ (progress.occupancy.residents machine.id).map (·.id) := fun there =>
        once.1 (List.mem_append_left _ there)
      simpa [Host.holds, Occupancy.host] using absent
    have placed : (progress.occupancy.place machine.id vm).residents machine.id ++ rest =
        progress.occupancy.residents machine.id ++ vm :: rest := by
      simp [Occupancy.residents_place]
    rw [refill, ends_bind, ends_look, if_pos fits, ends_bind]
    refine ends_accepted fresh (fun checked => by cases checked) (ih ?_ ?_ ?_)
    all_goals
      dsimp only
      rwa [placed]

theorem reinstateHost_fits [Linear α] [Accumulating α] {moves : List Move}
    (distinct : cluster.DistinctVms) (quiet : cluster.Quiet) (sized : cluster.Sized)
    (roomy : cluster.Roomy)
    (run : Executable cluster.machines cluster.occupancy moves final)
    (once : (moves.map (·.vm)).Nodup) {machine : Machine α} (member : machine ∈ cluster.machines) :
    (reinstateHost (.capture cluster) ((Membership.capture cluster).moved moves) machine :
      Step α State Unit).Ends progress (fun _ _ => True) fun _ _ => False := by
  have tracked := run.tracked distinct distinct.tracked
  have wanted := wantedAt_eq distinct quiet run once member
  have kept : (Snapshot.capture cluster).arriving machine.id = [] := by
    refine (keptAt_eq member).trans (List.filter_eq_nil_iff.mpr fun vm resident arriving => ?_)
    exact quiet machine member vm resident (of_decide_eq_true arriving)
  rw [reinstateHost, ends_bind, ends_look]
  split
  · trivial
  · rw [ends_bind, ends_setOccupancy]
    change (refill machine (wantedAt cluster moves machine.id)).Ends _ _ _
    rw [kept, wanted]
    refine refill_fits ?_ ?_ ?_
    all_goals simp only [Occupancy.setResidents, if_true, List.nil_append]
    · exact run.takes distinct sized distinct.tracked roomy machine member
    · exact fun vm vmMem => sized vm (tracked.known machine member vm vmMem)
    · exact tracked.once machine member

/-- If the moves can be made one by one, the membership after them can be reinstated, whatever the
hosts hold by then. -/
theorem reinstate_fits [Linear α] [Accumulating α] {planner : Planner α State} {moves : List Move}
    (same : planner.machines = cluster.machines) (distinct : cluster.DistinctVms)
    (quiet : cluster.Quiet) (sized : cluster.Sized) (roomy : cluster.Roomy)
    (run : Executable cluster.machines cluster.occupancy moves final)
    (once : (moves.map (·.vm)).Nodup) :
    (planner.reinstate (.capture cluster) moves).Ends progress (fun _ _ => True)
      fun _ _ => False := by
  have aimed : ((Snapshot.capture cluster).membership.after moves : Except (Fault α) Membership) =
      .ok ((Membership.capture cluster).moved moves) :=
    Membership.after_capture distinct once run.destination_mem
  rw [reinstate, aimed, ends_bind, ends_attempt]
  refine ⟨fun target found => ?_, fun _ absent => by cases absent⟩
  cases found
  have each : ∀ machine ∈ planner.machines, ∀ progress : Progress α State,
      (reinstateHost (.capture cluster) ((Membership.capture cluster).moved moves) machine).Ends
        progress (fun _ _ => True) fun _ _ => False := fun machine member _ =>
    reinstateHost_fits distinct quiet sized roomy run once (same ▸ member)
  generalize planner.machines = machines at each
  induction machines generalizing progress with
  | nil => trivial
  | cons machine rest ih =>
    obtain ⟨first, others⟩ := List.forall_mem_cons.mp each
    rw [List.forM_eq_forM, List.forM_cons]
    exact (first progress).bind fun _ _ _ => ih others

end Planner

/-! Planning -/

namespace Engine

variable {Draws Mood : Type} {policy : Policy α} {draw : Draws → α × Draws} {underload : α}
  {tick : Tick α}

theorem plan_ends_calmly [Linear α] [Accumulating α] {engine after : Engine α State}
    {advisors : Advisors α State} (reliable : advisors.Reliable) (gentle : advisors.Gentle)
    (distinct : engine.cluster.DistinctVms) (quiet : engine.cluster.Quiet)
    (sized : engine.cluster.Sized) (roomy : engine.cluster.Roomy) {fault : Fault α}
    (planned : engine.plan advisors underload tick = (.error fault, after)) : fault.Calm := by
  generalize result : (.error fault : Except (Fault α) (List Move)) = answer at planned
  cases conclusion planned with
  | committed => cases result
  | uncommitted explore reinstate =>
    obtain ⟨_, _, rehearsed⟩ := (Planner.explore_ends reliable distinct rfl tick rfl).of_ok explore
    obtain ⟨final, run, _⟩ := rehearsed.replay
    exact ((Planner.reinstate_fits rfl distinct quiet sized roomy run rehearsed.once).of_error
      reinstate).elim
  | rolledBack explore _ =>
    cases result
    exact (Planner.explore_calm distinct reliable gentle rfl tick rfl).of_error explore
  | stranded _ reinstate =>
    -- rolling back is reinstating after no moves at all
    exact ((Planner.reinstate_fits rfl distinct quiet sized roomy (.done _) .nil).of_error
      reinstate).elim

/-- Where every host has room for its VMs, no planning call fails for want of room, whatever the
policy decides and whatever else strikes it. -/
theorem plan_fits [Linear α] [Accumulating α] {engine : Engine α (World α Draws × Mood)}
    {strike : Mood → Option (Fault α) × Mood} (distinct : engine.cluster.DistinctVms)
    (quiet : engine.cluster.Quiet) (sized : engine.cluster.Sized) (roomy : engine.cluster.Roomy)
    (strikes : ∀ mood fault, (strike mood).1 = some fault → fault.kind ≠ .capacity) :
    ∀ fault, (engine.plan ((policy.advisors draw).disturbed strike) underload tick).1 =
      .error fault → fault.kind ≠ .capacity := by
  intro fault failed
  exact plan_ends_calmly ((policy.reliable draw).disturbed strike)
    ((policy.gentle draw).disturbed strikes) distinct quiet sized roomy
    (Prod.ext failed rfl)

/-- A call that is struck down and rolled back. -/
theorem plan_fits_crowded :
    ∃ fault, (Sample.crowded.plan (Sample.advisors.disturbed Sample.strike)
      Sample.policy.underload Sample.tick).1 = .error fault ∧ fault.kind ≠ .capacity := by
  have distinct : Sample.crowded.cluster.DistinctVms :=
    (Cluster.settled_ofHosts _ (by decide +kernel)).distinct
  have quiet : Sample.crowded.cluster.Quiet := by
    unfold Cluster.Quiet
    decide +kernel
  have sized : Sample.crowded.cluster.Sized :=
    List.forall_mem_singleton.mpr ⟨by decide +kernel, rfl⟩
  have roomy : Sample.crowded.cluster.Roomy :=
    List.forall_mem_singleton.mpr ⟨by decide +kernel, by decide +kernel⟩
  have strikes : ∀ calls fault, (Sample.strike calls).1 = some fault → fault.kind ≠ .capacity := by
    intro calls fault struck
    unfold Sample.strike at struck
    split at struck
    · cases struck
      decide
    · cases struck
  have failed : (Sample.crowded.plan (Sample.advisors.disturbed Sample.strike)
      Sample.policy.underload Sample.tick).1.isOk = false := by decide +kernel
  obtain ⟨fault, broke⟩ := Attempt.error_of_isOk failed
  exact ⟨fault, broke, plan_fits distinct quiet sized roomy strikes fault broke⟩

end Engine

end Plan

end Fleet
