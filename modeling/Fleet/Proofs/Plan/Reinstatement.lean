import Fleet.Proofs.Membership
import Fleet.Proofs.Plan.Exploration

/-! Giving every host the VMs that it is to have.

A host is touched only if the ids on it differ from those it is to have, and no host's share
depends on what the others hold. So where a VM ends up, and with which label, is a matter of its own
host.
-/

set_option autoImplicit false

namespace Fleet.Plan

open Step

variable {α State : Type} {kept wanted : String → List (Vm α)} {now : Occupancy α}

/-- The machine has the ids of its share already: of the VMs kept and of those wanted. -/
def stocked (kept wanted : String → List (Vm α)) (now : Occupancy α) (machine : Machine α) : Bool :=
  Planner.sameIds ((now.residents machine.id).map (·.id))
    ((kept machine.id ++ wanted machine.id).map (·.id))

/-- The machine has its share, the VMs wanted behind those kept. -/
def restocked (kept wanted : String → List (Vm α)) (now : Occupancy α) (machine : Machine α) :
    Occupancy α :=
  if stocked kept wanted now machine then now
  else (wanted machine.id).foldl (fun now vm => now.place machine.id vm)
    (now.setResidents machine.id (kept machine.id))

theorem residents_placeAll (host : String) (vms : List (Vm α)) (id : String) :
    (vms.foldl (fun now vm => now.place host vm) now).residents id =
      if id = host then now.residents host ++ vms else now.residents id := by
  induction vms generalizing now with
  | nil => by_cases here : id = host <;> simp [here]
  | cons vm rest ih =>
    rw [List.foldl_cons, ih, Occupancy.residents_place, Occupancy.residents_place, if_pos rfl]
    by_cases here : id = host <;> simp [here]

theorem home_placeAll (host : String) (vms : List (Vm α)) (key : VmKey) :
    (vms.foldl (fun now vm => now.place host vm) now).home key =
      if key ∈ vms.map Vm.key then some host else now.home key := by
  induction vms generalizing now with
  | nil => simp
  | cons vm rest ih =>
    rw [List.foldl_cons, ih, Occupancy.home_place]
    by_cases later : key ∈ rest.map Vm.key
    · simp [later]
    · by_cases same : key = vm.key <;> simp [later, same]

theorem residents_restocked (machine : Machine α) (id : String) :
    (restocked kept wanted now machine).residents id =
      if id = machine.id ∧ stocked kept wanted now machine = false then
        kept machine.id ++ wanted machine.id
      else now.residents id := by
  unfold restocked
  split
  · next settled => simp [settled]
  · next unsettled =>
    rw [residents_placeAll]
    by_cases here : id = machine.id <;> simp [here, unsettled, Occupancy.setResidents]

theorem residents_restocked_of_ne {machine : Machine α} {id : String} (apart : id ≠ machine.id) :
    (restocked kept wanted now machine).residents id = now.residents id := by
  rw [residents_restocked, if_neg fun both => apart both.1]

theorem home_restocked (machine : Machine α) (key : VmKey) :
    (restocked kept wanted now machine).home key =
      if key ∈ (wanted machine.id).map Vm.key ∧ stocked kept wanted now machine = false then
        some machine.id
      else now.home key := by
  unfold restocked
  split
  · next settled => simp [settled]
  · next unsettled =>
    rw [home_placeAll]
    by_cases listed : key ∈ (wanted machine.id).map Vm.key <;> simp [listed, unsettled]

theorem stocked_congr {later : Occupancy α} {machine : Machine α}
    (same : later.residents machine.id = now.residents machine.id) :
    stocked kept wanted later machine = stocked kept wanted now machine := by
  rw [stocked, stocked, same]

/-! All machines -/

theorem residents_restockAll_of_notMem {machines : List (Machine α)} {id : String}
    (absent : id ∉ machines.map (·.id)) :
    (machines.foldl (restocked kept wanted) now).residents id = now.residents id := by
  induction machines generalizing now with
  | nil => rfl
  | cons machine rest ih =>
    rw [List.map_cons, List.mem_cons, not_or] at absent
    rw [List.foldl_cons, ih absent.2, residents_restocked_of_ne absent.1]

/-- What a machine ends up with depends on what it had, and on no other machine. -/
theorem residents_restockAll {machines : List (Machine α)}
    (distinct : (machines.map (·.id)).Nodup) {machine : Machine α} (member : machine ∈ machines) :
    (machines.foldl (restocked kept wanted) now).residents machine.id =
      (restocked kept wanted now machine).residents machine.id := by
  induction machines generalizing now with
  | nil => cases member
  | cons first rest ih =>
    rw [List.map_cons, List.nodup_cons] at distinct
    rw [List.foldl_cons]
    rcases List.mem_cons.mp member with rfl | later
    · exact residents_restockAll_of_notMem distinct.1
    · have apart : machine.id ≠ first.id := fun same =>
        distinct.1 (same ▸ List.mem_map_of_mem (f := (·.id)) later)
      have before : (restocked kept wanted now first).residents machine.id =
          now.residents machine.id := residents_restocked_of_ne apart
      rw [ih distinct.2 later, residents_restocked, stocked_congr before, before,
        residents_restocked]

theorem home_restockAll_of_notMem {machines : List (Machine α)} {key : VmKey}
    (unwanted : ∀ machine ∈ machines, key ∉ (wanted machine.id).map Vm.key) :
    (machines.foldl (restocked kept wanted) now).home key = now.home key := by
  induction machines generalizing now with
  | nil => rfl
  | cons machine rest ih =>
    obtain ⟨here, later⟩ := List.forall_mem_cons.mp unwanted
    rw [List.foldl_cons, ih later, home_restocked, if_neg fun both => here both.1]

theorem home_restockAll {machines : List (Machine α)} (distinct : (machines.map (·.id)).Nodup)
    {machine : Machine α} (member : machine ∈ machines) {key : VmKey}
    (unwanted : ∀ other ∈ machines, other.id ≠ machine.id → key ∉ (wanted other.id).map Vm.key) :
    (machines.foldl (restocked kept wanted) now).home key =
      (restocked kept wanted now machine).home key := by
  induction machines generalizing now with
  | nil => cases member
  | cons first rest ih =>
    rw [List.map_cons, List.nodup_cons] at distinct
    obtain ⟨firstUnwanted, restUnwanted⟩ := List.forall_mem_cons.mp unwanted
    -- the machine is either the first one, and no later one touches the label, or a later one
    have absent : ∀ other ∈ rest, other.id ≠ first.id := fun other otherMem same =>
      distinct.1 (same ▸ List.mem_map_of_mem (f := (·.id)) otherMem)
    rw [List.foldl_cons]
    rcases List.mem_cons.mp member with rfl | later
    · exact home_restockAll_of_notMem fun other otherMem =>
        restUnwanted other otherMem (absent other otherMem)
    · have apart := absent machine later
      have before : (restocked kept wanted now first).residents machine.id =
          now.residents machine.id := residents_restocked_of_ne apart
      have label : (restocked kept wanted now first).home key = now.home key := by
        rw [home_restocked, if_neg fun both => firstUnwanted apart.symm both.1]
      rw [ih distinct.2 later restUnwanted, home_restocked, stocked_congr before, label,
        home_restocked]

/-! The steps that do this -/

variable [Scalar α] {progress : Progress α State}

/-- A fault with which a host cannot be given its share. -/
def Unrestored (fault : Fault α) : Prop :=
  ∃ host vm reason, fault = .refused host vm reason none

namespace Planner

theorem refill_places (machine : Machine α) (vms : List (Vm α)) :
    (refill machine vms : Step α State Unit).Ends progress
      (fun _ later => later.occupancy =
        vms.foldl (fun now vm => now.place machine.id vm) progress.occupancy)
      (fun fault _ => Unrestored fault) := by
  induction vms generalizing progress with
  | nil => rfl
  | cons vm rest ih =>
    rw [refill, ends_bind, ends_look]
    split
    · rw [ends_bind]
      refine ends_accept (fun _ => ih) fun fault refused => ?_
      simp only [Host.refusal?, Bool.false_and, Bool.false_eq_true, if_false] at refused
      split at refused
      · cases refused
        exact ⟨_, _, _, rfl⟩
      · cases refused
    · exact ⟨machine.id, vm.id, .notRestored, rfl⟩

def wantedBy (snapshot : Snapshot α) (target : Membership) (host : String) : List (Vm α) :=
  (target.vmsOf host).filterMap fun id => snapshot.vms.find? (·.id == id)

theorem reinstateHost_restocks (snapshot : Snapshot α) (target : Membership) (machine : Machine α) :
    (reinstateHost snapshot target machine : Step α State Unit).Ends progress
      (fun _ later => later.occupancy =
        restocked snapshot.arriving (wantedBy snapshot target) progress.occupancy machine)
      (fun fault _ => Unrestored fault) := by
  rw [reinstateHost, ends_bind, ends_look]
  split
  · next settled => exact (if_pos settled).symm
  · next unsettled =>
    rw [ends_bind, ends_setOccupancy]
    exact (refill_places machine _).imp fun _ _ placed => placed.trans (if_neg unsettled).symm

theorem reinstate_restocks {planner : Planner α State} {snapshot : Snapshot α} {moves : List Move}
    {target : Membership}
    (aimed : (snapshot.membership.after moves : Except (Fault α) Membership) = .ok target) :
    (planner.reinstate snapshot moves).Ends progress
      (fun _ later => later.occupancy = planner.machines.foldl
        (restocked snapshot.arriving (wantedBy snapshot target)) progress.occupancy)
      (fun fault _ => Unrestored fault) := by
  rw [reinstate, aimed, ends_bind, ends_attempt]
  refine ⟨fun _ same => ?_, fun _ absurd => by cases absurd⟩
  cases same
  generalize planner.machines = machines
  induction machines generalizing progress with
  | nil => rfl
  | cons machine rest ih =>
    rw [List.forM_eq_forM, List.forM_cons]
    refine (reinstateHost_restocks snapshot target machine).bind fun _ later restocked => ?_
    rw [List.foldl_cons, ← restocked]
    exact ih

end Planner

end Fleet.Plan
