import Fleet.Proofs.Plan.Reinstatement

/-! Which VMs a host has once the membership is reinstated with a list of moves carried out.

The answer does not depend on where the cycle left the VMs, only the order in which a host lists
them does.
-/

set_option autoImplicit false

namespace Fleet.Plan

open Step

variable {α State : Type} {cluster : Cluster α} {moves : List Move} {now : Occupancy α}

/-- The VM was on the machine, was not migrating in and does not move, or it moves there. -/
def Due (cluster : Cluster α) (moves : List Move) (machine : Machine α) (vm : Vm α) : Prop :=
  (vm ∈ cluster.occupancy.residents machine.id ∧ vm.id ∉ machine.arriving ∧
    vm.id ∉ moves.map (·.vm)) ∨
  ∃ move ∈ moves, move.destination = machine.id ∧ move.vm = vm.id

/-- The host has other VMs in the end than when the tentative phases were over. -/
def Rewritten (explored after : Occupancy α) (host : String) : Prop :=
  ¬∀ id, id ∈ (explored.residents host).map (·.id) ↔ id ∈ (after.residents host).map (·.id)

/-- A VM is labelled with the host it is on exactly if the tentative phases left that label, or the host
has been rewritten since. So a right label stays right, a VM that changes hosts is labelled anew, and a
label that is wrong in the end is the one that the VM came with, on the host it came on. -/
structure Relabelled (before : Cluster α) (explored : Occupancy α) (after : Cluster α) : Prop where
  right_iff : ∀ host vm, after.Holds host vm → (after.occupancy.home vm.key = some host ↔
    explored.home vm.key = some host ∨ Rewritten explored after.occupancy host)
  right_or : ∀ host vm, after.Holds host vm → after.occupancy.home vm.key = some host ∨
    before.Holds host vm ∧ after.occupancy.home vm.key = before.occupancy.home vm.key
  labelled : ∀ vm, before.Labelled vm → after.Labelled vm
  foreign : ∀ key ∉ before.residents.map Vm.key,
    after.occupancy.home key = before.occupancy.home key

def keptAt (cluster : Cluster α) : String → List (Vm α) := (Snapshot.capture cluster).arriving

def wantedAt (cluster : Cluster α) (moves : List Move) : String → List (Vm α) :=
  Planner.wantedBy (Snapshot.capture cluster) ((Membership.capture cluster).moved moves)

/-- The VM was migrating in, or it is due. -/
def InShare (cluster : Cluster α) (moves : List Move) (machine : Machine α) (vm : Vm α) : Prop :=
  (vm ∈ cluster.occupancy.residents machine.id ∧ vm.id ∈ machine.arriving) ∨
    vm ∈ cluster.residents ∧ Due cluster moves machine vm

def reinstated (cluster : Cluster α) (moves : List Move) (now : Occupancy α) : Occupancy α :=
  cluster.machines.foldl (restocked (keptAt cluster) (wantedAt cluster moves)) now

theorem keptAt_eq {machine : Machine α} (member : machine ∈ cluster.machines) :
    keptAt cluster machine.id =
      (cluster.occupancy.residents machine.id).filter (·.id ∈ machine.arriving) := by
  simp only [keptAt, Snapshot.capture, Cluster.host?_eq member, Option.map_some, Option.getD_some]
  rfl

theorem sameIds_iff {first second : List String} :
    Planner.sameIds first second = true ↔ ∀ id, id ∈ first ↔ id ∈ second := by
  simp [Planner.sameIds, List.all_eq_true, iff_def, forall_and]

theorem wantedBy_sublist (target : Membership) (host : String) :
    ((Planner.wantedBy (Snapshot.capture cluster) target host).map (·.id)).Sublist
      (target.vmsOf host) := by
  unfold Planner.wantedBy
  induction target.vmsOf host with
  | nil => exact .slnil
  | cons id rest ih =>
    cases found : (Snapshot.capture cluster).vms.find? (·.id == id) with
    | none =>
      rw [List.filterMap_cons, found]
      exact ih.cons id
    | some vm =>
      have same : vm.id = id := by simpa using List.find?_some found
      rw [List.filterMap_cons, found, List.map_cons, same]
      exact ih.cons_cons id

theorem reinstate_ends [Scalar α] (moves : List Move) {planner : Planner α State}
    {progress : Progress α State}
    (same : planner.machines = cluster.machines) (distinct : cluster.DistinctVms)
    (once : (moves.map (·.vm)).Nodup)
    (known : ∀ move ∈ moves, ∃ machine ∈ cluster.machines, machine.id = move.destination) :
    (planner.reinstate (Snapshot.capture cluster) moves).Ends progress
      (fun _ later => later.occupancy = reinstated cluster moves progress.occupancy)
      (fun fault _ => Unrestored fault) := by
  unfold reinstated
  rw [← same]
  exact Planner.reinstate_restocks (Membership.after_capture distinct once known)

variable (distinct : cluster.DistinctVms)
include distinct

theorem Due.machine_eq {first second : Machine α} {vm : Vm α} (onFirst : Due cluster moves first vm)
    (onSecond : Due cluster moves second vm) (firstMem : first ∈ cluster.machines)
    (secondMem : second ∈ cluster.machines) (once : (moves.map (·.vm)).Nodup) :
    first.id = second.id := by
  rcases onFirst with ⟨here, _, unnamed⟩ | ⟨move, moveMem, here, named⟩
  · rcases onSecond with ⟨there, _⟩ | ⟨move, moveMem, _, named⟩
    · exact congrArg _ (distinct.machine_eq firstMem secondMem here there)
    · exact absurd (named ▸ List.mem_map_of_mem moveMem) unnamed
  · rcases onSecond with ⟨_, _, unnamed⟩ | ⟨other, otherMem, there, otherNamed⟩
    · exact absurd (named ▸ List.mem_map_of_mem moveMem) unnamed
    · obtain rfl := List.inj_on_of_nodup_map once moveMem otherMem (named.trans otherNamed.symm)
      exact here.symm.trans there

theorem mem_wantedBy {target : Membership} {host : String} {vm : Vm α} :
    vm ∈ Planner.wantedBy (Snapshot.capture cluster) target host ↔
      vm ∈ cluster.residents ∧ vm.id ∈ target.vmsOf host := by
  have vms : (Snapshot.capture cluster).vms = cluster.residents := distinct.allVms_eq
  rw [Planner.wantedBy, vms, List.mem_filterMap]
  constructor
  · rintro ⟨id, listed, found⟩
    have same : vm.id = id := by simpa using List.find?_some found
    exact ⟨List.mem_of_find?_eq_some found, same ▸ listed⟩
  · rintro ⟨known, listed⟩
    exact ⟨vm.id, listed, Keyed.find_eq distinct known⟩

variable {machine : Machine α} (member : machine ∈ cluster.machines)
include member

theorem mem_wantedAt {vm : Vm α} : vm ∈ wantedAt cluster moves machine.id ↔
    vm ∈ cluster.residents ∧ Due cluster moves machine vm := by
  rw [wantedAt, mem_wantedBy distinct, Membership.mem_vmsOf_moved distinct member]
  refine and_congr_right fun known => or_congr_left (and_congr_left fun _ => ?_)
  constructor
  · intro there
    obtain ⟨other, resident, same⟩ := List.mem_map.mp there
    have otherKnown := Cluster.mem_residents.mpr ⟨machine, member, resident⟩
    exact distinct.eq_of_id otherKnown known same ▸ resident
  · exact List.mem_map_of_mem

theorem key_mem_wantedAt {vm : Vm α} (known : vm ∈ cluster.residents) :
    vm.key ∈ (wantedAt cluster moves machine.id).map Vm.key ↔ Due cluster moves machine vm := by
  constructor
  · intro there
    obtain ⟨other, otherMem, same⟩ := List.mem_map.mp there
    obtain ⟨otherKnown, due⟩ := (mem_wantedAt distinct member).mp otherMem
    exact distinct.eq_of_key otherKnown known same ▸ due
  · exact fun due => List.mem_map_of_mem ((mem_wantedAt distinct member).mpr ⟨known, due⟩)

theorem mem_share {vm : Vm α} :
    vm ∈ keptAt cluster machine.id ++ wantedAt cluster moves machine.id ↔
      InShare cluster moves machine vm := by
  rw [InShare, List.mem_append, keptAt_eq member, List.mem_filter, decide_eq_true_eq,
    mem_wantedAt distinct member]

theorem residents_reinstated_eq
    (agree : ∀ vm, vm ∈ now.residents machine.id ↔ InShare cluster moves machine vm) :
    (reinstated cluster moves now).residents machine.id = now.residents machine.id := by
  have settled : stocked (keptAt cluster) (wantedAt cluster moves) now machine = true := by
    refine sameIds_iff.mpr fun id => ?_
    simp only [List.mem_map, mem_share distinct member, agree]
  unfold reinstated
  rw [residents_restockAll cluster.distinct member, residents_restocked,
    if_neg fun both => Bool.false_ne_true (both.2.symm.trans settled)]

variable (tracked : Tracked cluster now)
include tracked

theorem mem_of_stocked
    (settled : stocked (keptAt cluster) (wantedAt cluster moves) now machine = true) {vm : Vm α} :
    vm ∈ now.residents machine.id ↔ InShare cluster moves machine vm := by
  have same := sameIds_iff.mp settled
  -- among known VMs an id says which VM it is
  have shareKnown : ∀ other ∈ keptAt cluster machine.id ++ wantedAt cluster moves machine.id,
      other ∈ cluster.residents := by
    intro other otherMem
    rcases (mem_share distinct member).mp otherMem with ⟨resident, _⟩ | ⟨known, _⟩
    · exact Cluster.mem_residents.mpr ⟨machine, member, resident⟩
    · exact known
  rw [← mem_share distinct member]
  constructor
  · intro resident
    obtain ⟨other, otherMem, sameId⟩ :=
      List.mem_map.mp ((same vm.id).mp (List.mem_map_of_mem resident))
    have known := tracked.known machine member vm resident
    exact distinct.eq_of_id (shareKnown other otherMem) known sameId ▸ otherMem
  · intro due
    obtain ⟨other, otherMem, sameId⟩ := List.mem_map.mp ((same vm.id).mpr (List.mem_map_of_mem due))
    have known := tracked.known machine member other otherMem
    exact distinct.eq_of_id known (shareKnown vm due) sameId ▸ otherMem

theorem mem_restocked {vm : Vm α} :
    vm ∈ (restocked (keptAt cluster) (wantedAt cluster moves) now machine).residents machine.id ↔
      InShare cluster moves machine vm := by
  rw [residents_restocked]
  split
  · exact mem_share distinct member
  · next skipped =>
    exact mem_of_stocked distinct member tracked
      (eq_true_of_ne_false fun unsettled => skipped ⟨rfl, unsettled⟩)

theorem mem_reinstated {vm : Vm α} :
    vm ∈ (reinstated cluster moves now).residents machine.id ↔ InShare cluster moves machine vm := by
  unfold reinstated
  rw [residents_restockAll cluster.distinct member]
  exact mem_restocked distinct member tracked

omit tracked member in
theorem home_reinstated_of_undue {vm : Vm α} (known : vm ∈ cluster.residents)
    (undue : ∀ other ∈ cluster.machines, ¬Due cluster moves other vm) :
    (reinstated cluster moves now).home vm.key = now.home vm.key :=
  home_restockAll_of_notMem fun other otherMem wanted =>
    undue other otherMem ((key_mem_wantedAt distinct otherMem known).mp wanted)

omit tracked member in
theorem home_reinstated_of_foreign {key : VmKey} (foreign : key ∉ cluster.residents.map Vm.key) :
    (reinstated cluster moves now).home key = now.home key :=
  home_restockAll_of_notMem fun machine member wanted => by
    obtain ⟨vm, vmMem, same⟩ := List.mem_map.mp wanted
    exact foreign (same ▸ List.mem_map_of_mem ((mem_wantedAt distinct member).mp vmMem).1)

omit distinct tracked in
theorem rewritten_iff : Rewritten now (reinstated cluster moves now) machine.id ↔
    stocked (keptAt cluster) (wantedAt cluster moves) now machine = false := by
  unfold Rewritten reinstated
  rw [residents_restockAll cluster.distinct member, residents_restocked]
  cases enough : stocked (keptAt cluster) (wantedAt cluster moves) now machine with
  | true => simp
  | false =>
    rw [if_pos ⟨rfl, rfl⟩, ← sameIds_iff]
    exact iff_of_true (ne_true_of_eq_false enough) rfl

section

variable (once : (moves.map (·.vm)).Nodup) {vm : Vm α} (known : vm ∈ cluster.residents)
  (due : Due cluster moves machine vm)
include once known due

omit tracked in
theorem home_reinstated_eq : (reinstated cluster moves now).home vm.key =
    if stocked (keptAt cluster) (wantedAt cluster moves) now machine then now.home vm.key
    else some machine.id := by
  -- machines are restocked one after the other, but only this one can label the VM
  have elsewhere : ∀ other ∈ cluster.machines, other.id ≠ machine.id →
      vm.key ∉ (wantedAt cluster moves other.id).map Vm.key := fun other otherMem apart wanted =>
    apart (Due.machine_eq distinct ((key_mem_wantedAt distinct otherMem known).mp wanted) due
      otherMem member once)
  have listed := (key_mem_wantedAt distinct member known).mpr due
  unfold reinstated
  rw [home_restockAll cluster.distinct member elsewhere, home_restocked]
  cases stocked (keptAt cluster) (wantedAt cluster moves) now machine <;> simp [listed]

omit tracked in
theorem home_reinstated_iff : (reinstated cluster moves now).home vm.key = some machine.id ↔
    now.home vm.key = some machine.id ∨ Rewritten now (reinstated cluster moves now) machine.id := by
  rw [rewritten_iff member, home_reinstated_eq distinct member once known due]
  cases stocked (keptAt cluster) (wantedAt cluster moves) now machine <;> simp

theorem home_reinstated_or : (reinstated cluster moves now).home vm.key = some machine.id ∨
    vm ∈ cluster.occupancy.residents machine.id ∧
      (reinstated cluster moves now).home vm.key = cluster.occupancy.home vm.key := by
  rw [home_reinstated_eq distinct member once known due]
  split
  · next enough =>
    -- a machine that is left as it is has the VM already
    have resident := (mem_of_stocked distinct member tracked enough).mpr (.inr ⟨known, due⟩)
    exact tracked.home_or member resident
  · exact .inl rfl

theorem home_reinstated_of_due (right : cluster.Labelled vm) :
    (reinstated cluster moves now).home vm.key = some machine.id := by
  rcases home_reinstated_or distinct member tracked once known due with home | ⟨start, home⟩
  · exact home
  · exact home.trans ((distinct.labelled_iff member start).mp right)

end

section

variable (calm : ∀ vm ∈ cluster.occupancy.residents machine.id, vm.id ∉ machine.arriving)
  (once : (moves.map (·.vm)).Nodup)
include calm once

theorem once_reinstated :
    (((reinstated cluster moves now).residents machine.id).map (·.id)).Nodup := by
  unfold reinstated
  rw [residents_restockAll cluster.distinct member, residents_restocked]
  split
  · have none : keptAt cluster machine.id = [] := by
      rw [keptAt_eq member, List.filter_eq_nil_iff]
      exact fun vm resident arriving => calm vm resident (of_decide_eq_true arriving)
    rw [none, List.nil_append]
    exact (Membership.nodup_vmsOf_moved distinct member once).sublist (wantedBy_sublist _ _)
  · exact tracked.once machine member

theorem perm_reinstated_of_unreached (unreached : ∀ move ∈ moves, move.destination ≠ machine.id) :
    ((reinstated cluster moves now).residents machine.id).Perm
      ((cluster.occupancy.residents machine.id).filter fun vm => vm.id ∉ moves.map (·.vm)) := by
  have before : ((cluster.occupancy.residents machine.id).filter
      fun vm => vm.id ∉ moves.map (·.vm)).Nodup := (distinct.nodup_ids member).of_map.filter _
  have ids := once_reinstated distinct member tracked calm once
  refine (List.perm_ext_iff_of_nodup ids.of_map before).mpr fun vm => ?_
  rw [mem_reinstated distinct member tracked, List.mem_filter, decide_eq_true_eq]
  constructor
  · rintro (⟨resident, arriving⟩ | ⟨_, ⟨resident, _, unnamed⟩ | ⟨move, moveMem, here, _⟩⟩)
    · exact absurd arriving (calm vm resident)
    · exact ⟨resident, unnamed⟩
    · exact absurd here (unreached move moveMem)
  · rintro ⟨resident, unnamed⟩
    exact .inr ⟨Cluster.mem_residents.mpr ⟨machine, member, resident⟩,
      .inl ⟨resident, calm vm resident, unnamed⟩⟩

end

/-! Clusters into which nothing is migrating -/

variable (quiet : cluster.Quiet)
include quiet

theorem mem_reinstated_of_quiet {vm : Vm α} :
    vm ∈ (reinstated cluster moves now).residents machine.id ↔
      vm ∈ cluster.residents ∧ Due cluster moves machine vm := by
  rw [mem_reinstated distinct member tracked]
  exact or_iff_right fun both => quiet machine member vm both.1 both.2

omit distinct member tracked in
theorem exists_due
    (known : ∀ move ∈ moves, ∃ machine ∈ cluster.machines, machine.id = move.destination)
    {vm : Vm α} (vmKnown : vm ∈ cluster.residents) :
    ∃ machine ∈ cluster.machines, Due cluster moves machine vm := by
  obtain ⟨machine, member, resident⟩ := Cluster.mem_residents.mp vmKnown
  by_cases named : vm.id ∈ moves.map (·.vm)
  · obtain ⟨move, moveMem, same⟩ := List.mem_map.mp named
    obtain ⟨destination, destinationMem, there⟩ := known move moveMem
    exact ⟨destination, destinationMem, .inr ⟨move, moveMem, there.symm, same⟩⟩
  · exact ⟨machine, member, .inl ⟨resident, quiet machine member vm resident, named⟩⟩

omit member

theorem distinctVms_reinstated (once : (moves.map (·.vm)).Nodup) :
    ({ cluster with occupancy := reinstated cluster moves now } : Cluster α).DistinctVms := by
  unfold Cluster.DistinctVms Cluster.residents Cluster.hosts
  rw [List.map_flatMap, List.flatMap_map, List.nodup_flatMap]
  refine ⟨fun machine member => once_reinstated distinct member tracked (quiet machine member) once, ?_⟩
  refine cluster.distinct.of_map.pairwise_of_forall_ne
    fun first firstMem second secondMem different id here there => ?_
  obtain ⟨vm, vmMem, rfl⟩ := List.mem_map.mp here
  obtain ⟨other, otherMem, same⟩ := List.mem_map.mp there
  obtain ⟨known, onFirst⟩ := (mem_reinstated_of_quiet distinct firstMem tracked quiet).mp vmMem
  obtain ⟨otherKnown, onSecond⟩ :=
    (mem_reinstated_of_quiet distinct secondMem tracked quiet).mp otherMem
  obtain rfl := distinct.eq_of_id otherKnown known same
  exact different (Cluster.machine_eq_of_id firstMem secondMem
    (Due.machine_eq distinct onFirst onSecond firstMem secondMem once))

theorem relabelled_reinstated (once : (moves.map (·.vm)).Nodup) :
    Relabelled cluster now { cluster with occupancy := reinstated cluster moves now } := by
  have due : ∀ {machine : Machine α}, machine ∈ cluster.machines → ∀ {vm : Vm α},
      vm ∈ (reinstated cluster moves now).residents machine.id →
      vm ∈ cluster.residents ∧ Due cluster moves machine vm := fun member _ resident =>
    (mem_reinstated_of_quiet distinct member tracked quiet).mp resident
  constructor
  · rintro _ vm ⟨machine, member, rfl, resident⟩
    obtain ⟨known, onMachine⟩ := due member resident
    exact home_reinstated_iff distinct member once known onMachine
  · rintro _ vm ⟨machine, member, rfl, resident⟩
    obtain ⟨known, onMachine⟩ := due member resident
    exact (home_reinstated_or distinct member tracked once known onMachine).imp_right fun both =>
      ⟨⟨machine, member, rfl, both.1⟩, both.2⟩
  · rintro vm right _ ⟨machine, member, rfl, resident⟩
    obtain ⟨known, onMachine⟩ := due member resident
    exact home_reinstated_of_due distinct member tracked once known onMachine right
  · exact fun key foreign =>
      (home_reinstated_of_foreign distinct foreign).trans (tracked.foreign key foreign)

end Fleet.Plan
