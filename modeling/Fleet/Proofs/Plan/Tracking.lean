import Fleet.Proofs.Settled

/-! Where the VMs of a cluster are while they are moved tentatively.

Every VM is on one host, or it is adrift: on no host. Releasing a resident and placing a VM that is
adrift are the only changes that a cycle makes, and they keep this. They also keep the labels right
that were right at the beginning. A wrong one is put right as soon as its VM is put on a host, and
otherwise stays as it was.
-/

set_option autoImplicit false

namespace Fleet

variable {α : Type} {cluster : Cluster α} {now : Occupancy α}

namespace Occupancy

theorem home_release (occupancy : Occupancy α) (host : String) (vm : Vm α) (key : VmKey) :
    (occupancy.release host vm).home key =
      if key = vm.key ∧ occupancy.home vm.key = some host then none else occupancy.home key := by
  unfold release
  by_cases labelled : occupancy.home vm.key = some host <;> simp [labelled, setHome]

theorem home_release_of_ne (occupancy : Occupancy α) (host : String) {vm : Vm α} {key : VmKey}
    (different : key ≠ vm.key) : (occupancy.release host vm).home key = occupancy.home key := by
  rw [home_release, if_neg fun both => different both.1]

theorem home_place_of_ne (occupancy : Occupancy α) (host : String) {vm : Vm α} {key : VmKey}
    (different : key ≠ vm.key) : (occupancy.place host vm).home key = occupancy.home key := by
  rw [home_place, if_neg different]

theorem residents_carry (occupancy : Occupancy α) {source destination other : String} {vm : Vm α}
    (apart : destination ≠ source) (elsewhere : other ≠ source) :
    ((occupancy.release source vm).place destination vm).residents other =
      (occupancy.place destination vm).residents other := by
  simp only [residents_place, residents_release, if_neg apart, if_neg elsewhere]

theorem residents_release_sublist (occupancy : Occupancy α) (host : String) (vm : Vm α)
    (id : String) : ((occupancy.release host vm).residents id).Sublist (occupancy.residents id) := by
  rw [residents_release]
  split
  · next here => exact here ▸ List.filter_sublist
  · exact .refl _

theorem mem_residents_carry {occupancy : Occupancy α} {source destination other : String}
    {vm old : Vm α} (resident : old ∈ occupancy.residents other) (different : old.id ≠ vm.id) :
    old ∈ ((occupancy.release source vm).place destination vm).residents other := by
  have stays : old ∈ (occupancy.release source vm).residents other := by
    rw [residents_release]
    split
    · next here => simpa [different, here] using resident
    · exact resident
  rw [residents_place]
  split
  · next here => exact List.mem_append_left _ (here ▸ stays)
  · exact stays

end Occupancy

def Told (cluster : Cluster α) (now : Occupancy α) (vm : Vm α) : Prop :=
  ∀ host, now.home vm.key = some host ↔
    ∃ machine ∈ cluster.machines, machine.id = host ∧ vm ∈ now.residents host

/-- The VM began with a wrong label and bears it still: it has not been put on any host since. -/
structure Overlooked (cluster : Cluster α) (now : Occupancy α) (vm : Vm α) : Prop where
  wrong : ¬cluster.Labelled vm
  home : now.home vm.key = cluster.occupancy.home vm.key
  start : ∀ machine ∈ cluster.machines, vm ∈ now.residents machine.id →
    vm ∈ cluster.occupancy.residents machine.id

theorem label_congr {vm : Vm α} {later : Occupancy α}
    (home : later.home vm.key = now.home vm.key)
    (residents : ∀ host, vm ∈ later.residents host ↔ vm ∈ now.residents host)
    (label : Told cluster now vm ∨ Overlooked cluster now vm) :
    Told cluster later vm ∨ Overlooked cluster later vm := by
  refine label.imp (fun told host => ?_) fun overlooked => ?_
  · simp only [home, told host, residents]
  · exact ⟨overlooked.wrong, home.trans overlooked.home, fun machine member there =>
      overlooked.start machine member ((residents machine.id).mp there)⟩

/-- Relative to the cluster at the beginning: hosts hold its VMs, none holds an id twice, no VM is
on two hosts, a label is right unless it began wrong and was overlooked, and labels of other VMs are
untouched. -/
structure Tracked (cluster : Cluster α) (now : Occupancy α) : Prop where
  known : ∀ machine ∈ cluster.machines, ∀ vm ∈ now.residents machine.id, vm ∈ cluster.residents
  once : ∀ machine ∈ cluster.machines, ((now.residents machine.id).map (·.id)).Nodup
  single : ∀ first ∈ cluster.machines, ∀ second ∈ cluster.machines, ∀ vm ∈ now.residents first.id,
    vm ∈ now.residents second.id → first.id = second.id
  label : ∀ vm ∈ cluster.residents, Told cluster now vm ∨ Overlooked cluster now vm
  foreign : ∀ key ∉ cluster.residents.map Vm.key, now.home key = cluster.occupancy.home key

/-- The VMs are known, differ in id, and are on no host. -/
structure Adrift (cluster : Cluster α) (now : Occupancy α) (vms : List (Vm α)) : Prop where
  known : ∀ vm ∈ vms, vm ∈ cluster.residents
  nowhere : ∀ vm ∈ vms, ∀ machine ∈ cluster.machines, vm ∉ now.residents machine.id
  once : (vms.map (·.id)).Nodup

theorem Cluster.DistinctVms.tracked (distinct : cluster.DistinctVms) :
    Tracked cluster cluster.occupancy where
  known _ member _ resident := Cluster.mem_residents.mpr ⟨_, member, resident⟩
  once _ member := distinct.nodup_ids member
  single _ firstMem _ secondMem _ onFirst onSecond :=
    congrArg (·.id) (distinct.machine_eq firstMem secondMem onFirst onSecond)
  label vm member := by
    by_cases labelled : cluster.Labelled vm
    · refine .inl fun host => ⟨fun label => ?_, labelled host⟩
      obtain ⟨machine, machineMem, resident⟩ := Cluster.mem_residents.mp member
      have home := labelled _ ⟨machine, machineMem, rfl, resident⟩
      obtain rfl := Option.some.inj (label.symm.trans home)
      exact ⟨machine, machineMem, rfl, resident⟩
    · exact .inr ⟨labelled, rfl, fun _ _ resident => resident⟩
  foreign _ _ := rfl

namespace Tracked

variable (tracked : Tracked cluster now)
include tracked

theorem labelled {vm : Vm α} (known : vm ∈ cluster.residents) (right : cluster.Labelled vm) :
    Told cluster now vm :=
  (tracked.label vm known).resolve_right fun overlooked => overlooked.wrong right

theorem home_or {machine : Machine α} (member : machine ∈ cluster.machines) {vm : Vm α}
    (resident : vm ∈ now.residents machine.id) : now.home vm.key = some machine.id ∨
      vm ∈ cluster.occupancy.residents machine.id ∧
        now.home vm.key = cluster.occupancy.home vm.key := by
  rcases tracked.label vm (tracked.known machine member vm resident) with told | overlooked
  · exact .inl ((told _).mpr ⟨machine, member, rfl, resident⟩)
  · exact .inr ⟨overlooked.start machine member resident, overlooked.home⟩

theorem id_notMem (distinct : cluster.DistinctVms) {machine : Machine α}
    (member : machine ∈ cluster.machines) {vm : Vm α} (known : vm ∈ cluster.residents)
    (absent : vm ∉ now.residents machine.id) : vm.id ∉ (now.residents machine.id).map (·.id) := by
  intro there
  obtain ⟨other, resident, same⟩ := List.mem_map.mp there
  have otherKnown := tracked.known machine member other resident
  exact absent (distinct.eq_of_id otherKnown known same ▸ resident)

theorem holds_eq_false (distinct : cluster.DistinctVms) {machine : Machine α}
    (member : machine ∈ cluster.machines) {vm : Vm α} (known : vm ∈ cluster.residents)
    (absent : vm ∉ now.residents machine.id) : (now.host machine).holds vm.id = false := by
  have fresh := tracked.id_notMem distinct member known absent
  simpa [Host.holds, Occupancy.host] using fresh

theorem id_ne (distinct : cluster.DistinctVms) {first second : Machine α}
    (firstMem : first ∈ cluster.machines) (secondMem : second ∈ cluster.machines)
    (apart : first.id ≠ second.id) {vm other : Vm α} (onFirst : vm ∈ now.residents first.id)
    (onSecond : other ∈ now.residents second.id) : vm.id ≠ other.id := by
  intro same
  have known := tracked.known first firstMem vm onFirst
  have otherKnown := tracked.known second secondMem other onSecond
  obtain rfl := distinct.eq_of_id known otherKnown same
  exact apart (tracked.single first firstMem second secondMem vm onFirst onSecond)

theorem residents_release_eq (distinct : cluster.DistinctVms) {source machine : Machine α}
    (sourceMem : source ∈ cluster.machines) {vm : Vm α} (resident : vm ∈ now.residents source.id)
    (member : machine ∈ cluster.machines) : (now.release source.id vm).residents machine.id =
      (now.residents machine.id).filter (·.id != vm.id) := by
  rw [Occupancy.residents_release]
  split
  · next here => rw [here]
  · next elsewhere =>
    refine (List.filter_eq_self.mpr fun old oldMem => bne_iff_ne.mpr ?_).symm
    exact tracked.id_ne distinct member sourceMem elsewhere oldMem resident

theorem nowhere_release {machine : Machine α} (member : machine ∈ cluster.machines) {vm : Vm α}
    (resident : vm ∈ now.residents machine.id) :
    ∀ other ∈ cluster.machines, vm ∉ (now.release machine.id vm).residents other.id := by
  intro other otherMem still
  rw [Occupancy.residents_release] at still
  split at still
  · simp at still
  · next elsewhere =>
    exact elsewhere (tracked.single other otherMem machine member vm still resident)

variable (distinct : cluster.DistinctVms)
include distinct

theorem label_release {machine : Machine α} (member : machine ∈ cluster.machines) {vm : Vm α}
    (resident : vm ∈ now.residents machine.id) :
    Told cluster (now.release machine.id vm) vm ∨
      Overlooked cluster (now.release machine.id vm) vm := by
  have nowhere := tracked.nowhere_release member resident
  have known := tracked.known machine member vm resident
  refine (tracked.label vm known).imp (fun told host => ?_) fun overlooked =>
    ⟨overlooked.wrong, ?_, fun other otherMem still => absurd still (nowhere other otherMem)⟩
  · have home : now.home vm.key = some machine.id :=
      (told machine.id).mpr ⟨machine, member, rfl, resident⟩
    rw [Occupancy.home_release, if_pos ⟨rfl, home⟩]
    -- without a label, the VM has to be on no host
    simp only [reduceCtorEq, false_iff]
    rintro ⟨other, otherMem, rfl, still⟩
    exact nowhere other otherMem still
  · have start := overlooked.start machine member resident
    -- the VM is still on its first host, and a label that names this host would have been right
    have elsewhere : now.home vm.key ≠ some machine.id := fun label =>
      overlooked.wrong ((distinct.labelled_iff member start).mpr (overlooked.home ▸ label))
    rw [Occupancy.home_release, if_neg fun both => elsewhere both.2, overlooked.home]

theorem release {machine : Machine α} (member : machine ∈ cluster.machines) {vm : Vm α}
    (resident : vm ∈ now.residents machine.id) :
    Tracked cluster (now.release machine.id vm) := by
  have vmKnown := tracked.known machine member vm resident
  have fewer : ∀ host, (now.release machine.id vm).residents host ⊆ now.residents host :=
    fun host => (now.residents_release_sublist machine.id vm host).subset
  refine ⟨fun other otherMem old oldMem => tracked.known other otherMem old (fewer _ oldMem),
    fun other otherMem => ?_, fun first firstMem second secondMem old onFirst onSecond =>
      tracked.single first firstMem second secondMem old (fewer _ onFirst) (fewer _ onSecond),
    fun old oldMem => ?_, fun key absent => ?_⟩
  · rw [Occupancy.residents_release]
    split
    · exact (tracked.once machine member).sublist (List.filter_sublist.map _)
    · exact tracked.once other otherMem
  · by_cases same : old = vm
    · subst same
      exact tracked.label_release distinct member resident
    · have otherKey : old.key ≠ vm.key := fun key => same (distinct.eq_of_key oldMem vmKnown key)
      have otherId : old.id ≠ vm.id := fun id => same (distinct.eq_of_id oldMem vmKnown id)
      refine label_congr (now.home_release_of_ne machine.id otherKey) (fun host => ?_)
        (tracked.label old oldMem)
      rw [Occupancy.residents_release]
      by_cases here : host = machine.id
      · simp [here, otherId]
      · simp [here]
  · have otherKey : key ≠ vm.key := fun same => absent (same ▸ List.mem_map_of_mem vmKnown)
    rw [now.home_release_of_ne machine.id otherKey]
    exact tracked.foreign key absent

theorem place {machine : Machine α} (member : machine ∈ cluster.machines) {vm : Vm α}
    (vmKnown : vm ∈ cluster.residents)
    (nowhere : ∀ other ∈ cluster.machines, vm ∉ now.residents other.id) :
    Tracked cluster (now.place machine.id vm) := by
  -- a resident was one before, or it is the VM that is placed
  have before : ∀ {other : Machine α} {old : Vm α}, other ∈ cluster.machines →
      old ∈ (now.place machine.id vm).residents other.id →
      old ∈ now.residents other.id ∨ (old = vm ∧ other.id = machine.id) := by
    intro other old otherMem oldMem
    rw [Occupancy.residents_place] at oldMem
    split at oldMem
    · next here =>
      rcases List.mem_append.mp oldMem with before | added
      · exact .inl (here ▸ before)
      · exact .inr ⟨List.mem_singleton.mp added, here⟩
    · exact .inl oldMem
  refine ⟨fun other otherMem old oldMem => ?_, fun other otherMem => ?_,
    fun first firstMem second secondMem old onFirst onSecond => ?_,
    fun old oldMem => ?_, fun key absent => ?_⟩
  · rcases before otherMem oldMem with earlier | ⟨rfl, _⟩
    · exact tracked.known other otherMem old earlier
    · exact vmKnown
  · rw [Occupancy.residents_place]
    split
    · have fresh := tracked.id_notMem distinct member vmKnown (nowhere machine member)
      rw [List.map_append, List.map_singleton, ← List.concat_eq_append, List.nodup_concat]
      exact ⟨fresh, tracked.once machine member⟩
    · exact tracked.once other otherMem
  · rcases before firstMem onFirst with earlier | ⟨rfl, here⟩
    · rcases before secondMem onSecond with there | ⟨rfl, _⟩
      · exact tracked.single first firstMem second secondMem old earlier there
      · exact absurd earlier (nowhere first firstMem)
    · rcases before secondMem onSecond with there | ⟨_, too⟩
      · exact absurd there (nowhere second secondMem)
      · exact here.trans too.symm
  · by_cases same : old = vm
    · subst same
      refine .inl fun host => ?_
      rw [Occupancy.home_place, Occupancy.residents_place, if_pos rfl, Option.some.injEq]
      constructor
      · rintro rfl
        exact ⟨machine, member, rfl, by simp⟩
      · rintro ⟨other, otherMem, rfl, there⟩
        by_contra elsewhere
        rw [if_neg (Ne.symm elsewhere)] at there
        exact nowhere other otherMem there
    · have otherKey : old.key ≠ vm.key := fun key => same (distinct.eq_of_key oldMem vmKnown key)
      refine label_congr (now.home_place_of_ne machine.id otherKey) (fun host => ?_)
        (tracked.label old oldMem)
      rw [Occupancy.residents_place]
      by_cases here : host = machine.id
      · simp [here, same]
      · simp [here]
  · have otherKey : key ≠ vm.key := fun same => absent (same ▸ List.mem_map_of_mem vmKnown)
    rw [now.home_place_of_ne machine.id otherKey]
    exact tracked.foreign key absent

theorem carry {source destination : Machine α} (sourceMem : source ∈ cluster.machines)
    (destinationMem : destination ∈ cluster.machines) {vm : Vm α}
    (resident : vm ∈ now.residents source.id) :
    Tracked cluster ((now.release source.id vm).place destination.id vm) :=
  (tracked.release distinct sourceMem resident).place distinct destinationMem
    (tracked.known source sourceMem vm resident) (tracked.nowhere_release sourceMem resident)

theorem holds_release_eq_false {source destination : Machine α}
    (sourceMem : source ∈ cluster.machines) (destinationMem : destination ∈ cluster.machines)
    {vm : Vm α} (resident : vm ∈ now.residents source.id) :
    ((now.release source.id vm).host destination).holds vm.id = false :=
  (tracked.release distinct sourceMem resident).holds_eq_false distinct destinationMem
    (tracked.known source sourceMem vm resident)
    (tracked.nowhere_release sourceMem resident destination destinationMem)

end Tracked

namespace Adrift

theorem nil (cluster : Cluster α) (now : Occupancy α) : Adrift cluster now [] := by
  constructor <;> simp

theorem of_perm {vms others : List (Vm α)} (adrift : Adrift cluster now vms)
    (same : others.Perm vms) : Adrift cluster now others where
  known vm member := adrift.known vm (same.subset member)
  nowhere vm member := adrift.nowhere vm (same.subset member)
  once := (same.map _).nodup_iff.mpr adrift.once

theorem release {vms : List (Vm α)} (adrift : Adrift cluster now vms)
    (tracked : Tracked cluster now)
    (distinct : cluster.DistinctVms) {machine : Machine α} (member : machine ∈ cluster.machines)
    {vm : Vm α} (resident : vm ∈ now.residents machine.id) :
    Adrift cluster (now.release machine.id vm) (vms ++ [vm]) where
  known old oldMem := by
    rcases List.mem_append.mp oldMem with before | added
    · exact adrift.known old before
    · exact List.mem_singleton.mp added ▸ tracked.known machine member vm resident
  nowhere old oldMem other otherMem := by
    rcases List.mem_append.mp oldMem with before | added
    · have absent := adrift.nowhere old before
      rw [Occupancy.residents_release]
      split
      · exact fun kept => absent machine member (List.mem_filter.mp kept).1
      · exact absent other otherMem
    · obtain rfl := List.mem_singleton.mp added
      exact tracked.nowhere_release member resident other otherMem
  once := by
    rw [List.map_append, List.map_singleton, ← List.concat_eq_append, List.nodup_concat]
    refine ⟨fun there => ?_, adrift.once⟩
    obtain ⟨old, oldMem, same⟩ := List.mem_map.mp there
    have known := tracked.known machine member vm resident
    have := distinct.eq_of_id (adrift.known old oldMem) known same
    exact adrift.nowhere old oldMem machine member (this ▸ resident)

theorem tail {vm : Vm α} {vms : List (Vm α)} (adrift : Adrift cluster now (vm :: vms)) :
    Adrift cluster now vms where
  known old oldMem := adrift.known old (List.mem_cons_of_mem vm oldMem)
  nowhere old oldMem := adrift.nowhere old (List.mem_cons_of_mem vm oldMem)
  once := adrift.once.of_cons

theorem place {vm : Vm α} {vms : List (Vm α)} (adrift : Adrift cluster now (vm :: vms))
    (host : String) : Adrift cluster (now.place host vm) vms where
  known := adrift.tail.known
  nowhere old oldMem machine member := by
    have absent := adrift.tail.nowhere old oldMem
    rw [Occupancy.residents_place]
    split
    · next here =>
      have different : old ≠ vm := fun same =>
        (List.nodup_cons.mp adrift.once).1 (same ▸ List.mem_map_of_mem (f := (·.id)) oldMem)
      simpa [different] using here ▸ absent machine member
    · exact absent machine member
  once := adrift.tail.once

end Adrift

end Fleet
