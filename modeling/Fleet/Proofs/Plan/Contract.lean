import Fleet.Proofs.Plan.Conclusion

/-! What a planning call promises about the cluster it is given and the one it leaves behind. -/

set_option autoImplicit false

namespace Fleet.Plan

variable {α State : Type} [Scalar α]

/-- How a cluster differs after moves have been committed: in which host holds which VM, and in the
labels that say so, which are right where they were before and where a host has been rewritten. -/
structure Committed (before : Cluster α) (explored : Occupancy α) (after : Cluster α)
    (moves : List Move) : Prop where
  machines : after.machines = before.machines
  moved : ∀ move ∈ moves, ∃ vm, vm.id = move.vm ∧ before.Holds move.source vm ∧
    after.Holds move.destination vm ∧ after.occupancy.home vm.key = some move.destination
  unmoved : ∀ host vm, before.Holds host vm → vm.id ∉ moves.map (·.vm) → after.Holds host vm
  residents : ∀ vm, vm ∈ after.residents ↔ vm ∈ before.residents
  distinct : after.DistinctVms
  labels : Relabelled before explored after

/-- Every host has its VMs back, a VM has its label back unless its host did not have to be rewritten,
and the engine has the report it had. -/
structure RolledBack (before : Engine α State) (broken : Occupancy α) (after : Engine α State) :
    Prop where
  machines : after.cluster.machines = before.cluster.machines
  residents : ∀ machine ∈ before.cluster.machines,
    (after.cluster.occupancy.residents machine.id).Perm
      (before.cluster.occupancy.residents machine.id)
  distinct : after.cluster.DistinctVms
  labels : Relabelled before.cluster broken after.cluster
  report : after.report = before.report
  phase : after.phase = .idle

omit [Scalar α] in
theorem Committed.settled {before after : Cluster α} {explored : Occupancy α} {moves : List Move}
    (committed : Committed before explored after moves) (settled : before.Settled) :
    after.Settled where
  distinct := committed.distinct
  labelled vm := committed.labels.labelled vm (settled.labelled vm)

omit [Scalar α] in
theorem RolledBack.settled {before after : Engine α State} {broken : Occupancy α}
    (rolled : RolledBack before broken after) (settled : before.cluster.Settled) :
    after.cluster.Settled where
  distinct := rolled.distinct
  labelled vm := rolled.labels.labelled vm (settled.labelled vm)

theorem committed_reinstated {cluster : Cluster α} {loose : List String} {moves : List Move}
    {now : Occupancy α} (distinct : cluster.DistinctVms) (quiet : cluster.Quiet)
    (tracked : Tracked cluster now) (rehearsed : Rehearsed cluster loose moves now) :
    Committed cluster now { cluster with occupancy := reinstated cluster moves now } moves := by
  obtain ⟨_, run, _⟩ := rehearsed.replay
  have known := run.destination_mem
  have labels := relabelled_reinstated distinct tracked quiet rehearsed.once
  have held : ∀ {machine : Machine α}, machine ∈ cluster.machines → ∀ {vm : Vm α},
      vm ∈ (reinstated cluster moves now).residents machine.id ↔
        vm ∈ cluster.residents ∧ Due cluster moves machine vm := fun member _ =>
    mem_reinstated_of_quiet distinct member tracked quiet
  refine ⟨rfl, fun move moveMem => ?_, ?_, fun vm => ?_,
    distinctVms_reinstated distinct tracked quiet rehearsed.once, labels⟩
  · obtain ⟨vm, named, source, sourceMem, sourceId, resident⟩ := rehearsed.origin move moveMem
    obtain ⟨destination, member, destinationId⟩ := known move moveMem
    have vmKnown := Cluster.mem_residents.mpr ⟨source, sourceMem, sourceId.symm ▸ resident⟩
    have due : Due cluster moves destination vm :=
      .inr ⟨move, moveMem, destinationId.symm, named.symm⟩
    have arrives : Cluster.Holds { cluster with occupancy := reinstated cluster moves now }
        move.destination vm :=
      ⟨destination, member, destinationId, destinationId ▸ (held member).mpr ⟨vmKnown, due⟩⟩
    refine ⟨vm, named, ⟨source, sourceMem, sourceId, resident⟩, arrives, ?_⟩
    -- a label that was not changed would be that of a VM that has not changed hosts
    refine (labels.right_or _ vm arrives).resolve_right fun old => rehearsed.apart move moveMem ?_
    obtain ⟨⟨other, otherMem, otherId, there⟩, _⟩ := old
    rw [← otherId] at there ⊢
    rw [← sourceId] at resident ⊢
    exact congrArg _ (distinct.machine_eq otherMem sourceMem there resident)
  · rintro _ vm ⟨machine, member, rfl, resident⟩ unnamed
    have vmKnown := Cluster.mem_residents.mpr ⟨machine, member, resident⟩
    have due : Due cluster moves machine vm :=
      .inl ⟨resident, quiet machine member vm resident, unnamed⟩
    exact ⟨machine, member, rfl, (held member).mpr ⟨vmKnown, due⟩⟩
  · rw [Cluster.mem_residents]
    constructor
    · rintro ⟨machine, member, resident⟩
      exact ((held member).mp resident).1
    · intro vmKnown
      obtain ⟨machine, member, due⟩ := exists_due quiet known vmKnown
      exact ⟨machine, member, (held member).mpr ⟨vmKnown, due⟩⟩

omit [Scalar α] in
theorem perm_reinstated {cluster : Cluster α} {now : Occupancy α} (distinct : cluster.DistinctVms)
    (quiet : cluster.Quiet) (tracked : Tracked cluster now) {machine : Machine α}
    (member : machine ∈ cluster.machines) :
    ((reinstated cluster [] now).residents machine.id).Perm
      (cluster.occupancy.residents machine.id) := by
  have all : (cluster.occupancy.residents machine.id).filter
      (fun vm => vm.id ∉ ([] : List Move).map (·.vm)) = cluster.occupancy.residents machine.id :=
    List.filter_eq_self.mpr fun _ _ => by simp
  have unmoved : (([] : List Move).map (·.vm)).Nodup := .nil
  exact all ▸ perm_reinstated_of_unreached distinct member tracked (quiet machine member) unmoved
    fun _ absent => by cases absent

/-- The VM is on the host and on no other, is labelled with it, and no action names it. -/
structure Kept (result : Except (Fault α) (List Move)) (after : Cluster α) (host : String)
    (vm : Vm α) : Prop where
  resident : after.Holds host vm
  only : ∀ other, after.Holds other vm → other = host
  labelled : after.occupancy.home vm.key = some host
  unnamed : ∀ moves, result = .ok moves → vm.id ∉ moves.map (·.vm)

omit [Scalar α] in
/-- A VM that was migrating in is kept exactly if the cycle never took it off its host and it came with
the right label. -/
theorem kept_reinstated_iff {cluster : Cluster α} {moves : List Move} {selected now : Occupancy α}
    (distinct : cluster.DistinctVms) (retained : Retained cluster selected now)
    {machine : Machine α} (member : machine ∈ cluster.machines) {vm : Vm α}
    (start : vm ∈ cluster.occupancy.residents machine.id) (arriving : vm.id ∈ machine.arriving)
    (vacated : vm.id ∈ moves.map (·.vm) → vm ∉ now.residents machine.id)
    {result : Except (Fault α) (List Move)}
    (unnamed : (∀ answer, result = .ok answer → vm.id ∉ answer.map (·.vm)) ↔
      vm.id ∉ moves.map (·.vm)) :
    Kept result { cluster with occupancy := reinstated cluster moves now } machine.id vm ↔
      vm ∈ selected.residents machine.id ∧ cluster.Labelled vm := by
  have tracked := retained.tracked
  have known := Cluster.mem_residents.mpr ⟨machine, member, start⟩
  have undue : vm.id ∉ moves.map (·.vm) → ∀ other ∈ cluster.machines,
      ¬Due cluster moves other vm := by
    rintro unnamed other otherMem (⟨there, calm, _⟩ | ⟨move, moveMem, _, named⟩)
    · obtain rfl := distinct.machine_eq otherMem member there start
      exact calm arriving
    · exact unnamed (named ▸ List.mem_map_of_mem moveMem)
  have home : vm.id ∉ moves.map (·.vm) →
      (reinstated cluster moves now).home vm.key = now.home vm.key := fun free =>
    home_reinstated_of_undue distinct known (undue free)
  rw [← retained.arriving machine member vm start arriving, distinct.labelled_iff member start]
  -- reinstating puts the VM back without asking where it was, but it does not touch the label
  constructor
  · intro kept
    have label := (home (unnamed.mp kept.unnamed)).symm.trans kept.labelled
    rcases tracked.label vm known with told | overlooked
    · obtain ⟨_, _, _, there⟩ := (told machine.id).mp label
      exact ⟨there, (retained.unmarked machine member vm start arriving there).symm.trans label⟩
    · exact absurd ((distinct.labelled_iff member start).mpr (overlooked.home ▸ label))
        overlooked.wrong
  · rintro ⟨there, right⟩
    have free : vm.id ∉ moves.map (·.vm) := fun named => vacated named there
    refine ⟨⟨machine, member, rfl, ?_⟩, ?_, ?_, unnamed.mpr free⟩
    · exact (mem_reinstated distinct member tracked).mpr (.inl ⟨start, arriving⟩)
    · rintro _ ⟨other, otherMem, rfl, otherRes⟩
      rcases (mem_reinstated distinct otherMem tracked).mp otherRes with ⟨here, _⟩ | ⟨_, due⟩
      · exact congrArg _ (distinct.machine_eq otherMem member here start)
      · exact absurd due (undue free other otherMem)
    · exact (home free).trans ((retained.unmarked machine member vm start arriving there).trans right)

/-! Small engines in exact arithmetic, on which the promises below can be seen -/

namespace Sample

def policy : Policy Rat where
  table :=
    { flavors := [{ mips := 1000, cores := 2, index := 0, memoryRatio := 0.5, ramMb := none }]
      nonempty := List.cons_ne_nil _ _ }
  overload := .standard
  eviction := .standard
  destination :=
    { weights := .standard, upperBound := 0.9, lowerBand := 0.3, memoryBound := 0.9, gamma := 1
      overload := .standard }
  underload := Policy.standardUnderload

def advisors : Advisors Rat (World Rat Unit) := policy.advisors fun _ => (0, ())

def tick : Tick Rat := { value := 0 }

def vm (id : String) (load : Rat) : Vm Rat :=
  { mips := 1000, cores := 2, serial := 0, id, ramMb := 1000, samples := [load]
    migrating := false }

def host (id : String) (cores : Int) (arriving : List String) (vms : List (Vm Rat)) : Host Rat :=
  { mips := 1000, cores, id, ramMb := 8000, samples := [], arriving, power := .xeonE5 Rat, vms }

def engine {State : Type} (kept : State) (hosts : List (Host Rat)) : Engine Rat State where
  cluster := .ofHosts hosts fun _ => none
  advisors := kept

/-- A host that can be drained onto another. -/
def spread : Engine Rat (World Rat Unit) :=
  engine ⟨{}, ()⟩ [host "a" 4 [] [vm "x" 0.1], host "b" 4 [] [vm "y" 0.5]]

def crowded : Engine Rat (World Rat Unit × Nat) :=
  engine (⟨{}, ()⟩, 0) [host "a" 2 [] [vm "x" 0.95]]

/-- The same with a VM that is still migrating in. -/
def awaiting : Engine Rat (World Rat Unit) := engine ⟨{}, ()⟩ [host "a" 2 ["x"] [vm "x" 0.95]]

/-- An overloaded host, and one whose VM has no label, as a cycle leaves the VM of `awaiting`. -/
def forgotten {State : Type} (kept : State) : Engine Rat State :=
  let built := engine kept [host "a" 2 [] [vm "x" 0.95], host "b" 4 [] [vm "y" 0.5]]
  let unlabelled := built.cluster.occupancy.setHome (vm "y" 0.5) none
  { built with cluster := { built.cluster with occupancy := unlabelled } }

example : (awaiting.plan advisors policy.underload tick).2.cluster.occupancy.home
    (vm "x" 0.95).key = none := by decide +kernel

section

variable {State : Type} {kept : State}

theorem distinct_forgotten : (forgotten kept).cluster.DistinctVms := by
  change (["x", "y"] : List String).Nodup
  decide

theorem quiet_forgotten : (forgotten kept).cluster.Quiet := fun machine member _ _ arriving => by
  have empty : ∀ machine ∈ (forgotten kept).cluster.machines, machine.arriving = [] :=
    List.forall_mem_cons.mpr ⟨rfl, List.forall_mem_singleton.mpr rfl⟩
  rw [empty machine member] at arriving
  cases arriving

theorem holds_forgotten : (forgotten kept).cluster.Holds "b" (vm "y" 0.5) :=
  ⟨_, List.mem_cons_of_mem _ List.mem_cons_self, rfl, List.mem_cons_self⟩

end

/-- Strikes the fourth call. -/
def strike (calls : Nat) : Option (Fault Rat) × Nat :=
  (if calls = 3 then some .wrongType else none, calls + 1)

def struck {Answer : Type} : Except (Fault Rat) Answer → Bool
  | .error .wrongType => true
  | _ => false

theorem eq_of_struck {Answer : Type} {value : Except (Fault Rat) Answer}
    (known : struck value = true) : value = .error .wrongType := by
  unfold struck at known
  split at known
  · rfl
  · cases known

end Sample

namespace Engine

variable {Draws Mood : Type} {policy : Policy α} {draw : Draws → α × Draws} {underload : α}
  {tick : Tick α}

/-- The moves returned are what has become of the cluster. -/
theorem plan_commits {engine after : Engine α (World α Draws)} {moves : List Move}
    (distinct : engine.cluster.DistinctVms) (quiet : engine.cluster.Quiet)
    (planned : engine.plan (policy.advisors draw) underload tick = (.ok moves, after)) :
    Committed engine.cluster
      ((engine.planner (policy.advisors draw) underload).afterExploration tick engine.begin)
      after.cluster moves := by
  generalize result : (.ok moves : Except (Fault α) (List Move)) = answer at planned
  cases conclusion planned with
  | committed explore reinstate cluster =>
    cases result
    obtain ⟨retained, ⟨_, rehearsed⟩, last⟩ :=
      commit_reinstates rfl (policy.reliable draw) distinct explore reinstate
    rw [cluster, last, Planner.afterExploration, explore]
    exact committed_reinstated distinct quiet retained.tracked rehearsed
  | uncommitted | rolledBack | stranded => cases result

/-- The VM that moves is labelled anew. The host that takes it holds in the end what it held when the
tentative phases were over, so the VM that had lost its label there does not get it back. -/
theorem plan_commits_forgotten :
    let before : Engine Rat (World Rat Unit) := Sample.forgotten ⟨{}, ()⟩
    let after := (before.plan Sample.advisors Sample.policy.underload Sample.tick).2
    Committed before.cluster
        ((before.planner Sample.advisors Sample.policy.underload).afterExploration Sample.tick
          before.begin)
        after.cluster [⟨"x", "a", "b"⟩] ∧
      after.cluster.Holds "b" (Sample.vm "y" 0.5) ∧
      after.cluster.occupancy.home (Sample.vm "y" 0.5).key ≠ some "b" := by
  intro before after
  have committed : Committed before.cluster _ after.cluster [⟨"x", "a", "b"⟩] :=
    plan_commits Sample.distinct_forgotten Sample.quiet_forgotten
      (Prod.ext (Attempt.ok_of_toOption (by decide +kernel)) rfl)
  have stays : after.cluster.Holds "b" (Sample.vm "y" 0.5) :=
    committed.unmoved "b" (Sample.vm "y" 0.5) Sample.holds_forgotten (by decide)
  -- the label was lost before, and the host has the same VMs as when the tentative phases were over
  refine ⟨committed, stays, fun right => ?_⟩
  rcases (committed.labels.right_iff "b" _ stays).mp right with early | rewritten
  · revert early
    decide +kernel
  · refine rewritten fun id => iff_of_eq (congrArg (id ∈ ·) ?_)
    decide +kernel

/-- The moves returned can be made one by one in the order in which they are returned. -/
theorem plan_executable {engine after : Engine α (World α Draws)} {moves : List Move}
    (distinct : engine.cluster.DistinctVms)
    (planned : engine.plan (policy.advisors draw) underload tick = (.ok moves, after)) :
    ∃ final, Executable engine.cluster.machines engine.cluster.occupancy moves final := by
  generalize result : (.ok moves : Except (Fault α) (List Move)) = answer at planned
  cases conclusion planned with
  | committed explore reinstate _ =>
    cases result
    obtain ⟨_, ⟨_, rehearsed⟩, _⟩ :=
      commit_reinstates rfl (policy.reliable draw) distinct explore reinstate
    obtain ⟨final, run, _⟩ := rehearsed.replay
    exact ⟨final, run⟩
  | uncommitted | rolledBack | stranded => cases result

theorem plan_executable_spread : ∃ final,
    Executable Sample.spread.cluster.machines Sample.spread.cluster.occupancy [⟨"x", "a", "b"⟩]
      final :=
  have planned : Sample.spread.plan Sample.advisors Sample.policy.underload Sample.tick =
      (.ok [⟨"x", "a", "b"⟩],
        (Sample.spread.plan Sample.advisors Sample.policy.underload Sample.tick).2) :=
    Prod.ext (Attempt.ok_of_toOption (by decide +kernel)) rfl
  plan_executable (Cluster.settled_ofHosts _ (by decide +kernel)).distinct planned

/-- Whatever fault breaks off the tentative phases, one of the policy or one that strikes from
outside: if the call hands on that very fault, everything is back where it was. -/
theorem plan_rolls_back {engine after : Engine α (World α Draws × Mood)}
    {strike : Mood → Option (Fault α) × Mood} {fault : Fault α}
    {broken : Progress α (World α Draws × Mood)} (distinct : engine.cluster.DistinctVms)
    (quiet : engine.cluster.Quiet)
    (broke : ((engine.planner ((policy.advisors draw).disturbed strike) underload).explore
      tick).run.run engine.begin = (.error fault, broken))
    (planned : engine.plan ((policy.advisors draw).disturbed strike) underload tick =
      (.error fault, after)) : RolledBack engine broken.occupancy after := by
  have reliable := (policy.reliable draw).disturbed strike
  generalize result : (.error fault : Except (Fault α) (List Move)) = answer at planned
  cases conclusion planned with
  | committed => cases result
  | uncommitted explore _ => cases explore.symm.trans broke
  -- a roll-back that stops short raises a fault of its own, in which the first one is only named
  | stranded explore reinstate =>
    cases explore.symm.trans broke
    have unrestored := reinstate_breaks rfl distinct [] .nil
      (fun _ absent => by cases absent) reinstate
    exact absurd (Except.error.inj result).symm (duringFault_ne unrestored)
  | rolledBack explore reinstate =>
    obtain ⟨retained, last⟩ := rollback_reinstates rfl reliable distinct explore reinstate
    cases explore.symm.trans broke
    refine ⟨rfl, fun machine member => ?_, ?_, ?_, rfl, rfl⟩ <;> dsimp only [finish] <;> rw [last]
    · exact perm_reinstated distinct quiet retained.tracked member
    · exact distinctVms_reinstated distinct retained.tracked quiet .nil
    · exact relabelled_reinstated distinct retained.tracked quiet .nil

/-- The fault strikes when a VM has left its host and lost its label. It gets both back, and a VM on a
host that nothing has touched keeps the label that it had. -/
theorem plan_rolls_back_forgotten :
    let before : Engine Rat (World Rat Unit × Nat) := Sample.forgotten (⟨{}, ()⟩, 0)
    let advisors := Sample.advisors.disturbed Sample.strike
    let broken := (before.planner advisors Sample.policy.underload).afterExploration Sample.tick
      before.begin
    let after := (before.plan advisors Sample.policy.underload Sample.tick).2
    RolledBack before broken after ∧ after.cluster.Labelled (Sample.vm "x" 0.95) ∧
      after.cluster.Holds "b" (Sample.vm "y" 0.5) ∧
      after.cluster.occupancy.home (Sample.vm "y" 0.5).key ≠ some "b" := by
  intro before advisors broken after
  have rolled : RolledBack before broken after :=
    plan_rolls_back Sample.distinct_forgotten Sample.quiet_forgotten
      (Prod.ext (Sample.eq_of_struck (by decide +kernel)) rfl)
      (Prod.ext (Sample.eq_of_struck (by decide +kernel)) rfl)
  have held : before.cluster.Holds "b" (Sample.vm "y" 0.5) := Sample.holds_forgotten
  obtain ⟨machine, member, same, resident⟩ := held
  have stays : after.cluster.Holds "b" (Sample.vm "y" 0.5) :=
    ⟨machine, rolled.machines ▸ member, same,
      same ▸ (rolled.residents machine member).mem_iff.mpr (same ▸ resident)⟩
  have right : before.cluster.Labelled (Sample.vm "x" 0.95) :=
    (Sample.distinct_forgotten.labelled_iff List.mem_cons_self List.mem_cons_self).mpr rfl
  refine ⟨rolled, rolled.labels.labelled _ right, stays, fun home => ?_⟩
  rcases (rolled.labels.right_iff "b" _ stays).mp home with early | rewritten
  · revert early
    decide +kernel
  · refine rewritten fun id => iff_of_eq (congrArg (id ∈ ·) ?_)
    decide +kernel

/-- Unless a host cannot be given its share, a VM that was migrating in is kept exactly if victim
selection left it on its host and it was labelled with it. Selection asks whether a VM is migrating,
not whether it is arriving, so it may take it off. -/
theorem plan_keeps_iff {engine after : Engine α (World α Draws)}
    {result : Except (Fault α) (List Move)} (distinct : engine.cluster.DistinctVms)
    (planned : engine.plan (policy.advisors draw) underload tick = (result, after))
    (possible : ∀ fault, result = .error fault → fault.kind ≠ .capacity) {machine : Machine α}
    (member : machine ∈ engine.cluster.machines) {vm : Vm α}
    (start : vm ∈ engine.cluster.occupancy.residents machine.id)
    (arriving : vm.id ∈ machine.arriving) :
    Kept result after.cluster machine.id vm ↔
      vm ∈ ((engine.planner (policy.advisors draw) underload).afterSelection tick
        engine.begin).residents machine.id ∧ engine.cluster.Labelled vm := by
  have reliable := policy.reliable draw
  cases conclusion planned with
  | committed explore reinstate cluster =>
    obtain ⟨retained, ⟨_, rehearsed⟩, last⟩ :=
      commit_reinstates rfl reliable distinct explore reinstate
    rw [cluster, last]
    refine kept_reinstated_iff distinct retained member start arriving
      (rehearsed.vacated distinct retained.tracked member start) ?_
    exact ⟨fun free => free _ rfl, fun free _ same => by cases same; exact free⟩
  | rolledBack explore reinstate =>
    obtain ⟨retained, last⟩ := rollback_reinstates rfl reliable distinct explore reinstate
    dsimp only [finish]
    rw [last]
    exact kept_reinstated_iff distinct retained member start arriving
      (fun absent => by cases absent)
      ⟨fun _ => List.not_mem_nil, fun _ _ same => by cases same⟩
  -- the two endings that are left are capacity faults
  | uncommitted explore reinstate =>
    obtain ⟨_, loose, rehearsed⟩ :=
      (Planner.explore_ends reliable distinct rfl tick rfl).of_ok explore
    obtain ⟨final, run, _⟩ := rehearsed.replay
    obtain ⟨host, refused, reason, rfl⟩ :=
      reinstate_breaks rfl distinct _ rehearsed.once run.destination_mem reinstate
    exact absurd rfl (possible _ rfl)
  | stranded explore reinstate =>
    obtain ⟨host, refused, reason, rfl⟩ :=
      reinstate_breaks rfl distinct [] .nil (fun _ absent => by cases absent) reinstate
    exact absurd rfl (possible _ rfl)

/-- The VM is evicted and finds no place: it is put back without its label. -/
theorem plan_keeps_iff_awaiting :
    ¬Kept (.ok []) (Sample.awaiting.plan Sample.advisors Sample.policy.underload
      Sample.tick).2.cluster "a" (Sample.vm "x" 0.95) := by
  have gone : ((Sample.awaiting.planner Sample.advisors Sample.policy.underload).afterSelection
      Sample.tick Sample.awaiting.begin).residents "a" = [] :=
    List.isEmpty_iff.mp (by decide +kernel)
  have member : (Sample.host "a" 2 ["x"] []).toMachine ∈ Sample.awaiting.cluster.machines :=
    List.mem_cons_self
  intro kept
  have there : Sample.vm "x" 0.95 ∈ ((Sample.awaiting.planner Sample.advisors
      Sample.policy.underload).afterSelection Sample.tick Sample.awaiting.begin).residents "a" :=
    ((plan_keeps_iff (Cluster.settled_ofHosts _ (by decide +kernel)).distinct
      (Prod.ext (Attempt.ok_of_toOption (by decide +kernel)) rfl) (fun _ absent => by cases absent)
      member List.mem_cons_self List.mem_cons_self).mp kept).1
  rw [gone] at there
  cases there

end Engine

end Fleet.Plan
