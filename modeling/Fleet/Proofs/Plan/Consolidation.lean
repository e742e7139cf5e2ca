import Fleet.Proofs.Plan.Contract

/-! What a planning call promises about its moves, and about the hosts that it tries to drain. -/

set_option autoImplicit false

namespace Fleet.Plan

variable {α State : Type} [Scalar α]

/-- No host gives and receives, and no VM moves twice or while it is migrating. No host that receives
a VM is overloaded, and none that receives it from a drain was switched off or picked itself. -/
structure Shape (before : Cluster α) {planner : Planner α State} {tick : Tick α}
    {start : Progress α State} (course : Course planner tick start) (report : Report α)
    (moves : List Move) : Prop where
  apart : ∀ move ∈ moves, ∀ other ∈ moves, move.source ≠ other.destination
  once : (moves.map (·.vm)).Nodup
  departure : ∀ move ∈ moves, ∃ vm, vm.id = move.vm ∧ vm.migrating = false ∧
    before.Holds move.source vm
  calm : ∀ move ∈ moves, move.destination ∉ report.overloaded
  running : ∀ move ∈ course.drains, ∃ machine ∈ before.machines, machine.id = move.destination ∧
    ∃ utilization, (course.midway.occupancy.host machine).utilization = .ok utilization ∧
      (utilization == 0.0) = false
  unpicked : ∀ move ∈ course.drains,
    move.destination ∉ report.drained ∧ move.destination ∉ report.cancelled

/-- Every VM that was not migrating has moved away, and the others are still there. -/
structure Drained (before after : Cluster α) (moves : List Move) (machine : Machine α) : Prop where
  left : ((moves.filter (·.source = machine.id)).map (·.vm)).Perm
    (((before.occupancy.residents machine.id).filter (!·.migrating)).map (·.id))
  remaining : (after.occupancy.residents machine.id).Perm
    ((before.occupancy.residents machine.id).filter (·.migrating))

/-- The host has the VMs that it had when it was picked, each labelled with it unless a label was wrong
from the beginning, and no move names it. When the attempt ended, every other host was as before. -/
structure Spared (before after : Cluster α) (moves : List Move) (attempt : Attempt α State) :
    Prop where
  unnamed : ∀ move ∈ moves,
    move.source ≠ attempt.machine.id ∧ move.destination ≠ attempt.machine.id
  residents : (after.occupancy.residents attempt.machine.id).Perm
    (attempt.picked.occupancy.residents attempt.machine.id)
  labelled : ∀ vm ∈ attempt.picked.occupancy.residents attempt.machine.id, before.Labelled vm →
    attempt.ended.occupancy.home vm.key = some attempt.machine.id ∧
      after.occupancy.home vm.key = some attempt.machine.id
  restored : Restored before attempt.machine attempt.picked.occupancy attempt.ended.occupancy

/-- Every host that is picked is drained of all that can leave it, or left as it was, and the report
says which. -/
structure Decided (before after : Cluster α) {planner : Planner α State} {tick : Tick α}
    {start : Progress α State} (course : Course planner tick start) (report : Report α)
    (moves : List Move) : Prop where
  picked : (course.attempts.map (·.machine.id)).Perm (report.drained ++ report.cancelled)
  once : (report.drained ++ report.cancelled).Nodup
  drained : ∀ attempt ∈ course.attempts, attempt.machine.id ∈ report.drained →
    Drained before after moves attempt.machine
  spared : ∀ attempt ∈ course.attempts, attempt.machine.id ∈ report.cancelled →
    Spared before after moves attempt

namespace Course

variable {planner : Planner α State} {tick : Tick α} {start : Progress α State}
  {course : Course planner tick start}

theorem exists_attempt {move : Move} (moveMem : move ∈ course.drains) :
    ∃ attempt ∈ course.attempts, ∃ moves, attempt.outcome = some moves ∧ move ∈ moves := by
  obtain ⟨attempt, attemptMem, inside⟩ := List.mem_flatMap.mp moveMem
  unfold Attempt.moves at inside
  cases outcome : attempt.outcome with
  | none => simp [outcome] at inside
  | some moves => exact ⟨attempt, attemptMem, moves, outcome, by simpa [outcome] using inside⟩

theorem calm {attempt : Attempt α State} (attemptMem : attempt ∈ course.attempts) :
    attempt.machine.id ∉ course.overloaded.map (·.id) := fun overloaded =>
  course.rounds.fresh attempt attemptMem (mem_settled.mpr (.inr (mem_closed.mpr (.inr overloaded))))

theorem decided {decides : Attempt α State → Bool} {attempt : Attempt α State}
    (attemptMem : attempt ∈ course.attempts)
    (inside : attempt.machine.id ∈ (course.attempts.filter decides).map (·.machine.id)) :
    decides attempt = true := by
  obtain ⟨other, otherMem, same⟩ := List.mem_map.mp inside
  obtain ⟨otherMem, otherDecided⟩ := List.mem_filter.mp otherMem
  exact List.inj_on_of_nodup_map course.rounds.once otherMem attemptMem same ▸ otherDecided

namespace Sound

variable {cluster : Cluster α} {loose : List String} (sound : course.Sound cluster loose)
include sound

theorem running {move : Move} (moveMem : move ∈ course.drains) :
    ∃ machine ∈ cluster.machines, machine.id = move.destination ∧
      ∃ utilization, (course.midway.occupancy.host machine).utilization = .ok utilization ∧
        (utilization == 0.0) = false := by
  obtain ⟨attempt, attemptMem, moves, outcome, inside⟩ := exists_attempt moveMem
  obtain ⟨final, run, _⟩ := sound.rehearsed.replay
  obtain ⟨machine, member, here⟩ :=
    run.destination_mem move (List.mem_append_right course.placed moveMem)
  obtain ⟨offEq, known⟩ := course.off_eq
  obtain ⟨utilization, load⟩ := known machine (sound.machines ▸ member)
  refine ⟨machine, member, here, utilization, load, eq_false_of_ne_true fun idle => ?_⟩
  -- a host without load is closed to all drains
  have off : machine ∈ course.off := by
    rw [offEq, List.mem_filter]
    exact ⟨sound.machines ▸ member, by simpa only [Planner.isIdle, load] using idle⟩
  have closed : move.destination ∈ course.closed :=
    mem_closed.mpr (.inl (here ▸ List.mem_map_of_mem off))
  exact ((sound.tried attempt attemptMem).emptied moves outcome).destination move inside closed

theorem source_cases {move : Move} (moveMem : move ∈ course.findings.moves) :
    move.source ∈ course.overloaded.map (·.id) ∨
      ∃ attempt ∈ course.attempts, ∃ moves, attempt.outcome = some moves ∧ move ∈ moves ∧
        move.source = attempt.machine.id := by
  rcases List.mem_append.mp moveMem with before | later
  · exact .inl (sound.standing.rehearsed.source move before)
  · obtain ⟨attempt, attemptMem, moves, outcome, inside⟩ := exists_attempt later
    exact .inr ⟨attempt, attemptMem, moves, outcome, inside,
      ((sound.tried attempt attemptMem).emptied moves outcome).source move inside⟩

variable {attempt : Attempt α State} (attemptMem : attempt ∈ course.attempts)
include attemptMem

theorem named_iff {moves : List Move} (outcome : attempt.outcome = some moves) {vm : Vm α}
    (resident : vm ∈ cluster.occupancy.residents attempt.machine.id) :
    vm.id ∈ course.findings.moves.map (·.vm) ↔ vm.migrating = false := by
  have tried := sound.tried attempt attemptMem
  constructor
  · intro named
    obtain ⟨move, moveMem, same⟩ := List.mem_map.mp named
    exact (sound.rehearsed.departs sound.distinct moveMem tried.member resident same).2
  · intro still
    have movable : vm.id ∈ ((attempt.picked.occupancy.residents attempt.machine.id).filter
        (!·.migrating)).map (·.id) :=
      List.mem_map_of_mem (List.mem_filter.mpr ⟨tried.untouched ▸ resident, by simp [still]⟩)
    obtain ⟨move, inside, same⟩ :=
      List.mem_map.mp ((tried.emptied moves outcome).vms.symm.subset movable)
    have drained : move ∈ course.drains :=
      List.mem_flatMap.mpr ⟨attempt, attemptMem, by simpa [Attempt.moves, outcome] using inside⟩
    exact List.mem_map.mpr ⟨move, List.mem_append_right _ drained, same⟩

theorem unreached {move : Move} (moveMem : move ∈ course.findings.moves) :
    move.destination ≠ attempt.machine.id := fun here =>
  sound.rehearsed.destination move moveMem (here ▸ sound.picked attempt attemptMem)

theorem perm_reinstated_picked :
    ((reinstated cluster course.findings.moves course.last.occupancy).residents
      attempt.machine.id).Perm ((cluster.occupancy.residents attempt.machine.id).filter
        fun vm => vm.id ∉ course.findings.moves.map (·.vm)) := by
  have tried := sound.tried attempt attemptMem
  exact perm_reinstated_of_unreached sound.distinct tried.member sound.sheltered.tracked tried.calm
    sound.rehearsed.once fun move moveMem => sound.unreached attemptMem moveMem

theorem emptied {moves : List Move} (outcome : attempt.outcome = some moves) :
    Drained cluster { cluster with
        occupancy := reinstated cluster course.findings.moves course.last.occupancy }
      course.findings.moves attempt.machine := by
  have distinct := sound.distinct
  have rehearsed := sound.rehearsed
  have member := (sound.tried attempt attemptMem).member
  have named : ∀ vm ∈ cluster.occupancy.residents attempt.machine.id,
      (vm.id ∈ course.findings.moves.map (·.vm) ↔ vm.migrating = false) := fun vm resident =>
    sound.named_iff attemptMem outcome resident
  constructor
  · refine (List.perm_ext_iff_of_nodup (rehearsed.once.sublist (List.filter_sublist.map _))
      ((distinct.nodup_ids member).sublist (List.filter_sublist.map _))).mpr fun id => ?_
    simp only [List.mem_map, List.mem_filter, decide_eq_true_eq, Bool.not_eq_true']
    constructor
    · rintro ⟨move, ⟨moveMem, source⟩, rfl⟩
      obtain ⟨vm, vmId, still, _, _, _, resident⟩ := rehearsed.departure move moveMem
      exact ⟨vm, ⟨source ▸ resident, still⟩, vmId⟩
    · rintro ⟨vm, ⟨resident, still⟩, rfl⟩
      obtain ⟨move, moveMem, same⟩ := List.mem_map.mp ((named vm resident).mpr still)
      exact ⟨move, ⟨moveMem, (rehearsed.departs distinct moveMem member resident same).1⟩, same⟩
  · refine (sound.perm_reinstated_picked attemptMem).trans ?_
    refine .of_eq (List.filter_congr fun vm resident => ?_)
    simp [named vm resident]

theorem spared (outcome : attempt.outcome = none) :
    Spared cluster { cluster with
        occupancy := reinstated cluster course.findings.moves course.last.occupancy }
      course.findings.moves attempt := by
  have tried := sound.tried attempt attemptMem
  -- the host is neither overloaded nor drained, and only such hosts lose VMs
  have noSource : ∀ move ∈ course.findings.moves, move.source ≠ attempt.machine.id := by
    intro move moveMem here
    rcases sound.source_cases moveMem with overloaded | ⟨other, otherMem, moves, carried, _, source⟩
    · exact calm attemptMem (here ▸ overloaded)
    · obtain rfl := List.inj_on_of_nodup_map course.rounds.once otherMem attemptMem
        (source.symm.trans here)
      cases carried.symm.trans outcome
  have stays : ∀ vm ∈ cluster.occupancy.residents attempt.machine.id,
      vm.id ∉ course.findings.moves.map (·.vm) := by
    intro vm resident named
    obtain ⟨move, moveMem, same⟩ := List.mem_map.mp named
    exact noSource move moveMem
      (sound.rehearsed.departs sound.distinct moveMem tried.member resident same).1
  have residents := sound.perm_reinstated_picked attemptMem
  rw [List.filter_eq_self.mpr fun vm resident => decide_eq_true (stays vm resident)] at residents
  refine ⟨fun move moveMem => ⟨noSource move moveMem, sound.unreached attemptMem moveMem⟩,
    tried.untouched ▸ residents, fun vm resident right => ?_, tried.restored outcome⟩
  have start : vm ∈ cluster.occupancy.residents attempt.machine.id := tried.untouched ▸ resident
  have known := Cluster.mem_residents.mpr ⟨attempt.machine, tried.member, start⟩
  constructor
  · exact (tried.tracked.labelled known right attempt.machine.id).mpr
      ⟨attempt.machine, tried.member, rfl, (tried.restored outcome).source.symm.subset resident⟩
  · exact home_reinstated_of_due sound.distinct tried.member sound.sheltered.tracked
      sound.rehearsed.once known (.inl ⟨start, tried.calm vm start, stays vm start⟩) right

end Sound

end Course

def Sample.cramped : Engine Rat (World Rat Unit) :=
  engine ⟨{}, ()⟩ [host "a" 4 [] [vm "x" 0.1], host "b" 4 [] [vm "y" 0.5],
    host "c" 4 [] [{ vm "z" 0.05 with ramMb := 7500 }]]

namespace Engine

variable {Draws : Type} {policy : Policy α} {draw : Draws → α × Draws} {underload : α}
  {tick : Tick α} {engine after : Engine α (World α Draws)} {moves : List Move}

/-- The moves of a plan are of the right shape: those that find victims a place, and then those of
the drains. -/
theorem plan_shapes (distinct : engine.cluster.DistinctVms)
    (planned : engine.plan (policy.advisors draw) underload tick = (.ok moves, after)) :
    ∃ (course : Course (engine.planner (policy.advisors draw) underload) tick engine.begin)
      (report : Report α), after.report = some report ∧ moves = course.placed ++ course.drains ∧
        Shape engine.cluster course report moves := by
  obtain ⟨course, loose, sound, rfl, reported, _⟩ :=
    plan_course (policy.reliable draw) distinct planned
  have rehearsed := sound.rehearsed
  have tight := rehearsed.destination
  have marked : ∀ id ∈ course.last.drained ++ course.last.cancelled, id ∈ loose := by
    intro id inside
    obtain ⟨attempt, attemptMem, rfl⟩ := List.mem_map.mp (sound.marked.symm.subset inside)
    exact sound.picked attempt attemptMem
  refine ⟨course, _, reported, rfl, fun move moveMem other otherMem same => ?_, rehearsed.once,
    rehearsed.departure, fun move moveMem there => tight move moveMem (sound.overloaded there),
    fun move moveMem => sound.running moveMem,
    fun move moveMem => ⟨fun there => ?_, fun there => ?_⟩⟩
  · exact tight other otherMem (same ▸ rehearsed.source move moveMem)
  · exact tight move (List.mem_append_right _ moveMem) (marked _ (List.mem_append_left _ there))
  · exact tight move (List.mem_append_right _ moveMem) (marked _ (List.mem_append_right _ there))

theorem plan_shapes_spread :
    ∃ (course : Course (Sample.spread.planner Sample.advisors Sample.policy.underload) Sample.tick
        Sample.spread.begin) (report : Report Rat),
      (Sample.spread.plan Sample.advisors Sample.policy.underload Sample.tick).2.report =
          some report ∧
        [⟨"x", "a", "b"⟩] = course.placed ++ course.drains ∧
        Shape Sample.spread.cluster course report [⟨"x", "a", "b"⟩] :=
  plan_shapes (Cluster.settled_ofHosts _ (by decide +kernel)).distinct
    (Prod.ext (Attempt.ok_of_toOption (by decide +kernel)) rfl)

/-- Drains are all or nothing. -/
theorem plan_decides (distinct : engine.cluster.DistinctVms)
    (planned : engine.plan (policy.advisors draw) underload tick = (.ok moves, after)) :
    ∃ (course : Course (engine.planner (policy.advisors draw) underload) tick engine.begin)
      (report : Report α), after.report = some report ∧ moves = course.placed ++ course.drains ∧
        Decided engine.cluster after.cluster course report moves := by
  obtain ⟨course, loose, sound, rfl, reported, cluster⟩ :=
    plan_course (policy.reliable draw) distinct planned
  refine ⟨course, _, reported, rfl, sound.marked, sound.marked.nodup_iff.mp course.rounds.once,
    fun attempt attemptMem inside => ?_, fun attempt attemptMem inside => ?_⟩
  · change attempt.machine.id ∈ course.last.drained at inside
    have carried := Course.decided attemptMem (sound.drained ▸ inside)
    obtain ⟨moves, carried⟩ := Option.isSome_iff_exists.mp carried
    exact cluster ▸ sound.emptied attemptMem carried
  · change attempt.machine.id ∈ course.last.cancelled at inside
    have undone := Course.decided attemptMem (sound.cancelled ▸ inside)
    exact cluster ▸ sound.spared attemptMem (Option.isNone_iff_eq_none.mp undone)

theorem plan_decides_cramped :
    ∃ (course : Course (Sample.cramped.planner Sample.advisors Sample.policy.underload) Sample.tick
        Sample.cramped.begin) (report : Report Rat),
      (Sample.cramped.plan Sample.advisors Sample.policy.underload Sample.tick).2.report =
          some report ∧
        [⟨"x", "a", "b"⟩] = course.placed ++ course.drains ∧
        Decided Sample.cramped.cluster
          (Sample.cramped.plan Sample.advisors Sample.policy.underload Sample.tick).2.cluster
          course report [⟨"x", "a", "b"⟩] :=
  plan_decides (Cluster.settled_ofHosts _ (by decide +kernel)).distinct
    (Prod.ext (Attempt.ok_of_toOption (by decide +kernel)) rfl)

end Engine

end Fleet.Plan
