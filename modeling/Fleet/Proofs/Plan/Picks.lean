import Fleet.Proofs.Linear
import Fleet.Proofs.Plan.Consolidation
import Mathlib.Data.List.Perm.Subperm

/-! Which hosts a consolidation picks, and in which order.

A host that is not settled is as it was at the beginning, so every pick can be judged by the loads at
the beginning.
-/

set_option autoImplicit false

namespace Fleet.Plan

open Step

variable {α State : Type} [Scalar α]

/-- The load of the host is positive and below the limit, no VM is migrating into it, and some VM of
it is not migrating. -/
structure Underloaded (limit : α) (host : Host α) (load : α) : Prop where
  known : host.utilization = .ok load
  positive : 0.0 < load
  below : load < limit
  calm : ∀ vm ∈ host.vms, vm.id ∉ host.arriving
  movable : ∃ vm ∈ host.vms, vm.migrating = false

namespace Underloaded

variable {limit otherLimit load other : α} {host : Host α}

theorem eq (underloaded : Underloaded limit host other) (known : host.utilization = .ok load) :
    other = load :=
  Except.ok.inj (underloaded.known.symm.trans known)

theorem limit_by (underloaded : Underloaded limit host load) (below : load < otherLimit) :
    Underloaded otherLimit host load where
  known := underloaded.known
  positive := underloaded.positive
  below := below
  calm := underloaded.calm
  movable := underloaded.movable

end Underloaded

theorem underloaded_iff {limit load other : α} {host : Host α}
    (known : host.utilization = .ok load) : Underloaded limit host other ↔
      other = load ∧ (0.0 < load ∧ load < limit) ∧ (!Planner.isPinned host) = true := by
  rw [Bool.not_eq_true', Planner.isPinned_eq_false]
  constructor
  · intro underloaded
    obtain rfl := underloaded.eq known
    exact ⟨rfl, ⟨underloaded.positive, underloaded.below⟩, underloaded.calm, underloaded.movable⟩
  · rintro ⟨rfl, ⟨positive, below⟩, calm, movable⟩
    exact ⟨known, positive, below, calm, movable⟩

namespace Planner

/-- Of the hosts that are not settled and could be picked, none has less load than this one. -/
structure Lightest (limit : α) (settled : List String) (machines : List (Machine α))
    (now : Occupancy α) (machine : Machine α) (load : α) : Prop where
  member : machine ∈ machines
  fresh : machine.id ∉ settled
  underloaded : Underloaded limit (now.host machine) load
  least : ∀ other ∈ machines, other.id ∉ settled → ∀ otherLoad,
    Underloaded limit (now.host other) otherLoad → load ≤ otherLoad

/-- No host that is not settled could be picked. -/
def NoneLeft (limit : α) (settled : List String) (machines : List (Machine α))
    (now : Occupancy α) : Prop :=
  ∀ machine ∈ machines, machine.id ∉ settled → ∀ load, ¬Underloaded limit (now.host machine) load

section

variable {limit load : α} {settled : List String} {machines : List (Machine α)}
  {now later : Occupancy α} {machine first : Machine α}

theorem NoneLeft.congr (none : NoneLeft limit settled machines now)
    (same : ∀ machine ∈ machines, machine.id ∉ settled → now.host machine = later.host machine) :
    NoneLeft limit settled machines later := fun machine member fresh =>
  same machine member fresh ▸ none machine member fresh

theorem Lightest.congr (lightest : Lightest limit settled machines now machine load)
    (same : ∀ machine ∈ machines, machine.id ∉ settled → now.host machine = later.host machine) :
    Lightest limit settled machines later machine load where
  member := lightest.member
  fresh := lightest.fresh
  underloaded := same machine lightest.member lightest.fresh ▸ lightest.underloaded
  least other member fresh := same other member fresh ▸ lightest.least other member fresh

theorem NoneLeft.cons (none : NoneLeft limit settled machines now)
    (unfit : first.id ∉ settled → ∀ load, ¬Underloaded limit (now.host first) load) :
    NoneLeft limit settled (first :: machines) now :=
  List.forall_mem_cons.mpr ⟨unfit, none⟩

theorem Lightest.cons (lightest : Lightest limit settled machines now machine load)
    (heavier : first.id ∉ settled → ∀ otherLoad,
      Underloaded limit (now.host first) otherLoad → load ≤ otherLoad) :
    Lightest limit settled (first :: machines) now machine load where
  member := List.mem_cons_of_mem first lightest.member
  fresh := lightest.fresh
  underloaded := lightest.underloaded
  least := List.forall_mem_cons.mpr ⟨heavier, lightest.least⟩

end

section

variable [Scalar.Linear α]

section

variable {limit load : α} {settled : List String} {machines : List (Machine α)} {now : Occupancy α}
  {first : Machine α} (fresh : first.id ∉ settled)
  (underloaded : Underloaded limit (now.host first) load)
include fresh underloaded

theorem Lightest.of_noneLeft (none : NoneLeft load settled machines now) :
    Lightest limit settled (first :: machines) now first load where
  member := List.mem_cons_self
  fresh := fresh
  underloaded := underloaded
  least := by
    have self := (Scalar.Linear.self_of_le (Scalar.le_of_lt underloaded.below)).1
    refine List.forall_mem_cons.mpr ⟨fun _ _ same => same.eq underloaded.known ▸ self, ?_⟩
    intro other member otherFresh otherLoad otherUnder
    have otherSelf := (Scalar.Linear.self_of_le (Scalar.le_of_lt otherUnder.below)).1
    exact Scalar.le_of_not_lt self otherSelf fun less =>
      none other member otherFresh otherLoad (otherUnder.limit_by less)

omit fresh in
theorem Lightest.of_lighter {machine : Machine α} {less : α}
    (lightest : Lightest load settled machines now machine less) :
    Lightest limit settled (first :: machines) now machine less where
  member := List.mem_cons_of_mem first lightest.member
  fresh := lightest.fresh
  underloaded := lightest.underloaded.limit_by
    (Scalar.lt_of_le_of_lt (Scalar.le_of_lt lightest.underloaded.below) underloaded.below)
  least := by
    have below := Scalar.le_of_lt lightest.underloaded.below
    refine List.forall_mem_cons.mpr ⟨fun _ _ same => same.eq underloaded.known ▸ below, ?_⟩
    intro other member otherFresh otherLoad otherUnder
    by_cases lighter : otherLoad < load
    · exact lightest.least other member otherFresh otherLoad (otherUnder.limit_by lighter)
    · have self := (Scalar.Linear.self_of_le below).2
      have otherSelf := (Scalar.Linear.self_of_le (Scalar.le_of_lt otherUnder.below)).1
      exact Scalar.Linear.le_trans below (Scalar.le_of_not_lt self otherSelf lighter)

end

theorem leastLoaded?_lightest {progress : Progress α State} {settled : List String} {limit : α}
    {best : Option (Machine α)} {machines : List (Machine α)} :
    (leastLoaded? settled limit best machines).Ends progress
      (fun found _ => (found = best ∧ NoneLeft limit settled machines progress.occupancy) ∨
        ∃ machine load, found = some machine ∧
          Lightest limit settled machines progress.occupancy machine load)
      (fun _ _ => True) := by
  induction machines generalizing limit best with
  | nil => exact .inl ⟨rfl, fun _ absent => absurd absent List.not_mem_nil⟩
  | cons first rest ih =>
    unfold leastLoaded?
    split
    case isTrue skipped =>
      refine ih.imp fun found _ ends => ends.imp (And.imp_right fun none => ?_) ?_
      · exact none.cons fun fresh => absurd skipped fresh
      · rintro ⟨machine, load, same, lightest⟩
        exact ⟨machine, load, same, lightest.cons fun fresh => absurd skipped fresh⟩
    case isFalse fresh =>
      rw [ends_bind, ends_look, ends_bind, ends_attempt]
      refine ⟨fun load known => ?_, fun _ _ => trivial⟩
      split
      case isTrue better =>
        have underloaded := (underloaded_iff known).mpr ⟨rfl, better⟩
        refine ih.imp fun found _ ends => .inr ?_
        rcases ends with ⟨rfl, none⟩ | ⟨machine, less, same, lightest⟩
        · exact ⟨first, load, rfl, .of_noneLeft fresh underloaded none⟩
        · exact ⟨machine, less, same, .of_lighter underloaded lightest⟩
      case isFalse notBetter =>
        have unfit : ∀ other, ¬Underloaded limit (progress.occupancy.host first) other :=
          fun _ underloaded => notBetter ((underloaded_iff known).mp underloaded).2
        refine ih.imp fun found _ ends => ends.imp (And.imp_right fun none => ?_) ?_
        · exact none.cons fun _ => unfit
        · rintro ⟨machine, less, same, lightest⟩
          exact ⟨machine, less, same, lightest.cons fun _ other under => absurd under (unfit other)⟩

end

/-! The attempts, told from the beginning of the cycle -/

/-- Each attempt was made at the lightest host that was left, and none is left in the end. -/
inductive Trail (cluster : Cluster α) (limit : α) : List String → List (Attempt α State) → Prop
  | done {settled : List String} :
      NoneLeft limit settled cluster.machines cluster.occupancy → Trail cluster limit settled []
  | next {settled : List String} {attempt : Attempt α State} {attempts : List (Attempt α State)}
      {load : α} :
      Lightest limit settled cluster.machines cluster.occupancy attempt.machine load →
      Trail cluster limit (attempt.settle settled) attempts →
      Trail cluster limit settled (attempt :: attempts)

theorem nodup_addAll {known : List String} (ids : List String) (once : known.Nodup) :
    (addAll ids known).Nodup := by
  unfold addAll
  induction ids generalizing known with
  | nil => exact once
  | cons id rest ih => exact ih once.insert

section

variable {planner : Planner α State} {cluster : Cluster α}
  {overloaded loose closed settled : List String} {selected : Occupancy α} {moves : List Move}
  {now last : Progress α State} {attempts : List (Attempt α State)}

theorem Rounds.trail [Scalar.Linear α] (reliable : planner.advisors.Reliable)
    (distinct : cluster.DistinctVms) (same : planner.machines = cluster.machines)
    (rounds : planner.Rounds settled closed now attempts last)
    (standing : Standing cluster overloaded loose closed settled selected moves now.occupancy)
    (once : settled.Nodup) (inside : settled ⊆ cluster.machines.map (·.id)) :
    Trail cluster planner.underload settled attempts := by
  induction rounds generalizing loose moves with
  | @full settled _ _ full =>
    -- as many hosts are settled as there are, so all of them are
    have all : settled.Perm (cluster.machines.map (·.id)) :=
      (List.subperm_of_subset once inside).perm_of_length_le (by simpa [← same] using full)
    exact .done fun machine member fresh =>
      absurd (all.symm.subset (List.mem_map_of_mem member)) fresh
  | idle _ round =>
    obtain ⟨looked, _⟩ := of_run_round round
    rcases leastLoaded?_lightest.of_ok looked with ⟨_, none⟩ | ⟨_, _, found, _⟩
    · rw [same] at none
      exact .done (none.congr fun machine member fresh => standing.host_eq fresh member)
    · cases found
  | next _ round _ ih =>
    obtain ⟨_, tried, later⟩ := (round_ships reliable distinct same standing).of_ok round
    rcases leastLoaded?_lightest.of_ok (of_run_round round).pick with ⟨found, _⟩ | ⟨machine, load,
      found, lightest⟩
    · cases found
    · obtain rfl := Option.some.inj found
      rw [same] at lightest
      refine .next (lightest.congr fun machine member fresh => standing.host_eq fresh member)
        (ih later (nodup_addAll _ once.insert) fun id settled => ?_)
      obtain ⟨final, run, _⟩ := later.rehearsed.replay
      rcases mem_addAll.mp settled with received | before
      · obtain ⟨move, moveMem, rfl⟩ := List.mem_map.mp received
        obtain ⟨destination, member, here⟩ :=
          run.destination_mem move (List.mem_append_right _ moveMem)
        exact here ▸ List.mem_map_of_mem member
      · rcases List.mem_insert_iff.mp before with rfl | before
        · exact List.mem_map_of_mem tried.member
        · exact inside before

end

namespace Trail

variable {cluster : Cluster α} {limit : α} {settled : List String}
  {attempts : List (Attempt α State)}

theorem underloaded (trail : Trail cluster limit settled attempts) :
    ∀ attempt ∈ attempts, attempt.machine ∈ cluster.machines ∧ attempt.machine.id ∉ settled ∧
      ∃ load, Underloaded limit (cluster.occupancy.host attempt.machine) load := by
  induction trail with
  | done => exact fun _ absent => absurd absent List.not_mem_nil
  | next lightest _ ih =>
    refine List.forall_mem_cons.mpr
      ⟨⟨lightest.member, lightest.fresh, _, lightest.underloaded⟩, fun attempt attemptMem => ?_⟩
    obtain ⟨member, fresh, underloaded⟩ := ih attempt attemptMem
    exact ⟨member, fun before =>
      fresh (mem_addAll.mpr (.inr (List.mem_insert_of_mem before))), underloaded⟩

theorem complete (trail : Trail cluster limit settled attempts) {machine : Machine α}
    (member : machine ∈ cluster.machines) (fresh : machine.id ∉ settled) {load : α}
    (underloaded : Underloaded limit (cluster.occupancy.host machine) load)
    (unreached : ∀ attempt ∈ attempts, ∀ move ∈ attempt.moves, move.destination ≠ machine.id) :
    ∃ attempt ∈ attempts, attempt.machine.id = machine.id := by
  induction trail with
  | done none => exact absurd underloaded (none machine member fresh load)
  | @next settled attempt _ _ _ _ ih =>
    obtain ⟨here, later⟩ := List.forall_mem_cons.mp unreached
    by_cases picked : attempt.machine.id = machine.id
    · exact ⟨attempt, List.mem_cons_self, picked⟩
    · have unsettled : machine.id ∉ attempt.settle settled := by
        intro inside
        rcases mem_addAll.mp inside with received | before
        · obtain ⟨move, moveMem, same⟩ := List.mem_map.mp received
          exact here move moveMem same
        · rcases List.mem_insert_iff.mp before with same | before
          · exact picked same.symm
          · exact fresh before
      obtain ⟨other, otherMem, same⟩ := ih unsettled later
      exact ⟨other, List.mem_cons_of_mem _ otherMem, same⟩

theorem ordered (trail : Trail cluster limit settled attempts) :
    attempts.Pairwise fun first second => ∃ load other,
      (cluster.occupancy.host first.machine).utilization = .ok load ∧
      (cluster.occupancy.host second.machine).utilization = .ok other ∧ load ≤ other := by
  induction trail with
  | done => exact .nil
  | @next settled attempt attempts load lightest trail ih =>
    refine .cons (fun later laterMem => ?_) ih
    obtain ⟨member, fresh, other, underloaded⟩ := trail.underloaded later laterMem
    have before : later.machine.id ∉ settled := fun before =>
      fresh (mem_addAll.mpr (.inr (List.mem_insert_of_mem before)))
    exact ⟨load, other, lightest.underloaded.known, underloaded.known,
      lightest.least later.machine member before other underloaded⟩

end Trail

end Planner

namespace Course.Sound

open Planner

variable {planner : Planner α State} {tick : Tick α} {start : Progress α State}
  {course : Course planner tick start} {cluster : Cluster α} {loose : List String}
  (sound : course.Sound cluster loose) [Scalar.Linear α]
include sound

theorem trail (reliable : planner.advisors.Reliable) :
    Trail cluster planner.underload course.settled course.attempts := by
  refine course.rounds.trail reliable sound.distinct sound.machines sound.standing
    (nodup_addAll _ (nodup_addAll _ (nodup_addAll _ .nil))) fun id settled => ?_
  rcases mem_settled.mp settled with received | closed
  · obtain ⟨move, moveMem, rfl⟩ := List.mem_map.mp received
    obtain ⟨final, run, _⟩ := sound.standing.rehearsed.replay
    obtain ⟨machine, member, here⟩ := run.destination_mem move moveMem
    exact here ▸ List.mem_map_of_mem member
  · rcases mem_closed.mp closed with off | overloaded
    · rw [course.off_eq.1, sound.machines] at off
      exact List.map_subset _ (List.filter_subset_self _) off
    · exact List.map_subset _ sound.listed overloaded

theorem unsettled {machine : Machine α} (member : machine ∈ cluster.machines) {load : α}
    (underloaded : Underloaded planner.underload (cluster.occupancy.host machine) load)
    (calm : machine.id ∉ course.overloaded.map (·.id))
    (unreached : ∀ move ∈ course.placed, move.destination ≠ machine.id) :
    machine.id ∉ course.settled := by
  have fresh : machine.id ∉ course.placed.map (·.destination) := fun received => by
    obtain ⟨move, moveMem, here⟩ := List.mem_map.mp received
    exact unreached move moveMem here
  intro settled
  rcases mem_settled.mp settled with received | closed
  · exact fresh received
  · rcases mem_closed.mp closed with off | overloaded
    -- a host that was switched off has no load
    · obtain ⟨other, otherMem, here⟩ := List.mem_map.mp off
      rw [course.off_eq.1, List.mem_filter, sound.machines] at otherMem
      obtain rfl := Cluster.machine_eq_of_id otherMem.1 member here
      have host : course.midway.occupancy.host other = cluster.occupancy.host other := by
        rw [Occupancy.host, sound.standing.rehearsed.residents_eq member calm fresh, Occupancy.host]
      have idle : (load == 0.0) = true := by
        simpa only [isIdle, host, underloaded.known] using otherMem.2
      exact (Scalar.Linear.lt_iff.mp underloaded.positive).2 (Scalar.Linear.beq_iff.mp idle).1
    · exact calm overloaded

end Course.Sound

/-- The loads of the hosts with these ids are known, and the first one is not greater. -/
def LoadLe (cluster : Cluster α) (first second : String) : Prop :=
  ∃ host ∈ cluster.hosts, ∃ other ∈ cluster.hosts, host.id = first ∧ other.id = second ∧
    ∃ load otherLoad, host.utilization = .ok load ∧ other.utilization = .ok otherLoad ∧
      load ≤ otherLoad

/-- Drains are attempted at exactly the hosts that were underloaded at the beginning, apart from those
that were overloaded as well or received a VM, and at the least loaded ones first. -/
structure Picked (before : Cluster α) (limit : α) (report : Report α) (moves : List Move) :
    Prop where
  exactly : ∀ id, id ∈ report.drained ∨ id ∈ report.cancelled ↔
    ∃ machine ∈ before.machines, machine.id = id ∧
      (∃ load, Underloaded limit (before.occupancy.host machine) load) ∧
      id ∉ report.overloaded ∧ ∀ move ∈ moves, move.destination ≠ id
  drained : report.drained.Pairwise (LoadLe before)
  cancelled : report.cancelled.Pairwise (LoadLe before)

namespace Engine

variable {Draws : Type} {policy : Policy α} {draw : Draws → α × Draws} {underload : α}
  {tick : Tick α} {engine after : Engine α (World α Draws)} {moves : List Move}

/-- The reported drains are complete and in order. -/
theorem plan_picks [Scalar.Linear α] (distinct : engine.cluster.DistinctVms)
    (planned : engine.plan (policy.advisors draw) underload tick = (.ok moves, after)) :
    ∃ report : Report α, after.report = some report ∧
      Picked engine.cluster underload report moves := by
  have reliable := policy.reliable draw
  obtain ⟨course, loose, sound, rfl, reported, _⟩ := plan_course reliable distinct planned
  have trail := sound.trail reliable
  have picked : ∀ id, id ∈ course.last.drained ∨ id ∈ course.last.cancelled ↔
      ∃ attempt ∈ course.attempts, attempt.machine.id = id := fun id =>
    List.mem_append.symm.trans (sound.marked.symm.mem_iff.trans List.mem_map)
  have ordered : course.attempts.Pairwise fun first second =>
      LoadLe engine.cluster first.machine.id second.machine.id := by
    refine trail.ordered.imp_of_mem fun {first second} firstMem secondMem loads => ?_
    exact ⟨_, List.mem_map_of_mem (sound.tried first firstMem).member, _,
      List.mem_map_of_mem (sound.tried second secondMem).member, rfl, rfl, loads⟩
  refine ⟨_, reported, fun id => (picked id).trans ?_, (sound.sorted ordered).1,
    (sound.sorted ordered).2⟩
  constructor
  · rintro ⟨attempt, attemptMem, rfl⟩
    obtain ⟨member, _, underloaded⟩ := trail.underloaded attempt attemptMem
    exact ⟨attempt.machine, member, rfl, underloaded, Course.calm attemptMem,
      fun move moveMem => sound.unreached attemptMem moveMem⟩
  · rintro ⟨machine, member, rfl, ⟨load, underloaded⟩, calm, unreached⟩
    refine trail.complete member (sound.unsettled member underloaded calm
      fun move moveMem => unreached move (List.mem_append_left _ moveMem)) underloaded ?_
    exact fun attempt attemptMem move moveMem => unreached move
      (List.mem_append_right _ (List.mem_flatMap.mpr ⟨attempt, attemptMem, moveMem⟩))

theorem plan_picks_cramped :
    ∃ report : Report Rat,
      (Sample.cramped.plan Sample.advisors Sample.policy.underload Sample.tick).2.report =
          some report ∧
        Picked Sample.cramped.cluster Sample.policy.underload report [⟨"x", "a", "b"⟩] :=
  plan_picks (Cluster.settled_ofHosts _ (by decide +kernel)).distinct
    (Prod.ext (Attempt.ok_of_toOption (by decide +kernel)) rfl)

end Engine

end Fleet.Plan
