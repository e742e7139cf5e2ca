import Fleet.Proofs.Plan.Consolidation
import Fleet.Proofs.Plan.Ordering

/-! What becomes of every victim and of every host that is picked, as moves and misses tell it.

Each victim is asked for once, and either moves or is missed; each attempt to drain a host either
moves all that can leave it or misses one VM.
-/

set_option autoImplicit false

namespace Fleet.Plan

open Step

variable {α State : Type}

structure Handling (α : Type) where
  vm : Vm α
  origin : String
  destination : Option String

namespace Handling

variable (handling : Handling α)

def victim : Vm α × String := (handling.vm, handling.origin)

def moves : List Move :=
  match handling.destination with
  | some destination => [⟨handling.vm.id, handling.origin, destination⟩]
  | none => []

def missed : List Miss :=
  match handling.destination with
  | some _ => []
  | none => [⟨handling.vm.id, handling.origin, .placeVictims⟩]

theorem vm_of_mem_moves : ∀ move ∈ handling.moves, move.vm = handling.vm.id := by
  unfold moves
  split <;> simp

theorem vm_of_mem_missed : ∀ miss ∈ handling.missed, miss.vm = handling.vm.id := by
  unfold missed
  split <;> simp

theorem phase_of_mem_missed : ∀ miss ∈ handling.missed, miss.phase = .placeVictims := by
  unfold missed
  split <;> simp

end Handling

/-- What was missed while the host was to be drained. -/
def Attempt.missed (attempt : Attempt α State) : List Miss :=
  attempt.ended.misses.drop attempt.picked.misses.length

variable [Scalar α]

namespace Planner

variable {planner : Planner α State} {closed : List String} {now last : Progress α State}

/-- Victims are handled one after the other: for each, a destination is asked for among the hosts as
they are by then. -/
inductive Handles (planner : Planner α State) (closed : List String) :
    Progress α State → List (Handling α) → Progress α State → Prop
  | done (now : Progress α State) : Handles planner closed now [] now
  | missed {now asked last : Progress α State} {vm : Vm α} {origin : String}
      {rest : List (Handling α)} :
      (ask (planner.advisors.destination? vm (planner.machines.map now.occupancy.host)
        closed)).run.run now = (.ok none, asked) →
      Handles planner closed
        { asked with misses := asked.misses ++ [⟨vm.id, origin, .placeVictims⟩] } rest last →
      Handles planner closed now (⟨vm, origin, none⟩ :: rest) last
  | placed {now asked taken last : Progress α State} {vm : Vm α} {origin : String} {host : Host α}
      {rest : List (Handling α)} :
      (ask (planner.advisors.destination? vm (planner.machines.map now.occupancy.host)
        closed)).run.run now = (.ok (some host), asked) →
      (accept host.toMachine vm).run.run asked = (.ok (), taken) →
      Handles planner closed taken rest last →
      Handles planner closed now (⟨vm, origin, some host.id⟩ :: rest) last

theorem placeVictims_handles {pairs : List (Vm α × String)} {moves : List Move}
    (run : (planner.placeVictims closed pairs).run.run now = (.ok moves, last)) :
    ∃ handled, planner.Handles closed now handled last ∧ handled.map (·.victim) = pairs ∧
      moves = handled.flatMap (·.moves) := by
  induction pairs generalizing now moves with
  | nil =>
    cases run
    exact ⟨[], .done _, rfl, rfl⟩
  | cons pair rest ih =>
    obtain ⟨vm, origin⟩ := pair
    unfold placeVictims at run
    obtain ⟨hosts, _, look, run⟩ := of_run_bind run
    cases look
    obtain ⟨destination, asked, ask, run⟩ := of_run_bind run
    cases destination with
    | none =>
      obtain ⟨_, _, miss, run⟩ := of_run_bind run
      cases miss
      obtain ⟨handled, handles, listed, rfl⟩ := ih run
      exact ⟨⟨vm, origin, none⟩ :: handled, .missed ask handles, congrArg _ listed, rfl⟩
    | some host =>
      obtain ⟨_, taken, accept, run⟩ := of_run_bind run
      obtain ⟨more, _, later, run⟩ := of_run_bind run
      cases run
      obtain ⟨handled, handles, listed, rfl⟩ := ih later
      exact ⟨⟨vm, origin, some host.id⟩ :: handled, .placed ask accept handles, congrArg _ listed,
        rfl⟩

omit [Scalar α] in
theorem aloof_misses : Aloof (fun progress : Progress α State => progress.misses) :=
  ⟨⟨fun _ _ => rfl, fun _ _ => rfl⟩, fun _ _ => rfl⟩

theorem Handles.misses_eq {handled : List (Handling α)}
    (handles : planner.Handles closed now handled last) :
    last.misses = now.misses ++ handled.flatMap (·.missed) := by
  induction handles with
  | done now => simp
  | missed ask _ ih =>
    rw [ih, (aloof_misses.ask _).of_run ask]
    simp [Handling.missed]
  | placed ask accept _ ih =>
    rw [ih, (aloof_misses.accept _ _ _).of_run accept, (aloof_misses.ask _).of_run ask]
    simp [Handling.missed]

/-! Drains -/

variable {machine : Machine α} {progress : Progress α State}

theorem moveAll_misses (moved : List (Vm α × String)) (waiting : List (Vm α)) :
    (planner.moveAll machine closed moved waiting).Ends progress
      (fun outcome later => match outcome with
        | some _ => later.misses = progress.misses
        | none => ∃ vm ∈ waiting,
            later.misses = progress.misses ++ [⟨vm.id, machine.id, .drainOrCancel⟩])
      fun _ _ => True := by
  induction waiting generalizing moved progress with
  | nil => rfl
  | cons vm rest ih =>
    rw [moveAll, ends_bind, ends_lookAll, ends_bind, ends_ask]
    refine ⟨fun destination advisors _ => ?_, fun _ _ _ => trivial⟩
    cases destination with
    | none =>
      rw [ends_bind, ends_miss, ends_bind]
      apply Ends.of_run
      · intro _ undone undo
        exact ⟨vm, List.mem_cons_self, (keeps_undo aloof_misses.toStill _ _).of_run undo⟩
      · exact fun _ _ _ => trivial
    | some host =>
      rw [ends_bind, ends_release, ends_bind]
      apply ends_accept
      · intro _
        apply (ih _).imp
        rintro (_ | pairs) later missed
        · obtain ⟨other, otherMem, missed⟩ := missed
          exact ⟨other, List.mem_cons_of_mem vm otherMem, missed⟩
        · exact missed
      · exact fun _ _ => trivial

theorem drain_misses :
    (planner.drain machine closed).Ends progress
      (fun outcome later => match outcome with
        | some _ => later.misses = progress.misses
        | none => ∃ vm ∈ progress.occupancy.residents machine.id, vm.migrating = false ∧
            later.misses = progress.misses ++ [⟨vm.id, machine.id, .drainOrCancel⟩])
      fun _ _ => True := by
  rw [drain, ends_bind, ends_look, ends_bind]
  refine ends_byDemand (fun waiting order => ?_) fun _ => trivial
  apply (moveAll_misses [] waiting).bind
  rintro (_ | pairs) later missed
  · obtain ⟨vm, vmMem, missed⟩ := missed
    obtain ⟨resident, still⟩ := List.mem_filter.mp (order.subset vmMem)
    exact ⟨vm, resident, by simpa using still, missed⟩
  · exact missed

/-- The misses of an attempt: none if the host was drained, and else one of its VMs. -/
structure Missed (attempt : Attempt α State) : Prop where
  drained : ∀ moves, attempt.outcome = some moves → attempt.missed = []
  cancelled : attempt.outcome = none →
    ∃ vm ∈ attempt.picked.occupancy.residents attempt.machine.id, vm.migrating = false ∧
      attempt.missed = [⟨vm.id, attempt.machine.id, .drainOrCancel⟩]

variable {settled : List String} {later : Progress α State} {attempt : Attempt α State}
  {attempts : List (Attempt α State)}

theorem Made.misses (made : planner.Made settled closed now attempt later) :
    later.misses = now.misses ++ attempt.missed ∧ Missed attempt := by
  have picked : attempt.picked.misses = now.misses := by rw [made.picked]
  -- noting the outcome touches the hosts of the report, and none of the misses
  have noted : later.misses = attempt.ended.misses := by
    rw [made.noted]
    unfold Progress.note
    split <;> rfl
  have ended := drain_misses.of_ok made.drain
  cases outcome : attempt.outcome with
  | none =>
    simp only [outcome] at ended
    obtain ⟨vm, resident, still, ended⟩ := ended
    have missed : attempt.missed = [⟨vm.id, attempt.machine.id, .drainOrCancel⟩] := by
      simp [Attempt.missed, ended]
    exact ⟨by rw [noted, ended, picked, missed],
      fun _ carried => by simp [outcome] at carried, fun _ => ⟨vm, resident, still, missed⟩⟩
  | some moves =>
    simp only [outcome] at ended
    have missed : attempt.missed = [] := by simp [Attempt.missed, ended]
    exact ⟨by rw [noted, ended, picked, missed, List.append_nil], fun _ _ => missed,
      fun undone => by simp [outcome] at undone⟩

namespace Missed

variable (missed : Missed attempt)
include missed

omit [Scalar α] in
theorem of_mem {miss : Miss} (member : miss ∈ attempt.missed) :
    attempt.outcome = none ∧ miss.origin = attempt.machine.id ∧ miss.phase = .drainOrCancel := by
  cases outcome : attempt.outcome with
  | none =>
    obtain ⟨vm, _, _, one⟩ := missed.cancelled outcome
    rw [one, List.mem_singleton] at member
    exact ⟨rfl, by rw [member], by rw [member]⟩
  | some moves =>
    rw [missed.drained moves outcome] at member
    cases member

end Missed

theorem Rounds.misses (rounds : planner.Rounds settled closed now attempts last) :
    last.misses = now.misses ++ attempts.flatMap (·.missed) ∧
      ∀ attempt ∈ attempts, Missed attempt := by
  induction rounds with
  | full => simp
  | idle _ round =>
    rw [(of_run_round round).2]
    simp
  | next _ round _ ih =>
    obtain ⟨here, missed⟩ := (of_run_round round).misses
    constructor
    · rw [ih.1, here, List.flatMap_cons, List.append_assoc]
    · exact List.forall_mem_cons.mpr ⟨missed, ih.2⟩

end Planner

open Planner

namespace Course

variable {planner : Planner α State} {tick : Tick α} {start : Progress α State}

def waiting (course : Course planner tick start) : Progress α State :=
  { course.selected with
    phase := .placeVictims
    timings := { course.selected.timings with
      vmSelection := course.selected.timings.vmSelection + 1 } }

/-- How the victims of a course were handled: all of them, by their demands, and the moves say so. -/
structure Handled (course : Course planner tick start) (handled : List (Handling α)) : Prop where
  asked : ∃ last : Progress α State,
    planner.Handles (course.overloaded.map (·.id)) course.waiting handled last ∧
      course.midway = { last with
        timings := { last.timings with reallocation := last.timings.reallocation + 1 } }
  victims : (handled.map (·.victim)).Perm course.evicted
  ranked : (∀ pair ∈ course.evicted, ∀ load, pair.1.demand = .ok load → load ≤ load) →
    Ranked (·.1) course.evicted (handled.map (·.victim))
  placed : course.placed = handled.flatMap (·.moves)

theorem exists_handled [Scalar.Linear α] (course : Course planner tick start) :
    ∃ handled, course.Handled handled := by
  have run := course.places
  unfold placement at run
  obtain ⟨_, _, clock, run⟩ := of_run_bind run
  cases clock
  obtain ⟨_, _, enter, run⟩ := of_run_bind run
  cases enter
  obtain ⟨ordered, _, order, run⟩ := of_run_bind run
  obtain ⟨rfl, perm, ranked⟩ := byDemand_ranks order
  obtain ⟨placed, last, place, run⟩ := of_run_bind run
  obtain ⟨_, _, clock, run⟩ := of_run_bind run
  cases clock
  obtain ⟨answer, midway⟩ := Prod.mk.inj run
  obtain ⟨handled, handles, rfl, moves⟩ := placeVictims_handles place
  exact ⟨handled, ⟨last, handles, midway.symm⟩, perm, ranked,
    (Except.ok.inj answer).symm.trans moves⟩

theorem misses_midway (course : Course planner tick start) {handled : List (Handling α)}
    (victims : course.Handled handled) :
    course.midway.misses = start.misses ++ handled.flatMap (·.missed) := by
  obtain ⟨last, handles, midway⟩ := victims.asked
  have selection := keeps_selection aloof_misses (fun _ _ => rfl) planner tick
  rw [midway, handles.misses_eq, ← selection.of_run course.selects]
  rfl

/-- Every victim and every attempt stands beside what it made the cycle miss. -/
structure Missing (course : Course planner tick start) (handled : List (Handling α)) : Prop where
  victims : course.Handled handled
  attempts : ∀ attempt ∈ course.attempts, Missed attempt
  misses : course.last.misses =
    handled.flatMap (·.missed) ++ course.attempts.flatMap (·.missed)

theorem Handled.missing {course : Course planner tick start} {handled : List (Handling α)}
    (victims : course.Handled handled) (blank : start.misses = []) : course.Missing handled := by
  obtain ⟨misses, attempts⟩ := course.rounds.misses
  rw [course.misses_midway victims, blank, List.nil_append] at misses
  exact ⟨victims, attempts, misses⟩

namespace Missing

variable {course : Course planner tick start} {handled : List (Handling α)}
  (missing : course.Missing handled)
include missing

theorem cases {miss : Miss} (member : miss ∈ course.last.misses) :
    (miss.phase = .placeVictims ∧ ∃ handling ∈ handled, miss.vm = handling.vm.id) ∨
      (miss.phase = .drainOrCancel ∧
        ∃ attempt ∈ course.attempts, attempt.outcome = none ∧ miss.origin = attempt.machine.id) := by
  rw [missing.misses, List.mem_append] at member
  -- the two phases miss with phases of their own, so the halves of the list cannot be mistaken
  rcases member with ofVictim | ofDrain
  · obtain ⟨handling, handlingMem, inside⟩ := List.mem_flatMap.mp ofVictim
    exact .inl ⟨handling.phase_of_mem_missed miss inside, handling, handlingMem,
      handling.vm_of_mem_missed miss inside⟩
  · obtain ⟨attempt, attemptMem, inside⟩ := List.mem_flatMap.mp ofDrain
    obtain ⟨outcome, origin, phase⟩ := (missing.attempts attempt attemptMem).of_mem inside
    exact .inr ⟨phase, attempt, attemptMem, outcome, origin⟩

theorem misses_of_victim (once : (handled.map (·.vm.id)).Nodup) {handling : Handling α}
    (member : handling ∈ handled) :
    course.last.misses.filter (fun miss => miss.phase = .placeVictims ∧ miss.vm = handling.vm.id) =
      handling.missed := by
  have victims : (handled.flatMap (·.missed)).filter
      (fun miss => miss.phase = .placeVictims ∧ miss.vm = handling.vm.id) = handling.missed := by
    refine Keyed.filter_flatMap_eq once member fun other _ miss inside => ?_
    simp [other.phase_of_mem_missed miss inside, other.vm_of_mem_missed miss inside]
  have drains : (course.attempts.flatMap (·.missed)).filter
      (fun miss => miss.phase = .placeVictims ∧ miss.vm = handling.vm.id) = [] := by
    refine List.filter_eq_nil_iff.mpr fun miss inside => ?_
    obtain ⟨attempt, attemptMem, inside⟩ := List.mem_flatMap.mp inside
    simp [((missing.attempts attempt attemptMem).of_mem inside).2.2]
  rw [missing.misses, List.filter_append, victims, drains, List.append_nil]

theorem misses_of_drain {attempt : Attempt α State} (member : attempt ∈ course.attempts) :
    course.last.misses.filter
        (fun miss => miss.phase = .drainOrCancel ∧ miss.origin = attempt.machine.id) =
      attempt.missed := by
  have victims : (handled.flatMap (·.missed)).filter
      (fun miss => miss.phase = .drainOrCancel ∧ miss.origin = attempt.machine.id) = [] := by
    refine List.filter_eq_nil_iff.mpr fun miss inside => ?_
    obtain ⟨handling, _, inside⟩ := List.mem_flatMap.mp inside
    simp [handling.phase_of_mem_missed miss inside]
  have drains : (course.attempts.flatMap (·.missed)).filter
      (fun miss => miss.phase = .drainOrCancel ∧ miss.origin = attempt.machine.id) =
      attempt.missed := by
    refine Keyed.filter_flatMap_eq course.rounds.once member fun other otherMem miss inside => ?_
    obtain ⟨-, origin, phase⟩ := (missing.attempts other otherMem).of_mem inside
    simp [origin, phase]
  rw [missing.misses, List.filter_append, victims, drains, List.nil_append]

end Missing

namespace Sound

variable {course : Course planner tick start} {cluster : Cluster α} {loose : List String}
  {handled : List (Handling α)} (sound : course.Sound cluster loose)
  (left : Evicted cluster course.evicted course.selected.occupancy)
  (origins : ∀ pair ∈ course.evicted, pair.2 ∈ course.overloaded.map (·.id))
  (victims : course.Handled handled)

include left victims in
theorem once_handled : (handled.map (·.vm.id)).Nodup := by
  have handledIds := (victims.victims.map (·.1.id)).nodup_iff.mpr left.once
  simpa [Handling.victim, Function.comp_def] using handledIds

include sound left origins

theorem drains_of_victim {pair : Vm α × String} (pairMem : pair ∈ course.evicted) :
    course.drains.filter (·.vm = pair.1.id) = [] := by
  refine List.filter_eq_nil_iff.mpr fun move moveMem named => ?_
  obtain ⟨⟨machine, member, here, resident⟩, _⟩ := left.origin pair pairMem
  obtain ⟨attempt, attemptMem, moves, outcome, inside⟩ := exists_attempt moveMem
  have source := ((sound.tried attempt attemptMem).emptied moves outcome).source move inside
  have departs := sound.rehearsed.departs sound.distinct (List.mem_append_right _ moveMem) member
    (here ▸ resident) (of_decide_eq_true named)
  -- it would have left the overloaded host where it was evicted, and such hosts are never picked
  have origin : attempt.machine.id = pair.2 := source.symm.trans (departs.1.trans here)
  exact calm attemptMem (origin ▸ origins pair pairMem)

include victims in
theorem moves_of_victim {handling : Handling α} (member : handling ∈ handled) :
    course.findings.moves.filter (·.vm = handling.vm.id) = handling.moves := by
  have pairMem : handling.victim ∈ course.evicted :=
    victims.victims.subset (List.mem_map_of_mem member)
  have drains : course.drains.filter (·.vm = handling.vm.id) = [] :=
    sound.drains_of_victim left origins pairMem
  have once := once_handled left victims
  calc course.findings.moves.filter (·.vm = handling.vm.id)
      = (handled.flatMap (·.moves)).filter (·.vm = handling.vm.id) := by
        simp only [findings, List.filter_append]
        rw [drains, List.append_nil, victims.placed]
    _ = handling.moves := by
        refine Keyed.filter_flatMap_eq once member fun other _ move inside => ?_
        simp [other.vm_of_mem_moves move inside]

end Sound

end Course

def Report.unplaced (report : Report α) (vm : String) : List Miss :=
  report.misses.filter fun miss => miss.phase = .placeVictims ∧ miss.vm = vm

/-- The misses of the phase in which hosts are drained that name the host. -/
def Report.undrained (report : Report α) (host : String) : List Miss :=
  report.misses.filter fun miss => miss.phase = .drainOrCancel ∧ miss.origin = host

/-- Every victim moves once or is missed once, by the host that it left; every cancelled drain is a
miss of one VM that is on the host before and after; and nothing else is missed. -/
structure Accounted (before after : Cluster α) {planner : Planner α State} {tick : Tick α}
    {start : Progress α State} (course : Course planner tick start) (handled : List (Handling α))
    (report : Report α) (moves : List Move) : Prop where
  actions : report.moves = moves ∧ moves = course.placed ++ course.drains
  evicted : report.evicted = course.evicted.map (·.1.id) ∧ report.evicted.Nodup
  origin : ∀ pair ∈ course.evicted, before.Holds pair.2 pair.1 ∧
    pair.1 ∉ course.selected.occupancy.residents pair.2
  victims : course.Handled handled
  outcome : ∀ pair ∈ course.evicted,
    (∃ destination, moves.filter (·.vm = pair.1.id) = [⟨pair.1.id, pair.2, destination⟩] ∧
      report.unplaced pair.1.id = []) ∨
    (moves.filter (·.vm = pair.1.id) = [] ∧
      report.unplaced pair.1.id = [⟨pair.1.id, pair.2, .placeVictims⟩])
  cancelled : ∀ host ∈ report.cancelled, ∃ vm, before.Holds host vm ∧ after.Holds host vm ∧
    report.undrained host = [⟨vm.id, host, .drainOrCancel⟩]
  complete : ∀ miss ∈ report.misses, (miss.phase = .placeVictims ∧ miss.vm ∈ report.evicted) ∨
    (miss.phase = .drainOrCancel ∧ miss.origin ∈ report.cancelled)

/-- A victim for which no host has the memory, a host that can be drained, and one that cannot. -/
def Sample.mixed : Engine Rat (World Rat Unit) :=
  engine ⟨{}, ()⟩ [host "a" 4 [] [vm "x" 0.1], host "b" 4 [] [vm "y" 0.5],
    host "c" 4 [] [{ vm "z" 0.05 with ramMb := 7500 }],
    host "d" 2 [] [{ vm "w" 0.95 with ramMb := 7900 }]]

namespace Engine

variable {Draws : Type} {policy : Policy α} {draw : Draws → α × Draws} {underload : α}
  {tick : Tick α} {engine after : Engine α (World α Draws)} {moves : List Move}

/-- Moves and misses account for every decision. -/
theorem plan_accounts [Scalar.Linear α] (distinct : engine.cluster.DistinctVms)
    (planned : engine.plan (policy.advisors draw) underload tick = (.ok moves, after)) :
    ∃ (course : Course (engine.planner (policy.advisors draw) underload) tick engine.begin)
      (handled : List (Handling α)) (report : Report α), after.report = some report ∧
        Accounted engine.cluster after.cluster course handled report moves := by
  have reliable := policy.reliable draw
  obtain ⟨course, loose, sound, rfl, reported, cluster⟩ := plan_course reliable distinct planned
  obtain ⟨handled, victims⟩ := course.exists_handled
  obtain ⟨left, origins, _⟩ :=
    (selection_evicts reliable distinct rfl tick rfl).of_ok course.selects
  have missing := victims.missing rfl
  have once := Course.Sound.once_handled left victims
  refine ⟨course, handled, _, reported, ⟨rfl, rfl⟩, ⟨rfl, left.once⟩, ?_,
    victims, ?_, ?_, ?_⟩
  · intro pair pairMem
    have held := (left.origin pair pairMem).1
    have ⟨machine, member, here, _⟩ := held
    exact ⟨held, here ▸ left.adrift.nowhere _ (List.mem_map_of_mem pairMem) machine member⟩
  · intro pair pairMem
    obtain ⟨handling, member, rfl⟩ := List.mem_map.mp (victims.victims.symm.subset pairMem)
    have moved := sound.moves_of_victim left origins victims member
    have missed := missing.misses_of_victim once member
    obtain ⟨vm, origin, _ | destination⟩ := handling
    · exact .inr ⟨moved, missed⟩
    · exact .inl ⟨destination, moved, missed⟩
  · intro host inside
    change host ∈ course.last.cancelled at inside
    rw [sound.cancelled] at inside
    obtain ⟨attempt, filtered, rfl⟩ := List.mem_map.mp inside
    obtain ⟨attemptMem, undone⟩ := List.mem_filter.mp filtered
    have outcome := Option.isNone_iff_eq_none.mp undone
    have tried := sound.tried attempt attemptMem
    have spared := sound.spared attemptMem outcome
    obtain ⟨vm, resident, _, missed⟩ := (missing.attempts attempt attemptMem).cancelled outcome
    refine ⟨vm, ⟨_, tried.member, rfl, tried.untouched ▸ resident⟩, ?_, ?_⟩
    · exact cluster ▸ ⟨_, tried.member, rfl, spared.residents.symm.subset resident⟩
    · exact (missing.misses_of_drain attemptMem).trans missed
  · intro miss inside
    rcases missing.cases inside with ⟨phase, handling, member, named⟩ | ⟨phase, attempt, rest⟩
    · have pairMem : handling.victim ∈ course.evicted :=
        victims.victims.subset (List.mem_map_of_mem member)
      exact .inl ⟨phase, named ▸ List.mem_map_of_mem pairMem⟩
    · obtain ⟨attemptMem, outcome, origin⟩ := rest
      refine .inr ⟨phase, origin ▸ ?_⟩
      change attempt.machine.id ∈ course.last.cancelled
      rw [sound.cancelled]
      exact List.mem_map_of_mem (List.mem_filter.mpr ⟨attemptMem, by simp [outcome]⟩)

theorem plan_accounts_mixed :
    ∃ (course : Course (Sample.mixed.planner Sample.advisors Sample.policy.underload) Sample.tick
        Sample.mixed.begin) (handled : List (Handling Rat)) (report : Report Rat),
      (Sample.mixed.plan Sample.advisors Sample.policy.underload Sample.tick).2.report =
          some report ∧
        Accounted Sample.mixed.cluster
          (Sample.mixed.plan Sample.advisors Sample.policy.underload Sample.tick).2.cluster
          course handled report [⟨"x", "a", "b"⟩] :=
  plan_accounts (Cluster.settled_ofHosts _ (by decide +kernel)).distinct
    (Prod.ext (Attempt.ok_of_toOption (by decide +kernel)) rfl)

end Engine

end Fleet.Plan
