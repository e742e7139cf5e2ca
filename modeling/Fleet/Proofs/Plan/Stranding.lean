import Fleet.Proofs.Plan.Contract

/-! What is left behind where the membership cannot be reinstated.

Reinstating stops at the first VM that its host cannot take, and nothing is done about that. The
hosts before this one have their share, it has the VMs that it took, and the hosts behind it hold what
they held. So a VM can be on no host then, or on two.
-/

set_option autoImplicit false

namespace Fleet.Plan

open Step

variable {α State : Type} {cluster : Cluster α} {machines rest : List (Machine α)}
  {kept wanted : String → List (Vm α)} {live now : Occupancy α}

/-- Where reinstating stopped: at the machine that refused a VM, after those that were given their
share. Before this VM the machine took others, and more were waiting behind it. -/
structure Halt (α : Type) where
  given : List (Machine α)
  stuck : Machine α
  taken : List (Vm α)
  refused : Vm α
  waiting : List (Vm α)
  unreached : List (Machine α)

variable [Scalar α]

def Refuses (now : Occupancy α) (machine : Machine α) (vm : Vm α) : Prop :=
  (now.host machine).fits vm = false ∨ (now.host machine).holds vm.id = true

structure Halt.Stops (halt : Halt α) (machines : List (Machine α))
    (kept wanted : String → List (Vm α)) (live now : Occupancy α) : Prop where
  machines : machines = halt.given ++ halt.stuck :: halt.unreached
  share : wanted halt.stuck.id = halt.taken ++ halt.refused :: halt.waiting
  occupancy : now = halt.taken.foldl (fun now vm => now.place halt.stuck.id vm)
    ((halt.given.foldl (restocked kept wanted) live).setResidents halt.stuck.id
      (kept halt.stuck.id))
  refuses : Refuses now halt.stuck halt.refused

theorem Halt.Stops.cons {halt : Halt α} {machine : Machine α}
    (stops : halt.Stops rest kept wanted (restocked kept wanted live machine) now) :
    Halt.Stops { halt with given := machine :: halt.given } (machine :: rest) kept wanted live now :=
  { stops with machines := congrArg (machine :: ·) stops.machines }

namespace Planner

variable {progress : Progress α State}

theorem refill_stops (machine : Machine α) (vms : List (Vm α)) :
    (refill machine vms : Step α State Unit).Ends progress (fun _ _ => True)
      (fun _ later => ∃ taken refused waiting, vms = taken ++ refused :: waiting ∧
        later.occupancy =
          taken.foldl (fun now vm => now.place machine.id vm) progress.occupancy ∧
        Refuses later.occupancy machine refused) := by
  induction vms generalizing progress with
  | nil => trivial
  | cons vm rest ih =>
    rw [refill, ends_bind, ends_look]
    split
    · rw [ends_bind]
      refine ends_accept (fun _ => ih.mono (fun _ _ _ => trivial) ?_) fun fault refused => ?_
      · rintro fault later ⟨taken, refused, waiting, rfl, occupancy, refuses⟩
        exact ⟨vm :: taken, refused, waiting, rfl, occupancy, refuses⟩
      · simp only [Host.refusal?, Bool.false_and, Bool.false_eq_true, if_false] at refused
        split at refused
        · next held => exact ⟨[], vm, rest, rfl, rfl, .inr held⟩
        · cases refused
    · next full => exact ⟨[], vm, rest, rfl, rfl, .inl (eq_false_of_ne_true full)⟩

theorem reinstateHost_stops (snapshot : Snapshot α) (target : Membership) (machine : Machine α)
    (rest : List (Machine α)) :
    (reinstateHost snapshot target machine : Step α State Unit).Ends progress (fun _ _ => True)
      (fun _ later => ∃ halt : Halt α, halt.Stops (machine :: rest) snapshot.arriving
        (wantedBy snapshot target) progress.occupancy later.occupancy) := by
  rw [reinstateHost, ends_bind, ends_look]
  split
  · trivial
  · rw [ends_bind, ends_setOccupancy]
    refine (refill_stops machine _).mono (fun _ _ _ => trivial) ?_
    rintro fault later ⟨taken, refused, waiting, share, occupancy, refuses⟩
    exact ⟨⟨[], machine, taken, refused, waiting, rest⟩, rfl, share, occupancy, refuses⟩

theorem reinstate_stops {planner : Planner α State} {snapshot : Snapshot α} {moves : List Move}
    {target : Membership}
    (aimed : (snapshot.membership.after moves : Except (Fault α) Membership) = .ok target) :
    (planner.reinstate snapshot moves).Ends progress (fun _ _ => True)
      (fun _ later => ∃ halt : Halt α, halt.Stops planner.machines snapshot.arriving
        (wantedBy snapshot target) progress.occupancy later.occupancy) := by
  rw [reinstate, aimed, ends_bind, ends_attempt]
  refine ⟨fun _ same => ?_, fun _ absurd => by cases absurd⟩
  cases same
  generalize planner.machines = machines
  -- where the rest stops, this machine has been given its share
  induction machines generalizing progress with
  | nil => trivial
  | cons machine rest ih =>
    rw [List.forM_eq_forM, List.forM_cons, ends_bind]
    refine Ends.mono ((reinstateHost_restocks snapshot target machine).and
      (reinstateHost_stops snapshot target machine rest)) ?_ fun _ _ both => both.2
    rintro _ later ⟨restocked, _⟩
    refine ih.mono (fun _ _ _ => trivial) ?_
    rintro _ last ⟨halt, stops⟩
    exact ⟨_, Halt.Stops.cons (restocked ▸ stops)⟩

end Planner

/-! Who is where then -/

theorem existsUnique_mem_append {Item : Type} {front back : List Item} {holds : Item → Prop}
    (apart : front.Disjoint back)
    (onceFront : ∀ first ∈ front, ∀ second ∈ front, holds first → holds second → first = second)
    (onceBack : ∀ first ∈ back, ∀ second ∈ back, holds first → holds second → first = second) :
    (∃! item, item ∈ front ++ back ∧ holds item) ↔
      ((∃ item ∈ back, holds item) ↔ ¬∃ item ∈ front, holds item) := by
  constructor
  · rintro ⟨item, ⟨member, here⟩, only⟩
    constructor
    · rintro ⟨later, inBack, there⟩ ⟨early, inFront, too⟩
      have same : later = early :=
        (only later ⟨List.mem_append_right _ inBack, there⟩).trans
          (only early ⟨List.mem_append_left _ inFront, too⟩).symm
      exact apart inFront (same ▸ inBack)
    · intro missing
      rcases List.mem_append.mp member with inFront | inBack
      · exact absurd ⟨item, inFront, here⟩ missing
      · exact ⟨item, inBack, here⟩
  · intro either
    by_cases early : ∃ item ∈ front, holds item
    · obtain ⟨item, inFront, here⟩ := early
      refine ⟨item, ⟨List.mem_append_left _ inFront, here⟩, fun other ⟨member, there⟩ => ?_⟩
      rcases List.mem_append.mp member with too | inBack
      · exact onceFront other too item inFront there here
      · exact absurd ⟨item, inFront, here⟩ (either.mp ⟨other, inBack, there⟩)
    · obtain ⟨item, inBack, here⟩ := either.mpr early
      refine ⟨item, ⟨List.mem_append_right _ inBack, here⟩, fun other ⟨member, there⟩ => ?_⟩
      rcases List.mem_append.mp member with inFront | too
      · exact absurd ⟨other, inFront, there⟩ early
      · exact onceBack other too item inBack there here

namespace Halt

def Returned (halt : Halt α) (cluster : Cluster α) (vm : Vm α) : Prop :=
  (∃ machine ∈ halt.given, vm ∈ cluster.occupancy.residents machine.id) ∨
    vm ∈ keptAt cluster halt.stuck.id ++ halt.taken

/-- The hosts that were not reached have exactly the VMs that were not put back. -/
def Spares (halt : Halt α) (cluster : Cluster α) (live : Occupancy α) : Prop :=
  ∀ vm ∈ cluster.residents,
    (∃ machine ∈ halt.unreached, vm ∈ live.residents machine.id) ↔ ¬halt.Returned cluster vm

variable {halt : Halt α} (stops : halt.Stops machines kept wanted live now)
  (distinct : (machines.map (·.id)).Nodup)
include stops

namespace Stops

theorem residents_eq (id : String) : now.residents id =
    if id = halt.stuck.id then kept halt.stuck.id ++ halt.taken
    else (halt.given.foldl (restocked kept wanted) live).residents id := by
  rw [stops.occupancy, residents_placeAll]
  by_cases here : id = halt.stuck.id <;> simp [here, Occupancy.setResidents]

include distinct

theorem residents_given {machine : Machine α} (member : machine ∈ halt.given) :
    now.residents machine.id = (restocked kept wanted live machine).residents machine.id := by
  rw [stops.machines, List.map_append, List.map_cons, List.nodup_append] at distinct
  have apart : machine.id ≠ halt.stuck.id :=
    distinct.2.2 _ (List.mem_map_of_mem member) _ List.mem_cons_self
  rw [stops.residents_eq, if_neg apart, residents_restockAll distinct.1 member]

theorem residents_unreached {machine : Machine α} (member : machine ∈ halt.unreached) :
    now.residents machine.id = live.residents machine.id := by
  rw [stops.machines, List.map_append, List.map_cons, List.nodup_append] at distinct
  have apart : machine.id ≠ halt.stuck.id := fun here =>
    (List.nodup_cons.mp distinct.2.1).1 (here ▸ List.mem_map_of_mem member)
  have absent : machine.id ∉ halt.given.map (·.id) := fun there =>
    distinct.2.2 _ there _ (List.mem_cons_of_mem _ (List.mem_map_of_mem member)) rfl
  rw [stops.residents_eq, if_neg apart, residents_restockAll_of_notMem absent]

end Stops

end Halt

/-! Where a roll-back stopped -/

omit [Scalar α] in
theorem share_nil {machine : Machine α} (member : machine ∈ cluster.machines) {vm : Vm α} :
    InShare cluster [] machine vm ↔ vm ∈ cluster.occupancy.residents machine.id := by
  constructor
  · rintro (⟨resident, _⟩ | ⟨_, ⟨resident, _⟩ | ⟨_, absent, _⟩⟩)
    · exact resident
    · exact resident
    · cases absent
  · intro resident
    by_cases arriving : vm.id ∈ machine.arriving
    · exact .inl ⟨resident, arriving⟩
    · exact .inr ⟨Cluster.mem_residents.mpr ⟨machine, member, resident⟩,
        .inl ⟨resident, arriving, List.not_mem_nil⟩⟩

omit [Scalar α] in
theorem existsUnique_rolledBack (distinct : cluster.DistinctVms) (tracked : Tracked cluster live)
    {vm : Vm α} (known : vm ∈ cluster.residents) :
    ∃! machine, machine ∈ cluster.machines ∧
      vm ∈ (reinstated cluster [] live).residents machine.id := by
  have restored : ∀ {machine : Machine α}, machine ∈ cluster.machines →
      (vm ∈ (reinstated cluster [] live).residents machine.id ↔
        vm ∈ cluster.occupancy.residents machine.id) := fun member =>
    (mem_reinstated distinct member tracked).trans (share_nil member)
  obtain ⟨machine, member, resident⟩ := Cluster.mem_residents.mp known
  refine ⟨machine, ⟨member, (restored member).mpr resident⟩, fun other ⟨otherMem, there⟩ => ?_⟩
  exact distinct.machine_eq otherMem member ((restored otherMem).mp there) resident

namespace Halt.Stops

variable {halt : Halt α} {machine : Machine α} {vm : Vm α}
  (stops : halt.Stops cluster.machines (keptAt cluster) (wantedAt cluster []) live now)
  (distinct : cluster.DistinctVms) (tracked : Tracked cluster live)
include stops distinct tracked

theorem mem_given (member : machine ∈ halt.given) :
    vm ∈ now.residents machine.id ↔ vm ∈ cluster.occupancy.residents machine.id := by
  have inside : machine ∈ cluster.machines := by
    rw [stops.machines]
    exact List.mem_append_left _ member
  rw [stops.residents_given cluster.distinct member, mem_restocked distinct inside tracked,
    share_nil inside]

theorem mem_of_reached (member : machine ∈ halt.given ++ [halt.stuck])
    (there : vm ∈ now.residents machine.id) : vm ∈ cluster.occupancy.residents machine.id := by
  rcases List.mem_append.mp member with given | last
  · exact (stops.mem_given distinct tracked given).mp there
  · obtain rfl := List.mem_singleton.mp last
    have inside : halt.stuck ∈ cluster.machines := by simp [stops.machines]
    rw [stops.residents_eq, if_pos rfl] at there
    refine (share_nil inside).mp ((mem_share distinct inside).mp ?_)
    rw [stops.share]
    exact ((List.sublist_append_left _ _).append_left _).subset there

theorem returned_iff : halt.Returned cluster vm ↔
    ∃ machine ∈ halt.given ++ [halt.stuck], vm ∈ now.residents machine.id := by
  have stuck := stops.residents_eq halt.stuck.id
  rw [if_pos rfl] at stuck
  constructor
  · rintro (⟨machine, given, start⟩ | last)
    · exact ⟨machine, List.mem_append_left _ given,
        (stops.mem_given distinct tracked given).mpr start⟩
    · exact ⟨halt.stuck, by simp, stuck ▸ last⟩
  · rintro ⟨machine, member, there⟩
    rcases List.mem_append.mp member with given | last
    · exact .inl ⟨machine, given, (stops.mem_given distinct tracked given).mp there⟩
    · obtain rfl := List.mem_singleton.mp last
      exact .inr (stuck ▸ there)

theorem existsUnique_iff :
    (∃! machine, machine ∈ cluster.machines ∧ vm ∈ now.residents machine.id) ↔
      ((∃ machine ∈ halt.unreached, vm ∈ live.residents machine.id) ↔
        ¬halt.Returned cluster vm) := by
  have machines : cluster.machines = (halt.given ++ [halt.stuck]) ++ halt.unreached := by
    simp [stops.machines]
  have inside : (halt.given ++ [halt.stuck]) ++ halt.unreached ⊆ cluster.machines :=
    machines ▸ List.Subset.refl _
  obtain ⟨reached, unreached⟩ := List.append_subset.mp inside
  have once := cluster.distinct.of_map
  rw [machines, List.nodup_append'] at once
  -- the hosts that were reached hold what was put back, and the others what they held
  have left : (∃ machine ∈ halt.unreached, vm ∈ live.residents machine.id) ↔
      ∃ machine ∈ halt.unreached, vm ∈ now.residents machine.id :=
    exists_congr fun machine => and_congr_right fun member => by
      rw [stops.residents_unreached cluster.distinct member]
  rw [stops.returned_iff distinct tracked, left, machines]
  refine existsUnique_mem_append once.2.2 (fun first firstMem second secondMem here there => ?_)
    fun first firstMem second secondMem here there => ?_
  · exact distinct.machine_eq (reached firstMem) (reached secondMem)
      (stops.mem_of_reached distinct tracked firstMem here)
      (stops.mem_of_reached distinct tracked secondMem there)
  · rw [stops.residents_unreached cluster.distinct firstMem] at here
    rw [stops.residents_unreached cluster.distinct secondMem] at there
    exact Cluster.machine_eq_of_id (unreached firstMem) (unreached secondMem)
      (tracked.single first (unreached firstMem) second (unreached secondMem) vm here there)

end Halt.Stops

/-! Planning -/

/-- The cycle is over, its report is the last one that was completed, and every VM is on one host. -/
structure Usable (before after : Engine α State) : Prop where
  phase : after.phase = .idle
  report : after.report = before.report
  once : ∀ vm ∈ before.cluster.residents, ∃! machine,
    machine ∈ after.cluster.machines ∧ vm ∈ after.cluster.occupancy.residents machine.id

def decided : Except (Fault α) Findings → List Move
  | .ok findings => findings.moves
  | .error _ => []

namespace Sample

/-- An overloaded host without the memory for both of its VMs, and nowhere to go. -/
def crammed : Engine Rat (World Rat Unit × Unit) :=
  engine (⟨{}, ()⟩, ()) [{ host "a" 4 [] [vm "x" 0.95, vm "y" 0.95] with ramMb := 1500 }]

def calm (_ : Unit) : Option (Fault Rat) × Unit := (none, ())

end Sample

namespace Engine

variable {Draws Mood : Type} {policy : Policy α} {draw : Draws → α × Draws} {underload : α}
  {tick : Tick α}

theorem reinstate_halts (moves : List Move) {planner : Planner α State}
    {progress last : Progress α State} {fault : Fault α} (same : planner.machines = cluster.machines)
    (distinct : cluster.DistinctVms) (once : (moves.map (·.vm)).Nodup)
    (known : ∀ move ∈ moves, ∃ machine ∈ cluster.machines, machine.id = move.destination)
    (failed : (planner.reinstate (.capture cluster) moves).run.run progress = (.error fault, last)) :
    Unrestored fault ∧
      ∃ halt : Halt α, halt.Stops cluster.machines (keptAt cluster) (wantedAt cluster moves)
        progress.occupancy last.occupancy := by
  constructor
  · exact (reinstate_ends moves same distinct once known).of_error failed
  · exact same ▸
      (Planner.reinstate_stops (Membership.after_capture distinct once known)).of_error failed

/-- A call that fails has rolled the cycle back, or it stopped at a host without room while it was
reinstating the membership. In the first case the engine is usable. In the second it is so exactly if
the call was rolling back and the hosts that it did not reach have the VMs that it did not put back; a
commit that stops leaves the engine in the phase of committing. -/
theorem plan_usable_iff {engine after : Engine α (World α Draws × Mood)}
    {strike : Mood → Option (Fault α) × Mood} {fault : Fault α}
    (distinct : engine.cluster.DistinctVms)
    (planned : engine.plan ((policy.advisors draw).disturbed strike) underload tick =
      (.error fault, after)) :
    ∃ (explored : Except (Fault α) Findings) (live : Progress α (World α Draws × Mood)),
      ((engine.planner ((policy.advisors draw).disturbed strike) underload).explore
        tick).run.run engine.begin = (explored, live) ∧
      after.report = engine.report ∧
      (after.phase = .idle ↔ ∃ first, explored = .error first) ∧
      ((explored = .error fault ∧ Usable engine after) ∨
        fault.kind = .capacity ∧ ∃ halt : Halt α,
          halt.Stops engine.cluster.machines (keptAt engine.cluster)
            (wantedAt engine.cluster (decided explored)) live.occupancy after.cluster.occupancy ∧
          (Usable engine after ↔
            (∃ first, explored = .error first) ∧ halt.Spares engine.cluster live.occupancy)) := by
  have reliable := (policy.reliable draw).disturbed strike
  generalize result : (.error fault : Except (Fault α) (List Move)) = answer at planned
  cases conclusion planned with
  | committed => cases result
  | @rolledBack broken last first explore reinstate =>
    cases result
    obtain ⟨retained, restored⟩ := rollback_reinstates rfl reliable distinct explore reinstate
    refine ⟨_, _, explore, rfl, ⟨fun _ => ⟨fault, rfl⟩, fun _ => rfl⟩, .inl ⟨rfl, rfl, rfl, ?_⟩⟩
    dsimp only [finish]
    rw [restored]
    exact fun vm known => existsUnique_rolledBack distinct retained.tracked known
  | @uncommitted findings explored last _ explore reinstate =>
    cases result
    obtain ⟨_, _, rehearsed⟩ := (Planner.explore_ends reliable distinct rfl tick rfl).of_ok explore
    obtain ⟨final, run, _⟩ := rehearsed.replay
    obtain ⟨⟨host, vm, reason, rfl⟩, halt, stops⟩ :=
      reinstate_halts _ rfl distinct rehearsed.once run.destination_mem reinstate
    refine ⟨_, _, explore, rfl, ?_, .inr ⟨rfl, halt, stops, ?_⟩⟩
    -- nothing sets the phase back on this path
    · exact ⟨fun idle => (by cases idle), fun ⟨_, absurd⟩ => by cases absurd⟩
    · exact ⟨fun usable => (by cases usable.phase), fun ⟨⟨_, absurd⟩, _⟩ => by cases absurd⟩
  | @stranded broken last first _ explore reinstate =>
    cases result
    have retained := (Planner.explore_ends reliable distinct rfl tick rfl).of_error explore
    obtain ⟨⟨host, vm, reason, rfl⟩, halt, stops⟩ :=
      reinstate_halts [] rfl distinct .nil (fun _ absent => by cases absent) reinstate
    -- the phase is set back on this one, so all depends on where the VMs are
    have spared : halt.Spares engine.cluster broken.occupancy ↔ ∀ vm ∈ engine.cluster.residents,
        ∃! machine, machine ∈ engine.cluster.machines ∧ vm ∈ last.occupancy.residents machine.id :=
      forall₂_congr fun vm _ => (stops.existsUnique_iff distinct retained.tracked).symm
    refine ⟨_, _, explore, rfl, ⟨fun _ => ⟨first, rfl⟩, fun _ => rfl⟩,
      .inr ⟨rfl, halt, stops, ?_⟩⟩
    rw [spared]
    exact ⟨fun usable => ⟨⟨first, rfl⟩, usable.once⟩, fun both => ⟨rfl, rfl, both.2⟩⟩

/-- The commit stops at the second VM, which is on no host then. -/
theorem plan_usable_iff_crammed :
    (Sample.crammed.plan (Sample.advisors.disturbed Sample.calm) Sample.policy.underload
        Sample.tick).1.isOk = false ∧
      ¬Usable Sample.crammed
        (Sample.crammed.plan (Sample.advisors.disturbed Sample.calm) Sample.policy.underload
          Sample.tick).2 := by
  have failed : (Sample.crammed.plan (Sample.advisors.disturbed Sample.calm)
      Sample.policy.underload Sample.tick).1.isOk = false := by decide +kernel
  have finished : (((Sample.crammed.planner (Sample.advisors.disturbed Sample.calm)
      Sample.policy.underload).explore Sample.tick).run.run Sample.crammed.begin).1.isOk = true := by
    decide +kernel
  obtain ⟨fault, broke⟩ := Attempt.error_of_isOk failed
  obtain ⟨_, _, explore, _, _, ⟨rfl, _⟩ | ⟨_, _, _, usable⟩⟩ := plan_usable_iff
    (Cluster.settled_ofHosts _ (by decide +kernel)).distinct (Prod.ext broke rfl)
  · rw [show Sample.advisors = Sample.policy.advisors _ from rfl, explore] at finished
    cases finished
  · refine ⟨failed, fun assumed => ?_⟩
    obtain ⟨⟨first, rfl⟩, _⟩ := usable.mp assumed
    rw [show Sample.advisors = Sample.policy.advisors _ from rfl, explore] at finished
    cases finished

end Engine

end Fleet.Plan
