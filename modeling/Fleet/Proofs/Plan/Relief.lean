import Fleet.Proofs.Linear
import Fleet.Proofs.Plan.Contract

/-! How overloaded hosts are relieved: which VMs leave them, and in which order.

A host is asked at most once more than it has residents, and it loses one with every answer, so the
questions end because the host is relieved or has nothing left to give.
-/

set_option autoImplicit false

namespace Fleet

variable {α : Type} [Scalar α]

omit [Scalar α] in
/-- The host without the VMs that share an id with one of these. -/
def Host.without (host : Host α) (vms : List (Vm α)) : Host α :=
  { host with vms := host.vms.filter fun vm => vm.id ∉ vms.map (·.id) }

omit [Scalar α] in
theorem Host.without_nil (host : Host α) : host.without [] = host := by
  simp [without]

omit [Scalar α] in
theorem Host.without_without (host : Host α) (first second : List (Vm α)) :
    (host.without first).without second = host.without (first ++ second) := by
  simp only [without, List.filter_filter, List.map_append, List.mem_append, not_or,
    Bool.decide_and, Bool.and_comm]

namespace EvictionRule

/-- No VM that can leave has a metric beyond all bounds. -/
def Bounded (rule : EvictionRule α) (table : FlavorTable α) (vms : List (Vm α)) : Prop :=
  ∀ vm ∈ vms, vm.migrating = false → ∀ metric, rule.metric table vm = .ok metric →
    Scalar.isBounded metric = true

/-- Of the VMs that can leave, this one is the first of least metric. -/
def IsFirst (rule : EvictionRule α) (table : FlavorTable α) (vms : List (Vm α)) (vm : Vm α) :
    Prop :=
  ∃ before after metric, vms.filter (!·.migrating) = before ++ vm :: after ∧
    rule.metric table vm = .ok metric ∧
    (∀ other ∈ before, ∃ greater, rule.metric table other = .ok greater ∧ metric < greater) ∧
    ∀ other ∈ after, ∃ notLess, rule.metric table other = .ok notLess ∧ metric ≤ notLess

variable [Scalar.Linear α]

theorem victim?_first {rule : EvictionRule α} {table : FlavorTable α} {host : Host α}
    (bounded : rule.Bounded table host.vms) {victim : Option (Vm α)}
    (found : rule.victim? table host = .ok victim) :
    match victim with
    | none => ∀ vm ∈ host.vms, vm.migrating = true
    | some vm => rule.IsFirst table host.vms vm := by
  obtain ⟨scored, read, answered⟩ := Attempt.bind_ok found
  have chosen : (Scalar.firstLeast scored).map (·.1) = victim := Except.ok.inj answered
  obtain ⟨listed, known⟩ :=
    (Attempt.mapM_made_eq_ok_iff Prod.fst Prod.snd (fun _ _ => ⟨rfl, rfl⟩) fun _ => rfl).mp read
  cases scored with
  | nil =>
    obtain rfl : none = victim := chosen
    have stuck := List.filter_eq_nil_iff.mp listed.symm
    exact fun vm resident => by simpa using stuck vm resident
  | cons best rest =>
    have finite : ∀ entry ∈ best :: rest, Scalar.isBounded entry.2 = true := by
      intro entry entryMem
      obtain ⟨resident, still⟩ := List.mem_filter.mp (listed ▸ List.mem_map_of_mem entryMem)
      exact bounded entry.1 resident (by simpa using still) entry.2 (known entry entryMem)
    obtain ⟨least, first, before, after, split, above, notBelow⟩ := Scalar.firstLeast_eq finite
    obtain rfl : some least.1 = victim := by rw [← chosen, first, Option.map_some]
    rw [split] at listed known
    refine ⟨before.map (·.1), after.map (·.1), least.2, by simp [← listed],
      known least (by simp), ?_, ?_⟩
    · exact List.forall_mem_map.mpr fun entry entryMem =>
        ⟨entry.2, known entry (by simp [entryMem]), above entry entryMem⟩
    · exact List.forall_mem_map.mpr fun entry entryMem =>
        ⟨entry.2, known entry (by simp [entryMem]), notBelow entry entryMem⟩

end EvictionRule

namespace Plan

open Step

variable {State Draws : Type}

namespace Policy

variable {policy : Policy α} {draw : Draws → α × Draws} {host : Host α}

def overloads (policy : Policy α) (host : Host α) : Bool :=
  match policy.overload.assess policy.table host with
  | .ok verdict => verdict.overloaded
  | .error _ => false

/-- The host is assessed as not overloaded, or no VM can leave it. -/
def Rests (policy : Policy α) (host : Host α) : Prop :=
  (∃ verdict, policy.overload.assess policy.table host = .ok verdict ∧
    verdict.overloaded = false) ∨
  ∀ vm ∈ host.vms, vm.migrating = true

def overloadedIn (policy : Policy α) (cluster : Cluster α) : List (Machine α) :=
  cluster.machines.filter fun machine => policy.overloads (cluster.occupancy.host machine)

theorem overloads_eq {verdict : Verdict α}
    (assessed : policy.overload.assess policy.table host = .ok verdict) :
    policy.overloads host = verdict.overloaded := by
  simp only [overloads, assessed]

theorem isOverloaded_eq {tick : Tick α} {world later : World α Draws} {verdict : Bool}
    (answered : (policy.isOverloaded host tick).run.run world = (.ok verdict, later)) :
    verdict = policy.overloads host ∧
      ∃ assessed, policy.overload.assess policy.table host = .ok assessed := by
  cases observed : policy.overload.observe policy.table host tick with
  | error fault =>
    have run : (policy.isOverloaded host tick).run.run world = (.error fault, world) := by
      simp only [isOverloaded, observed]
      rfl
    cases run.symm.trans answered
  | ok result =>
    obtain ⟨assessed, metric⟩ := result
    have run : ((policy.isOverloaded host tick).run.run world).1 = .ok assessed.overloaded := by
      simp only [isOverloaded, observed]
      rfl
    rw [answered] at run
    obtain ⟨found, known, rest⟩ := Attempt.bind_ok observed
    obtain ⟨_, _, rest⟩ := Attempt.bind_ok rest
    obtain ⟨_, _, rest⟩ := Attempt.bind_ok rest
    cases rest
    exact ⟨(overloads_eq known).symm ▸ Except.ok.inj run, _, known⟩

theorem staysOverloaded_eq {world later : World α Draws} {verdict : Bool}
    (answered : ((policy.advisors draw).staysOverloaded host).run.run world =
      (.ok verdict, later)) :
    ∃ assessed, policy.overload.assess policy.table host = .ok assessed ∧
      verdict = assessed.overloaded := by
  cases assessed : policy.overload.assess policy.table host with
  | error fault =>
    have run : ((policy.advisors draw).staysOverloaded host).run.run world =
        (.error fault, world) := by
      simp only [advisors, assessed]
      rfl
    cases run.symm.trans answered
  | ok found =>
    have run : ((policy.advisors draw).staysOverloaded host).run.run world =
        (.ok found.overloaded, world) := by
      simp only [advisors, assessed]
      rfl
    exact ⟨found, rfl, Except.ok.inj (congrArg Prod.fst (answered.symm.trans run))⟩

end Policy

/-- VMs left the host one by one: before each of them the host was overloaded, and each was the first
of least metric among those that could leave. -/
structure Relieved (policy : Policy α) (host : Host α) (victims : List (Vm α)) : Prop where
  chosen : ∀ earlier vm later, victims = earlier ++ vm :: later →
    policy.overloads (host.without earlier) = true ∧
      policy.eviction.IsFirst policy.table (host.without earlier).vms vm
  rests : policy.Rests (host.without victims)

/-- The hosts assessed as overloaded at the beginning are reported in order, and so are the VMs that
left each of them until it was relieved. A host whose victims all move keeps what they left. -/
structure Relief (policy : Policy α) (before after : Cluster α) {planner : Planner α State}
    {tick : Tick α} {start : Progress α State} (course : Course planner tick start)
    (report : Report α) (moves : List Move) (victims : String → List (Vm α)) : Prop where
  assessed : ∀ machine ∈ before.machines, ∃ verdict,
    policy.overload.assess policy.table (before.occupancy.host machine) = .ok verdict
  overloaded : report.overloaded = (policy.overloadedIn before).map (·.id)
  left : course.evicted = (policy.overloadedIn before).flatMap fun machine =>
    (victims machine.id).map (·, machine.id)
  evicted : report.evicted = (policy.overloadedIn before).flatMap fun machine =>
    (victims machine.id).map (·.id)
  relieved : ∀ machine ∈ policy.overloadedIn before,
    policy.eviction.Bounded policy.table (before.occupancy.residents machine.id) →
    Relieved policy (before.occupancy.host machine) (victims machine.id)
  kept : ∀ machine ∈ policy.overloadedIn before,
    (∀ vm ∈ victims machine.id, vm.id ∈ moves.map (·.vm)) →
    after.occupancy.host machine = (before.occupancy.host machine).without (victims machine.id)

namespace Relieved

variable {policy : Policy α} {host : Host α} {vm : Vm α} {victims : List (Vm α)}

theorem nil (rests : policy.Rests host) : Relieved policy host [] where
  chosen earlier vm later same := by simp at same
  rests := host.without_nil.symm ▸ rests

theorem cons (overloaded : policy.overloads host = true)
    (first : policy.eviction.IsFirst policy.table host.vms vm)
    (rest : Relieved policy (host.without [vm]) victims) : Relieved policy host (vm :: victims) where
  chosen earlier other later same := by
    cases earlier with
    | nil =>
      obtain ⟨rfl, _⟩ := List.cons.inj same
      exact host.without_nil.symm ▸ ⟨overloaded, first⟩
    | cons before earlier =>
      obtain ⟨rfl, tail⟩ := List.cons.inj same
      have chosen := rest.chosen earlier other later tail
      rwa [Host.without_without] at chosen
  rests := by
    have rests := rest.rests
    rwa [Host.without_without] at rests

end Relieved

namespace Planner

variable [Scalar.Linear α] {policy : Policy α} {draw : Draws → α × Draws}
  {planner : Planner α (World α Draws)} (advised : planner.advisors = policy.advisors draw)
  {progress : Progress α (World α Draws)}
include advised

theorem relieve_relieves (machine : Machine α) (rounds : Nat) :
    (planner.relieve machine rounds).Ends progress
      (fun vms later =>
        later.occupancy.host machine = (progress.occupancy.host machine).without vms ∧
        (∀ id, id ≠ machine.id →
          later.occupancy.residents id = progress.occupancy.residents id) ∧
        (policy.overloads (progress.occupancy.host machine) = true →
          policy.eviction.Bounded policy.table (progress.occupancy.residents machine.id) →
          (progress.occupancy.residents machine.id).length < rounds →
          Relieved policy (progress.occupancy.host machine) vms))
      (fun _ _ => True) := by
  induction rounds generalizing progress with
  | zero =>
    exact ⟨(Host.without_nil _).symm, fun _ _ => rfl, fun _ _ few => absurd few (Nat.not_lt_zero _)⟩
  | succ rounds ih =>
    rw [relieve, ends_bind, ends_look, ends_bind, ends_ask, advised]
    refine ⟨fun victim advisors answered => ?_, fun _ _ _ => trivial⟩
    have answered : policy.eviction.victim? policy.table (progress.occupancy.host machine) =
      .ok victim := congrArg Prod.fst answered
    cases victim with
    | none =>
      exact ⟨(Host.without_nil _).symm, fun _ _ => rfl, fun _ bounded _ =>
        .nil (.inr (EvictionRule.victim?_first bounded answered))⟩
    | some vm =>
      have left : (progress.occupancy.release machine.id vm).host machine =
          (progress.occupancy.host machine).without [vm] := by
        simp [Occupancy.host, Host.without, Occupancy.residents_release, bne, BEq.beq]
      have others : ∀ id, id ≠ machine.id →
          (progress.occupancy.release machine.id vm).residents id =
            progress.occupancy.residents id := fun id apart => by
        rw [Occupancy.residents_release, if_neg apart]
      rw [ends_bind, ends_release, ends_bind, ends_look, ends_bind, ends_ask]
      refine ⟨fun overloaded advisors judged => ?_, fun _ _ _ => trivial⟩
      obtain ⟨verdict, assessed, rfl⟩ := Policy.staysOverloaded_eq judged
      have chosen := fun bounded => EvictionRule.victim?_first bounded answered
      split
      · next still =>
        refine ih.bind ?_
        rintro vms last ⟨without, unmoved, relieved⟩
        dsimp only at without unmoved relieved
        rw [left] at without relieved
        refine ⟨without.trans (Host.without_without _ _ _), fun id apart =>
          (unmoved id apart).trans (others id apart), fun overloaded bounded few => ?_⟩
        have resident := (EvictionRule.victim?_mem answered).1
        -- the host has lost a VM with this question, so the others are still enough
        have fewer : ((progress.occupancy.release machine.id vm).residents machine.id).length <
            (progress.occupancy.residents machine.id).length := by
          rw [Occupancy.residents_release, if_pos rfl, List.length_filter_lt_length_iff_exists]
          exact ⟨vm, resident, by simp⟩
        refine .cons overloaded (chosen bounded) (relieved ?_ (fun other otherMem => ?_) (by omega))
        · exact (Policy.overloads_eq (left ▸ assessed)).trans still
        · rw [Occupancy.residents_release, if_pos rfl] at otherMem
          exact bounded other (List.mem_of_mem_filter otherMem)
      · next calm =>
        refine ⟨left, others, fun overloaded bounded _ =>
          .cons overloaded (chosen bounded) (.nil (.inl ⟨verdict, left ▸ assessed, ?_⟩))⟩
        simpa using calm

theorem selectVictims_relieves {machines : List (Machine α)}
    (once : (machines.map (·.id)).Nodup) :
    (planner.selectVictims machines).Ends progress
      (fun pairs later => ∃ victims : String → List (Vm α),
        pairs = machines.flatMap (fun machine => (victims machine.id).map (·, machine.id)) ∧
        (∀ id, id ∉ machines.map (·.id) →
          later.occupancy.residents id = progress.occupancy.residents id) ∧
        ∀ machine ∈ machines,
          later.occupancy.host machine =
            (progress.occupancy.host machine).without (victims machine.id) ∧
          (policy.overloads (progress.occupancy.host machine) = true →
            policy.eviction.Bounded policy.table (progress.occupancy.residents machine.id) →
            Relieved policy (progress.occupancy.host machine) (victims machine.id)))
      (fun _ _ => True) := by
  induction machines generalizing progress with
  | nil => exact ⟨fun _ => [], rfl, fun _ _ => rfl, fun _ absent => absurd absent List.not_mem_nil⟩
  | cons machine rest ih =>
    obtain ⟨fresh, restOnce⟩ := List.nodup_cons.mp once
    rw [selectVictims, ends_bind, ends_look]
    refine (relieve_relieves advised machine _).bind ?_
    rintro vms middle ⟨without, unmoved, relieved⟩
    refine (ih restOnce).bind ?_
    rintro _ last ⟨victims, rfl, still, later⟩
    have apart : ∀ other ∈ rest, other.id ≠ machine.id := fun other otherMem same =>
      fresh (List.mem_map.mpr ⟨other, otherMem, same⟩)
    -- no host is asked twice, so the answers of the others do not change this one
    have here := still machine.id fresh
    let all : String → List (Vm α) := fun id => if id = machine.id then vms else victims id
    have own : all machine.id = vms := if_pos rfl
    have others : ∀ other ∈ rest, all other.id = victims other.id := fun other otherMem =>
      if_neg (apart other otherMem)
    refine ⟨all, ?_, fun id outside => ?_,
      List.forall_mem_cons.mpr ⟨?_, fun other otherMem => ?_⟩⟩
    · rw [List.flatMap_cons, own]
      refine congrArg _ (List.flatMap_congr fun other otherMem => ?_)
      rw [others other otherMem]
    · rw [List.map_cons, List.mem_cons, not_or] at outside
      rw [still id outside.2, unmoved id outside.1]
    · rw [own, Occupancy.host, here]
      exact ⟨without, fun overloaded bounded =>
        relieved overloaded bounded (Nat.lt_succ_self _)⟩
    · have before := unmoved other.id (apart other otherMem)
      have same : middle.occupancy.host other = progress.occupancy.host other := by
        rw [Occupancy.host, before, Occupancy.host]
      rw [others other otherMem, ← same, ← before]
      exact later other otherMem

omit [Scalar.Linear α] in
theorem detect_filters (tick : Tick α) :
    (planner.detect tick).Ends progress
      (fun overloaded later =>
        overloaded = (planner.machines.filter fun machine =>
          policy.overloads (progress.occupancy.host machine)) ∧
        (∀ machine ∈ planner.machines, ∃ verdict,
          policy.overload.assess policy.table (progress.occupancy.host machine) = .ok verdict) ∧
        later.occupancy = progress.occupancy)
      (fun _ _ => True) := by
  refine ends_sieve_filter _ _ (·.occupancy = progress.occupancy) _ (fun machine now same => ?_) _
    rfl
  rw [ends_bind, ends_look, ends_ask, advised, same]
  refine ⟨fun verdict advisors answered => ?_, fun _ _ _ => trivial⟩
  obtain ⟨judged, assessed⟩ := Policy.isOverloaded_eq answered
  exact ⟨judged, assessed, rfl⟩

theorem selection_relieves (tick : Tick α) (once : (planner.machines.map (·.id)).Nodup) :
    (planner.selection tick).Ends progress
      (fun (overloaded, evicted) later =>
        overloaded = (planner.machines.filter fun machine =>
          policy.overloads (progress.occupancy.host machine)) ∧
        (∀ machine ∈ planner.machines, ∃ verdict,
          policy.overload.assess policy.table (progress.occupancy.host machine) = .ok verdict) ∧
        ∃ victims : String → List (Vm α),
          evicted = overloaded.flatMap (fun machine => (victims machine.id).map (·, machine.id)) ∧
          ∀ machine ∈ overloaded,
            later.occupancy.host machine =
              (progress.occupancy.host machine).without (victims machine.id) ∧
            (policy.eviction.Bounded policy.table (progress.occupancy.residents machine.id) →
              Relieved policy (progress.occupancy.host machine) (victims machine.id)))
      (fun _ _ => True) := by
  rw [selection, ends_bind, ends_enter, ends_bind]
  refine (detect_filters advised tick).imp ?_
  rintro _ middle ⟨rfl, assessed, same⟩
  rw [ends_bind, ends_clock, ends_bind, ends_enter]
  refine Ends.bind (selectVictims_relieves advised (once.sublist (List.filter_sublist.map _))) ?_
  rintro _ last ⟨victims, rfl, _, relieved⟩
  dsimp only at same relieved
  rw [same] at relieved
  refine ⟨rfl, assessed, victims, rfl, fun machine member => ?_⟩
  obtain ⟨without, relieved⟩ := relieved machine member
  exact ⟨without, relieved (List.mem_filter.mp member).2⟩

end Planner

theorem Course.Sound.residents_reinstated {planner : Planner α State} {tick : Tick α}
    {start : Progress α State} {course : Course planner tick start} {cluster : Cluster α}
    {loose : List String} (sound : course.Sound cluster loose) (quiet : cluster.Quiet)
    {machine : Machine α} (member : machine ∈ cluster.machines)
    (overloaded : machine.id ∈ course.overloaded.map (·.id)) {victims : List (Vm α)}
    (left : course.selected.occupancy.residents machine.id =
      ((cluster.occupancy.host machine).without victims).vms)
    (placed : ∀ vm ∈ victims, vm.id ∈ course.findings.moves.map (·.vm)) :
    (reinstated cluster course.findings.moves course.last.occupancy).residents machine.id =
      ((cluster.occupancy.host machine).without victims).vms := by
  have last := (sound.sheltered.steady machine.id overloaded).trans left
  refine (residents_reinstated_eq sound.distinct member fun vm => ?_).trans last
  constructor
  · intro resident
    have start : vm ∈ cluster.occupancy.residents machine.id := by
      rw [last] at resident
      exact List.mem_of_mem_filter resident
    exact .inr ⟨Cluster.mem_residents.mpr ⟨machine, member, start⟩,
      .inl ⟨start, quiet machine member vm start, fun named =>
        sound.rehearsed.vacated sound.distinct sound.sheltered.tracked member start named resident⟩⟩
  · rintro (⟨start, arriving⟩ | ⟨_, ⟨start, _, unnamed⟩ | ⟨move, moveMem, here, _⟩⟩)
    · exact absurd arriving (quiet machine member vm start)
    · rw [last]
      refine List.mem_filter.mpr ⟨start, decide_eq_true fun victim => unnamed ?_⟩
      obtain ⟨other, otherMem, same⟩ := List.mem_map.mp victim
      exact same ▸ placed other otherMem
    · exact absurd (sound.overloaded (here ▸ overloaded))
        (sound.rehearsed.destination move moveMem)

def Sample.pressed : Engine Rat (World Rat Unit) :=
  engine ⟨{}, ()⟩ [host "a" 2 [] [vm "x" 0.6, vm "y" 0.5], host "b" 4 [] [vm "z" 0.4]]

namespace Engine

variable [Scalar.Linear α] {policy : Policy α} {draw : Draws → α × Draws} {underload : α}
  {tick : Tick α} {engine after : Engine α (World α Draws)} {moves : List Move}

/-- The VMs that leave overloaded hosts are those that selection chose, and the report names them. If
they have all found a place, their host keeps what they left. -/
theorem plan_relieves (distinct : engine.cluster.DistinctVms) (quiet : engine.cluster.Quiet)
    (planned : engine.plan (policy.advisors draw) underload tick = (.ok moves, after)) :
    ∃ (course : Course (engine.planner (policy.advisors draw) underload) tick engine.begin)
      (report : Report α) (victims : String → List (Vm α)), after.report = some report ∧
        Relief policy engine.cluster after.cluster course report moves victims := by
  obtain ⟨course, loose, sound, rfl, reported, cluster⟩ :=
    plan_course (policy.reliable draw) distinct planned
  obtain ⟨overloaded, assessed, victims, left, relieved⟩ :=
    (Planner.selection_relieves rfl tick engine.cluster.distinct).of_ok course.selects
  have overloaded : course.overloaded = policy.overloadedIn engine.cluster := overloaded
  refine ⟨course, _, victims, reported, assessed, congrArg (List.map Machine.id) overloaded,
    overloaded ▸ left, ?_, fun machine inside => ?_, fun machine inside placed => ?_⟩
  · change course.evicted.map (·.1.id) = _
    rw [left, List.map_flatMap, overloaded]
    exact List.flatMap_congr fun machine _ => by simp [Function.comp_def]
  · exact (relieved machine (overloaded ▸ inside)).2
  · have member : machine ∈ engine.cluster.machines := List.mem_of_mem_filter inside
    have residents := sound.residents_reinstated quiet member
      (List.mem_map_of_mem (overloaded ▸ inside))
      (congrArg Host.vms (relieved machine (overloaded ▸ inside)).1) placed
    rw [cluster, Occupancy.host, residents]
    rfl

theorem plan_relieves_pressed :
    ∃ (course : Course (Sample.pressed.planner Sample.advisors Sample.policy.underload) Sample.tick
        Sample.pressed.begin) (report : Report Rat) (victims : String → List (Vm Rat)),
      (Sample.pressed.plan Sample.advisors Sample.policy.underload Sample.tick).2.report =
          some report ∧
        Relief Sample.policy Sample.pressed.cluster
          (Sample.pressed.plan Sample.advisors Sample.policy.underload Sample.tick).2.cluster
          course report [⟨"y", "a", "b"⟩] victims :=
  plan_relieves (Cluster.settled_ofHosts _ (by decide +kernel)).distinct
    (by unfold Cluster.Quiet; decide +kernel)
    (Prod.ext (Attempt.ok_of_toOption (by decide +kernel)) rfl)

end Engine

end Plan

end Fleet
