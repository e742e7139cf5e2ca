import Fleet.Proofs.Plan.Causes
import Fleet.Proofs.Plan.Exploration

/-! Which faults a cycle can break off with.

A cycle asks its advisors about hosts that hold known VMs, and moves only these. So its faults are
those of the advisors, those of loads that cannot be computed, and those of hosts that refuse a VM.
-/

set_option autoImplicit false

namespace Fleet.Plan

variable {α State Draws Mood Answer Other Item : Type} {allowed : Fault α → Prop}

/-! Questions -/

def Ask.FailsOnly (allowed : Fault α → Prop) (question : Ask α State Answer) : Prop :=
  ∀ state fault later, question.run.run state = (.error fault, later) → allowed fault

namespace Ask.FailsOnly

theorem pure (answer : Answer) : FailsOnly allowed (pure answer : Ask α State Answer) := by
  intro _ _ _ run
  cases run

theorem bind {question : Ask α State Other} {next : Other → Ask α State Answer}
    (first : FailsOnly allowed question) (second : ∀ answer, FailsOnly allowed (next answer)) :
    FailsOnly allowed (question >>= next) := by
  intro state fault later run
  have permitted := first state
  simp only [ExceptT.run_bind, StateT.run_bind] at run
  generalize question.run.run state = middle at permitted run
  obtain ⟨failed | answer, between⟩ := middle
  · cases run
    exact permitted _ _ rfl
  · exact second answer _ _ _ run

theorem modify (change : State → State) : FailsOnly allowed (modify change : Ask α State Unit) := by
  intro _ _ _ run
  cases run

theorem answer {given : Except (Fault α) Answer} (permitted : Fleet.FailsOnly allowed given) :
    FailsOnly allowed (Policy.answer given : Ask α State Answer) := by
  intro _ fault _ run
  exact permitted fault (congrArg Prod.fst run)

end Ask.FailsOnly

structure Advisors.FailOnly (advisors : Advisors α State) (machines : List (Machine α))
    (known : Vm α → Prop) (tick : Tick α) (allowed : Fault α → Prop) : Prop where
  isOverloaded : ∀ host : Host α, host.Among machines known →
    (advisors.isOverloaded host tick).FailsOnly allowed
  staysOverloaded : ∀ host : Host α, host.Among machines known →
    (advisors.staysOverloaded host).FailsOnly allowed
  victim : ∀ host : Host α, host.Among machines known →
    (advisors.victim? host).FailsOnly allowed
  destination : ∀ vm, known vm → ∀ hosts : List (Host α),
    (∀ host ∈ hosts, host.Among machines known) → ∀ closed,
    (advisors.destination? vm hosts closed).FailsOnly allowed

theorem Policy.Founded.advisors [Scalar α] {policy : Policy α} {machines : List (Machine α)}
    {known : Vm α → Prop} {tick : Tick α} (founded : policy.Founded machines known allowed)
    (stamp : FailsOnly allowed tick.stamp) (draw : Draws → α × Draws) :
    (policy.advisors draw).FailOnly machines known tick allowed where
  isOverloaded _ among :=
    .bind (.answer (founded.observe among stamp)) fun _ => .bind (.modify _) fun _ => .pure _
  staysOverloaded _ among := .bind (.answer (founded.assess_now among)) fun _ => .pure _
  victim _ among := .answer (founded.victim? among)
  destination vm member hosts among closed := by
    refine .bind (.answer (founded.search among member closed)) fun search => ?_
    cases search with
    | settled host => exact .pure host
    | contested scored =>
      -- a draw settles it, and drawing cannot fail
      intro _ _ _ run
      cases run

/-! Steps -/

namespace Step

def FailsOnly (kept : Occupancy α → Prop) (allowed : Fault α → Prop) (step : Step α State Answer) :
    Prop :=
  ∀ progress, kept progress.occupancy →
    step.Ends progress (fun _ later => kept later.occupancy) fun fault _ => allowed fault

variable {kept : Occupancy α → Prop}

namespace FailsOnly

theorem pure (answer : Answer) : FailsOnly kept allowed (pure answer : Step α State Answer) :=
  fun _ holds => holds

theorem bind {step : Step α State Other} {next : Other → Step α State Answer}
    (first : FailsOnly kept allowed step) (second : ∀ answer, FailsOnly kept allowed (next answer)) :
    FailsOnly kept allowed (step >>= next) :=
  fun progress holds => (first progress holds).bind fun answer later => second answer later

theorem ask {question : Ask α State Answer} (permitted : question.FailsOnly allowed) :
    FailsOnly kept allowed (ask question) := by
  intro progress holds
  rw [ends_ask]
  exact ⟨fun _ _ _ => holds, fun fault later run => permitted _ fault later run⟩

theorem attempt {given : Except (Fault α) Answer} (permitted : Fleet.FailsOnly allowed given) :
    FailsOnly kept allowed (attempt given : Step α State Answer) := by
  intro progress holds
  rw [ends_attempt]
  exact ⟨fun _ _ => holds, permitted⟩

theorem look {machine : Machine α} {next : Host α → Step α State Answer}
    (later : ∀ now, kept now → FailsOnly kept allowed (next (now.host machine))) :
    FailsOnly kept allowed (Planner.look machine >>= next) :=
  fun progress holds => later progress.occupancy holds progress holds

theorem sieve {test : Item → Step α State Bool} {items : List Item}
    (each : ∀ item ∈ items, FailsOnly kept allowed (test item)) :
    FailsOnly kept allowed (sieve test items) := by
  induction items with
  | nil => exact .pure []
  | cons item rest ih =>
    obtain ⟨here, later⟩ := List.forall_mem_cons.mp each
    exact .bind here fun _ => .bind (ih later) fun _ => .pure _

end FailsOnly

theorem Ends.confined {step : Step α State Answer} {progress : Progress α State}
    {after : Answer → Progress α State → Prop} (ends : step.Ends progress after fun _ _ => True)
    (confined : step.FailsOnly kept allowed) (holds : kept progress.occupancy) :
    step.Ends progress (fun answer later => after answer later ∧ kept later.occupancy)
      fun fault _ => allowed fault :=
  (ends.and (confined progress holds)).mono (fun _ _ both => both) fun _ _ both => both.2

end Step

open Step

namespace Planner

variable [Scalar α] {kept : Occupancy α → Prop}

theorem byDemand_failsOnly {vm : Item → Vm α} {items : List Item}
    (demands : ∀ item ∈ items, Fleet.FailsOnly allowed (vm item).demand) :
    (byDemand vm items : Step α State (List Item)).FailsOnly kept allowed :=
  .bind (.attempt (.mapM fun item member => (demands item member).bind fun _ _ => .pure _))
    fun _ => .pure _

theorem byDemand_confined {vm : Item → Vm α} {items : List Item} {progress : Progress α State}
    (demands : ∀ item ∈ items, Fleet.FailsOnly allowed (vm item).demand)
    (holds : kept progress.occupancy) :
    (byDemand vm items : Step α State (List Item)).Ends progress
      (fun ordered later => ordered ⊆ items ∧ kept later.occupancy) fun fault _ => allowed fault := by
  have ordering : (byDemand vm items : Step α State (List Item)).Ends progress
      (fun ordered _ => ordered ⊆ items) fun _ _ => True :=
    ends_byDemand (fun _ order => order.subset) fun _ => trivial
  exact ordering.confined (byDemand_failsOnly demands) holds

section

variable {machines : List (Machine α)} (loads : ∀ now, kept now → ∀ machine ∈ machines,
  Fleet.FailsOnly allowed (now.host machine).utilization)
include loads

theorem isSwitchedOff_failsOnly {machine : Machine α} (member : machine ∈ machines) :
    (isSwitchedOff machine : Step α State Bool).FailsOnly kept allowed :=
  .look fun now holds => .bind (.attempt (loads now holds machine member)) fun _ => .pure _

theorem leastLoaded?_failsOnly {skipped : List String} {limit : α} {best : Option (Machine α)}
    {rest : List (Machine α)} (inside : rest ⊆ machines) :
    (leastLoaded? skipped limit best rest : Step α State _).FailsOnly kept allowed := by
  induction rest generalizing limit best with
  | nil => exact .pure best
  | cons machine rest ih =>
    obtain ⟨member, inside⟩ := List.cons_subset.mp inside
    unfold Planner.leastLoaded?
    split
    · exact ih inside
    · refine .look fun now holds => .bind (.attempt (loads now holds machine member))
        fun utilization => ?_
      split <;> exact ih inside

end

theorem consolidate_failsOnly {planner : Planner α State}
    (rounds : ∀ settled closed, (planner.round settled closed).FailsOnly kept allowed)
    (attempts : Nat) (settled closed : List String) :
    (planner.consolidate attempts settled closed).FailsOnly kept allowed := by
  induction attempts generalizing settled closed with
  | zero => exact .pure []
  | succ attempts ih =>
    rw [consolidate_succ]
    split
    · refine .bind (rounds settled closed) fun found => ?_
      cases found with
      | none => exact .pure []
      | some attempt => exact .bind (ih _ _) fun _ => .pure _
    · exact .pure []

end Planner

/-! Known VMs -/

def Known (machines : List (Machine α)) (known : Vm α → Prop) (now : Occupancy α) : Prop :=
  ∀ machine ∈ machines, ∀ vm ∈ now.residents machine.id, known vm

namespace Known

variable {machines : List (Machine α)} {known : Vm α → Prop} {now : Occupancy α}

theorem among (holds : Known machines known now) {machine : Machine α} (member : machine ∈ machines) :
    (now.host machine).Among machines known :=
  ⟨member, holds machine member⟩

theorem all (holds : Known machines known now) :
    ∀ host ∈ machines.map now.host, host.Among machines known := by
  intro host member
  obtain ⟨machine, machineMem, rfl⟩ := List.mem_map.mp member
  exact holds.among machineMem

theorem release (holds : Known machines known now) (host : String) (vm : Vm α) :
    Known machines known (now.release host vm) := fun machine member vm resident =>
  holds machine member vm ((now.residents_release_sublist _ _ _).subset resident)

theorem place (holds : Known machines known now) (host : String) {vm : Vm α} (new : known vm) :
    Known machines known (now.place host vm) := by
  intro machine member other resident
  rw [Occupancy.residents_place] at resident
  split at resident
  · next here =>
    rcases List.mem_append.mp resident with old | same
    · exact holds machine member other (here ▸ old)
    · exact List.mem_singleton.mp same ▸ new
  · exact holds machine member other resident

end Known

namespace Planner

variable [Scalar α] {planner : Planner α State} {known : Vm α → Prop} {tick : Tick α}
  {progress : Progress α State}

section

variable (reliable : planner.advisors.Reliable)
  (answers : planner.advisors.FailOnly planner.machines known tick allowed)
include reliable answers

theorem relieve_confined {machine : Machine α} (member : machine ∈ planner.machines) (rounds : Nat)
    (holds : Known planner.machines known progress.occupancy) :
    (planner.relieve machine rounds).Ends progress
      (fun vms later => Known planner.machines known later.occupancy ∧ ∀ vm ∈ vms, known vm)
      fun fault _ => allowed fault := by
  induction rounds generalizing progress with
  | zero => exact ⟨holds, fun _ absent => absurd absent List.not_mem_nil⟩
  | succ rounds ih =>
    rw [relieve, ends_bind, ends_look, ends_bind, ends_ask]
    refine ⟨fun found advisors run => ?_, fun fault _ run =>
      answers.victim _ (holds.among member) _ _ _ run⟩
    cases found with
    | none => exact ⟨holds, fun _ absent => absurd absent List.not_mem_nil⟩
    | some vm =>
      have victim : known vm := holds machine member vm (reliable.victim run).1
      have released := holds.release machine.id vm
      rw [ends_bind, ends_release, ends_bind, ends_look, ends_bind, ends_ask]
      refine ⟨fun overloaded advisors _ => ?_, fun fault _ run =>
        answers.staysOverloaded _ (released.among member) _ _ _ run⟩
      split
      · refine (ih released).bind fun others later known => ?_
        exact ⟨known.1, List.forall_mem_cons.mpr ⟨victim, known.2⟩⟩
      · exact ⟨released, List.forall_mem_singleton.mpr victim⟩

theorem selectVictims_confined {machines : List (Machine α)} (inside : machines ⊆ planner.machines)
    (holds : Known planner.machines known progress.occupancy) :
    (planner.selectVictims machines).Ends progress
      (fun evicted later => Known planner.machines known later.occupancy ∧
        ∀ pair ∈ evicted, known pair.1)
      fun fault _ => allowed fault := by
  induction machines generalizing progress with
  | nil => exact ⟨holds, fun _ absent => absurd absent List.not_mem_nil⟩
  | cons machine rest ih =>
    obtain ⟨member, inside⟩ := List.cons_subset.mp inside
    rw [selectVictims, ends_bind, ends_look]
    refine (relieve_confined reliable answers member _ holds).bind fun vms later relieved => ?_
    refine (ih inside relieved.1).bind fun others last selected => ⟨selected.1, fun pair pairMem => ?_⟩
    rcases List.mem_append.mp pairMem with here | elsewhere
    · obtain ⟨vm, vmMem, rfl⟩ := List.mem_map.mp here
      exact relieved.2 vm vmMem
    · exact selected.2 pair elsewhere

theorem selection_confined (holds : Known planner.machines known progress.occupancy) :
    (planner.selection tick).Ends progress
      (fun selected later => Known planner.machines known later.occupancy ∧
        ∀ pair ∈ selected.2, known pair.1)
      fun fault _ => allowed fault := by
  have judging (machine : Machine α) (member : machine ∈ planner.machines) :
      (look machine >>= fun host => ask (planner.advisors.isOverloaded host tick)).FailsOnly
        (Known planner.machines known) allowed :=
    .look fun now known => .ask (answers.isOverloaded _ (known.among member))
  have detecting (progress : Progress α State) : (planner.detect tick).Ends progress
      (fun overloaded _ => overloaded ⊆ planner.machines) fun _ _ => True :=
    ends_detect (fun _ _ sublist => sublist.subset) fun _ _ => trivial
  rw [selection, ends_bind, ends_enter]
  refine Ends.bind ((detecting _).confined (.sieve judging) (by exact holds))
    fun overloaded later detected => ?_
  rw [ends_bind, ends_clock, ends_bind, ends_enter, ends_bind]
  exact selectVictims_confined reliable answers detected.1 detected.2

end

/-- The planner works with known VMs, and what it computes or asks fails with allowed faults only. -/
structure Confined (planner : Planner α State) (known : Vm α → Prop) (tick : Tick α)
    (allowed : Fault α → Prop) : Prop where
  reliable : planner.advisors.Reliable
  answers : planner.advisors.FailOnly planner.machines known tick allowed
  demand : ∀ vm, known vm → Fleet.FailsOnly allowed vm.demand
  utilization : ∀ host : Host α, host.Among planner.machines known →
    Fleet.FailsOnly allowed host.utilization
  refusal : ∀ host vm reason, allowed (.refused host vm reason none)

section

variable (confined : planner.Confined known tick allowed)
include confined

theorem accept_confined {machine : Machine α} {vm : Vm α} {check : Bool} (new : known vm)
    (holds : Known planner.machines known progress.occupancy) :
    (accept machine vm check : Step α State Unit).Ends progress
      (fun _ later => Known planner.machines known later.occupancy) fun fault _ => allowed fault := by
  refine ends_accept (fun _ => holds.place machine.id new) fun fault refused => ?_
  unfold Host.refusal? at refused
  split at refused
  · exact Option.some.inj refused ▸ confined.refusal _ _ _
  · split at refused
    · exact Option.some.inj refused ▸ confined.refusal _ _ _
    · cases refused

theorem destination_confined {vm : Vm α} (member : known vm) (closed : List String)
    (holds : Known planner.machines known progress.occupancy) :
    (ask (planner.advisors.destination? vm (planner.machines.map progress.occupancy.host)
      closed)).Ends progress (fun _ later => Known planner.machines known later.occupancy)
      fun fault _ => allowed fault :=
  Step.FailsOnly.ask (confined.answers.destination vm member _ holds.all closed) progress holds

theorem placeVictims_confined {excluded : List String} {pairs : List (Vm α × String)}
    (members : ∀ pair ∈ pairs, known pair.1) :
    (planner.placeVictims excluded pairs).FailsOnly (Known planner.machines known) allowed := by
  induction pairs with
  | nil => exact .pure []
  | cons pair rest ih =>
    obtain ⟨member, members⟩ := List.forall_mem_cons.mp members
    intro progress holds
    rw [placeVictims, ends_bind, ends_lookAll, ends_bind]
    refine (destination_confined confined member excluded holds).imp fun found later holds => ?_
    cases found with
    | none => exact ih members _ holds
    | some host =>
      refine (accept_confined confined member holds).bind fun _ later holds => ?_
      rw [ends_bind]
      exact ih members later holds

theorem undo_confined {machine : Machine α} {moved : List (Vm α × String)}
    (members : ∀ pair ∈ moved, known pair.1) :
    (undo machine moved : Step α State Unit).FailsOnly (Known planner.machines known) allowed := by
  induction moved with
  | nil => exact .pure ()
  | cons pair rest ih =>
    obtain ⟨vm, destination⟩ := pair
    obtain ⟨member, members⟩ := List.forall_mem_cons.mp members
    intro progress holds
    rw [undo, ends_bind, ends_release]
    exact (accept_confined confined member (holds.release destination vm)).bind fun _ later holds =>
      ih members later holds

theorem moveAll_confined {machine : Machine α} {closed : List String} {waiting : List (Vm α)}
    {moved : List (Vm α × String)} (members : ∀ vm ∈ waiting, known vm)
    (past : ∀ pair ∈ moved, known pair.1) :
    (planner.moveAll machine closed moved waiting).FailsOnly (Known planner.machines known)
      allowed := by
  induction waiting generalizing moved with
  | nil => exact .pure _
  | cons vm rest ih =>
    obtain ⟨member, members⟩ := List.forall_mem_cons.mp members
    intro progress holds
    rw [moveAll, ends_bind, ends_lookAll, ends_bind]
    refine (destination_confined confined member closed holds).imp fun found later holds => ?_
    cases found with
    | none =>
      rw [ends_bind, ends_miss, ends_bind]
      exact undo_confined confined past _ holds
    | some host =>
      rw [ends_bind, ends_release]
      exact (accept_confined confined member (holds.release machine.id vm)).bind
        fun _ later holds =>
          ih members (List.forall_mem_cons.mpr ⟨member, past⟩) later holds

theorem drain_confined {machine : Machine α} (member : machine ∈ planner.machines)
    (closed : List String) :
    (planner.drain machine closed).FailsOnly (Known planner.machines known) allowed := by
  intro progress holds
  have residents : ∀ vm ∈ (progress.occupancy.host machine).vms.filter (!·.migrating), known vm :=
    fun vm vmMem => holds machine member vm (List.mem_filter.mp vmMem).1
  rw [drain, ends_bind, ends_look]
  refine Ends.bind (byDemand_confined (fun vm vmMem => confined.demand vm (residents vm vmMem))
    holds) fun waiting later ordered => ?_
  rw [ends_bind]
  exact moveAll_confined confined (fun vm vmMem => residents vm (ordered.1 vmMem))
    (fun _ absent => absurd absent List.not_mem_nil) later ordered.2

theorem loads (now : Occupancy α) (holds : Known planner.machines known now) (machine : Machine α)
    (member : machine ∈ planner.machines) :
    Fleet.FailsOnly allowed (now.host machine).utilization :=
  confined.utilization _ (holds.among member)

theorem round_confined (settled closed : List String) :
    (planner.round settled closed).FailsOnly (Known planner.machines known) allowed := by
  intro progress holds
  have named (progress : Progress α State) : (leastLoaded? settled planner.underload none
      planner.machines).Ends progress
        (fun found _ => ∀ machine, found = some machine → machine ∈ planner.machines)
        fun _ _ => True :=
    ends_leastLoaded? (fun found named machine same => (named machine same).1) fun _ => trivial
  rw [round, ends_bind, ends_enter]
  refine Ends.bind ((named _).confined (leastLoaded?_failsOnly (loads confined)
    (List.Subset.refl _)) (by exact holds)) fun found later looked => ?_
  cases found with
  | none => exact looked.2
  | some machine =>
    rw [ends_bind, ends_enter, ends_bind, ends_get]
    refine Ends.bind (drain_confined confined (looked.1 machine rfl) _ _ looked.2)
      fun outcome ended holds => ?_
    rw [ends_bind, ends_get, ends_bind, ends_modify, ends_pure, Progress.occupancy_note]
    exact holds

theorem explore_confined (holds : Known planner.machines known progress.occupancy) :
    (planner.explore tick).Ends progress
      (fun _ later => Known planner.machines known later.occupancy) fun fault _ => allowed fault := by
  rw [explore_eq]
  refine Ends.bind (selection_confined confined.reliable confined.answers holds) ?_
  rintro ⟨overloaded, evicted⟩ later ⟨holds, members⟩
  change (planner.relocation overloaded evicted).Ends _ _ _
  rw [relocation, ends_bind, ends_clock, ends_bind, ends_enter]
  refine Ends.bind (byDemand_confined (fun pair pairMem => confined.demand pair.1
    (members pair pairMem)) (by exact holds)) fun pairs later ordered => ?_
  refine Ends.bind (placeVictims_confined confined
    (fun pair pairMem => members pair (ordered.1 pairMem)) later ordered.2)
    fun placed later holds => ?_
  have draining : (planner.drainUnderloaded (overloaded.map (·.id)) placed).FailsOnly
      (Known planner.machines known) allowed :=
    .bind (.sieve fun machine member => isSwitchedOff_failsOnly (loads confined) member) fun _ =>
      consolidate_failsOnly (round_confined confined) _ _ _
  rw [ends_bind, ends_clock, ends_bind]
  exact draining _ holds

end

end Planner

end Fleet.Plan
