import Fleet.Proofs.Attempt
import Fleet.Proofs.Plan.Outcome

/-! Steps of a cycle that look at hosts and move no VM.

Each rule says what is known of the answer; the state after the step is the one before it, but for
what the advisors keep.
-/

set_option autoImplicit false

namespace Fleet.Plan

open Step

variable {α State Answer Item : Type} {progress : Progress α State}

theorem ends_sieve {test : Item → Step α State Bool} (kept : Progress α State → Prop)
    (broken : Fault α → Progress α State → Prop)
    (keeps : ∀ item progress, kept progress → (test item).Ends progress (fun _ => kept) broken)
    (items : List Item) (holds : kept progress) :
    (sieve test items).Ends progress (fun passed later => passed.Sublist items ∧ kept later)
      broken := by
  induction items generalizing progress with
  | nil => exact ⟨.slnil, holds⟩
  | cons item rest ih =>
    rw [sieve]
    refine (keeps item progress holds).bind fun verdict later holds => (ih holds).bind ?_
    rintro others last ⟨sublist, holds⟩
    cases verdict with
    | false => exact ⟨sublist.cons item, holds⟩
    | true => exact ⟨sublist.cons_cons item, holds⟩

theorem ends_sieve_filter {test : Item → Step α State Bool} (judge : Item → Bool)
    (sound : Item → Prop) (kept : Progress α State → Prop)
    (broken : Fault α → Progress α State → Prop)
    (judges : ∀ item progress, kept progress → (test item).Ends progress
      (fun verdict later => verdict = judge item ∧ sound item ∧ kept later) broken)
    (items : List Item) (holds : kept progress) :
    (sieve test items).Ends progress
      (fun passed later => passed = items.filter judge ∧ (∀ item ∈ items, sound item) ∧ kept later)
      broken := by
  induction items generalizing progress with
  | nil => exact ⟨rfl, fun _ absent => absurd absent List.not_mem_nil, holds⟩
  | cons item rest ih =>
    rw [sieve]
    refine (judges item progress holds).bind ?_
    rintro _ later ⟨rfl, here, holds⟩
    refine (ih holds).bind ?_
    rintro _ last ⟨rfl, others, holds⟩
    exact ⟨List.filter_cons.symm, List.forall_mem_cons.mpr ⟨here, others⟩, holds⟩

namespace Planner

variable {broken : Fault α → Progress α State → Prop}

@[simp] theorem ends_look {after : Host α → Progress α State → Prop} (machine : Machine α) :
    (look machine : Step α State (Host α)).Ends progress after broken ↔
      after (progress.occupancy.host machine) progress := Iff.rfl

@[simp] theorem ends_lookAll {after : List (Host α) → Progress α State → Prop}
    (planner : Planner α State) :
    planner.lookAll.Ends progress after broken ↔
      after (planner.machines.map progress.occupancy.host) progress := Iff.rfl

theorem ends_detect {planner : Planner α State} {tick : Tick α}
    {after : List (Machine α) → Progress α State → Prop}
    (detected : ∀ overloaded advisors, overloaded.Sublist planner.machines →
      after overloaded { progress with advisors })
    (failed : ∀ fault advisors, broken fault { progress with advisors }) :
    (planner.detect tick).Ends progress after broken := by
  let kept := fun later : Progress α State => ∃ advisors, later = { progress with advisors }
  refine (ends_sieve kept (fun _ => kept) ?_ planner.machines
    ⟨progress.advisors, rfl⟩).mono ?_ ?_
  · rintro machine _ ⟨advisors, rfl⟩
    rw [ends_bind, ends_look, ends_ask]
    exact ⟨fun _ advisors _ => ⟨advisors, rfl⟩, fun _ advisors _ => ⟨advisors, rfl⟩⟩
  · rintro overloaded _ ⟨sublist, advisors, rfl⟩
    exact detected overloaded advisors sublist
  · rintro fault _ ⟨advisors, rfl⟩
    exact failed fault advisors

variable [Scalar α]

theorem ends_byDemand {vm : Item → Vm α} {items : List Item}
    {after : List Item → Progress α State → Prop}
    (ordered : ∀ ordered : List Item, ordered.Perm items → after ordered progress)
    (failed : ∀ fault, broken fault progress) :
    (byDemand vm items : Step α State (List Item)).Ends progress after broken := by
  rw [byDemand, ends_bind, ends_attempt]
  refine ⟨fun keyed read => ?_, fun fault _ => failed fault⟩
  obtain ⟨listed, -⟩ :=
    (Attempt.mapM_made_eq_ok_iff Prod.snd Prod.fst (fun _ _ => ⟨rfl, rfl⟩) fun _ => rfl).mp read
  exact ordered _ (listed ▸ (Order.descending_perm keyed).map (·.2))

theorem ends_leastLoaded? {skipped : List String} {limit : α} {machines : List (Machine α)}
    {after : Option (Machine α) → Progress α State → Prop}
    (named : ∀ found, (∀ machine, found = some machine → machine ∈ machines ∧
        machine.id ∉ skipped ∧ isPinned (progress.occupancy.host machine) = false) →
      after found progress)
    (failed : ∀ fault, broken fault progress) :
    (leastLoaded? skipped limit none machines).Ends progress after broken := by
  suffices general : ∀ (rest : List (Machine α)) (limit : α) (best : Option (Machine α)),
      rest ⊆ machines →
      (∀ machine, best = some machine → machine ∈ machines ∧ machine.id ∉ skipped ∧
        isPinned (progress.occupancy.host machine) = false) →
      (leastLoaded? skipped limit best rest).Ends progress after broken from
    general machines limit none (List.Subset.refl _) (fun _ absent => by cases absent)
  intro rest
  induction rest with
  | nil => exact fun _ best _ known => named best known
  | cons machine rest ih =>
    intro limit best inside known
    obtain ⟨member, inside⟩ := List.cons_subset.mp inside
    unfold leastLoaded?
    split
    · exact ih limit best inside known
    · next fresh =>
      rw [ends_bind, ends_look, ends_bind, ends_attempt]
      refine ⟨fun utilization _ => ?_, fun fault _ => failed fault⟩
      split
      · next better =>
        refine ih utilization (some machine) inside fun other same => ?_
        obtain rfl := Option.some.inj same
        exact ⟨member, fresh, by simpa using better.2⟩
      · exact ih limit best inside known

omit [Scalar α] in
theorem isPinned_eq_false {host : Host α} : isPinned host = false ↔
    (∀ vm ∈ host.vms, vm.id ∉ host.arriving) ∧ ∃ vm ∈ host.vms, vm.migrating = false := by
  simp [isPinned, List.any_eq_false, List.all_eq_false]

def isIdle (host : Host α) : Bool :=
  match host.utilization with
  | .ok utilization => utilization == 0.0
  | .error _ => false

theorem ends_switchedOff {machines : List (Machine α)}
    {after : List (Machine α) → Progress α State → Prop}
    (judged : (∀ machine ∈ machines, ∃ utilization,
        (progress.occupancy.host machine).utilization = .ok utilization) →
      after (machines.filter fun machine => isIdle (progress.occupancy.host machine)) progress)
    (failed : ∀ fault, broken fault progress) :
    (sieve isSwitchedOff machines).Ends progress after broken := by
  refine (ends_sieve_filter (fun machine => isIdle (progress.occupancy.host machine))
    (fun machine => ∃ utilization,
      (progress.occupancy.host machine).utilization = .ok utilization)
    (· = progress) broken ?_ machines rfl).imp ?_
  · rintro machine _ rfl
    rw [isSwitchedOff, ends_bind, ends_look, ends_bind, ends_attempt]
    refine ⟨fun utilization known => ⟨?_, ⟨utilization, known⟩, rfl⟩, fun fault _ => failed fault⟩
    simp only [isIdle, known]
  · rintro _ _ ⟨rfl, known, rfl⟩
    exact judged known

end Planner

end Fleet.Plan
