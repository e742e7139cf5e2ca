import Fleet.Proofs.Plan.Independence
import Fleet.Proofs.Unnumbered.Policy

/-! The tentative phases of a cycle do not look at serials.

Two runs are compared, the second one over the same machines with the same VMs but for their serials.
What the VMs are labelled with is left out as well: a cycle writes labels and decides nothing by them.
This is no renaming, which keeps serials and carries the labels over, so it has its own comparison of
states and shares the one of endings.
-/

set_option autoImplicit false

namespace Fleet

variable {α : Type}

namespace Occupancy

/-- The second occupancy has the residents of the first one, without their serials. -/
def Unnumbered (first second : Occupancy α) : Prop :=
  ∀ id, second.residents id = (first.residents id).map Vm.unnumbered

namespace Unnumbered

variable {first second : Occupancy α} (same : first.Unnumbered second)
include same

theorem host_eq (machine : Machine α) : second.host machine = (first.host machine).unnumbered := by
  simp only [host, Host.unnumbered, same machine.id]

theorem setResidents (host : String) (vms : List (Vm α)) :
    (first.setResidents host vms).Unnumbered
      (second.setResidents host (vms.map Vm.unnumbered)) := by
  intro id
  simp only [Occupancy.setResidents]
  split
  · rfl
  · exact same id

theorem place (host : String) (vm : Vm α) :
    (first.place host vm).Unnumbered (second.place host vm.unnumbered) := by
  intro id
  rw [residents_place, residents_place, same id, same host]
  split
  · rw [List.map_append, List.map_singleton]
  · rfl

theorem release (host : String) (vm : Vm α) :
    (first.release host vm).Unnumbered (second.release host vm.unnumbered) := by
  intro id
  rw [residents_release, residents_release, same id, same host]
  split
  · rw [List.filter_map]
    rfl
  · rfl

end Unnumbered

end Occupancy

namespace Plan

variable {State Answer Other Item : Type}

inductive Progress.Unnumbered (first : Progress α State) : Progress α State → Prop
  | mk {occupancy : Occupancy α} :
      first.occupancy.Unnumbered occupancy → Unnumbered first { first with occupancy }

namespace Step

/-- From states that differ in serials alone, the second step does what the first one does. -/
abbrev Follows (rename : Answer → Other) (first : Step α State Answer)
    (second : Step α State Other) : Prop :=
  Mirrors Renaming.id Progress.Unnumbered rename first second

theorem follows_attempt {rename : Answer → Other} {given : Except (Fault α) Answer}
    {givenOther : Except (Fault α) Other} (renamed : givenOther = given.map rename) :
    Follows rename (attempt given : Step α State Answer) (attempt givenOther) := by
  subst renamed
  intro now other same
  cases given with
  | ok answer => exact .ok answer same
  | error fault =>
    have ending : Ending Renaming.id Progress.Unnumbered rename (.error fault, now)
        (.error (fault.renamed Renaming.id), other) := .error fault same
    rwa [Fault.renamed_id] at ending

theorem follows_attempt_id {given givenOther : Except (Fault α) Answer} (same : givenOther = given) :
    Follows id (attempt given : Step α State Answer) (attempt givenOther) :=
  follows_attempt (by cases given <;> exact same)

theorem follows_ask {rename : Answer → Other} {question : Ask α State Answer}
    {questionOther : Ask α State Other} (renamed : questionOther = rename <$> question) :
    Follows rename (ask question) (ask questionOther) := by
  subst renamed
  rintro now _ ⟨same⟩
  have answered : (rename <$> question).run.run now.advisors =
      ((question.run.run now.advisors).1.map rename, (question.run.run now.advisors).2) := by
    rw [ExceptT.run_map, StateT.run_map]
    rfl
  change Ending Renaming.id Progress.Unnumbered rename
    ((question.run.run now.advisors).1, { now with advisors := (question.run.run now.advisors).2 })
    (((rename <$> question).run.run now.advisors).1,
      { now with advisors := ((rename <$> question).run.run now.advisors).2, occupancy := _ })
  rw [answered]
  exact follows_attempt rfl _ _ (.mk same)

theorem follows_ask_id {question questionOther : Ask α State Answer}
    (same : questionOther = question) : Follows id (ask question) (ask questionOther) :=
  follows_ask (same.trans (id_map question).symm)

theorem follows_modify {change : Progress α State → Progress α State}
    (apart : ∀ now occupancy, change { now with occupancy } = { change now with occupancy }) :
    Follows id (modify change : Step α State Unit) (modify change) := by
  rintro now _ @⟨occupancy, same⟩
  have kept : (change now).occupancy = now.occupancy :=
    (congrArg Progress.occupancy (apart now now.occupancy) :)
  have changed := apart now occupancy
  change Ending Renaming.id _ _ (.ok (), change now) (.ok (), change { now with occupancy })
  rw [changed]
  exact .ok () (.mk (kept ▸ same))

theorem follows_setOccupancy {change changeOther : Occupancy α → Occupancy α}
    (keeps : ∀ first second, Occupancy.Unnumbered first second →
      (change first).Unnumbered (changeOther second)) :
    Follows id (setOccupancy change : Step α State Unit) (setOccupancy changeOther) := by
  rintro now _ ⟨same⟩
  exact .ok () (.mk (keeps _ _ same))

theorem follows_release (host : String) (vm : Vm α) :
    Follows id (release host vm : Step α State Unit) (release host vm.unnumbered) :=
  follows_setOccupancy fun _ _ same => same.release host vm

theorem follows_sieve {test : Item → Step α State Bool}
    (each : ∀ item, Follows id (test item) (test item)) (items : List Item) :
    Follows id (sieve test items) (sieve test items) := by
  have mirrored : Follows (List.map id) (sieve test items) (sieve test (items.map id)) :=
    .sieve each items
  rwa [List.map_id_fun] at mirrored

variable [Scalar α]

theorem follows_accept (machine : Machine α) (vm : Vm α) (check : Bool) :
    Follows id (accept machine vm check : Step α State Unit)
      (accept machine vm.unnumbered check) := by
  rintro now _ ⟨same⟩
  rw [run_accept, run_accept]
  dsimp only
  rw [same.host_eq, Host.refusal?_unnumbered]
  cases (now.occupancy.host machine).refusal? vm check with
  | some fault => exact follows_attempt_id rfl _ _ (.mk same)
  | none => exact .ok () (.mk (same.place machine.id vm))

end Step

open Step

structure Advisors.Unnumbered (advisors : Advisors α State) : Prop where
  isOverloaded : ∀ host tick,
    advisors.isOverloaded host.unnumbered tick = advisors.isOverloaded host tick
  staysOverloaded : ∀ host, advisors.staysOverloaded host.unnumbered = advisors.staysOverloaded host
  victim : ∀ host, advisors.victim? host.unnumbered =
    Option.map Vm.unnumbered <$> advisors.victim? host
  destination : ∀ vm hosts closed,
    advisors.destination? vm.unnumbered (hosts.map Host.unnumbered) closed =
      Option.map Host.unnumbered <$> advisors.destination? vm hosts closed

namespace Planner

theorem follows_look (machine : Machine α) :
    Follows Host.unnumbered (look machine : Step α State (Host α)) (look machine) := by
  rintro now _ ⟨same⟩
  change Ending Renaming.id _ _ (.ok (now.occupancy.host machine), now) (.ok (Occupancy.host _ machine), _)
  rw [same.host_eq]
  exact .ok _ (.mk same)

variable {planner : Planner α State}

theorem follows_lookAll : Follows (List.map Host.unnumbered) planner.lookAll planner.lookAll := by
  rintro now _ @⟨occupancy, same⟩
  have hosts : planner.machines.map occupancy.host =
      (planner.machines.map now.occupancy.host).map Host.unnumbered := by
    rw [List.map_map]
    exact List.map_congr_left fun machine _ => same.host_eq machine
  change Ending Renaming.id _ _ (.ok (planner.machines.map now.occupancy.host), now)
    (.ok (planner.machines.map occupancy.host), _)
  rw [hosts]
  exact .ok _ (.mk same)

abbrev pairUnnumbered : Vm α × String → Vm α × String := Prod.map Vm.unnumbered id

section

variable (blind : planner.advisors.Unnumbered)
include blind

theorem follows_detect (tick : Tick α) : Follows id (planner.detect tick) (planner.detect tick) :=
  follows_sieve (fun machine => (follows_look machine).bind fun host =>
    follows_ask_id (blind.isOverloaded host tick)) _

theorem follows_relieve (machine : Machine α) (rounds : Nat) :
    Follows (List.map Vm.unnumbered) (planner.relieve machine rounds)
      (planner.relieve machine rounds) := by
  induction rounds with
  | zero => exact .pure []
  | succ rounds ih =>
    refine (follows_look machine).bind fun host =>
      (follows_ask (blind.victim host)).bind fun victim => ?_
    cases victim with
    | none => exact .pure []
    | some vm =>
      refine (follows_release machine.id vm).bind fun _ => (follows_look machine).bind fun host =>
        (follows_ask_id (blind.staysOverloaded host)).bind fun overloaded => ?_
      cases overloaded with
      | true => exact ih.bind fun others => .pure (vm :: others)
      | false => exact .pure [vm]

theorem follows_selectVictims (machines : List (Machine α)) :
    Follows (List.map pairUnnumbered) (planner.selectVictims machines)
      (planner.selectVictims machines) := by
  induction machines with
  | nil => exact .pure []
  | cons machine rest ih =>
    refine (follows_look machine).bind fun host => ?_
    -- both runs have as many rounds, one for each VM
    rw [Host.vms_unnumbered, List.length_map]
    refine (follows_relieve blind machine _).bind fun vms => ih.bind fun others => ?_
    have pairs : (vms.map Vm.unnumbered).map (·, machine.id) ++ others.map pairUnnumbered =
        (vms.map (·, machine.id) ++ others).map pairUnnumbered := by
      simp [Function.comp_def]
    exact pairs ▸ .pure _

variable [Scalar α]

theorem follows_placeVictims (excluded : List String) (pairs : List (Vm α × String)) :
    Follows id (planner.placeVictims excluded pairs)
      (planner.placeVictims excluded (pairs.map pairUnnumbered)) := by
  induction pairs with
  | nil => exact .pure []
  | cons pair rest ih =>
    obtain ⟨vm, origin⟩ := pair
    refine follows_lookAll.bind fun hosts =>
      (follows_ask (blind.destination vm hosts excluded)).bind fun destination => ?_
    cases destination with
    | none => exact (follows_modify fun _ _ => rfl).bind fun _ => ih
    | some host =>
      exact (follows_accept host.toMachine vm true).bind fun _ => ih.bind fun moves =>
        .pure (⟨vm.id, origin, host.id⟩ :: moves)

end

/-! Draining -/

theorem isPinned_unnumbered (host : Host α) : isPinned host.unnumbered = isPinned host := by
  unfold isPinned
  rw [Host.vms_unnumbered, List.any_map, List.all_map]
  rfl

section

variable [Scalar α]

theorem follows_byDemand {vm : Item → Vm α} (change : Item → Item)
    (vms : ∀ item, vm (change item) = (vm item).unnumbered) (items : List Item) :
    Follows (List.map change) (byDemand vm items : Step α State (List Item))
      (byDemand vm (items.map change)) := by
  have keyed : ((items.map change).mapM fun item => do pure ((← (vm item).demand), item)) =
      (items.mapM fun item => do pure ((← (vm item).demand), item)).map
        (List.map (Prod.map id change)) :=
    Attempt.mapM_map (fun item => by
      rw [vms]
      change (do pure ((← (vm item).demand), change item)) = _
      cases (vm item).demand <;> rfl) items
  unfold byDemand
  rw [keyed]
  refine (follows_attempt rfl).bind fun keyed => ?_
  rw [Order.descending_map, List.map_map]
  have items : (Order.descending keyed).map (Prod.snd ∘ Prod.map id change) =
      ((Order.descending keyed).map (·.2)).map change := by
    rw [List.map_map]
    rfl
  exact items ▸ .pure _

theorem follows_leastLoaded? (skipped : List String) (limit : α) (best : Option (Machine α))
    (machines : List (Machine α)) :
    Follows id (leastLoaded? skipped limit best machines : Step α State (Option (Machine α)))
      (leastLoaded? skipped limit best machines) := by
  induction machines generalizing limit best with
  | nil => exact .pure best
  | cons machine rest ih =>
    unfold leastLoaded?
    split
    · exact ih limit best
    · refine (follows_look machine).bind fun host =>
        (follows_attempt_id host.utilization_unnumbered).bind fun utilization => ?_
      rw [isPinned_unnumbered]
      unfold id
      split
      · exact ih utilization (some machine)
      · exact ih limit best

theorem follows_undo (machine : Machine α) (moved : List (Vm α × String)) :
    Follows id (undo machine moved : Step α State Unit)
      (undo machine (moved.map pairUnnumbered)) := by
  induction moved with
  | nil => exact .pure ()
  | cons pair rest ih =>
    exact (follows_release pair.2 pair.1).bind fun _ =>
      (follows_accept machine pair.1 false).bind fun _ => ih

variable (blind : planner.advisors.Unnumbered)
include blind

theorem follows_moveAll (machine : Machine α) (closed : List String)
    (moved : List (Vm α × String)) (waiting : List (Vm α)) :
    Follows (Option.map (List.map pairUnnumbered)) (planner.moveAll machine closed moved waiting)
      (planner.moveAll machine closed (moved.map pairUnnumbered) (waiting.map Vm.unnumbered)) := by
  induction waiting generalizing moved with
  | nil =>
    rw [List.map_nil, moveAll, moveAll, ← List.map_reverse]
    exact .pure (some moved.reverse)
  | cons vm rest ih =>
    refine follows_lookAll.bind fun hosts =>
      (follows_ask (blind.destination vm hosts closed)).bind fun destination => ?_
    cases destination with
    | none =>
      exact (follows_modify fun _ _ => rfl).bind fun _ => (follows_undo machine moved).bind fun _ =>
        .pure none
    | some host =>
      exact (follows_release machine.id vm).bind fun _ =>
        (follows_accept host.toMachine vm true).bind fun _ => ih ((vm, host.id) :: moved)

theorem follows_drain (machine : Machine α) (closed : List String) :
    Follows id (planner.drain machine closed) (planner.drain machine closed) := by
  refine (follows_look machine).bind fun host => ?_
  dsimp only
  rw [Host.vms_unnumbered, Vm.movable_unnumbered]
  refine (follows_byDemand Vm.unnumbered (fun _ => rfl) _).bind fun waiting => ?_
  refine (follows_moveAll blind machine closed [] waiting).bind fun moved => ?_
  have moves : (moved.map (List.map pairUnnumbered)).map
      (fun pairs => pairs.map fun pair => (⟨pair.1.id, machine.id, pair.2⟩ : Move)) =
      moved.map fun pairs => pairs.map fun pair => ⟨pair.1.id, machine.id, pair.2⟩ := by
    cases moved <;> simp
  exact moves ▸ .pure _

theorem follows_consolidate (attempts : Nat) (settled closed : List String) :
    Follows id (planner.consolidate attempts settled closed)
      (planner.consolidate attempts settled closed) := by
  induction attempts generalizing settled closed with
  | zero => exact .pure []
  | succ attempts ih =>
    unfold consolidate
    split
    · refine (follows_modify fun _ _ => rfl).bind fun _ =>
        (follows_leastLoaded? settled planner.underload none planner.machines).bind fun found => ?_
      cases found with
      | none => exact .pure []
      | some machine =>
        refine (follows_modify fun _ _ => rfl).bind fun _ =>
          (follows_drain blind machine (closed.insert machine.id)).bind fun outcome => ?_
        -- put back, nothing to move, moved
        rcases outcome with _ | _ | ⟨move, rest⟩
        · exact (follows_modify fun _ _ => rfl).bind fun _ => ih _ _
        · exact ih _ _
        · exact (follows_modify fun _ _ => rfl).bind fun _ => (ih _ _).bind fun _ => .pure _
    · exact .pure []

theorem follows_drainUnderloaded (overloaded : List String) (placed : List Move) :
    Follows id (planner.drainUnderloaded overloaded placed)
      (planner.drainUnderloaded overloaded placed) := by
  have judge (machine : Machine α) :
      Follows id (isSwitchedOff machine : Step α State Bool) (isSwitchedOff machine) :=
    (follows_look machine).bind fun host =>
      (follows_attempt_id host.utilization_unnumbered).bind fun _ => .pure _
  exact (follows_sieve judge planner.machines).bind fun off => follows_consolidate blind _ _ _

variable (planner) in
theorem follows_explore (tick : Tick α) :
    Follows id (planner.explore tick) (planner.explore tick) := by
  refine (follows_modify fun _ _ => rfl).bind fun _ => (follows_detect blind tick).bind
    fun overloaded => (follows_modify fun _ _ => rfl).bind fun _ =>
      (follows_modify fun _ _ => rfl).bind fun _ => (follows_selectVictims blind overloaded).bind
        fun evicted => (follows_modify fun _ _ => rfl).bind fun _ =>
          (follows_modify fun _ _ => rfl).bind fun _ => ?_
  have evictedIds : (evicted.map pairUnnumbered).map (·.1.id) = evicted.map (·.1.id) := by
    simp
  dsimp only
  rw [evictedIds]
  exact (follows_byDemand pairUnnumbered (fun _ => rfl) evicted).bind fun ordered =>
    (follows_placeVictims blind _ ordered).bind fun placed => (follows_modify fun _ _ => rfl).bind
      fun _ => (follows_drainUnderloaded blind _ placed).bind fun _ => .pure _

end

end Planner

end Plan

end Fleet
