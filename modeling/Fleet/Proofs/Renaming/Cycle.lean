import Fleet.Proofs.Attempt
import Fleet.Proofs.Plan.Outcome
import Fleet.Proofs.Renaming.Order
import Fleet.Proofs.Renaming.Policy

/-! A cycle under other names does the same, step by step.

Two runs are compared that begin with the same under two sets of names. Each step ends in both with
the same answer or the same fault, and leaves behind the same, again but for the names.
-/

set_option autoImplicit false

namespace Fleet

variable {α : Type} {names : Renaming}

def Move.renamed (names : Renaming) (move : Move) : Move :=
  ⟨names.vm move.vm, names.host move.source, names.host move.destination⟩

namespace Occupancy

/-- The second occupancy is the first one under the new names. -/
structure Renamed (names : Renaming) (first second : Occupancy α) : Prop where
  residents : ∀ id, second.residents (names.host id) = (first.residents id).map (Vm.renamed names)
  home : ∀ vm serial,
    second.home (names.vm vm, serial) = (first.home (vm, serial)).map names.host

namespace Renamed

variable {first second : Occupancy α} (renamed : Renamed names first second)
include renamed

theorem host_eq (machine : Machine α) :
    second.host (machine.renamed names) = (first.host machine).renamed names := by
  simp only [host, Host.renamed, Machine.id_renamed, renamed.residents]

theorem setResidents (host : String) (vms : List (Vm α)) :
    Renamed names (first.setResidents host vms)
      (second.setResidents (names.host host) (vms.map (Vm.renamed names))) where
  residents id := by
    simp only [Occupancy.setResidents, Renaming.host_eq]
    split
    · rfl
    · exact renamed.residents id
  home := renamed.home

theorem setHome (vm : Vm α) (host : Option String) :
    Renamed names (first.setHome vm host)
      (second.setHome (vm.renamed names) (host.map names.host)) where
  residents := renamed.residents
  home id serial := by
    simp only [Occupancy.setHome, Vm.key, Vm.renamed, Prod.mk.injEq, Renaming.vm_eq]
    split
    · rfl
    · exact renamed.home id serial

theorem place (host : String) (vm : Vm α) :
    Renamed names (first.place host vm) (second.place (names.host host) (vm.renamed names)) := by
  unfold Occupancy.place
  rw [renamed.residents, ← List.map_singleton, ← List.map_append]
  exact (renamed.setResidents host _).setHome vm (some host)

theorem release (host : String) (vm : Vm α) :
    Renamed names (first.release host vm)
      (second.release (names.host host) (vm.renamed names)) := by
  have kept : ((first.residents host).map (Vm.renamed names)).filter (·.id != names.vm vm.id) =
      ((first.residents host).filter (·.id != vm.id)).map (Vm.renamed names) := by
    rw [List.filter_map]
    congr 2
    funext old
    simp [bne]
  have label : second.home (vm.renamed names).key = some (names.host host) ↔
      first.home vm.key = some host := by
    have home := renamed.home vm.id vm.serial
    change second.home (names.vm vm.id, vm.serial) = _ ↔ _
    rw [home, ← Option.map_some]
    exact (Option.map_injective names.host_injective).eq_iff
  unfold Occupancy.release
  simp only [Vm.id_renamed, renamed.residents, kept, label]
  split
  · exact (renamed.setResidents host _).setHome vm none
  · exact renamed.setResidents host _

end Renamed

end Occupancy

namespace Plan

variable {State Before After Answer Other Item : Type}

def Miss.renamed (names : Renaming) (miss : Miss) : Miss :=
  ⟨names.vm miss.vm, names.host miss.origin, miss.phase⟩

def Findings.renamed (names : Renaming) (findings : Findings) : Findings where
  moves := findings.moves.map (Move.renamed names)
  overloaded := findings.overloaded.map names.host
  evicted := findings.evicted.map names.vm

structure Progress.Renamed (names : Renaming) (states : State → State → Prop)
    (first second : Progress α State) : Prop where
  occupancy : first.occupancy.Renamed names second.occupancy
  phase : second.phase = first.phase
  timings : second.timings = first.timings
  misses : second.misses = first.misses.map (Miss.renamed names)
  drained : second.drained = first.drained.map names.host
  cancelled : second.cancelled = first.cancelled.map names.host
  advisors : states first.advisors second.advisors

/-! Computations with a state -/

/-- Both computations end with an answer or both with a fault, the same one under the new names. -/
inductive Ending (names : Renaming) (related : Before → Before → Prop) (rename : Answer → Other) :
    Except (Fault α) Answer × Before → Except (Fault α) Other × Before → Prop
  | ok (answer : Answer) {later last : Before} : related later last →
      Ending names related rename (.ok answer, later) (.ok (rename answer), last)
  | error (fault : Fault α) {later last : Before} : related later last →
      Ending names related rename (.error fault, later) (.error (fault.renamed names), last)

theorem Ending.imp {related weaker : Before → Before → Prop} {rename : Answer → Other}
    {first : Except (Fault α) Answer × Before} {second : Except (Fault α) Other × Before}
    (ending : Ending names related rename first second)
    (weaken : ∀ later last, related later last → weaker later last) :
    Ending names weaker rename first second := by
  cases ending with
  | ok answer same => exact .ok answer (weaken _ _ same)
  | error fault same => exact .error fault (weaken _ _ same)

/-- From related states, the second computation does what the first one does. -/
def Mirrors (names : Renaming) (related : Before → Before → Prop) (rename : Answer → Other)
    (first : ExceptT (Fault α) (StateM Before) Answer)
    (second : ExceptT (Fault α) (StateM Before) Other) : Prop :=
  ∀ now other, related now other →
    Ending names related rename (first.run.run now) (second.run.run other)

namespace Mirrors

variable {related : Before → Before → Prop} {rename : Answer → Other}

theorem pure (answer : Answer) : Mirrors names related rename
    (pure answer : ExceptT (Fault α) (StateM Before) Answer) (pure (rename answer)) :=
  fun _ _ same => .ok answer same

theorem throw (fault : Fault α) : Mirrors names related rename
    (throw fault : ExceptT (Fault α) (StateM Before) Answer) (throw (fault.renamed names)) :=
  fun _ _ same => .error fault same

theorem bind {Middle MiddleOther : Type} {middle : Middle → MiddleOther}
    {first : ExceptT (Fault α) (StateM Before) Middle}
    {second : ExceptT (Fault α) (StateM Before) MiddleOther}
    {next : Middle → ExceptT (Fault α) (StateM Before) Answer}
    {nextOther : MiddleOther → ExceptT (Fault α) (StateM Before) Other}
    (mirrors : Mirrors names related middle first second)
    (later : ∀ answer, Mirrors names related rename (next answer) (nextOther (middle answer))) :
    Mirrors names related rename (first >>= next) (second >>= nextOther) := by
  intro now other same
  have ending := mirrors now other same
  simp only [ExceptT.run_bind, StateT.run_bind]
  generalize first.run.run now = left at ending ⊢
  generalize second.run.run other = right at ending ⊢
  cases ending with
  | ok answer same => exact later answer _ _ same
  | error fault same => exact .error fault same

theorem sieve {other : Item → Other} {test : Item → ExceptT (Fault α) (StateM Before) Bool}
    {testOther : Other → ExceptT (Fault α) (StateM Before) Bool}
    (each : ∀ item, Mirrors names related id (test item) (testOther (other item)))
    (items : List Item) :
    Mirrors names related (List.map other) (sieve test items)
      (Fleet.sieve testOther (items.map other)) := by
  induction items with
  | nil => exact .pure []
  | cons item rest ih =>
    refine (each item).bind fun passed => ih.bind fun others => ?_
    cases passed with
    | true => exact .pure (item :: others)
    | false => exact .pure others

end Mirrors

/-! Single steps -/

namespace Step

variable {states : State → State → Prop} {rename : Answer → Other}

theorem mirrors_attempt {first : Except (Fault α) Answer} {second : Except (Fault α) Other}
    (alike : Alike names rename first second) :
    Mirrors names (Progress.Renamed names states) rename (attempt first) (attempt second) := by
  intro now other same
  cases alike with
  | ok answer => exact .ok answer same
  | error fault _ => exact .error fault same

theorem mirrors_modify {change changeOther : Progress α State → Progress α State}
    (keeps : ∀ now other, now.Renamed names states other →
      (change now).Renamed names states (changeOther other)) :
    Mirrors names (Progress.Renamed names states) id (modify change : Step α State Unit)
      (modify changeOther) :=
  fun now other same => .ok () (keeps now other same)

theorem mirrors_ask {first : Ask α State Answer} {second : Ask α State Other}
    (mirrors : Mirrors names states rename first second) :
    Mirrors names (Progress.Renamed names states) rename (ask first) (ask second) := by
  intro now other same
  -- of all that the cycle keeps, a question sees what the advisors keep
  have ending := mirrors now.advisors other.advisors same.advisors
  change Ending names (Progress.Renamed names states) rename
    ((first.run.run now.advisors).1, { now with advisors := (first.run.run now.advisors).2 })
    ((second.run.run other.advisors).1, { other with advisors := (second.run.run other.advisors).2 })
  generalize first.run.run now.advisors = left at ending ⊢
  generalize second.run.run other.advisors = right at ending ⊢
  cases ending with
  | ok answer advisors => exact .ok answer { same with advisors }
  | error fault advisors => exact .error fault { same with advisors }

theorem mirrors_enter (phase : Phase) :
    Mirrors names (Progress.Renamed names states) id (enter phase : Step α State Unit)
      (enter phase) :=
  mirrors_modify fun _ _ same => { same with phase := rfl }

theorem mirrors_clock (change : Timings → Timings) :
    Mirrors names (Progress.Renamed names states) id (clock change : Step α State Unit)
      (clock change) :=
  mirrors_modify fun _ _ same => { same with timings := congrArg change same.timings }

theorem mirrors_setOccupancy {change changeOther : Occupancy α → Occupancy α}
    (keeps : ∀ first second, Occupancy.Renamed names first second →
      (change first).Renamed names (changeOther second)) :
    Mirrors names (Progress.Renamed names states) id (setOccupancy change : Step α State Unit)
      (setOccupancy changeOther) :=
  mirrors_modify fun _ _ same => { same with occupancy := keeps _ _ same.occupancy }

theorem mirrors_miss (vm : Vm α) (origin : String) (phase : Phase) :
    Mirrors names (Progress.Renamed names states) id (miss vm origin phase : Step α State Unit)
      (miss (vm.renamed names) (names.host origin) phase) :=
  mirrors_modify fun _ _ same => { same with
    misses := by rw [same.misses, List.map_append]; rfl }

theorem mirrors_release (host : String) (vm : Vm α) :
    Mirrors names (Progress.Renamed names states) id (release host vm : Step α State Unit)
      (release (names.host host) (vm.renamed names)) :=
  mirrors_setOccupancy fun _ _ same => same.release host vm

variable [Scalar α]

theorem mirrors_accept (machine : Machine α) (vm : Vm α) (check : Bool) :
    Mirrors names (Progress.Renamed names states) id
      (accept machine vm check : Step α State Unit)
      (accept (machine.renamed names) (vm.renamed names) check) := by
  intro now other same
  -- with the same ids and sizes on both hosts, both refuse or neither does
  rw [run_accept, run_accept, same.occupancy.host_eq, Host.refusal?_renamed]
  cases (now.occupancy.host machine).refusal? vm check with
  | some fault => exact .error fault same
  | none => exact .ok () { same with occupancy := same.occupancy.place machine.id vm }

end Step

open Step

/-! What a cycle works with -/

/-- The second advisors answer as the first ones do, under the new names. -/
structure Advisors.Renamed (names : Renaming) (states : State → State → Prop)
    (first second : Advisors α State) : Prop where
  isOverloaded : ∀ host tick, Mirrors names states id (first.isOverloaded host tick)
    (second.isOverloaded (host.renamed names) tick)
  staysOverloaded : ∀ host, Mirrors names states id (first.staysOverloaded host)
    (second.staysOverloaded (host.renamed names))
  victim : ∀ host, Mirrors names states (Option.map (Vm.renamed names)) (first.victim? host)
    (second.victim? (host.renamed names))
  destination : ∀ vm hosts closed, Mirrors names states (Option.map (Host.renamed names))
    (first.destination? vm hosts closed)
    (second.destination? (vm.renamed names) (hosts.map (Host.renamed names))
      (closed.map names.host))

structure Planner.Renamed (names : Renaming) (states : State → State → Prop)
    (first second : Planner α State) : Prop where
  machines : second.machines = first.machines.map (Machine.renamed names)
  advisors : first.advisors.Renamed names states second.advisors
  underload : second.underload = first.underload

namespace Planner

variable {states : State → State → Prop} {planner other : Planner α State}

theorem mirrors_look (machine : Machine α) :
    Mirrors names (Progress.Renamed names states) (Host.renamed names)
      (look machine : Step α State (Host α)) (look (machine.renamed names)) := by
  intro now other same
  have host := same.occupancy.host_eq machine
  change Ending names (Progress.Renamed names states) (Host.renamed names)
    (.ok (now.occupancy.host machine), now) (.ok (other.occupancy.host (machine.renamed names)), other)
  exact host ▸ .ok _ same

/-! Choices that look at ids -/

theorem map_insert (rename : String → String) (injective : Function.Injective rename)
    (id : String) (ids : List String) :
    (ids.insert id).map rename = (ids.map rename).insert (rename id) := by
  by_cases present : id ∈ ids
  · rw [List.insert_of_mem present, List.insert_of_mem (List.mem_map_of_mem present)]
  · have absent : rename id ∉ ids.map rename := by
      rwa [List.mem_map_of_injective injective]
    rw [List.insert_of_not_mem present, List.insert_of_not_mem absent, List.map_cons]

theorem map_addAll (ids known : List String) :
    (addAll ids known).map names.host = addAll (ids.map names.host) (known.map names.host) := by
  unfold addAll
  induction ids generalizing known with
  | nil => rfl
  | cons id rest ih =>
    rw [List.map_cons, List.foldl_cons, List.foldl_cons, ih, map_insert _ names.host_injective]

@[simp] theorem isPinned_renamed (host : Host α) : isPinned (host.renamed names) = isPinned host := by
  unfold isPinned
  rw [Host.vms_renamed, List.any_map, List.all_map]
  congr 2
  funext vm
  simp [Machine.renamed]

theorem sameIds_renamed (first second : List String) :
    sameIds (first.map names.vm) (second.map names.vm) = sameIds first second := by
  have inside (ids known : List String) :
      (ids.map names.vm).all ((known.map names.vm).contains ·) = ids.all (known.contains ·) := by
    rw [List.all_map]
    congr 1
    funext id
    rw [Bool.eq_iff_iff]
    simp
  unfold sameIds
  rw [inside, inside]

theorem map_destination (moves : List Move) :
    (moves.map (Move.renamed names)).map (·.destination) =
      (moves.map (·.destination)).map names.host := by
  simp [Move.renamed]

variable (same : planner.Renamed names states other)
include same

theorem mirrors_lookAll :
    Mirrors names (Progress.Renamed names states) (List.map (Host.renamed names))
      planner.lookAll other.lookAll := by
  intro now after related
  have hosts : other.machines.map after.occupancy.host =
      (planner.machines.map now.occupancy.host).map (Host.renamed names) := by
    rw [same.machines, List.map_map, List.map_map]
    exact List.map_congr_left fun machine _ => related.occupancy.host_eq machine
  change Ending names (Progress.Renamed names states) (List.map (Host.renamed names))
    (.ok (planner.machines.map now.occupancy.host), now)
    (.ok (other.machines.map after.occupancy.host), after)
  exact hosts ▸ .ok _ related

theorem mirrors_detect {tick time : Tick α}
    (judged : ∀ host, Mirrors names states id (planner.advisors.isOverloaded host tick)
      (other.advisors.isOverloaded (host.renamed names) time)) :
    Mirrors names (Progress.Renamed names states) (List.map (Machine.renamed names))
      (planner.detect tick) (other.detect time) := by
  unfold detect
  rw [same.machines]
  exact .sieve (fun machine => (mirrors_look machine).bind fun host =>
    mirrors_ask (judged host)) _

theorem mirrors_relieve (machine : Machine α) (rounds : Nat) :
    Mirrors names (Progress.Renamed names states) (List.map (Vm.renamed names))
      (planner.relieve machine rounds) (other.relieve (machine.renamed names) rounds) := by
  induction rounds with
  | zero => exact .pure []
  | succ rounds ih =>
    refine (mirrors_look machine).bind fun host =>
      (mirrors_ask (same.advisors.victim host)).bind fun victim => ?_
    cases victim with
    | none => exact .pure []
    | some vm =>
      refine (mirrors_release machine.id vm).bind fun _ => (mirrors_look machine).bind fun host =>
        (mirrors_ask (same.advisors.staysOverloaded host)).bind fun overloaded => ?_
      cases overloaded with
      | true => exact ih.bind fun others => .pure (vm :: others)
      | false => exact .pure [vm]

theorem mirrors_selectVictims (machines : List (Machine α)) :
    Mirrors names (Progress.Renamed names states)
      (List.map (Prod.map (Vm.renamed names) names.host)) (planner.selectVictims machines)
      (other.selectVictims (machines.map (Machine.renamed names))) := by
  induction machines with
  | nil => exact .pure []
  | cons machine rest ih =>
    refine (mirrors_look machine).bind fun host => ?_
    rw [Host.vms_renamed, List.length_map]
    refine (mirrors_relieve same machine _).bind fun vms => ih.bind fun others => ?_
    have pairs : (vms.map (Vm.renamed names)).map (·, (machine.renamed names).id) ++
        others.map (Prod.map (Vm.renamed names) names.host) =
        (vms.map (·, machine.id) ++ others).map (Prod.map (Vm.renamed names) names.host) := by
      simp [Function.comp_def]
    exact pairs ▸ .pure _

variable [Scalar α]

theorem mirrors_placeVictims (excluded : List String) (pairs : List (Vm α × String)) :
    Mirrors names (Progress.Renamed names states) (List.map (Move.renamed names))
      (planner.placeVictims excluded pairs)
      (other.placeVictims (excluded.map names.host)
        (pairs.map (Prod.map (Vm.renamed names) names.host))) := by
  induction pairs with
  | nil => exact .pure []
  | cons pair rest ih =>
    obtain ⟨vm, origin⟩ := pair
    refine (mirrors_lookAll same).bind fun hosts =>
      (mirrors_ask (same.advisors.destination vm hosts excluded)).bind fun destination => ?_
    cases destination with
    | none => exact (mirrors_miss vm origin _).bind fun _ => ih
    | some host =>
      exact (mirrors_accept host.toMachine vm true).bind fun _ => ih.bind fun moves =>
        .pure (⟨vm.id, origin, host.id⟩ :: moves)

/-! Draining -/

omit same in
theorem mirrors_byDemand {Renamed : Type} {vm : Item → Vm α} {vmOther : Renamed → Vm α}
    (rename : Item → Renamed) (vms : ∀ item, vmOther (rename item) = (vm item).renamed names)
    (items : List Item) :
    Mirrors names (Progress.Renamed names states) (List.map rename)
      (byDemand vm items : Step α State (List Item)) (byDemand vmOther (items.map rename)) := by
  have keyed : Alike names (List.map (Prod.map id rename))
      (items.mapM fun item => do pure ((← (vm item).demand), item))
      ((items.map rename).mapM fun item => do pure ((← (vmOther item).demand), item)) := by
    refine .mapM (fun item => ?_) items
    rw [vms]
    exact (Host.demand_alike_of_vm (vm item)).bind fun load => .ok (load, item)
  refine (mirrors_attempt keyed).bind fun keyed => ?_
  rw [Order.descending_map, List.map_map]
  have items : (Order.descending keyed).map (Prod.snd ∘ Prod.map id rename) =
      ((Order.descending keyed).map (·.2)).map rename := by
    rw [List.map_map]
    rfl
  exact items ▸ .pure _

omit same in
theorem mirrors_leastLoaded? (skipped : List String) (limit : α) (best : Option (Machine α))
    (machines : List (Machine α)) :
    Mirrors names (Progress.Renamed names states) (Option.map (Machine.renamed names))
      (leastLoaded? skipped limit best machines : Step α State (Option (Machine α)))
      (leastLoaded? (skipped.map names.host) limit (best.map (Machine.renamed names))
        (machines.map (Machine.renamed names))) := by
  induction machines generalizing limit best with
  | nil => exact .pure best
  | cons machine rest ih =>
    rw [List.map_cons]
    unfold leastLoaded?
    simp only [Machine.id_renamed, Renaming.host_mem]
    split
    · exact ih limit best
    · refine (mirrors_look machine).bind fun host =>
        (mirrors_attempt host.utilization_alike).bind fun utilization => ?_
      simp only [id, isPinned_renamed]
      split
      · exact ih utilization (some machine)
      · exact ih limit best

omit same in
theorem mirrors_undo (machine : Machine α) (moved : List (Vm α × String)) :
    Mirrors names (Progress.Renamed names states) id (undo machine moved : Step α State Unit)
      (undo (machine.renamed names) (moved.map (Prod.map (Vm.renamed names) names.host))) := by
  induction moved with
  | nil => exact .pure ()
  | cons pair rest ih =>
    exact (mirrors_release pair.2 pair.1).bind fun _ =>
      (mirrors_accept machine pair.1 false).bind fun _ => ih

theorem mirrors_moveAll (machine : Machine α) (closed : List String)
    (moved : List (Vm α × String)) (waiting : List (Vm α)) :
    Mirrors names (Progress.Renamed names states)
      (Option.map (List.map (Prod.map (Vm.renamed names) names.host)))
      (planner.moveAll machine closed moved waiting)
      (other.moveAll (machine.renamed names) (closed.map names.host)
        (moved.map (Prod.map (Vm.renamed names) names.host))
        (waiting.map (Vm.renamed names))) := by
  induction waiting generalizing moved with
  | nil =>
    rw [List.map_nil, moveAll, moveAll, ← List.map_reverse]
    exact .pure (some moved.reverse)
  | cons vm rest ih =>
    refine (mirrors_lookAll same).bind fun hosts =>
      (mirrors_ask (same.advisors.destination vm hosts closed)).bind fun destination => ?_
    cases destination with
    | none =>
      exact (mirrors_miss vm machine.id _).bind fun _ => (mirrors_undo machine moved).bind fun _ =>
        .pure none
    | some host =>
      exact (mirrors_release machine.id vm).bind fun _ =>
        (mirrors_accept host.toMachine vm true).bind fun _ => ih ((vm, host.id) :: moved)

theorem mirrors_drain (machine : Machine α) (closed : List String) :
    Mirrors names (Progress.Renamed names states) (Option.map (List.map (Move.renamed names)))
      (planner.drain machine closed)
      (other.drain (machine.renamed names) (closed.map names.host)) := by
  refine (mirrors_look machine).bind fun host => ?_
  have movable : (host.renamed names).vms.filter (!·.migrating) =
      (host.vms.filter (!·.migrating)).map (Vm.renamed names) := by
    simp [List.filter_map, Function.comp_def]
  dsimp only
  rw [movable]
  refine (mirrors_byDemand (Vm.renamed names) (fun _ => rfl) _).bind fun waiting => ?_
  refine (mirrors_moveAll same machine closed [] waiting).bind fun moved => ?_
  have moves : (moved.map (List.map (Prod.map (Vm.renamed names) names.host))).map
      (fun pairs => pairs.map fun pair =>
        (⟨pair.1.id, (machine.renamed names).id, pair.2⟩ : Move)) =
      (moved.map fun pairs => pairs.map fun pair => (⟨pair.1.id, machine.id, pair.2⟩ : Move)).map
        (List.map (Move.renamed names)) := by
    cases moved <;> simp [Move.renamed]
  exact moves ▸ .pure _

theorem mirrors_consolidate (attempts : Nat) (settled closed : List String) :
    Mirrors names (Progress.Renamed names states) (List.map (Move.renamed names))
      (planner.consolidate attempts settled closed)
      (other.consolidate attempts (settled.map names.host) (closed.map names.host)) := by
  induction attempts generalizing settled closed with
  | zero => exact .pure []
  | succ attempts ih =>
    unfold consolidate
    rw [same.machines, same.underload, List.length_map, List.length_map]
    split
    · refine (mirrors_enter _).bind fun _ =>
        (mirrors_leastLoaded? settled planner.underload none planner.machines).bind fun found => ?_
      cases found with
      | none => exact .pure []
      | some machine =>
        have settle := map_insert names.host names.host_injective machine.id settled
        have close := map_insert names.host names.host_injective machine.id closed
        simp only [Option.map_some, Machine.id_renamed, ← settle, ← close]
        refine (mirrors_enter _).bind fun _ =>
          (mirrors_drain same machine (closed.insert machine.id)).bind fun outcome => ?_
        -- cancelled, with nothing to move, or drained: the cases differ in what is settled next
        match outcome with
        | none =>
          refine (mirrors_modify fun _ _ same => ?_).bind fun _ => ih _ _
          exact { same with cancelled := by rw [same.cancelled, List.map_append]; rfl }
        | some [] => exact ih _ _
        | some (move :: rest) =>
          refine (mirrors_modify fun _ _ same => ?_).bind fun _ => ?_
          · exact { same with drained := by rw [same.drained, List.map_append]; rfl }
          · rw [map_destination, ← map_addAll]
            refine (ih _ _).bind fun later => ?_
            rw [← List.map_append]
            exact .pure _
    · exact .pure []

theorem mirrors_drainUnderloaded (overloaded : List String) (placed : List Move) :
    Mirrors names (Progress.Renamed names states) (List.map (Move.renamed names))
      (planner.drainUnderloaded overloaded placed)
      (other.drainUnderloaded (overloaded.map names.host) (placed.map (Move.renamed names))) := by
  have judge (machine : Machine α) : Mirrors names (Progress.Renamed names states) id
      (isSwitchedOff machine : Step α State Bool) (isSwitchedOff (machine.renamed names)) :=
    (mirrors_look machine).bind fun host => (mirrors_attempt host.utilization_alike).bind fun _ =>
      .pure _
  unfold drainUnderloaded
  rw [same.machines, List.length_map]
  refine (Mirrors.sieve judge planner.machines).bind fun off => ?_
  have ids : (off.map (Machine.renamed names)).map (·.id) = (off.map (·.id)).map names.host := by
    simp
  have none : addAll (overloaded.map names.host) [] = (addAll overloaded []).map names.host :=
    (map_addAll overloaded []).symm
  dsimp only
  rw [ids, none, map_destination, ← map_addAll, ← map_addAll]
  exact mirrors_consolidate same _ _ _

theorem mirrors_explore {tick time : Tick α}
    (judged : ∀ host, Mirrors names states id (planner.advisors.isOverloaded host tick)
      (other.advisors.isOverloaded (host.renamed names) time)) :
    Mirrors names (Progress.Renamed names states) (Findings.renamed names)
      (planner.explore tick) (other.explore time) := by
  refine (mirrors_enter _).bind fun _ => (mirrors_detect same judged).bind fun overloaded =>
    (mirrors_clock _).bind fun _ => (mirrors_enter _).bind fun _ =>
      (mirrors_selectVictims same overloaded).bind fun evicted => (mirrors_clock _).bind fun _ =>
        (mirrors_enter _).bind fun _ => ?_
  have ids : (overloaded.map (Machine.renamed names)).map (·.id) =
      (overloaded.map (·.id)).map names.host := by
    simp
  have evictedIds : (evicted.map (Prod.map (Vm.renamed names) names.host)).map (·.1.id) =
      (evicted.map (·.1.id)).map names.vm := by
    simp
  dsimp only
  rw [ids, evictedIds]
  refine (mirrors_byDemand (Prod.map (Vm.renamed names) names.host) (fun _ => rfl)
    evicted).bind fun ordered => ?_
  refine (mirrors_placeVictims same _ ordered).bind fun placed => (mirrors_clock _).bind fun _ =>
    (mirrors_drainUnderloaded same _ placed).bind fun drained => ?_
  rw [← List.map_append]
  exact .pure (⟨placed ++ drained, overloaded.map (·.id), evicted.map (·.1.id)⟩ : Findings)

end Planner

end Plan

end Fleet
