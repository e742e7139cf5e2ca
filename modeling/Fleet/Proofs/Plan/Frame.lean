import Fleet.Proofs.Plan.Outcome

/-! What the steps of a cycle leave as it was.

A view shows a part of what a cycle has changed so far. A step keeps a view if it leaves what the view
shows as it was, also when it breaks off. Moving VMs and asking the advisors keeps every view that
shows neither of them.
-/

set_option autoImplicit false

namespace Fleet.Plan

variable {α State Answer Other Item Shown : Type} {view : Progress α State → Shown}

namespace Step

def Keeps (view : Progress α State → Shown) (step : Step α State Answer) : Prop :=
  ∀ progress, view (step.run.run progress).2 = view progress

theorem Keeps.of_run {step : Step α State Answer} (keeps : step.Keeps view)
    {progress later : Progress α State} {result : Except (Fault α) Answer}
    (run : step.run.run progress = (result, later)) : view later = view progress := by
  rw [← keeps progress, run]

theorem Keeps.ends {step : Step α State Answer} (keeps : step.Keeps view) (progress : Progress α State) :
    step.Ends progress (fun _ later => view later = view progress)
      fun _ later => view later = view progress :=
  .of_run (fun _ _ run => keeps.of_run run) fun _ _ run => keeps.of_run run

theorem keeps_bind {step : Step α State Other} {next : Other → Step α State Answer}
    (first : step.Keeps view) (second : ∀ answer, (next answer).Keeps view) :
    (step >>= next).Keeps view := by
  intro progress
  rw [Attempt.run_bind]
  split
  · next run => rw [second, first.of_run run]
  · next run => exact first.of_run run

theorem keeps_pure (answer : Answer) : (pure answer : Step α State Answer).Keeps view :=
  fun _ => rfl

theorem keeps_throw (fault : Fault α) : (throw fault : Step α State Answer).Keeps view :=
  fun _ => rfl

theorem keeps_get : (get : Step α State (Progress α State)).Keeps view := fun _ => rfl

theorem keeps_attempt (given : Except (Fault α) Answer) :
    (attempt given : Step α State Answer).Keeps view := fun _ => rfl

theorem keeps_modify {change : Progress α State → Progress α State}
    (hidden : ∀ progress, view (change progress) = view progress) :
    (modify change : Step α State Unit).Keeps view := hidden

end Step

open Step

structure Still (view : Progress α State → Shown) : Prop where
  occupancy : ∀ progress occupancy, view { progress with occupancy } = view progress
  phase : ∀ progress phase, view { progress with phase } = view progress

structure Aloof (view : Progress α State → Shown) : Prop extends Still view where
  advisors : ∀ progress advisors, view { progress with advisors } = view progress

/-- Of what the view shows, the advisors change nothing once overloaded hosts are known. -/
structure Discreet (view : Progress α State → Shown) (planner : Planner α State) : Prop
    extends Still view where
  victim : ∀ host, (ask (planner.advisors.victim? host)).Keeps view
  stays : ∀ host, (ask (planner.advisors.staysOverloaded host)).Keeps view
  destination : ∀ vm hosts closed, (ask (planner.advisors.destination? vm hosts closed)).Keeps view

namespace Still

variable (still : Still view)
include still

theorem enter (phase : Phase) : (enter phase : Step α State Unit).Keeps view :=
  keeps_modify fun progress => still.phase progress phase

theorem setOccupancy (change : Occupancy α → Occupancy α) :
    (setOccupancy change : Step α State Unit).Keeps view :=
  keeps_modify fun progress => still.occupancy progress _

theorem release (host : String) (vm : Vm α) : (release host vm : Step α State Unit).Keeps view :=
  still.setOccupancy _

theorem accept [Scalar α] (machine : Machine α) (vm : Vm α) (check : Bool) :
    (accept machine vm check : Step α State Unit).Keeps view :=
  keeps_bind keeps_get fun _ => keeps_bind (keeps_attempt _) fun _ => still.setOccupancy _

end Still

namespace Aloof

variable (aloof : Aloof view)
include aloof

theorem ask (question : Ask α State Answer) : (ask question).Keeps view :=
  fun progress => aloof.advisors progress _

theorem discreet (planner : Planner α State) : Discreet view planner where
  toStill := aloof.toStill
  victim _ := aloof.ask _
  stays _ := aloof.ask _
  destination _ _ _ := aloof.ask _

end Aloof

namespace Planner

theorem keeps_look (machine : Machine α) :
    (look machine : Step α State (Host α)).Keeps view :=
  keeps_bind keeps_get fun _ => keeps_pure _

theorem keeps_lookAll (planner : Planner α State) : planner.lookAll.Keeps view :=
  keeps_bind keeps_get fun _ => keeps_pure _

theorem keeps_sieve {test : Item → Step α State Bool} (each : ∀ item, (test item).Keeps view)
    (items : List Item) : (sieve test items).Keeps view := by
  induction items with
  | nil => exact keeps_pure _
  | cons item rest ih =>
    exact keeps_bind (each item) fun _ => keeps_bind ih fun _ => keeps_pure _

theorem keeps_detect (aloof : Aloof view) (planner : Planner α State) (tick : Tick α) :
    (planner.detect tick).Keeps view :=
  keeps_sieve (fun _ => keeps_bind (keeps_look _) fun _ => aloof.ask _) _

section

variable {planner : Planner α State} (discreet : Discreet view planner)
include discreet

theorem keeps_relieve (machine : Machine α) (rounds : Nat) :
    (planner.relieve machine rounds).Keeps view := by
  induction rounds with
  | zero => exact keeps_pure _
  | succ rounds ih =>
    refine keeps_bind (keeps_look _) fun _ => keeps_bind (discreet.victim _) fun victim => ?_
    cases victim with
    | none => exact keeps_pure _
    | some vm =>
      refine keeps_bind (discreet.release _ _) fun _ => keeps_bind (keeps_look _) fun _ =>
        keeps_bind (discreet.stays _) fun overloaded => ?_
      split
      · exact keeps_bind ih fun _ => keeps_pure _
      · exact keeps_pure _

theorem keeps_selectVictims (machines : List (Machine α)) :
    (planner.selectVictims machines).Keeps view := by
  induction machines with
  | nil => exact keeps_pure _
  | cons machine rest ih =>
    exact keeps_bind (keeps_look _) fun _ => keeps_bind (keeps_relieve discreet _ _)
      fun _ => keeps_bind ih fun _ => keeps_pure _

end

variable [Scalar α]

theorem keeps_byDemand (vm : Item → Vm α) (items : List Item) :
    (byDemand vm items : Step α State (List Item)).Keeps view :=
  keeps_bind (keeps_attempt _) fun _ => keeps_pure _

theorem keeps_leastLoaded? (skipped : List String) (limit : α) (best : Option (Machine α))
    (machines : List (Machine α)) :
    (leastLoaded? skipped limit best machines : Step α State _).Keeps view := by
  induction machines generalizing limit best with
  | nil => exact keeps_pure _
  | cons machine rest ih =>
    unfold leastLoaded?
    split
    · exact ih _ _
    · refine keeps_bind (keeps_look _) fun _ => keeps_bind (keeps_attempt _) fun _ => ?_
      split
      · exact ih _ _
      · exact ih _ _

theorem keeps_isSwitchedOff (machine : Machine α) :
    (isSwitchedOff machine : Step α State Bool).Keeps view :=
  keeps_bind (keeps_look _) fun _ => keeps_bind (keeps_attempt _) fun _ => keeps_pure _

theorem keeps_undo (still : Still view) (machine : Machine α) (moved : List (Vm α × String)) :
    (undo machine moved : Step α State Unit).Keeps view := by
  induction moved with
  | nil => exact keeps_pure _
  | cons pair rest ih =>
    exact keeps_bind (still.release _ _) fun _ => keeps_bind (still.accept _ _ _) fun _ => ih

theorem keeps_refill (still : Still view) (machine : Machine α) (vms : List (Vm α)) :
    (refill machine vms : Step α State Unit).Keeps view := by
  induction vms with
  | nil => exact keeps_pure _
  | cons vm rest ih =>
    refine keeps_bind (keeps_look _) fun _ => ?_
    split
    · exact keeps_bind (still.accept _ _ _) fun _ => ih
    · exact keeps_throw _

theorem keeps_reinstate (still : Still view) (planner : Planner α State) (snapshot : Snapshot α)
    (moves : List Move) : (planner.reinstate snapshot moves).Keeps view := by
  refine keeps_bind (keeps_attempt _) fun target => ?_
  generalize planner.machines = machines
  induction machines with
  | nil => exact keeps_pure _
  | cons machine rest ih =>
    rw [List.forM_eq_forM, List.forM_cons]
    refine keeps_bind (keeps_bind (keeps_look _) fun _ => ?_) fun _ => ih
    split
    · exact keeps_pure _
    · exact keeps_bind (still.setOccupancy _) fun _ => keeps_refill still _ _

/-! Steps that may miss a destination -/

variable {planner : Planner α State} (discreet : Discreet view planner)
  (misses : ∀ progress misses, view { progress with misses } = view progress)
include discreet misses

theorem keeps_placeVictims (excluded : List String) (pairs : List (Vm α × String)) :
    (planner.placeVictims excluded pairs).Keeps view := by
  induction pairs with
  | nil => exact keeps_pure _
  | cons pair rest ih =>
    refine keeps_bind (keeps_lookAll _) fun _ => keeps_bind (discreet.destination _ _ _) fun destination => ?_
    cases destination with
    | none => exact keeps_bind (keeps_modify fun progress => misses progress _) fun _ => ih
    | some host =>
      exact keeps_bind (discreet.accept _ _ _) fun _ => keeps_bind ih fun _ => keeps_pure _

theorem keeps_moveAll (machine : Machine α) (closed : List String) (moved : List (Vm α × String))
    (waiting : List (Vm α)) : (planner.moveAll machine closed moved waiting).Keeps view := by
  induction waiting generalizing moved with
  | nil => exact keeps_pure _
  | cons vm rest ih =>
    refine keeps_bind (keeps_lookAll _) fun _ => keeps_bind (discreet.destination _ _ _) fun destination => ?_
    cases destination with
    | none =>
      exact keeps_bind (keeps_modify fun progress => misses progress _) fun _ =>
        keeps_bind (keeps_undo discreet.toStill _ _) fun _ => keeps_pure _
    | some host =>
      exact keeps_bind (discreet.release _ _) fun _ => keeps_bind (discreet.accept _ _ _) fun _ =>
        ih _

theorem keeps_drain (machine : Machine α) (closed : List String) :
    (planner.drain machine closed).Keeps view :=
  keeps_bind (keeps_look _) fun _ => keeps_bind (keeps_byDemand _ _) fun _ =>
    keeps_bind (keeps_moveAll discreet misses _ _ _ _) fun _ => keeps_pure _

variable (drained : ∀ progress drained, view { progress with drained } = view progress)
  (cancelled : ∀ progress cancelled, view { progress with cancelled } = view progress)
include drained cancelled

theorem keeps_consolidate (attempts : Nat) (settled closed : List String) :
    (planner.consolidate attempts settled closed).Keeps view := by
  induction attempts generalizing settled closed with
  | zero => exact keeps_pure _
  | succ attempts ih =>
    unfold consolidate
    split
    case isFalse => exact keeps_pure _
    refine keeps_bind (discreet.enter _) fun _ =>
      keeps_bind (keeps_leastLoaded? _ _ _ _) fun found => ?_
    cases found with
    | none => exact keeps_pure _
    | some machine =>
      refine keeps_bind (discreet.enter _) fun _ =>
        keeps_bind (keeps_drain discreet misses _ _) fun outcome => ?_
      rcases outcome with _ | _ | _
      · exact keeps_bind (keeps_modify fun progress => cancelled progress _) fun _ => ih _ _
      · exact ih _ _
      · exact keeps_bind (keeps_modify fun progress => drained progress _) fun _ =>
          keeps_bind (ih _ _) fun _ => keeps_pure _

theorem keeps_drainUnderloaded (overloaded : List String) (placed : List Move) :
    (planner.drainUnderloaded overloaded placed).Keeps view :=
  keeps_bind (keeps_sieve keeps_isSwitchedOff _) fun _ =>
    keeps_consolidate discreet misses drained cancelled _ _ _

end Planner

end Fleet.Plan
