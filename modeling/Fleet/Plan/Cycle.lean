import Fleet.Plan.Advisor
import Fleet.Plan.Order
import Fleet.Plan.Report

/-! One planning cycle.

Overloaded hosts give up VMs, these are placed elsewhere, and underloaded hosts are drained where all
their VMs find a place. All of this moves VMs tentatively. In the end every host is
given what it held before the cycle, changed by the moves decided on, or unchanged after a fault.
-/

set_option autoImplicit false

namespace Fleet.Plan

/-- What a running cycle has changed so far. -/
structure Progress (α State : Type) where
  occupancy : Occupancy α
  phase : Phase
  timings : Timings
  misses : List Miss
  drained : List String
  cancelled : List String
  advisors : State

abbrev Step (α State Answer : Type) := ExceptT (Fault α) (StateM (Progress α State)) Answer

namespace Step

variable {α State Answer : Type}

def attempt (given : Except (Fault α) Answer) : Step α State Answer := ExceptT.mk (pure given)

def ask (question : Ask α State Answer) : Step α State Answer :=
  ExceptT.mk fun progress =>
    let (given, advisors) := question.run.run progress.advisors
    (given, { progress with advisors })

def enter (phase : Phase) : Step α State Unit :=
  modify fun progress => { progress with phase }

def setOccupancy (change : Occupancy α → Occupancy α) : Step α State Unit :=
  modify fun progress => { progress with occupancy := change progress.occupancy }

def clock (change : Timings → Timings) : Step α State Unit :=
  modify fun progress => { progress with timings := change progress.timings }

def miss (vm : Vm α) (origin : String) (phase : Phase) : Step α State Unit :=
  modify fun progress => { progress with misses := progress.misses ++ [⟨vm.id, origin, phase⟩] }

def release (host : String) (vm : Vm α) : Step α State Unit :=
  setOccupancy (·.release host vm)

variable [Scalar α]

def accept (machine : Machine α) (vm : Vm α) (check : Bool := true) : Step α State Unit := do
  let occupancy ← attempt ((← get).occupancy.accept machine vm check)
  setOccupancy fun _ => occupancy

end Step

structure Planner (α State : Type) where
  machines : List (Machine α)
  advisors : Advisors α State
  underload : α

structure Findings where
  moves : List Move
  overloaded : List String
  evicted : List String

/-- The membership to return to, with the VMs behind the ids. -/
structure Snapshot (α : Type) where
  membership : Membership
  vms : List (Vm α)
  /-- The residents of a host that are still migrating in; they are never moved. -/
  arriving : String → List (Vm α)

def Snapshot.capture {α : Type} (cluster : Cluster α) : Snapshot α where
  membership := .capture cluster
  vms := cluster.allVms
  arriving id :=
    ((cluster.host? id).map fun host => host.vms.filter (·.id ∈ host.arriving)).getD []

namespace Planner

open Step

variable {α State : Type} [Scalar α]

def look (machine : Machine α) : Step α State (Host α) := do
  pure ((← get).occupancy.host machine)

def lookAll (planner : Planner α State) : Step α State (List (Host α)) := do
  pure (planner.machines.map (← get).occupancy.host)

def byDemand {Item : Type} (vm : Item → Vm α) (items : List Item) : Step α State (List Item) := do
  let keyed ← attempt (items.mapM fun item => do pure ((← (vm item).demand), item))
  pure ((Order.descending keyed).map (·.2))

def detect (planner : Planner α State) (tick : Tick α) : Step α State (List (Machine α)) :=
  sieve (fun machine => do ask (planner.advisors.isOverloaded (← look machine) tick))
    planner.machines

def relieve (planner : Planner α State) (machine : Machine α) : Nat → Step α State (List (Vm α))
  | 0 => pure []
  | rounds + 1 => do
      match ← ask (planner.advisors.victim? (← look machine)) with
      | none => pure []
      | some vm =>
          release machine.id vm
          if ← ask (planner.advisors.staysOverloaded (← look machine)) then
            let others ← planner.relieve machine rounds
            pure (vm :: others)
          else pure [vm]

/-- The evicted VMs with the hosts they left. An eviction removes a resident, so a host is asked at
most once more than it has residents. -/
def selectVictims (planner : Planner α State) :
    List (Machine α) → Step α State (List (Vm α × String))
  | [] => pure []
  | machine :: rest => do
      let rounds := (← look machine).vms.length + 1
      let vms ← planner.relieve machine rounds
      let others ← planner.selectVictims rest
      pure (vms.map (·, machine.id) ++ others)

def placeVictims (planner : Planner α State) (excluded : List String) :
    List (Vm α × String) → Step α State (List Move)
  | [] => pure []
  | (vm, origin) :: rest => do
      match ← ask (planner.advisors.destination? vm (← planner.lookAll) excluded) with
      | none =>
          miss vm origin .placeVictims
          planner.placeVictims excluded rest
      | some host =>
          accept host.toMachine vm
          let moves ← planner.placeVictims excluded rest
          pure (⟨vm.id, origin, host.id⟩ :: moves)

/-- A host that something migrates into, or whose VMs are all migrating, is left alone. -/
def isPinned (host : Host α) : Bool :=
  host.vms.any (fun vm => decide (vm.id ∈ host.arriving)) || host.vms.all (·.migrating)

def leastLoaded? (skipped : List String) (limit : α) :
    Option (Machine α) → List (Machine α) → Step α State (Option (Machine α))
  | best, [] => pure best
  | best, machine :: rest => do
      if machine.id ∈ skipped then leastLoaded? skipped limit best rest
      else
        let host ← look machine
        let utilization ← attempt host.utilization
        if (0.0 < utilization ∧ utilization < limit) ∧ !isPinned host then
          leastLoaded? skipped utilization (some machine) rest
        else leastLoaded? skipped limit best rest

def undo (machine : Machine α) : List (Vm α × String) → Step α State Unit
  | [] => pure ()
  | (vm, destination) :: rest => do
      release destination vm
      accept machine vm false
      undo machine rest

/-- Moves the VMs away one by one; `none` if one of them found no place and all were taken back. The
VMs already moved are given newest first. -/
def moveAll (planner : Planner α State) (machine : Machine α) (closed : List String) :
    List (Vm α × String) → List (Vm α) → Step α State (Option (List (Vm α × String)))
  | moved, [] => pure (some moved.reverse)
  | moved, vm :: rest => do
      match ← ask (planner.advisors.destination? vm (← planner.lookAll) closed) with
      | none =>
          miss vm machine.id .drainOrCancel
          undo machine moved
          pure none
      | some host =>
          release machine.id vm
          accept host.toMachine vm
          planner.moveAll machine closed ((vm, host.id) :: moved) rest

def drain (planner : Planner α State) (machine : Machine α) (closed : List String) :
    Step α State (Option (List Move)) := do
  let movable := (← look machine).vms.filter (!·.migrating)
  let moved ← planner.moveAll machine closed [] (← byDemand id movable)
  pure (moved.map fun pairs => pairs.map fun (vm, host) => ⟨vm.id, machine.id, host⟩)

def addAll (ids known : List String) : List String :=
  ids.foldl (fun known id => known.insert id) known

/-- Drains underloaded hosts, the least loaded first. Hosts in `settled` are not drained any more, and
hosts in `closed` receive nothing. Every attempt settles one more host. -/
def consolidate (planner : Planner α State) :
    Nat → List String → List String → Step α State (List Move)
  | 0, _, _ => pure []
  | attempts + 1, settled, closed => do
      if settled.length < planner.machines.length then
        enter .detectUnderloaded
        match ← leastLoaded? settled planner.underload none planner.machines with
        | none => pure []
        | some machine =>
            let settled := settled.insert machine.id
            let closed := closed.insert machine.id
            enter .drainOrCancel
            match ← planner.drain machine closed with
            | none =>
                modify fun progress =>
                  { progress with cancelled := progress.cancelled ++ [machine.id] }
                planner.consolidate attempts settled closed
            | some [] => planner.consolidate attempts settled closed
            | some moves =>
                modify fun progress =>
                  { progress with drained := progress.drained ++ [machine.id] }
                let settled := addAll (moves.map (·.destination)) settled
                let later ← planner.consolidate attempts settled closed
                pure (moves ++ later)
      else pure []

def isSwitchedOff (machine : Machine α) : Step α State Bool := do
  let utilization ← attempt (← look machine).utilization
  pure (utilization == 0.0)

def drainUnderloaded (planner : Planner α State) (overloaded : List String) (placed : List Move) :
    Step α State (List Move) := do
  let off ← sieve isSwitchedOff planner.machines
  let closed := addAll (off.map (·.id)) (addAll overloaded [])
  let settled := addAll (placed.map (·.destination)) closed
  planner.consolidate planner.machines.length settled closed

def explore (planner : Planner α State) (tick : Tick α) : Step α State Findings := do
  enter .detectOverloaded
  let overloaded ← planner.detect tick
  clock fun timings => { timings with hostSelection := timings.hostSelection + 1 }
  enter .selectVictims
  let evicted ← planner.selectVictims overloaded
  clock fun timings => { timings with vmSelection := timings.vmSelection + 1 }
  enter .placeVictims
  let ids := overloaded.map (·.id)
  let placed ← planner.placeVictims ids (← byDemand (·.1) evicted)
  clock fun timings => { timings with reallocation := timings.reallocation + 1 }
  let drained ← planner.drainUnderloaded ids placed
  pure { moves := placed ++ drained, overloaded := ids, evicted := evicted.map (·.1.id) }

/-! Reinstating the membership -/

def sameIds (first second : List String) : Bool :=
  first.all (second.contains ·) && second.all (first.contains ·)

def refill (machine : Machine α) : List (Vm α) → Step α State Unit
  | [] => pure ()
  | vm :: rest => do
      if (← look machine).fits vm then
        accept machine vm false
        refill machine rest
      else throw (.refused machine.id vm.id .notRestored none)

/-- Gives a host the VMs it is to have, unless it has exactly these already. -/
def reinstateHost (snapshot : Snapshot α) (target : Membership) (machine : Machine α) :
    Step α State Unit := do
  let kept := snapshot.arriving machine.id
  let wanted := (target.vmsOf machine.id).filterMap fun id => snapshot.vms.find? (·.id == id)
  if sameIds (← look machine).vmIds ((kept ++ wanted).map (·.id)) then pure ()
  else
    setOccupancy (·.setResidents machine.id kept)
    refill machine wanted

def reinstate (planner : Planner α State) (snapshot : Snapshot α) (moves : List Move) :
    Step α State Unit := do
  let target ← attempt (snapshot.membership.after moves)
  planner.machines.forM (reinstateHost snapshot target)

end Planner

end Fleet.Plan
