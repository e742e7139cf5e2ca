import Fleet.Destination
import Fleet.Eviction

/-! The questions that a planning cycle asks, and the policy that answers them.

The cycle knows its advisors only through these questions: an answer may fail, and may change what
the advisors keep, but it cannot move a VM.
-/

set_option autoImplicit false

namespace Fleet.Plan

/-- A question over what the advisors keep; a failure keeps the changes made before it. -/
abbrev Ask (α State Answer : Type) := ExceptT (Fault α) (StateM State) Answer

structure Advisors (α State : Type) where
  /-- Judges a host at the beginning of a cycle and records the metric. -/
  isOverloaded : Host α → Tick α → Ask α State Bool
  /-- Judges a host again after a VM has left it. -/
  staysOverloaded : Host α → Ask α State Bool
  victim? : Host α → Ask α State (Option (Vm α))
  destination? : Vm α → List (Host α) → List String → Ask α State (Option (Host α))

structure Policy (α : Type) where
  table : FlavorTable α
  overload : OverloadRule α
  eviction : EvictionRule α
  destination : DestinationRule α
  underload : α

structure World (α Draws : Type) where
  timeline : Timeline α
  draws : Draws

namespace Policy

variable {α Draws : Type} [Scalar α]

def standardUnderload : α := 0.3

def validate (policy : Policy α) : Except (Fault α) (Policy α) :=
  if policy.underload ≤ 0.0 ∨ 1.0 < policy.underload then .error (.parameter .underloadThreshold)
  else .ok policy

def answer {State Answer : Type} (given : Except (Fault α) Answer) : Ask α State Answer :=
  ExceptT.mk (pure given)

def isOverloaded (policy : Policy α) (host : Host α) (tick : Tick α) : Ask α (World α Draws) Bool := do
  let (verdict, metric) ← answer (policy.overload.observe policy.table host tick)
  modify fun world => { world with timeline := world.timeline.append host.id metric }
  pure verdict.overloaded

/-- A draw is made only where the search leaves the choice open. -/
def destination? (policy : Policy α) (draw : Draws → α × Draws) (vm : Vm α) (hosts : List (Host α))
    (excluded : List String) : Ask α (World α Draws) (Option (Host α)) := do
  let search ← answer (policy.destination.search policy.table vm hosts excluded)
  match search with
  | .settled host => pure host
  | .contested _ =>
      let world ← get
      let (value, draws) := draw world.draws
      set { world with draws }
      pure (search.settle value)

def advisors (policy : Policy α) (draw : Draws → α × Draws) : Advisors α (World α Draws) where
  isOverloaded := policy.isOverloaded
  staysOverloaded host := do
    pure (← answer (policy.overload.assess policy.table host)).overloaded
  victim? host := answer (policy.eviction.victim? policy.table host)
  destination? := policy.destination? draw

end Policy

end Fleet.Plan
