import Fleet.Membership

/-! What a planning cycle tells about itself. -/

set_option autoImplicit false

namespace Fleet.Plan

inductive Phase where
  | idle
  | snapshot
  | detectOverloaded
  | selectVictims
  | placeVictims
  | detectUnderloaded
  | drainOrCancel
  | restoreAndCommit
  deriving DecidableEq, Repr

def Phase.label : Phase → String
  | idle => "idle"
  | snapshot => "snapshot"
  | detectOverloaded => "detect_overloaded"
  | selectVictims => "select_victims"
  | placeVictims => "place_victims"
  | detectUnderloaded => "detect_underloaded"
  | drainOrCancel => "drain_or_cancel"
  | restoreAndCommit => "restore_and_commit"

structure Miss where
  vm : String
  origin : String
  phase : Phase
  deriving DecidableEq, Repr

structure Report (α : Type) where
  tick : α
  moves : List Move
  overloaded : List String
  evicted : List String
  misses : List Miss
  drained : List String
  cancelled : List String

/-- How many durations were recorded for the stages of cycles. -/
structure Timings where
  hostSelection : Nat := 0
  vmSelection : Nat := 0
  reallocation : Nat := 0
  total : Nat := 0
  deriving DecidableEq, Repr

end Fleet.Plan
