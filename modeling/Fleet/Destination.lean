import Fleet.Overload
import Fleet.Sieve

/-! Where a VM should go.

Each capable host gets a score, and less is better. Hosts that stay below the CPU and memory bounds
come first, then hosts whose CPU lands inside the band. If there are neither, a random threshold
between the least and the greatest score decides.
-/

set_option autoImplicit false

namespace Fleet

structure Weights (α : Type) where
  churn : α
  cycle : α
  excess : α
  memory : α
  risk : α

namespace Weights

variable {α : Type} [Scalar α]

def toList (weights : Weights α) : List α :=
  [weights.churn, weights.cycle, weights.excess, weights.memory, weights.risk]

def standard : Weights α := ⟨0.3, 0.15, 0.2, 0.2, 0.15⟩

def ofList (given : List α) : Except (Fault α) (Weights α) :=
  match given with
  | [churn, cycle, excess, memory, risk] =>
      let total := Scalar.sum given
      if given.any (· < 0.0) then .error (.parameter (.weights given))
      else if 1e-9 < Scalar.abs (total - 1.0) then .error (.parameter (.weightSum total))
      else .ok ⟨churn, cycle, excess, memory, risk⟩
  | _ => .error (.parameter (.weights given))

end Weights

structure DestinationRule (α : Type) where
  weights : Weights α
  upperBound : α
  lowerBand : α
  memoryBound : α
  gamma : α
  overload : OverloadRule α

structure Score (α : Type) where
  churn : α
  cycle : α
  excess : α
  memory : α
  risk : α
  cpuAfter : α
  memoryAfter : α
  total : α

/-- The outcome of a search: a host or none, or scored candidates among which a draw decides. -/
inductive Search (α : Type) where
  | settled (host : Option (Host α))
  | contested (scored : List (Host α × Score α))

namespace DestinationRule

variable {α : Type} [Scalar α]

def make (weights : List α) (upperBound lowerBand memoryBound gamma : α)
    (overload : OverloadRule α) : Except (Fault α) (DestinationRule α) := do
  let weights ← Weights.ofList weights
  if upperBound ≤ 0.0 ∨ 1.0 < upperBound then throw (.parameter .upperBound)
  else if ¬(0.0 ≤ lowerBand ∧ lowerBand ≤ upperBound) then
    throw (.parameter (.cpuBand lowerBand upperBound))
  else if memoryBound ≤ 0.0 then throw (.parameter .memoryBound)
  else pure { weights, upperBound, lowerBand, memoryBound, gamma, overload }

/-! Predictions -/

def forecast? (rule : DestinationRule α) (vm : Vm α) : Except (Fault α) (Option α) := do
  pure (Forecast.weightedAverage? vm.samples (← Forecast.volatilityWindow vm.samples rule.gamma))

def residentCpu (rule : DestinationRule α) (vm : Vm α) : Except (Fault α) α := do
  pure ((← rule.forecast? vm).getD 0.0)

/-- An arriving VM without samples is taken to keep its present demand. -/
def arrivalCpu (rule : DestinationRule α) (vm : Vm α) : Except (Fault α) α := do
  pure ((← rule.forecast? vm).getD (Scalar.min 1.0 (Scalar.max 0.0 vm.current)))

def addCpu (total cpu : α) (vm : Vm α) : Except (Fault α) α := do
  pure (total + cpu * (← vm.capacity))

def addMemory (table : FlavorTable α) (total cpu : α) (vm : Vm α) : Except (Fault α) α := do
  pure (total + (← table.require vm.id vm.toShape).memoryFraction cpu * vm.ramMb)

def cpuAfter (rule : DestinationRule α) (host : Host α) (vm : Vm α) : Except (Fault α) α := do
  let resident ← host.vms.foldlM (fun total old => do addCpu total (← rule.residentCpu old) old) 0.0
  let demand ← addCpu resident (← rule.arrivalCpu vm) vm
  let capacity ← host.capacity
  pure (if 0.0 < capacity then demand / capacity else 0.0)

def memoryAfter (rule : DestinationRule α) (table : FlavorTable α) (host : Host α) (vm : Vm α) :
    Except (Fault α) α := do
  let resident ← host.vms.foldlM
    (fun total old => do addMemory table total (← rule.residentCpu old) old) 0.0
  let used ← addMemory table resident (← rule.arrivalCpu vm) vm
  pure (if 0.0 < host.ramMb then used / host.ramMb else 0.0)

/-- Power drawn after the arrival, negative for a host without capacity. -/
def powerAfter (host : Host α) (vm : Vm α) : Except (Fault α) α := do
  let capacity ← host.capacity
  if capacity ≤ 0.0 then pure (0.0 - 1.0)
  else
    let demand ← host.demand
    let utilization := (demand + (← vm.demand)) / capacity
    host.power.draw (Scalar.min 1.0 (Scalar.max 0.0 utilization))

/-! Scores -/

def indicator (condition : Bool) : α := if condition then 1.0 else 0.0

def score (rule : DestinationRule α) (table : FlavorTable α) (host : Host α) (vm : Vm α) :
    Except (Fault α) (Score α) := do
  let churn := Forecast.meanChange host.samples
  let window ← Forecast.volatilityWindow vm.samples rule.gamma
  let cycle ← (Scalar.ofInt? window : Option α).elim (.error .integerTooLarge) .ok
  let cpu ← rule.cpuAfter host vm
  let excess := indicator (decide (rule.upperBound < cpu))
  let memory ← rule.memoryAfter table host vm
  let verdict ← rule.overload.assess table host [vm]
  let risk := indicator verdict.overloaded
  let weights := rule.weights
  let total := weights.churn * churn + weights.cycle * cycle + weights.excess * excess +
    weights.memory * memory + weights.risk * risk
  pure { churn, cycle, excess, memory, risk, cpuAfter := cpu, memoryAfter := memory, total }

/-! The search -/

def isCandidate (vm : Vm α) (excluded : List String) (host : Host α) : Except (Fault α) Bool := do
  if host.id ∈ excluded then pure false
  else if ← host.isSuitable vm then pure (decide (0.0 ≤ (← powerAfter host vm)))
  else pure false

def candidates (vm : Vm α) (hosts : List (Host α)) (excluded : List String) :
    Except (Fault α) (List (Host α)) :=
  sieve (isCandidate vm excluded) hosts

def best? (scored : List (Host α × Score α)) : Option (Host α) :=
  (Scalar.firstLeast (scored.map fun (host, score) => (host, score.total))).map (·.1)

def isGuided (rule : DestinationRule α) (score : Score α) : Bool :=
  score.cpuAfter ≤ rule.upperBound && score.memoryAfter ≤ rule.memoryBound

def isTerritorial (rule : DestinationRule α) (score : Score α) : Bool :=
  rule.lowerBand ≤ score.cpuAfter && score.cpuAfter ≤ rule.upperBound

/-- A single candidate is taken without a score. -/
def search (rule : DestinationRule α) (table : FlavorTable α) (vm : Vm α) (hosts : List (Host α))
    (excluded : List String) : Except (Fault α) (Search α) := do
  match ← candidates vm hosts excluded with
  | [] => pure (.settled none)
  | [only] => pure (.settled (some only))
  | several =>
      let scored ← several.mapM fun host => do pure (host, (← rule.score table host vm))
      match best? (scored.filter fun entry => rule.isGuided entry.2) with
      | some host => pure (.settled (some host))
      | none =>
          match best? (scored.filter fun entry => rule.isTerritorial entry.2) with
          | some host => pure (.settled (some host))
          | none => pure (.contested scored)

end DestinationRule

namespace Search

variable {α : Type} [Scalar α]

def threshold (totals : List α) (draw : α) : α :=
  match totals with
  | [] => 0.0
  | first :: rest =>
      let least := rest.foldl Scalar.min first
      let greatest := rest.foldl Scalar.max first
      least + draw * (greatest - least)

/-- The first host of least total at or above the threshold, else the first of least total. -/
def drawn? (scored : List (Host α × Score α)) (draw : α) : Option (Host α) :=
  let limit := threshold (scored.map (·.2.total)) draw
  DestinationRule.best? (scored.filter fun entry => limit ≤ entry.2.total) <|>
    DestinationRule.best? scored

def settle (search : Search α) (draw : α) : Option (Host α) :=
  match search with
  | settled host => host
  | contested scored => drawn? scored draw

end Search

end Fleet
