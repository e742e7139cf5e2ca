import Fleet.Controller.Link
import Fleet.Inventory
import Fleet.Plan.Engine
import Fleet.Settings

/-! The planning service: one cycle for each freshly loaded inventory.

Recorded metrics, the tick counter and the last report outlive the cycles. A controller supplies
inventories and takes the moves; what it does and remembers is a parameter. So is the source of the
draws of a cycle, which counts where the settings have no seed.
-/

set_option autoImplicit false

namespace Fleet

open Payload (InventoryRecord Value)

structure Service where
  settings : Settings
  timeline : Timeline Float := {}
  /-- The number of cycles that were not given a tick. -/
  ticks : Nat := 0
  report : Option (Plan.Report Float) := none

/-- What a rejection tells: a text, or all that is wrong with a payload. -/
inductive Detail where
  | text (words : String)
  | issues (model : String) (found : List Payload.Issue)

def Detail.headline : Detail → String
  | .text words => words
  | .issues model found =>
      let errors := if found.length = 1 then "error" else "errors"
      s!"{found.length} validation {errors} for {model}"

inductive Reply (Body : Type) where
  | done (body : Body)
  | rejected (status : Nat) (detail : Detail)

namespace Service

def table : FlavorTable Float := FlavorTable.reference

def nextTick (service : Service) : Option Value → Service × Value
  | some .null | none =>
      let counted := { service with ticks := service.ticks + 1 }
      (counted, .integer (counted.ticks * service.settings.rebalanceInterval))
  | some tick => (service, tick)

def prepare (service : Service) (entropy : Draw.Source) (hosts vms tick : Value) :
    Except (Fault Float)
      (Plan.Engine Float (Plan.World Float Draw.Source) × Plan.Policy Float × Tick Float) := do
  let cluster ← Inventory.load table hosts vms
  let policy ← service.settings.policy table
  let tick ← Payload.readTick tick
  let world := { timeline := service.timeline, draws := service.settings.draws entropy }
  pure ({ cluster, advisors := world }, policy, tick)

/-- Plans one cycle. A counted tick is used up and recorded metrics stay even if the cycle fails; only
a completed cycle changes the report. -/
def runCycle (service : Service) (entropy : Draw.Source) (hosts vms : Value) (tick : Option Value) :
    Except (Fault Float) (List Move) × Service :=
  let (service, tick) := service.nextTick tick
  match service.prepare entropy hosts vms tick with
  | .error fault => (.error fault, service)
  | .ok (engine, policy, tick) =>
      let (result, engine) := engine.plan (policy.advisors Draw.Source.next) policy.underload tick
      let service := { service with timeline := engine.advisors.timeline }
      match result with
      | .error fault => (.error fault, service)
      | .ok moves => (.ok moves, { service with report := engine.report })

variable {Memory : Type}

def client (service : Service) : Controller.Client :=
  .make service.settings.controllerUrl service.settings.controllerToken

def reason : String := "predictive_consolidation"

/-- Requests the moves in turn, whether or not earlier ones failed, and counts the successes. -/
def submitAll (link : ControllerLink Memory) : List Move → Memory → Nat × Memory
  | [], memory => (0, memory)
  | move :: rest, memory =>
      let (result, memory) := (link.request move (some reason)).run.run memory
      let (count, memory) := submitAll link rest memory
      (match result with
        | .ok _ => count + 1
        | .error _ => count, memory)

def submit (link : Option (ControllerLink Memory)) (moves : List Move) (memory : Memory) :
    Nat × Memory :=
  match link with
  | none => (0, memory)
  | some link => submitAll link moves memory

def runPeriodic (service : Service) (link : Option (ControllerLink Memory)) (entropy : Draw.Source)
    (memory : Memory) : Except (Fault Float) (List Move) × Service × Memory :=
  match link with
  | none => (.ok [], service, memory)
  | some link =>
      match link.hosts.run.run memory with
      | (.error fault, memory) => (.error fault, service, memory)
      | (.ok hosts, memory) =>
          match link.vms.run.run memory with
          | (.error fault, memory) => (.error fault, service, memory)
          | (.ok vms, memory) =>
              match service.runCycle entropy hosts vms none with
              | (.error fault, service) => (.error fault, service, memory)
              | (.ok moves, service) => (.ok moves, service, (submitAll link moves memory).2)

/-- Runs a periodic cycle for each source of draws, whether or not cycles fail, and gives the delays
between them. -/
def loop (link : Option (ControllerLink Memory)) :
    List Draw.Source → Service → Memory → List Int × Service × Memory
  | [], service, memory => ([], service, memory)
  | entropy :: later, service, memory =>
      let (_, service, memory) := service.runPeriodic link entropy memory
      let (delays, later) := loop link later service memory
      (service.settings.rebalanceInterval :: delays, later)

/-! Endpoints -/

/-- Configuration and validation faults blame the request, capacity faults the inventory; other
faults are not answered. -/
def reject (fault : Fault Float) : Option (Reply (List Move)) :=
  match fault with
  | .invalid model issues => some (.rejected 422 (.issues model issues))
  | _ =>
      match fault.kind with
      | .configuration => some (.rejected 422 (.text (fault.message.getD "")))
      | .capacity => some (.rejected 409 (.text (fault.message.getD "")))
      | _ => none

def planEndpoint (service : Service) (entropy : Draw.Source) (body : Value) :
    Except (Fault Float) (Reply (List Move)) × Service :=
  match InventoryRecord.read body with
  | .error fault => (.error fault, service)
  | .ok inventory =>
      match service.runCycle entropy (.list (inventory.hosts.map .object))
          (.list (inventory.vms.map .object)) (inventory.tick.map .decimal) with
      | (.ok moves, service) => (.ok (.done moves), service)
      | (.error fault, service) =>
          match reject fault with
          | some reply => (.ok reply, service)
          | none => (.error fault, service)

def trackedHosts (service : Service) : List String := service.timeline.hostIds

end Service

end Fleet
