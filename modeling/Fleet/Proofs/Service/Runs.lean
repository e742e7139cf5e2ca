import Fleet.Proofs.Attempt
import Fleet.Service

/-! Runs of the service: requests served one after the other.

A served request is planned for or breaks off before. Either way the settings stay, and of what the
service keeps, only the recorded metrics, the tick counter and the report change.
-/

set_option autoImplicit false

namespace Fleet.Service

open Payload (Value)

/-- A described inventory to be planned for, with the tick if one is given, and what is drawn if no
seed is set. -/
structure Request where
  hosts : Value
  vms : Value
  tick : Option Value
  entropy : Draw.Source

def Request.isUntimed (request : Request) : Bool :=
  match request.tick with
  | some .null | none => true
  | some _ => false

def serve (service : Service) (request : Request) : Except (Fault Float) (List Move) × Service :=
  service.runCycle request.entropy request.hosts request.vms request.tick

def afterAll (service : Service) (requests : List Request) : Service :=
  requests.foldl (fun service request => (service.serve request).2) service

def timeOf (service : Service) (tick : Option Value) : Except (Fault Float) Float := do
  (← Payload.readTick (service.nextTick tick).2).stamp

@[simp] theorem settings_nextTick (service : Service) (tick : Option Value) :
    (service.nextTick tick).1.settings = service.settings := by
  unfold nextTick
  split <;> rfl

@[simp] theorem timeline_nextTick (service : Service) (tick : Option Value) :
    (service.nextTick tick).1.timeline = service.timeline := by
  unfold nextTick
  split <;> rfl

@[simp] theorem report_nextTick (service : Service) (tick : Option Value) :
    (service.nextTick tick).1.report = service.report := by
  unfold nextTick
  split <;> rfl

def engine (service : Service) (entropy : Draw.Source) (cluster : Cluster Float) :
    Plan.Engine Float (Plan.World Float Draw.Source) where
  cluster := cluster
  advisors := { timeline := service.timeline, draws := service.settings.draws entropy }

@[simp] theorem engine_nextTick (service : Service) (tick : Option Value) (entropy : Draw.Source)
    (cluster : Cluster Float) :
    (service.nextTick tick).1.engine entropy cluster = service.engine entropy cluster := by
  simp [engine]

section

variable {service : Service} {entropy : Draw.Source} {hosts vms tick : Value}
  {cluster : Cluster Float} {policy : Plan.Policy Float} {time : Tick Float} {fault : Fault Float}

theorem prepare_eq (loaded : Inventory.load table hosts vms = .ok cluster)
    (built : service.settings.policy table = .ok policy)
    (read : Payload.readTick tick = .ok time) :
    service.prepare entropy hosts vms tick = .ok (service.engine entropy cluster, policy, time) := by
  unfold prepare
  rw [loaded, built, read]
  rfl

theorem prepare_loaded (loaded : Inventory.load table hosts vms = .ok cluster) :
    service.prepare entropy hosts vms tick = (do
      let policy ← service.settings.policy table
      let tick ← Payload.readTick tick
      pure (service.engine entropy cluster, policy, tick)) := by
  unfold prepare
  rw [loaded]
  rfl

theorem prepare_unloaded (unloaded : Inventory.load table hosts vms = .error fault) :
    service.prepare entropy hosts vms tick = .error fault := by
  unfold prepare
  rw [unloaded]
  rfl

theorem prepare_unruled (loaded : Inventory.load table hosts vms = .ok cluster)
    (unruled : service.settings.policy table = .error fault) :
    service.prepare entropy hosts vms tick = .error fault := by
  unfold prepare
  rw [loaded, unruled]
  rfl

theorem prepare_ok {engine : Plan.Engine Float (Plan.World Float Draw.Source)}
    (prepared : service.prepare entropy hosts vms tick = .ok (engine, policy, time)) :
    ∃ cluster, Inventory.load table hosts vms = .ok cluster ∧
      service.settings.policy table = .ok policy ∧ Payload.readTick tick = .ok time ∧
        engine = service.engine entropy cluster := by
  obtain ⟨cluster, loaded, prepared⟩ := Attempt.bind_ok prepared
  obtain ⟨rules, built, prepared⟩ := Attempt.bind_ok prepared
  obtain ⟨read, told, prepared⟩ := Attempt.bind_ok prepared
  cases prepared
  exact ⟨cluster, loaded, built, told, rfl⟩

end

theorem runCycle_refused {service : Service} {entropy : Draw.Source} {hosts vms : Value}
    {tick : Option Value} {fault : Fault Float}
    (unprepared : (service.nextTick tick).1.prepare entropy hosts vms (service.nextTick tick).2 =
      .error fault) : (service.runCycle entropy hosts vms tick).1 = .error fault := by
  simp [runCycle, unprepared]

inductive Served (service : Service) (request : Request) :
    Except (Fault Float) (List Move) → Service → Prop
  | refused {fault : Fault Float} :
      (service.nextTick request.tick).1.prepare request.entropy request.hosts request.vms
        (service.nextTick request.tick).2 = .error fault →
      Served service request (.error fault) (service.nextTick request.tick).1
  | broken {cluster : Cluster Float} {policy : Plan.Policy Float} {tick : Tick Float}
      {fault : Fault Float} {after : Plan.Engine Float (Plan.World Float Draw.Source)} :
      Inventory.load table request.hosts request.vms = .ok cluster →
      service.settings.policy table = .ok policy →
      Payload.readTick (service.nextTick request.tick).2 = .ok tick →
      (service.engine request.entropy cluster).plan (policy.advisors Draw.Source.next) policy.underload
        tick = (.error fault, after) →
      Served service request (.error fault)
        { (service.nextTick request.tick).1 with timeline := after.advisors.timeline }
  | completed {cluster : Cluster Float} {policy : Plan.Policy Float} {tick : Tick Float}
      {moves : List Move} {after : Plan.Engine Float (Plan.World Float Draw.Source)} :
      Inventory.load table request.hosts request.vms = .ok cluster →
      service.settings.policy table = .ok policy →
      Payload.readTick (service.nextTick request.tick).2 = .ok tick →
      (service.engine request.entropy cluster).plan (policy.advisors Draw.Source.next) policy.underload
        tick = (.ok moves, after) →
      Served service request (.ok moves)
        { (service.nextTick request.tick).1 with
          timeline := after.advisors.timeline
          report := after.report }

theorem served {service after : Service} {request : Request}
    {result : Except (Fault Float) (List Move)} (run : service.serve request = (result, after)) :
    service.Served request result after := by
  unfold serve runCycle at run
  dsimp only at run
  split at run
  · next unprepared =>
    cases run
    exact .refused unprepared
  · next engine policy tick prepared =>
    obtain ⟨cluster, loaded, built, read, rfl⟩ := prepare_ok prepared
    rw [settings_nextTick] at built
    rw [engine_nextTick] at run
    split at run
    · next failed =>
      cases run
      exact .broken loaded built read (Prod.ext failed rfl)
    · next done =>
      cases run
      exact .completed loaded built read (Prod.ext done rfl)

theorem settings_serve {service after : Service} {request : Request}
    {result : Except (Fault Float) (List Move)} (run : service.serve request = (result, after)) :
    after.settings = service.settings := by
  cases served run <;> simp

theorem settings_afterAll (service : Service) (requests : List Request) :
    (service.afterAll requests).settings = service.settings := by
  induction requests generalizing service with
  | nil => rfl
  | cons request rest ih => exact (ih _).trans (settings_serve rfl)

/-! An inventory of two hosts -/

namespace Sample

def settings : Settings where
  epsilon := 0.2
  baseWindow := 5
  theta := 0.1
  cpuThreshold := 0.9
  memoryThreshold := 0.9
  selectionGamma := 1.0
  cycleGamma := 1.0
  upperBound := 0.9
  lowerBand := 0.8
  memoryBound := 0.95
  underloadThreshold := 0.3
  weightChurn := 0.3
  weightCycle := 0.15
  weightExcess := 0.2
  weightMemory := 0.2
  weightRisk := 0.15
  seed := some 7
  rebalanceInterval := 300
  controllerUrl := "http://controller:8000"
  controllerToken := none
  logLevel := "INFO"

def vm (id : String) (sample : Float) : Value :=
  .object [("vm_id", .text id), ("mips", .decimal 2500.0), ("pes", .integer 4),
    ("ram_mb", .decimal 32768.0), ("utilization_history", .list [.decimal sample])]

def host (id : String) (vms : List Value) : Value :=
  .object [("host_id", .text id), ("mips", .decimal 2500.0), ("pes", .integer 16),
    ("ram_mb", .decimal 131072.0), ("vms", .list vms)]

/-- The first host is underloaded, and the second one has room for its VM. -/
def hosts : Value := .list [host "a" [vm "x" 0.1], host "b" [vm "y" 0.5]]

def entropy : Draw.Source := .ofValues []

def requests : List Request :=
  [⟨hosts, .list [], none, entropy⟩, ⟨.list [.null], .list [], some (.integer 17), entropy⟩]

end Sample

end Fleet.Service
