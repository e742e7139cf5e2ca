import Fleet.Proofs.Service.Bookkeeping

/-! What a periodic cycle asks of the controller.

A link can keep a log of its calls without answering differently. A cycle asks for the inventory and
then for the moves of its plan, and every failure ends in a log of its own.
-/

set_option autoImplicit false

namespace Fleet

open Payload (Value)

inductive Demand where
  | hosts
  | vms
  | migration (move : Move) (reason : Option String)
  deriving DecidableEq

structure Exchange where
  demand : Demand
  succeeded : Bool
  deriving DecidableEq

namespace ControllerLink

variable {Memory Result : Type}

def record (demand : Demand) (call : Call Memory Result) : Call (Memory × List Exchange) Result :=
  ExceptT.mk fun (memory, log) =>
    let (result, memory) := call.run.run memory
    (result, memory, log ++ [⟨demand, result.isOk⟩])

/-- The link with a log of its calls beside what the controller remembers. -/
def recorded (link : ControllerLink Memory) : ControllerLink (Memory × List Exchange) where
  hosts := record .hosts link.hosts
  vms := record .vms link.vms
  request move reason := record (.migration move reason) (link.request move reason)

def fetch (link : ControllerLink Memory) : Call Memory (Value × Value) := do
  pure (← link.hosts, ← link.vms)

/-- The calls that a fetch with this result has made. -/
inductive Inquiry : Except (Fault Float) (Value × Value) → List Exchange → Prop
  | hosts (fault : Fault Float) : Inquiry (.error fault) [⟨.hosts, false⟩]
  | vms (fault : Fault Float) : Inquiry (.error fault) [⟨.hosts, true⟩, ⟨.vms, false⟩]
  | both (inventory : Value × Value) : Inquiry (.ok inventory) [⟨.hosts, true⟩, ⟨.vms, true⟩]

variable (link : ControllerLink Memory) (memory : Memory) (log : List Exchange)

theorem run_hosts_recorded : link.recorded.hosts.run.run (memory, log) =
    ((link.hosts.run.run memory).1, (link.hosts.run.run memory).2,
      log ++ [⟨.hosts, (link.hosts.run.run memory).1.isOk⟩]) :=
  rfl

theorem run_vms_recorded : link.recorded.vms.run.run (memory, log) =
    ((link.vms.run.run memory).1, (link.vms.run.run memory).2,
      log ++ [⟨.vms, (link.vms.run.run memory).1.isOk⟩]) :=
  rfl

theorem run_request_recorded (move : Move) (reason : Option String) :
    (link.recorded.request move reason).run.run (memory, log) =
      (((link.request move reason).run.run memory).1, ((link.request move reason).run.run memory).2,
        log ++ [⟨.migration move reason, ((link.request move reason).run.run memory).1.isOk⟩]) :=
  rfl

theorem run_fetch : link.fetch.run.run memory =
    match link.hosts.run.run memory with
    | (.error fault, memory) => (.error fault, memory)
    | (.ok hosts, memory) =>
        match link.vms.run.run memory with
        | (.error fault, memory) => (.error fault, memory)
        | (.ok vms, memory) => (.ok (hosts, vms), memory) := by
  rw [fetch, Attempt.run_bind]
  rcases link.hosts.run.run memory with ⟨_ | hosts, memory⟩
  · rfl
  · dsimp only
    rw [Attempt.run_bind]
    rcases link.vms.run.run memory with ⟨_ | vms, memory⟩ <;> rfl

theorem run_fetch_recorded : ∃ calls, Inquiry (link.fetch.run.run memory).1 calls ∧
    link.recorded.fetch.run.run (memory, log) =
      ((link.fetch.run.run memory).1, (link.fetch.run.run memory).2, log ++ calls) := by
  rw [run_fetch, run_fetch, run_hosts_recorded]
  rcases link.hosts.run.run memory with ⟨_ | hosts, memory⟩
  · exact ⟨_, .hosts _, rfl⟩
  · dsimp only
    rw [run_vms_recorded, List.append_assoc]
    rcases link.vms.run.run memory with ⟨_ | vms, memory⟩
    · exact ⟨_, .vms _, rfl⟩
    · exact ⟨_, .both _, rfl⟩

end ControllerLink

namespace Service

variable {Memory : Type}

def demand (move : Move) : Demand := .migration move (some reason)

theorem submitAll_recorded (link : ControllerLink Memory) (moves : List Move) (memory : Memory)
    (log : List Exchange) :
    ∃ requests, requests.map (·.demand) = moves.map demand ∧
      (submitAll link moves memory).1 = requests.countP (·.succeeded) ∧
      submitAll link.recorded moves (memory, log) =
        ((submitAll link moves memory).1, (submitAll link moves memory).2, log ++ requests) := by
  induction moves generalizing memory log with
  | nil => exact ⟨[], rfl, rfl, by rw [List.append_nil]; rfl⟩
  | cons move rest ih =>
    simp only [submitAll, ControllerLink.run_request_recorded]
    rcases (link.request move (some reason)).run.run memory with ⟨result, memory⟩
    obtain ⟨requests, demanded, counted, recorded⟩ :=
      ih memory (log ++ [⟨.migration move (some reason), result.isOk⟩])
    refine ⟨⟨demand move, result.isOk⟩ :: requests, congrArg _ demanded, ?_, ?_⟩
    · rw [List.countP_cons, ← counted]
      cases result <;> rfl
    · rw [recorded, List.append_assoc]
      rfl

theorem runPeriodic_eq (service : Service) (link : ControllerLink Memory) (entropy : Draw.Source)
    (memory : Memory) : service.runPeriodic (some link) entropy memory =
      match link.fetch.run.run memory with
      | (.error fault, memory) => (.error fault, service, memory)
      | (.ok (hosts, vms), memory) =>
          match service.runCycle entropy hosts vms none with
          | (.error fault, service) => (.error fault, service, memory)
          | (.ok moves, service) => (.ok moves, service, (submitAll link moves memory).2) := by
  rw [ControllerLink.run_fetch]
  unfold runPeriodic
  dsimp only
  rcases link.hosts.run.run memory with ⟨_ | hosts, memory⟩
  · rfl
  · dsimp only
    rcases link.vms.run.run memory with ⟨_ | vms, memory⟩ <;> rfl

def exchanges (service : Service) (link : ControllerLink Memory) (entropy : Draw.Source)
    (memory : Memory) : List Exchange :=
  (service.runPeriodic (some link.recorded) entropy (memory, [])).2.2.2

/-- How a periodic cycle goes on from a fetched inventory. -/
inductive Continued (service : Service) (link : ControllerLink Memory) (entropy : Draw.Source)
    (ready : Memory) : Except (Fault Float) (Value × Value) →
      Except (Fault Float) (List Move) × Service × Memory → List Exchange → Prop
  | unfetched {fault : Fault Float} :
      Continued service link entropy ready (.error fault) (.error fault, service, ready) []
  | unplanned {hosts vms : Value} {fault : Fault Float} {after : Service} :
      service.serve ⟨hosts, vms, none, entropy⟩ = (.error fault, after) →
      Continued service link entropy ready (.ok (hosts, vms)) (.error fault, after, ready) []
  | submitted {hosts vms : Value} {moves : List Move} {after : Service} {requests : List Exchange} :
      service.serve ⟨hosts, vms, none, entropy⟩ = (.ok moves, after) →
      requests.map (·.demand) = moves.map demand →
      (submitAll link moves ready).1 = requests.countP (·.succeeded) →
      Continued service link entropy ready (.ok (hosts, vms))
        (.ok moves, after, (submitAll link moves ready).2) requests

theorem runPeriodic_continued (service : Service) (link : ControllerLink Memory)
    (entropy : Draw.Source) (memory : Memory) :
    let cycle := service.runPeriodic (some link) entropy memory
    ∃ calls requests,
      ControllerLink.Inquiry (link.fetch.run.run memory).1 calls ∧
      Continued service link entropy (link.fetch.run.run memory).2 (link.fetch.run.run memory).1 cycle
        requests ∧
      service.runPeriodic (some link.recorded) entropy (memory, []) =
        (cycle.1, cycle.2.1, cycle.2.2, calls ++ requests) := by
  intro cycle
  obtain ⟨calls, asked, recorded⟩ := link.run_fetch_recorded memory []
  simp only [cycle]
  rw [runPeriodic_eq, runPeriodic_eq, recorded, List.nil_append]
  revert asked
  rcases link.fetch.run.run memory with ⟨fault | ⟨hosts, vms⟩, ready⟩
  · exact fun asked => ⟨calls, [], asked, .unfetched, by rw [List.append_nil]⟩
  · intro asked
    dsimp only
    rcases planned : service.runCycle entropy hosts vms none with ⟨fault | moves, after⟩
    · exact ⟨calls, [], asked, .unplanned planned, by rw [List.append_nil]⟩
    · obtain ⟨requests, demanded, counted, recorded⟩ := submitAll_recorded link moves ready calls
      refine ⟨calls, requests, asked, .submitted planned demanded counted, ?_⟩
      dsimp only
      rw [recorded]

/-- Whatever the controller does: if it does not bring an inventory, the service is as before and no
move is requested; if planning fails, its tick is used up, its report stays and no move is requested;
and otherwise each move of the plan is requested once, in order and with the reason, and those that do
not fail are counted. A controller that logs its calls is answered in the same way. -/
theorem runPeriodic_submits (service : Service) (link : ControllerLink Memory)
    (entropy : Draw.Source) (memory : Memory) :
    let inventory := (link.fetch.run.run memory).1
    let ready := (link.fetch.run.run memory).2
    let result := (service.runPeriodic (some link) entropy memory).1
    let after := (service.runPeriodic (some link) entropy memory).2.1
    let last := (service.runPeriodic (some link) entropy memory).2.2
    let exchanges := service.exchanges link entropy memory
    service.runPeriodic (some link.recorded) entropy (memory, []) = (result, after, last, exchanges) ∧
      (∀ fault, inventory = .error fault →
        result = .error fault ∧ after = service ∧ last = ready ∧
          ControllerLink.Inquiry (.error fault) exchanges) ∧
      ∀ hosts vms, inventory = .ok (hosts, vms) →
        service.runCycle entropy hosts vms none = (result, after) ∧ after.ticks = service.ticks + 1 ∧
        (∀ fault, result = .error fault → after.report = service.report ∧ last = ready ∧
          ControllerLink.Inquiry (.ok (hosts, vms)) exchanges) ∧
        ∀ moves, result = .ok moves → ∃ calls requests, exchanges = calls ++ requests ∧
          ControllerLink.Inquiry (.ok (hosts, vms)) calls ∧
          requests.map (·.demand) = moves.map demand ∧
          submit (some link) moves ready = (requests.countP (·.succeeded), last) := by
  intro inventory ready result after last exchanges
  obtain ⟨calls, requests, asked, continued, recorded⟩ :=
    service.runPeriodic_continued link entropy memory
  have logged : exchanges = calls ++ requests := congrArg (·.2.2.2) recorded
  refine ⟨logged ▸ recorded, ?_⟩
  -- from here on only the names count, so that the cases can be told apart
  have told : service.runPeriodic (some link) entropy memory = (result, after, last) := rfl
  rw [told] at continued
  change ControllerLink.Inquiry inventory calls at asked
  change Continued service link entropy ready inventory (result, after, last) requests at continued
  rw [logged]
  clear_value inventory ready result after last exchanges
  cases continued with
  | unfetched =>
    rw [List.append_nil]
    exact ⟨fun _ same => by cases same; exact ⟨rfl, rfl, rfl, asked⟩, nofun⟩
  | unplanned planned =>
    rw [List.append_nil]
    refine ⟨nofun, fun hosts vms same => ?_⟩
    cases same
    exact ⟨planned, ticks_serve planned, fun fault failed => ⟨report_serve planned rfl, rfl, asked⟩,
      nofun⟩
  | submitted planned demanded counted =>
    refine ⟨nofun, fun hosts vms same => ?_⟩
    cases same
    refine ⟨planned, ticks_serve planned, nofun, fun moves same => ?_⟩
    cases same
    exact ⟨calls, requests, rfl, asked, demanded, Prod.ext counted rfl⟩

namespace Sample

def smallHost (id : String) (vms : List Value) : Value :=
  .object [("host_id", .text id), ("mips", .decimal 2500.0), ("pes", .integer 4),
    ("ram_mb", .decimal 131072.0), ("vms", .list vms)]

/-- The last host has room for the VM of an overloaded and for that of an underloaded one. -/
def uneven : Value :=
  .list [smallHost "a" [vm "x" 0.95], smallHost "b" [vm "y" 0.1], host "c" [vm "v" 1.0, vm "w" 1.0]]

def respond (request : Controller.Request) : Call Nat (Int × Value) :=
  match request.verb, request.body with
  | .post, some (.object (("vm_id", .text vm) :: _)) => do
      modify (· + 1)
      pure (if vm = "x" then 409 else 202, .null)
  | _, _ => pure (200, if request.url = "http://controller:8000/hosts" then uneven else .list [])

def eager : Service := { settings }

def reluctant : ControllerLink Nat := eager.client.link respond

end Sample

/-- The first of two requests fails, and the second one is made and counted all the same. -/
theorem runPeriodic_submits_reluctant :
    let moves : List Move := [⟨"x", "a", "c"⟩, ⟨"y", "b", "c"⟩]
    ∃ calls requests, Sample.eager.exchanges Sample.reluctant Sample.entropy 0 = calls ++ requests ∧
      ControllerLink.Inquiry (.ok (Sample.uneven, .list [])) calls ∧
      requests.map (·.demand) = moves.map demand ∧
      submit (some Sample.reluctant) moves 0 = (requests.countP (·.succeeded), 2) := by
  intro moves
  obtain ⟨_, _, submitted⟩ := runPeriodic_submits Sample.eager Sample.reluctant Sample.entropy 0
  obtain ⟨_, _, _, requested⟩ := submitted Sample.uneven (.list []) rfl
  have last : (Sample.eager.runPeriodic (some Sample.reluctant) Sample.entropy 0).2.2 = 2 := by
    decide +kernel
  rw [← last]
  exact requested moves (Attempt.ok_of_toOption (by decide +kernel))

end Service

end Fleet
