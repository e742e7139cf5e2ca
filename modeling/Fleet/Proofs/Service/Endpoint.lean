import Fleet.Proofs.Inventory
import Fleet.Proofs.Plan.Safety
import Fleet.Proofs.Service.Runs

/-! What the planning endpoint answers.

Faults of the payload, of the configuration and of capacity are answered as rejections. The other
faults have a cause in the request: what is looked at before it is validated, numbers beyond what
shapes are compared with, samples that are no numbers, and VMs of one id.
-/

set_option autoImplicit false

namespace Fleet

open Number

namespace Payload

/-- Lists and objects, by which nothing can be looked up. -/
def Value.IsCollection : Value → Prop
  | .list _ | .object _ => True
  | _ => False

def InventoryRecord.load (inventory : InventoryRecord) : Except (Fault Float) (Cluster Float) :=
  Inventory.load Service.table (.list (inventory.hosts.map .object))
    (.list (inventory.vms.map .object))

def InventoryRecord.request (inventory : InventoryRecord) (entropy : Draw.Source) :
    Service.Request where
  hosts := .list (inventory.hosts.map .object)
  vms := .list (inventory.vms.map .object)
  tick := inventory.tick.map .decimal
  entropy := entropy

end Payload

open Payload (Fields InventoryRecord Value)

namespace Service

/-- The faults that the endpoint does not answer, each with what brings it about. -/
inductive Unanswered (inventory : InventoryRecord) : Fault Float → Prop
  | powerModel {host : Fields} {model : Value} :
      host ∈ inventory.hosts → host.lookup "power_model" = some model → model.IsCollection →
      Unanswered inventory .wrongType
  | statedText {vm : Fields} {name : String} {value : Value} :
      vm ∈ inventory.vms → vm.LacksRam → name ∈ ["mips", "pes"] → vm.lookup name = some value →
      ¬value.IsNumber → Unanswered inventory .wrongType
  | statedInteger {vm : Fields} {name : String} {value : Int} :
      vm ∈ inventory.vms → vm.LacksRam → name ∈ ["mips", "pes"] →
      vm.lookup name = some (.integer value) → 10 ^ 150 < value.natAbs →
      Unanswered inventory .integerTooLarge
  | statedDecimal {vm : Fields} {value : Float} :
      vm ∈ inventory.vms → vm.LacksRam → vm.lookup "pes" = some (.decimal value) →
      value.isFinite = true → 1e150 < value.abs → Unanswered inventory .squareTooLarge
  | machineCores {cluster : Cluster Float} {machine : Machine Float} :
      inventory.load = .ok cluster → machine ∈ cluster.machines →
      10 ^ 150 < machine.cores.natAbs → Unanswered inventory .integerTooLarge
  | vmCores {cluster : Cluster Float} {vm : Vm Float} :
      inventory.load = .ok cluster → vm ∈ cluster.residents → 10 ^ 150 < vm.cores.natAbs →
      Unanswered inventory .integerTooLarge
  | speed {cluster : Cluster Float} {vm : Vm Float} :
      inventory.load = .ok cluster → vm ∈ cluster.residents → ¬vm.mips.abs ≤ 1e150 →
      Unanswered inventory .noNearestShape
  | sample {cluster : Cluster Float} {vm : Vm Float} {sample : Float} :
      inventory.load = .ok cluster → vm ∈ cluster.residents → sample ∈ vm.samples →
      sample.isNaN = true → Unanswered inventory (.noInteger .notANumber)
  | repeated {cluster : Cluster Float} :
      inventory.load = .ok cluster → ¬cluster.DistinctVms → Unanswered inventory .notMember

/-- Rejected as unprocessable or as a conflict. -/
def Answered (fault : Fault Float) : Prop :=
  ∃ status detail, reject fault = some (.rejected status detail) ∧ (status = 422 ∨ status = 409)

theorem answered_invalid (model : String) (issues : List Payload.Issue) :
    Answered (.invalid model issues) := ⟨422, _, rfl, .inl rfl⟩

theorem answered_refused (host vm : String) (reason : Refusal Float) (during : Option (Fault Float)) :
    Answered (.refused host vm reason during) := ⟨409, _, rfl, .inr rfl⟩

theorem answered_unknownShape (vm : String) (shape : Shape Float) (index : Nat)
    (nearest : Shape Float) (distance : Float) :
    Answered (.unknownShape vm shape index nearest distance) := ⟨422, _, rfl, .inl rfl⟩

/-- Faults that may arise for the inventory. -/
def Explained (inventory : InventoryRecord) (fault : Fault Float) : Prop :=
  Answered fault ∨ Unanswered inventory fault

variable {inventory : InventoryRecord}

theorem natAbs_cores_le : ∀ flavor ∈ table.flavors, flavor.cores.natAbs ≤ 2 ^ 52 := by
  decide +kernel

/-! Loading -/

theorem checked_failsOnly {Result : Type} (checked : Payload.Checked Result) (model : String) :
    FailsOnly (Explained inventory) (checked.orFault (.invalid model)) := by
  intro fault failed
  cases checked with
  | good _ => cases failed
  | bad issues =>
    cases failed
    exact .inl (answered_invalid model issues)

theorem readHost_failsOnly {host : Fields} (member : host ∈ inventory.hosts) :
    FailsOnly (Explained inventory) (Inventory.readHost (.object host)) := by
  refine FailsOnly.bind (.ok _) fun entry described => ?_
  cases described
  refine FailsOnly.bind ?_ fun power _ => .bind (.ok _) fun fields _ =>
    .bind (checked_failsOnly _ _) fun _ _ => .pure _
  dsimp only
  cases given : host.lookup "power_model" with
  | none => exact .ok _
  | some model =>
    intro fault failed
    cases model with
    | list | object =>
      cases failed
      exact .inr (.powerModel member given trivial)
    | _ => cases failed

section

variable {vm : Fields} (member : vm ∈ inventory.vms) (unsized : vm.LacksRam)
include member unsized

theorem statedMips_failsOnly :
    FailsOnly (Explained inventory) (Inventory.statedMips (vm.lookup "mips")) := by
  cases given : vm.lookup "mips" with
  | none => exact .ok _
  | some value =>
    intro fault failed
    cases value with
    | integer n =>
      change (ofInt? n).elim (Except.error _) Except.ok = Except.error fault at failed
      cases converted : ofInt? n with
      | some x =>
        rw [converted] at failed
        cases failed
      | none =>
        rw [converted] at failed
        cases failed
        exact .inr (.statedInteger member unsized (by simp) given (beyond_limit_of_ofInt? converted))
    | decimal | boolean => cases failed
    | null | text | list | object =>
      cases failed
      exact .inr (.statedText member unsized (by simp) given id)

theorem statedCores_failsOnly :
    FailsOnly (Explained inventory) (Inventory.statedCores (vm.lookup "pes")) := by
  cases given : vm.lookup "pes" with
  | none => exact .ok _
  | some value =>
    intro fault failed
    cases value with
    | integer | decimal | boolean => cases failed
    | null | text | list | object =>
      cases failed
      exact .inr (.statedText member unsized (by simp) given id)

theorem explained_of_tooLarge {cores : CoreCount Float} {fault : Fault Float}
    (stated : Inventory.statedCores (vm.lookup "pes") = .ok cores) (large : cores.TooLarge fault) :
    Explained inventory fault := by
  have few : ¬10 ^ 150 < (1 : Int).natAbs := by decide
  have none : ¬10 ^ 150 < (0 : Int).natAbs := by decide
  cases given : vm.lookup "pes" with
  | none =>
    rw [given] at stated
    cases stated
    cases large
    contradiction
  | some value =>
    rw [given] at stated
    cases value with
    | integer n =>
      cases stated
      cases large with
      | whole beyond => exact .inr (.statedInteger member unsized (by simp) given beyond)
    | decimal x =>
      cases stated
      cases large with
      | decimal finite beyond => exact .inr (.statedDecimal member unsized given finite beyond)
    | boolean truth =>
      cases truth <;> cases stated <;> cases large <;> contradiction
    | null | text | list | object => cases stated

theorem referenceRam?_failsOnly {mips : Float} {cores : CoreCount Float}
    (stated : Inventory.statedCores (vm.lookup "pes") = .ok cores) :
    FailsOnly (Explained inventory) (table.referenceRam? mips cores) := by
  refine FailsOnly.bind (FlavorTable.scan_failsOnly fun flavor flavorMem => ?_)
    fun resolution _ => ?_
  · exact .bind ((cores.squaredGap_failsOnly (natAbs_cores_le flavor flavorMem)).mono fun _ large =>
      explained_of_tooLarge member unsized stated large) fun _ _ => .pure _
  · cases resolution <;> exact .pure _

end

theorem readVm_failsOnly {vm : Fields} (member : vm ∈ inventory.vms) :
    FailsOnly (Explained inventory) (Inventory.readVm table (.object vm)) := by
  refine FailsOnly.bind (.ok _) fun entry described => ?_
  cases described
  refine FailsOnly.bind ?_ fun sized filled => .bind ?_ fun fields _ => checked_failsOnly _ _
  · by_cases unsized : vm.LacksRam
    · rw [Inventory.withRam_unsized unsized]
      exact (statedMips_failsOnly member unsized).bind fun mips _ =>
        (statedCores_failsOnly member unsized).bind fun cores stated =>
          (referenceRam?_failsOnly member unsized stated).bind fun _ _ => .pure _
    · exact .of_ok (Inventory.withRam_sized unsized table)
  · rw [Payload.Entry.recordFields, Inventory.misnamed_withRam filled]
    exact .ok _

theorem load_failsOnly (inventory : InventoryRecord) :
    FailsOnly (Explained inventory) inventory.load := by
  refine FailsOnly.bind (.ok _) fun hosts given => .bind (.mapM fun host member => ?_) fun _ _ =>
    .bind (.ok _) fun vms givenVms => .bind (.mapM fun vm member => ?_) fun _ _ => .pure _
  · cases given
    obtain ⟨fields, fieldsMem, rfl⟩ := List.mem_map.mp member
    exact readHost_failsOnly fieldsMem
  · cases givenVms
    obtain ⟨fields, fieldsMem, rfl⟩ := List.mem_map.mp member
    exact readVm_failsOnly fieldsMem

/-! Planning -/

section

variable {cluster : Cluster Float} (loaded : inventory.load = .ok cluster)
include loaded

theorem require_explained {vm : Vm Float} (resident : vm ∈ cluster.residents) :
    FailsOnly (Explained inventory) (table.require vm.id vm.toShape) := by
  refine FlavorTable.require_failsOnly (fun flavor member => ?_) fun _ =>
    ⟨fun index nearest distance => .inl (answered_unknownShape _ _ _ _ _), fun unbounded => ?_⟩
  · refine .bind ((CoreCount.squaredGap_failsOnly _ (natAbs_cores_le flavor member)).mono ?_)
      fun _ _ => .pure _
    rintro _ ⟨beyond⟩
    exact .inr (.vmCores loaded resident beyond)
  · obtain ⟨cost, told, infinite⟩ := unbounded _ List.mem_cons_self
    refine .inr (.speed loaded resident fun slow => ?_)
    rw [Flavor.isBounded_distance rfl slow told] at infinite
    cases infinite

theorem window_explained {vm : Vm Float} (resident : vm ∈ cluster.residents) :
    FailsOnly (Explained inventory) (Forecast.volatilityWindow vm.samples 1.0) := by
  refine (Forecast.volatilityWindow_failsOnly (Inventory.load_fractional loaded vm resident)
    (by decide +kernel)).mono ?_
  rintro _ ⟨rfl, sample, member, none⟩
  exact .inr (.sample loaded resident member none)

end

theorem isFinite_grown (history : List Float) : (Forecast.grown history 5 0.2).isFinite = true := by
  have narrow : Forecast.baseWidth history 5 = 1 ∨ Forecast.baseWidth history 5 = 2 ∨
      Forecast.baseWidth history 5 = 3 ∨ Forecast.baseWidth history 5 = 4 ∨
      Forecast.baseWidth history 5 = 5 := by
    unfold Forecast.baseWidth
    omega
  unfold Forecast.grown
  rcases narrow with width | width | width | width | width <;> rw [width] <;> decide +kernel

theorem founded_standard {cluster : Cluster Float} (loaded : inventory.load = .ok cluster) :
    (Settings.standard.rules table).Founded cluster.machines (· ∈ cluster.residents)
      (Explained inventory) := by
  refine Plan.founded_of (fun vm resident => vm.capacity_failsOnly.mono ?_)
    (fun machine member => machine.capacity_failsOnly.mono ?_)
    (fun vm resident => require_explained loaded resident)
    (fun vm _ _ => isFinite_grown vm.samples)
    (fun vm resident => window_explained loaded resident)
    fun vm resident => window_explained loaded resident
  · rintro _ ⟨rfl, beyond⟩
    exact .inr (.vmCores loaded resident beyond)
  · rintro _ ⟨rfl, beyond⟩
    exact .inr (.machineCores loaded member beyond)

/-! Serving -/

theorem readTick_failsOnly (tick : Value) :
    FailsOnly (Explained inventory) (Payload.readTick tick) :=
  .bind (checked_failsOnly _ _) fun _ _ => .pure _

/-- Neither a tick that is given as a number nor a counted one is a text. -/
theorem stamp_of_readTick {service : Service} {given : Option Float} {tick : Tick Float}
    (read : Payload.readTick (service.nextTick (given.map .decimal)).2 = .ok tick) :
    tick.stamp = .ok tick.value := by
  obtain ⟨number, -, read⟩ := Attempt.bind_ok read
  cases given <;> cases read <;> rfl

variable {service : Service} {entropy : Draw.Source}

section

variable (default : Settings.load ⟨[], []⟩ = .ok service.settings)
include default

theorem policy_default : service.settings.policy table = .ok (Settings.standard.rules table) := by
  rw [← Except.ok.inj (Settings.load_nothing.symm.trans default)]
  exact (Settings.load_sound Settings.load_nothing).policy_eq table

theorem serve_failsOnly (inventory : InventoryRecord) :
    FailsOnly (Explained inventory) (service.serve (inventory.request entropy)).1 := by
  intro fault failed
  generalize run : service.serve (inventory.request entropy) = ended at failed
  obtain ⟨result, after⟩ := ended
  cases failed
  have ruled := policy_default default
  cases served run with
  | refused unprepared =>
    rw [← settings_nextTick service (inventory.request entropy).tick] at ruled
    exact FailsOnly.bind (load_failsOnly inventory) (fun _ _ => .bind (.of_ok ruled) fun _ _ =>
      .bind (readTick_failsOnly _) fun _ _ => .pure _) fault unprepared
  | @broken cluster _ _ _ _ loaded built read planned =>
    cases built.symm.trans ruled
    exact (founded_standard loaded).plan_failsOnly (.of_ok (stamp_of_readTick read))
      (fun shared => .inr (.repeated loaded shared))
      (fun host vm reason during => .inl (answered_refused host vm reason during))
      Draw.Source.next _ fault (congrArg Prod.fst planned)

end

def reply : Except (Fault Float) (List Move) → Except (Fault Float) (Reply (List Move))
  | .ok moves => .ok (.done moves)
  | .error fault => (reject fault).elim (.error fault) .ok

theorem planEndpoint_eq {body : Value} (accepted : InventoryRecord.read body = .ok inventory) :
    (service.planEndpoint entropy body).1 =
      reply (service.serve (inventory.request entropy)).1 := by
  unfold planEndpoint serve InventoryRecord.request
  rw [accepted]
  dsimp only
  generalize service.runCycle _ _ _ _ = ended
  obtain ⟨result, after⟩ := ended
  cases result with
  | ok moves => rfl
  | error fault =>
    dsimp only [reply]
    cases reject fault <;> rfl

/-- With default settings, an accepted request is planned for or rejected, or something in it brings
about a fault that is not answered. -/
theorem planEndpoint_answers (default : Settings.load ⟨[], []⟩ = .ok service.settings)
    {body : Value} (accepted : InventoryRecord.read body = .ok inventory) :
    (∃ moves, (service.planEndpoint entropy body).1 = .ok (.done moves)) ∨
      (∃ status detail, (service.planEndpoint entropy body).1 = .ok (.rejected status detail) ∧
        (status = 422 ∨ status = 409)) ∨
      ∃ fault, (service.planEndpoint entropy body).1 = .error fault ∧ Unanswered inventory fault := by
  rw [planEndpoint_eq accepted]
  cases run : (service.serve (inventory.request entropy)).1 with
  | ok moves => exact .inl ⟨moves, rfl⟩
  | error fault =>
    rcases serve_failsOnly default inventory fault run with ⟨status, detail, told, code⟩ | cause
    · exact .inr (.inl ⟨status, detail, by rw [reply, told]; rfl, code⟩)
    · cases told : reject fault with
      | none => exact .inr (.inr ⟨fault, by rw [reply, told]; rfl, cause⟩)
      | some => cases cause <;> cases told

namespace Sample

def unsized : Fields :=
  [("vm_id", .text "v"), ("mips", .text "2500"), ("pes", .integer 4), ("host_id", .text "h")]

def spacious : Fields :=
  [("host_id", .text "h"), ("mips", .integer 2500), ("pes", .integer 4), ("ram_mb", .integer 65536)]

def body : Value :=
  .object [("hosts", .list [.object spacious]), ("vms", .list [.object unsized]),
    ("tick", .integer 300)]

def decoded : InventoryRecord := ⟨[spacious], [unsized], some 300.0⟩

end Sample

theorem planEndpoint_answers_unsized :
    let answer := (planEndpoint { settings := Settings.standard } Sample.entropy Sample.body).1
    (∃ moves, answer = .ok (.done moves)) ∨
      (∃ status detail, answer = .ok (.rejected status detail) ∧ (status = 422 ∨ status = 409)) ∨
      ∃ fault, answer = .error fault ∧ Unanswered Sample.decoded fault :=
  planEndpoint_answers Settings.load_nothing
    (show InventoryRecord.read Sample.body = .ok Sample.decoded from rfl)

/-- A speed that is no number breaks the request off if it is needed to fill in a RAM size. -/
theorem planEndpoint_statedText {body : Value} (accepted : InventoryRecord.read body = .ok inventory)
    (hosts : ∀ host ∈ inventory.hosts, ∃ entry, Inventory.readHost (.object host) = .ok entry)
    {earlier later : List Fields} {vm : Fields} (order : inventory.vms = earlier ++ vm :: later)
    (vms : ∀ other ∈ earlier, ∃ record, Inventory.readVm table (.object other) = .ok record)
    (unsized : vm.LacksRam) {value : Value} (given : vm.lookup "mips" = some value)
    (unread : ¬value.IsNumber) : (service.planEndpoint entropy body).1 = .error .wrongType := by
  have stated : Inventory.statedMips (some value) = .error .wrongType := by
    cases value with
    | null | text | list | object => rfl
    | integer | decimal | boolean => exact absurd trivial unread
  have broken : Inventory.readVm table (.object vm) = .error .wrongType := by
    unfold Inventory.readVm Payload.Entry.read
    change Inventory.withRam table { fields := vm } >>= _ = _
    rw [Inventory.withRam_unsized unsized, given, stated]
    rfl
  have unloaded : inventory.load = .error .wrongType := by
    refine Inventory.load_unread (List.forall_mem_map.mpr hosts) ?_
    rw [order, List.map_append, List.map_cons]
    exact Attempt.mapM_error (List.forall_mem_map.mpr vms) broken
  have refused : (service.serve (inventory.request entropy)).1 = .error .wrongType :=
    runCycle_refused (prepare_unloaded unloaded)
  rw [planEndpoint_eq accepted, refused]
  rfl

example (entropy : Draw.Source) :
    (planEndpoint { settings := Settings.standard } entropy Sample.body).1 = .error .wrongType := rfl

end Service

end Fleet
