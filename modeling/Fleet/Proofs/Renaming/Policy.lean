import Fleet.Destination
import Fleet.Eviction
import Fleet.Proofs.Renaming

/-! Every rule of a policy decides alike under other names. -/

set_option autoImplicit false

namespace Fleet

variable {α : Type} [Scalar α] {names : Renaming}

/-! Loads -/

theorem Shape.capacity_alike (shape : Shape α) :
    Alike names id shape.capacity shape.capacity := by
  unfold capacity
  split
  · exact .ok _
  · exact .error .integerTooLarge (by simp [Fault.kind])

namespace Host

theorem demand_alike_of_vm (vm : Vm α) : Alike names id vm.demand (vm.renamed names).demand :=
  vm.capacity_alike.bind fun _ => .pure _

theorem addDemand_alike (host : Host α) (total : α) (vm : Vm α) :
    Alike names id (host.addDemand total vm)
      ((host.renamed names).addDemand total (vm.renamed names)) := by
  refine (demand_alike_of_vm vm).bind fun demand => ?_
  simp only [toMachine_renamed, Machine.renamed, Vm.id_renamed, Renaming.vm_mem]
  exact .pure _

theorem demand_alike (host : Host α) : Alike names id host.demand (host.renamed names).demand :=
  .foldlM_id host.addDemand_alike host.vms 0.0

theorem utilization_alike (host : Host α) :
    Alike names id host.utilization (host.renamed names).utilization := by
  refine host.capacity_alike.bind fun capacity => ?_
  unfold id
  split
  · exact .pure _
  · exact host.demand_alike.bind fun _ => .pure _

@[simp] theorem allocatedRam_renamed (host : Host α) :
    (host.renamed names).allocatedRam = host.allocatedRam := by
  simp [allocatedRam, Function.comp_def]

@[simp] theorem fits_renamed (host : Host α) (vm : Vm α) :
    (host.renamed names).fits (vm.renamed names) = host.fits vm := by
  simp only [fits, allocatedRam_renamed]
  rfl

theorem isSuitable_alike (host : Host α) (vm : Vm α) :
    Alike names id (host.isSuitable vm) ((host.renamed names).isSuitable (vm.renamed names)) := by
  unfold isSuitable
  rw [fits_renamed]
  split
  · exact host.demand_alike.bind fun _ => (demand_alike_of_vm vm).bind fun _ =>
      host.capacity_alike.bind fun _ => .pure _
  · exact .pure _

omit [Scalar α] in
@[simp] theorem holds_renamed (host : Host α) (id : String) :
    (host.renamed names).holds (names.vm id) = host.holds id := by
  simp [holds, Function.comp_def, Bool.beq_eq_decide_eq]

theorem refusal?_renamed (host : Host α) (vm : Vm α) (check : Bool) :
    (host.renamed names).refusal? (vm.renamed names) check =
      (host.refusal? vm check).map (Fault.renamed names) := by
  unfold refusal?
  rw [Vm.id_renamed, holds_renamed, fits_renamed]
  split
  · rfl
  · split
    · simp only [allocatedRam_renamed]
      rfl
    · rfl

end Host

/-! Windows and flavors -/

namespace Forecast

theorem floor_alike (x : α) : Alike names id (floor x : Except (Fault α) Int) (floor x) := by
  unfold floor
  cases Scalar.floor x with
  | ok value => exact .ok value
  | error cause => cases cause <;> exact .error (.noInteger _) (by simp [Fault.kind])

theorem ceil_alike (x : α) : Alike names id (ceil x : Except (Fault α) Int) (ceil x) := by
  unfold ceil
  cases Scalar.ceil x with
  | ok value => exact .ok value
  | error cause => cases cause <;> exact .error (.noInteger _) (by simp [Fault.kind])

theorem volatilityWindow_alike (history : List α) (gamma : α) :
    Alike names id (volatilityWindow history gamma) (volatilityWindow history gamma) := by
  unfold volatilityWindow
  split
  · exact (floor_alike _).bind fun _ => .pure _
  · exact (floor_alike _).bind fun _ => .pure _

theorem adaptiveWindow_alike (history : List α) (base : Int) (epsilon theta : α) :
    Alike names id (adaptiveWindow history base epsilon theta)
      (adaptiveWindow history base epsilon theta) := by
  unfold adaptiveWindow
  split
  · exact .pure _
  · dsimp only
    split
    · exact (ceil_alike _).bind fun _ => .pure _
    · exact (floor_alike _).bind fun _ => .pure _

end Forecast

theorem CoreCount.squaredGap_alike (given : CoreCount α) (cores : Int) :
    Alike names id (given.squaredGap cores) (given.squaredGap cores) := by
  cases given with
  | whole count =>
    simp only [squaredGap]
    split
    · exact .ok _
    · exact .error .integerTooLarge (by simp [Fault.kind])
  | decimal count =>
    simp only [squaredGap]
    split
    · exact .error .integerTooLarge (by simp [Fault.kind])
    · split
      · exact .ok _
      · exact .error .squareTooLarge (by simp [Fault.kind])

theorem Flavor.distance_alike (flavor : Flavor α) (mips : α) (cores : CoreCount α) :
    Alike names id (flavor.distance mips cores) (flavor.distance mips cores) :=
  (cores.squaredGap_alike flavor.cores).bind fun _ => .pure _

namespace FlavorTable

theorem scan_alike (mips : α) (cores : CoreCount α) (best : Option (Flavor α × α))
    (flavors : List (Flavor α)) :
    Alike names id (scan mips cores best flavors) (scan mips cores best flavors) := by
  induction flavors generalizing best with
  | nil => exact .ok _
  | cons flavor rest ih =>
    unfold scan
    split
    · exact .ok _
    · have later : Alike names id
          (flavor.distance mips cores >>= fun cost => scan mips cores (nearer best flavor cost) rest)
          (flavor.distance mips cores >>= fun cost => scan mips cores (nearer best flavor cost) rest) :=
        (flavor.distance_alike mips cores).bind fun cost => ih (nearer best flavor cost)
      cases known : flavor.distance mips cores <;> rw [known] at later <;> exact later

theorem require_alike (table : FlavorTable α) (vm : String) (shape : Shape α) :
    Alike names id (table.require vm shape) (table.require (names.vm vm) shape) := by
  refine (scan_alike _ _ _ _).bind fun resolution => ?_
  match resolution with
  | .found flavor => exact .pure flavor
  | .unmatched none => exact .error .noNearestShape (by simp [Fault.kind])
  | .unmatched (some (flavor, distance)) =>
    exact .error (.unknownShape vm shape flavor.index flavor.toShape distance)
      (by simp [Fault.kind])

end FlavorTable

/-! Overload -/

omit [Scalar α] in
theorem Tick.stamp_alike (tick : Tick α) : Alike names id tick.stamp tick.stamp := by
  unfold stamp
  split
  · exact .ok _
  · exact .error (.unreadableNumber _) (by simp [Fault.kind])

def Metric.retimed (retime : α → α) (metric : Metric α) : Metric α :=
  { metric with timestamp := retime metric.timestamp }

omit [Scalar α] in
@[simp] theorem Metric.retimed_id (metric : Metric α) : metric.retimed id = metric := rfl

namespace OverloadRule

variable (rule : OverloadRule α)

theorem forecast_alike (vm : Vm α) :
    Alike names id (rule.forecast vm) (rule.forecast (vm.renamed names)) :=
  (Forecast.adaptiveWindow_alike _ _ _ _).bind fun _ => .pure _

theorem predictedCpu_alike (host : Host α) (forecasts : List (α × Vm α)) :
    Alike names id (predictedCpu host forecasts)
      (predictedCpu (host.renamed names) (forecasts.map (Prod.map id (Vm.renamed names)))) := by
  refine (Alike.foldlM_id (fun total entry => ?_) forecasts 0.0).bind fun demand => ?_
  · exact entry.2.capacity_alike.bind fun _ => .pure _
  · exact host.capacity_alike.bind fun _ => .pure _

theorem predictedMemory_alike (table : FlavorTable α) (forecasts : List (α × Vm α)) :
    Alike names id (predictedMemory table forecasts)
      (predictedMemory table (forecasts.map (Prod.map id (Vm.renamed names)))) := by
  refine Alike.foldlM_id (fun total entry => ?_) forecasts 0.0
  exact (table.require_alike entry.2.id entry.2.toShape).bind fun _ => .pure _

theorem assess_alike (table : FlavorTable α) (host : Host α) (extra : List (Vm α)) :
    Alike names id (rule.assess table host extra)
      (rule.assess table (host.renamed names) (extra.map (Vm.renamed names))) := by
  unfold assess
  simp only [Host.vms_renamed, ← List.map_append, List.isEmpty_map]
  split
  · exact .pure _
  · have forecasts : Alike names (List.map (Prod.map id (Vm.renamed names)))
        ((host.vms ++ extra).mapM fun vm => do pure ((← rule.forecast vm), vm))
        (((host.vms ++ extra).map (Vm.renamed names)).mapM fun vm => do
          pure ((← rule.forecast vm), vm)) :=
      .mapM (fun vm => (rule.forecast_alike vm).bind fun cpu => .ok (cpu, vm)) _
    refine forecasts.bind fun forecasts => (predictedCpu_alike host forecasts).bind fun cpu => ?_
    dsimp only [id]
    split
    · exact .pure _
    · refine (predictedMemory_alike table forecasts).bind fun memory => ?_
      change Alike names id (if rule.memoryThreshold * host.ramMb ≤ memory then _ else _)
        (if rule.memoryThreshold * host.ramMb ≤ memory then _ else _)
      split
      · exact .pure _
      · exact .pure _

theorem observe_retimed (table : FlavorTable α) (host : Host α) {tick time : Tick α}
    {retime : α → α} (stamps : Alike names retime tick.stamp time.stamp) :
    Alike names (Prod.map id (Metric.retimed retime))
      (rule.observe table host tick) (rule.observe table (host.renamed names) time) :=
  (rule.assess_alike table host []).bind fun _ => host.utilization_alike.bind fun _ =>
    stamps.bind fun _ => .pure _

theorem observe_alike (table : FlavorTable α) (host : Host α) (tick : Tick α) :
    Alike names id (rule.observe table host tick)
      (rule.observe table (host.renamed names) tick) :=
  rule.observe_retimed table host tick.stamp_alike

end OverloadRule

/-! Eviction -/

theorem Scalar.firstLeast_map {Item Other : Type} (other : Item → Other)
    (scored : List (Item × α)) :
    firstLeast (scored.map (Prod.map other id)) =
      (firstLeast scored).map (Prod.map other id) := by
  unfold firstLeast
  rw [List.foldl_map]
  change List.foldl _ (Option.map (Prod.map other id) none) scored = _
  refine List.foldl_hom (Option.map (Prod.map other id)) fun best entry => ?_
  cases best with
  | none =>
    simp only [Option.map_none, Prod.map_snd, id]
    split <;> rfl
  | some least =>
    simp only [Option.map_some, Prod.map_snd, id]
    split <;> rfl

namespace EvictionRule

variable (rule : EvictionRule α) (table : FlavorTable α)

theorem metric_alike (vm : Vm α) :
    Alike names id (rule.metric table vm) (rule.metric table (vm.renamed names)) := by
  refine (Forecast.volatilityWindow_alike _ _).bind fun window => ?_
  simp only [id, Vm.samples_renamed]
  split
  · exact .pure _
  · exact (table.require_alike _ _).bind fun _ => .pure _

theorem victim?_alike (host : Host α) :
    Alike names (Option.map (Vm.renamed names)) (rule.victim? table host)
      (rule.victim? table (host.renamed names)) := by
  have free : (host.renamed names).vms.filter (!·.migrating) =
      (host.vms.filter (!·.migrating)).map (Vm.renamed names) := by
    simp [List.filter_map, Function.comp_def]
  unfold victim?
  rw [free]
  have scored : Alike names (List.map (Prod.map (Vm.renamed names) id))
      ((host.vms.filter (!·.migrating)).mapM fun vm => do pure (vm, (← rule.metric table vm)))
      (((host.vms.filter (!·.migrating)).map (Vm.renamed names)).mapM fun vm => do
        pure (vm, (← rule.metric table vm))) :=
    .mapM (fun vm => (rule.metric_alike table vm).bind fun load => .ok (vm, load)) _
  refine scored.bind fun scored => ?_
  rw [Scalar.firstLeast_map, Option.map_map]
  have same : (Option.map (Prod.fst ∘ Prod.map (Vm.renamed names) id)
      (Scalar.firstLeast scored)) =
      ((Scalar.firstLeast scored).map Prod.fst).map (Vm.renamed names) := by
    rw [Option.map_map]
    rfl
  exact same ▸ .pure _

end EvictionRule

/-! Destinations -/

namespace PowerCurve

omit [Scalar α] in
theorem sample_alike (curve : PowerCurve α) (position : Int) :
    Alike names id (curve.sample position) (curve.sample position) := by
  unfold sample
  split
  · split
    · exact .ok _
    · exact .error (.powerPosition position) (by simp [Fault.kind])
  · exact .error (.powerPosition position) (by simp [Fault.kind])

theorem draw_alike (curve : PowerCurve α) (utilization : α) :
    Alike names id (curve.draw utilization) (curve.draw utilization) := by
  unfold draw
  split
  · exact .error (.utilization utilization) (by simp [Fault.kind])
  · split
    · exact (Forecast.floor_alike _).bind fun position => curve.sample_alike position
    · exact (Forecast.floor_alike _).bind fun below => (Forecast.ceil_alike _).bind fun above =>
        (curve.sample_alike above).bind fun _ => (curve.sample_alike below).bind fun _ => .pure _

end PowerCurve

def Search.renamed (names : Renaming) : Search α → Search α
  | settled host => settled (host.map (Host.renamed names))
  | contested scored => contested (scored.map (Prod.map (Host.renamed names) id))

namespace DestinationRule

variable (rule : DestinationRule α) (table : FlavorTable α)

theorem forecast?_alike (vm : Vm α) :
    Alike names id (rule.forecast? vm) (rule.forecast? (vm.renamed names)) :=
  (Forecast.volatilityWindow_alike _ _).bind fun _ => .pure _

theorem residentCpu_alike (vm : Vm α) :
    Alike names id (rule.residentCpu vm) (rule.residentCpu (vm.renamed names)) :=
  (rule.forecast?_alike vm).bind fun _ => .pure _

theorem arrivalCpu_alike (vm : Vm α) :
    Alike names id (rule.arrivalCpu vm) (rule.arrivalCpu (vm.renamed names)) :=
  (rule.forecast?_alike vm).bind fun _ => .pure _

theorem addCpu_alike (total cpu : α) (vm : Vm α) :
    Alike names id (addCpu total cpu vm) (addCpu total cpu (vm.renamed names)) :=
  vm.capacity_alike.bind fun _ => .pure _

theorem addMemory_alike (total cpu : α) (vm : Vm α) :
    Alike names id (addMemory table total cpu vm)
      (addMemory table total cpu (vm.renamed names)) :=
  (table.require_alike vm.id vm.toShape).bind fun _ => .pure _

theorem cpuAfter_alike (host : Host α) (vm : Vm α) :
    Alike names id (rule.cpuAfter host vm)
      (rule.cpuAfter (host.renamed names) (vm.renamed names)) := by
  refine (Alike.foldlM_id (fun total old => ?_) host.vms 0.0).bind fun resident => ?_
  · exact (rule.residentCpu_alike old).bind fun cpu => addCpu_alike total cpu old
  · exact (rule.arrivalCpu_alike vm).bind fun cpu => (addCpu_alike resident cpu vm).bind fun _ =>
      host.capacity_alike.bind fun _ => .pure _

theorem memoryAfter_alike (host : Host α) (vm : Vm α) :
    Alike names id (rule.memoryAfter table host vm)
      (rule.memoryAfter table (host.renamed names) (vm.renamed names)) := by
  refine (Alike.foldlM_id (fun total old => ?_) host.vms 0.0).bind fun resident => ?_
  · exact (rule.residentCpu_alike old).bind fun cpu => addMemory_alike table total cpu old
  · exact (rule.arrivalCpu_alike vm).bind fun cpu =>
      (addMemory_alike table resident cpu vm).bind fun _ => .pure _

theorem powerAfter_alike (host : Host α) (vm : Vm α) :
    Alike names id (powerAfter host vm)
      (powerAfter (host.renamed names) (vm.renamed names)) := by
  refine host.capacity_alike.bind fun capacity => ?_
  unfold id
  split
  · exact .pure _
  · exact host.demand_alike.bind fun _ => (Host.demand_alike_of_vm vm).bind fun _ =>
      host.power.draw_alike _

theorem score_alike (host : Host α) (vm : Vm α) :
    Alike names id (rule.score table host vm)
      (rule.score table (host.renamed names) (vm.renamed names)) := by
  refine (Forecast.volatilityWindow_alike _ _).bind fun window => ?_
  have cycle (number : Option α) : Alike names id
      (number.elim (.error .integerTooLarge) .ok : Except (Fault α) α)
      (number.elim (.error .integerTooLarge) .ok) := by
    cases number with
    | none => exact .error .integerTooLarge (by simp [Fault.kind])
    | some cycle => exact .ok cycle
  exact (cycle _).bind fun _ => (rule.cpuAfter_alike host vm).bind fun _ =>
    (rule.memoryAfter_alike table host vm).bind fun _ =>
      (rule.overload.assess_alike table host [vm]).bind fun _ => .pure _

theorem isCandidate_alike (vm : Vm α) (excluded : List String) (host : Host α) :
    Alike names id (isCandidate vm excluded host)
      (isCandidate (vm.renamed names) (excluded.map names.host) (host.renamed names)) := by
  unfold isCandidate
  simp only [Host.toMachine_renamed, Machine.id_renamed, Renaming.host_mem]
  split
  · exact .pure _
  · refine (host.isSuitable_alike vm).bind fun suitable => ?_
    cases suitable with
    | true => exact (powerAfter_alike host vm).bind fun _ => .pure _
    | false => exact .pure _

theorem best?_map (other : Host α → Host α) (scored : List (Host α × Score α)) :
    best? (scored.map (Prod.map other id)) = (best? scored).map other := by
  have totals : (scored.map (Prod.map other id)).map (fun entry => (entry.1, entry.2.total)) =
      (scored.map fun entry => (entry.1, entry.2.total)).map (Prod.map other id) := by
    simp [Function.comp_def]
  unfold best?
  change (Scalar.firstLeast ((List.map _ _).map fun entry : Host α × Score α =>
    (entry.1, entry.2.total))).map _ = _
  rw [totals, Scalar.firstLeast_map, Option.map_map, Option.map_map]
  rfl

theorem best?_filter_map (other : Host α → Host α) (keep : Score α → Bool)
    (scored : List (Host α × Score α)) :
    best? ((scored.map (Prod.map other id)).filter fun entry => keep entry.2) =
      (best? (scored.filter fun entry => keep entry.2)).map other := by
  rw [List.filter_map, ← best?_map]
  rfl

theorem search_alike (vm : Vm α) (hosts : List (Host α)) (excluded : List String) :
    Alike names (Search.renamed names) (rule.search table vm hosts excluded)
      (rule.search table (vm.renamed names) (hosts.map (Host.renamed names))
        (excluded.map names.host)) := by
  refine (Alike.sieve (isCandidate_alike vm excluded) hosts).bind fun passed => ?_
  match passed with
  | [] => exact .ok (Search.settled none)
  | [only] => exact .ok (Search.settled (some only))
  | first :: second :: rest =>
    have scored : Alike names (List.map (Prod.map (Host.renamed names) id))
        ((first :: second :: rest).mapM fun host => do pure (host, (← rule.score table host vm)))
        (((first :: second :: rest).map (Host.renamed names)).mapM fun host => do
          pure (host, (← rule.score table host (vm.renamed names)))) :=
      .mapM (fun host => (rule.score_alike table host vm).bind fun score => .ok (host, score)) _
    refine scored.bind fun scored => ?_
    -- the three choices look at scores alone
    rw [best?_filter_map _ rule.isGuided, best?_filter_map _ rule.isTerritorial]
    cases best? (scored.filter fun entry => rule.isGuided entry.2) with
    | some host => exact .ok (Search.settled (some host))
    | none =>
      cases best? (scored.filter fun entry => rule.isTerritorial entry.2) with
      | some host => exact .ok (Search.settled (some host))
      | none => exact .ok (Search.contested scored)

end DestinationRule

theorem Search.drawn?_map (other : Host α → Host α) (scored : List (Host α × Score α)) (draw : α) :
    drawn? (scored.map (Prod.map other id)) draw = (drawn? scored draw).map other := by
  have totals : (scored.map (Prod.map other id)).map (·.2.total) = scored.map (·.2.total) := by
    simp [Function.comp_def]
  simp only [drawn?, totals]
  rw [DestinationRule.best?_filter_map other
    fun score => decide (threshold (scored.map (·.2.total)) draw ≤ score.total),
    DestinationRule.best?_map]
  cases DestinationRule.best? (scored.filter fun entry =>
    decide (threshold (scored.map (·.2.total)) draw ≤ entry.2.total)) <;> rfl

theorem Search.settle_renamed (search : Search α) (draw : α) :
    (search.renamed names).settle draw = (search.settle draw).map (Host.renamed names) := by
  cases search with
  | settled host => rfl
  | contested scored => exact drawn?_map (Host.renamed names) scored draw

end Fleet
