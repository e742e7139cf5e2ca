import Fleet.Destination
import Fleet.Eviction
import Fleet.Proofs.Attempt
import Fleet.Proofs.Renaming.Policy

/-! Rules do not look at serials.

The serial of a VM says only whose label is meant where VMs share an id. No load, forecast or score
depends on it, so rules that choose VMs or hosts choose the same ones without their serials.
-/

set_option autoImplicit false

namespace Fleet

variable {α : Type}

def Vm.unnumbered (vm : Vm α) : Vm α := { vm with serial := 0 }

def Host.unnumbered (host : Host α) : Host α := { host with vms := host.vms.map Vm.unnumbered }

@[simp] theorem Vm.id_unnumbered (vm : Vm α) : vm.unnumbered.id = vm.id := rfl

@[simp] theorem Vm.ids_unnumbered (vms : List (Vm α)) :
    (vms.map Vm.unnumbered).map (·.id) = vms.map (·.id) := by
  rw [List.map_map]
  rfl

theorem Vm.movable_unnumbered (vms : List (Vm α)) :
    (vms.map Vm.unnumbered).filter (!·.migrating) =
      (vms.filter (!·.migrating)).map Vm.unnumbered := by
  rw [List.filter_map]
  rfl

@[simp] theorem Host.vms_unnumbered (host : Host α) :
    host.unnumbered.vms = host.vms.map Vm.unnumbered := rfl

@[simp] theorem Host.vmIds_unnumbered (host : Host α) : host.unnumbered.vmIds = host.vmIds :=
  Vm.ids_unnumbered host.vms

variable [Scalar α]

/-! Loads -/

namespace Host

@[simp] theorem demand_unnumbered (host : Host α) : host.unnumbered.demand = host.demand := by
  unfold demand
  rw [vms_unnumbered, List.foldlM_map]
  rfl

@[simp] theorem utilization_unnumbered (host : Host α) :
    host.unnumbered.utilization = host.utilization := by
  unfold utilization
  rw [demand_unnumbered]
  rfl

@[simp] theorem allocatedRam_unnumbered (host : Host α) :
    host.unnumbered.allocatedRam = host.allocatedRam := by
  unfold allocatedRam
  rw [vms_unnumbered, List.map_map]
  rfl

@[simp] theorem fits_unnumbered (host : Host α) (vm : Vm α) :
    host.unnumbered.fits vm.unnumbered = host.fits vm := by
  unfold fits
  rw [allocatedRam_unnumbered]
  rfl

@[simp] theorem isSuitable_unnumbered (host : Host α) (vm : Vm α) :
    host.unnumbered.isSuitable vm.unnumbered = host.isSuitable vm := by
  unfold isSuitable
  rw [fits_unnumbered, demand_unnumbered]
  rfl

theorem refusal?_unnumbered (host : Host α) (vm : Vm α) (check : Bool) :
    host.unnumbered.refusal? vm.unnumbered check = host.refusal? vm check := by
  have held : host.unnumbered.holds vm.id = host.holds vm.id := by
    unfold holds
    rw [vms_unnumbered, List.any_map]
    rfl
  unfold refusal?
  rw [Vm.id_unnumbered, held, fits_unnumbered, allocatedRam_unnumbered]
  rfl

end Host

/-! Rules -/

namespace OverloadRule

variable (rule : OverloadRule α) (table : FlavorTable α)

theorem assess_unnumbered (host : Host α) (extra : List (Vm α)) :
    rule.assess table host.unnumbered (extra.map Vm.unnumbered) = rule.assess table host extra := by
  have forecasts (vms : List (Vm α)) :
      ((vms.map Vm.unnumbered).mapM fun vm => do pure ((← rule.forecast vm), vm)) =
        (vms.mapM fun vm => do pure ((← rule.forecast vm), vm)).map
          (List.map (Prod.map id Vm.unnumbered)) :=
    Attempt.mapM_map (fun vm => by
      change (do pure ((← rule.forecast vm), vm.unnumbered)) = _
      cases rule.forecast vm <;> rfl) vms
  have cpu (forecasts : List (α × Vm α)) :
      predictedCpu host.unnumbered (forecasts.map (Prod.map id Vm.unnumbered)) =
        predictedCpu host forecasts := by
    unfold predictedCpu
    rw [List.foldlM_map]
    rfl
  have memory (forecasts : List (α × Vm α)) :
      predictedMemory table (forecasts.map (Prod.map id Vm.unnumbered)) =
        predictedMemory table forecasts := by
    unfold predictedMemory
    rw [List.foldlM_map]
    rfl
  unfold assess
  simp only [Host.vms_unnumbered, ← List.map_append, List.isEmpty_map, forecasts]
  split
  · rfl
  · cases (host.vms ++ extra).mapM fun vm => do pure ((← rule.forecast vm), vm) with
    | error fault => rfl
    | ok forecasts =>
      simp only [Except.map, bind, Except.bind, cpu, memory]
      rfl

theorem observe_unnumbered (host : Host α) (tick : Tick α) :
    rule.observe table host.unnumbered tick = rule.observe table host tick := by
  have judged : rule.assess table host.unnumbered = rule.assess table host :=
    rule.assess_unnumbered table host []
  unfold observe
  rw [judged, Host.utilization_unnumbered]

end OverloadRule

theorem EvictionRule.victim?_unnumbered (rule : EvictionRule α) (table : FlavorTable α)
    (host : Host α) :
    rule.victim? table host.unnumbered =
      (rule.victim? table host).map (Option.map Vm.unnumbered) := by
  have scored (vms : List (Vm α)) :
      ((vms.map Vm.unnumbered).mapM fun vm => do pure (vm, (← rule.metric table vm))) =
        (vms.mapM fun vm => do pure (vm, (← rule.metric table vm))).map
          (List.map (Prod.map Vm.unnumbered id)) :=
    Attempt.mapM_map (fun vm => by
      change (do pure (vm.unnumbered, (← rule.metric table vm))) = _
      cases rule.metric table vm <;> rfl) vms
  unfold victim?
  rw [Host.vms_unnumbered, Vm.movable_unnumbered, scored]
  cases (host.vms.filter (!·.migrating)).mapM fun vm => do pure (vm, (← rule.metric table vm)) with
  | error fault => rfl
  | ok scored =>
    simp only [Except.map, bind, Except.bind, pure, Except.pure, Scalar.firstLeast_map,
      Option.map_map]
    rfl

omit [Scalar α] in
def Search.unnumbered : Search α → Search α
  | settled host => settled (host.map Host.unnumbered)
  | contested scored => contested (scored.map (Prod.map Host.unnumbered id))

namespace DestinationRule

variable (rule : DestinationRule α) (table : FlavorTable α) (host : Host α) (vm : Vm α)

theorem cpuAfter_unnumbered :
    rule.cpuAfter host.unnumbered vm.unnumbered = rule.cpuAfter host vm := by
  unfold cpuAfter
  rw [Host.vms_unnumbered, List.foldlM_map]
  rfl

theorem memoryAfter_unnumbered :
    rule.memoryAfter table host.unnumbered vm.unnumbered = rule.memoryAfter table host vm := by
  unfold memoryAfter
  rw [Host.vms_unnumbered, List.foldlM_map]
  rfl

theorem powerAfter_unnumbered :
    powerAfter host.unnumbered vm.unnumbered = powerAfter host vm := by
  unfold powerAfter
  rw [Host.demand_unnumbered]
  rfl

theorem score_unnumbered :
    rule.score table host.unnumbered vm.unnumbered = rule.score table host vm := by
  have risk : rule.overload.assess table host.unnumbered [vm.unnumbered] =
      rule.overload.assess table host [vm] :=
    rule.overload.assess_unnumbered table host [vm]
  unfold score
  rw [cpuAfter_unnumbered, memoryAfter_unnumbered, risk]
  rfl

theorem isCandidate_unnumbered (excluded : List String) :
    isCandidate vm.unnumbered excluded host.unnumbered = isCandidate vm excluded host := by
  unfold isCandidate
  rw [Host.isSuitable_unnumbered, powerAfter_unnumbered]
  rfl

theorem search_unnumbered (hosts : List (Host α)) (excluded : List String) :
    rule.search table vm.unnumbered (hosts.map Host.unnumbered) excluded =
      (rule.search table vm hosts excluded).map Search.unnumbered := by
  have passed : candidates vm.unnumbered (hosts.map Host.unnumbered) excluded =
      (candidates vm hosts excluded).map (List.map Host.unnumbered) :=
    Attempt.sieve_map (fun host => isCandidate_unnumbered host vm excluded) hosts
  have scores (hosts : List (Host α)) :
      ((hosts.map Host.unnumbered).mapM fun host => do
          pure (host, (← rule.score table host vm.unnumbered))) =
        (hosts.mapM fun host => do pure (host, (← rule.score table host vm))).map
          (List.map (Prod.map Host.unnumbered id)) :=
    Attempt.mapM_map (fun host => by
      rw [score_unnumbered]
      cases rule.score table host vm <;> rfl) hosts
  unfold search
  rw [passed]
  match candidates vm hosts excluded with
  | .error fault => rfl
  | .ok [] => rfl
  | .ok [only] => rfl
  | .ok (first :: second :: rest) =>
    change (((first :: second :: rest).map Host.unnumbered).mapM fun host => do
      pure (host, (← rule.score table host vm.unnumbered))) >>= _ =
        Except.map Search.unnumbered (((first :: second :: rest).mapM fun host => do
          pure (host, (← rule.score table host vm))) >>= _)
    rw [scores]
    cases (first :: second :: rest).mapM fun host => do
        pure (host, (← rule.score table host vm)) with
    | error fault => rfl
    | ok scored =>
      -- the three choices look at scores alone
      simp only [Except.map, bind, Except.bind]
      rw [best?_filter_map _ rule.isGuided, best?_filter_map _ rule.isTerritorial]
      cases best? (scored.filter fun entry => rule.isGuided entry.2) with
      | some host => rfl
      | none => cases best? (scored.filter fun entry => rule.isTerritorial entry.2) <;> rfl

end DestinationRule

theorem Search.settle_unnumbered (search : Search α) (draw : α) :
    search.unnumbered.settle draw = (search.settle draw).map Host.unnumbered := by
  cases search with
  | settled host => rfl
  | contested scored => exact drawn?_map Host.unnumbered scored draw

end Fleet
