import Fleet.Proofs.Destination.Choice
import Fleet.Proofs.Flavor.Resolution
import Fleet.Proofs.Forecast.Weights
import Fleet.Proofs.Overload

/-! An overload persists as VMs join.

What each resident is forecast to use is not negative, so neither the forecast CPU nor the memory that
goes with it can shrink when there are more residents.
-/

set_option autoImplicit false

namespace Fleet

open Scalar

variable {α : Type} [Scalar α]

/-- A VM of finite size whose samples are shares. The weights of its history add up to a number, as
they do for any history that fits into a memory. -/
structure Vm.Regular (vm : Vm α) : Prop where
  speed : IsSize vm.mips
  cores : 0 ≤ vm.cores
  capacity {capacity : α} : vm.capacity = .ok capacity → isBounded capacity = true
  memory : IsSize vm.ramMb
  samples : ∀ sample ∈ vm.samples, IsShare sample
  weighable : isBounded (Forecast.totalWeight vm.samples.length : α) = true

namespace OverloadRule

variable {rule : OverloadRule α} {table : FlavorTable α} {host : Host α} {vm : Vm α}

/-! What a single VM uses -/

def speedShare (forecast : α × Vm α) : Except (Fault α) α := do
  pure (forecast.1 * (← forecast.2.capacity))

def memoryShare (table : FlavorTable α) (forecast : α × Vm α) : Except (Fault α) α := do
  let flavor ← table.require forecast.2.id forecast.2.toShape
  pure (flavor.memoryFraction forecast.1 * forecast.2.ramMb)

theorem predictedCpu_eq (host : Host α) (forecast : List (α × Vm α)) :
    predictedCpu host forecast = (do
      let shares ← forecast.mapM speedShare
      let capacity ← host.capacity
      pure (if 0.0 < capacity then sum shares / capacity else 0.0)) := by
  have adds : ∀ (total : α) (entry : α × Vm α),
      (do pure (total + entry.1 * (← entry.2.capacity)) : Except (Fault α) α) =
        (do pure (total + (← speedShare entry))) := by
    intro total entry
    simp [speedShare]
  unfold predictedCpu
  simp only [adds, Attempt.foldlM_add, bind_assoc, pure_bind]
  rfl

theorem predictedMemory_eq (table : FlavorTable α) (forecast : List (α × Vm α)) :
    predictedMemory table forecast = (do pure (sum (← forecast.mapM (memoryShare table)))) := by
  have adds : ∀ (total : α) (entry : α × Vm α),
      (do
        let flavor ← table.require entry.2.id entry.2.toShape
        pure (total + flavor.memoryFraction entry.1 * entry.2.ramMb) : Except (Fault α) α) =
        (do pure (total + (← memoryShare table entry))) := by
    intro total entry
    simp [memoryShare]
  unfold predictedMemory
  simp only [adds, Attempt.foldlM_add]
  rfl

section

variable [Linear α] [Ordered α] {cpu : α}

omit [Linear α] in
theorem isSize_capacity (regular : vm.Regular) {capacity : α} (known : vm.capacity = .ok capacity) :
    IsSize capacity := by
  refine ⟨?_, regular.capacity known⟩
  unfold Shape.capacity at known
  split at known
  · next converted =>
    cases known
    exact Ordered.mul_nonneg regular.speed (Ordered.isSize_of_ofInt? regular.cores converted)
  · cases known

theorem isShare_forecast (regular : vm.Regular) (known : rule.forecast vm = .ok cpu) :
    IsShare cpu := by
  obtain ⟨window, -, same⟩ := Attempt.bind_ok known
  obtain rfl := Except.ok.inj same
  cases mean : Forecast.weightedAverage? vm.samples window with
  | none => exact isShare_zero
  | some share =>
    refine Forecast.isShare_weightedMean? ?_ ?_ mean
    · rw [List.length_reverse]
      exact regular.weighable
    · exact fun sample member => regular.samples sample (List.mem_reverse.mp member)

theorem isSize_memoryFraction {flavor : Flavor α} (bounded : isBounded flavor.memoryRatio = true)
    (share : IsShare cpu) : IsSize (flavor.memoryFraction cpu) := by
  have ratio : IsSize flavor.effectiveRatio := by
    unfold Flavor.effectiveRatio
    split
    · next positive => exact ⟨le_of_lt positive, bounded⟩
    · exact ⟨le_of_lt Ordered.zero_lt_one, Ordered.isBounded_one⟩
  have product : IsSize (flavor.effectiveRatio * cpu) :=
    ⟨Ordered.mul_nonneg ratio share.isSize,
      Ordered.isBounded_of_le (Ordered.mul_le_left ratio share.1 share.2) ratio.2⟩
  unfold Flavor.memoryFraction Forecast.memoryFraction Scalar.max
  split
  · exact product
  · exact isShare_zero.isSize

/-! More residents -/

section

variable {few many : List (Vm α)} {part whole : List (α × Vm α)} {less more : α}

/-- The forecasts are shares, each beside a regular VM. -/
def Fair (forecast : List (α × Vm α)) : Prop := ∀ entry ∈ forecast, IsShare entry.1 ∧ entry.2.Regular

theorem fair_forecasts (regular : ∀ vm ∈ many, vm.Regular) (known : rule.forecasts many = .ok whole) :
    Fair whole := by
  intro entry member
  obtain ⟨vm, vmMem, made⟩ := Attempt.mapM_mem known entry member
  obtain ⟨cpu, forecast, same⟩ := Attempt.bind_ok made
  cases same
  exact ⟨isShare_forecast (regular vm vmMem) forecast, regular vm vmMem⟩

omit [Linear α] [Ordered α] in
theorem forecasts_sublist (sub : few.Sublist many) (first : rule.forecasts few = .ok part)
    (second : rule.forecasts many = .ok whole) : part.Sublist whole := by
  obtain ⟨found, known, sub⟩ := Attempt.mapM_sublist sub second
  obtain rfl := Except.ok.inj (known.symm.trans first)
  exact sub

/-- Sums of what is not negative, for all forecasts and for some of them. -/
theorem sum_shares_le {share : α × Vm α → Except (Fault α) α} (sub : part.Sublist whole)
    (nonneg : ∀ entry ∈ whole, ∀ x, share entry = .ok x → 0.0 ≤ x) {fewer shares : List α}
    (first : part.mapM share = .ok fewer) (second : whole.mapM share = .ok shares) :
    sum fewer ≤ sum shares := by
  obtain ⟨found, known, sub⟩ := Attempt.mapM_sublist sub second
  obtain rfl := Except.ok.inj (known.symm.trans first)
  apply sum_le_sum sub
  intro x member
  obtain ⟨entry, entryMem, read⟩ := Attempt.mapM_mem second x member
  exact nonneg entry entryMem x read

theorem predictedCpu_mono (bounded : ∀ capacity, host.capacity = .ok capacity →
      isBounded capacity = true) (fair : Fair whole) (sub : part.Sublist whole)
    (first : predictedCpu host part = .ok less) (second : predictedCpu host whole = .ok more) :
    less ≤ more := by
  rw [predictedCpu_eq] at first second
  obtain ⟨fewer, fewerKnown, first⟩ := Attempt.bind_ok first
  obtain ⟨shares, known, second⟩ := Attempt.bind_ok second
  obtain ⟨capacity, capacityKnown, first⟩ := Attempt.bind_ok first
  obtain ⟨again, againKnown, second⟩ := Attempt.bind_ok second
  obtain rfl := Except.ok.inj (capacityKnown.symm.trans againKnown)
  have le : sum fewer ≤ sum shares := by
    refine sum_shares_le sub (fun entry member x read => ?_) fewerKnown known
    obtain ⟨speed, speedKnown, same⟩ := Attempt.bind_ok read
    cases same
    obtain ⟨share, regular⟩ := fair entry member
    exact Ordered.mul_nonneg share.isSize (isSize_capacity regular speedKnown)
  cases first
  cases second
  -- a host without capacity is idle, whatever is demanded of it
  split
  · next positive => exact Ordered.div_le_div le positive (bounded capacity capacityKnown)
  · exact zero_le_zero

theorem predictedMemory_mono (ratios : ∀ flavor ∈ table.flavors,
      isBounded flavor.memoryRatio = true) (fair : Fair whole) (sub : part.Sublist whole)
    (first : predictedMemory table part = .ok less) (second : predictedMemory table whole = .ok more) :
    less ≤ more := by
  rw [predictedMemory_eq] at first second
  obtain ⟨fewer, fewerKnown, first⟩ := Attempt.bind_ok first
  obtain ⟨shares, known, second⟩ := Attempt.bind_ok second
  cases first
  cases second
  refine sum_shares_le sub (fun entry member x read => ?_) fewerKnown known
  obtain ⟨flavor, required, same⟩ := Attempt.bind_ok read
  cases same
  obtain ⟨share, regular⟩ := fair entry member
  have fraction := isSize_memoryFraction (ratios flavor (FlavorTable.require_mem required)) share
  exact Ordered.mul_nonneg fraction regular.memory

theorem Judged.persists {before after : Verdict α}
    (ratios : ∀ flavor ∈ table.flavors, isBounded flavor.memoryRatio = true)
    (bounded : ∀ capacity, host.capacity = .ok capacity → isBounded capacity = true)
    (regular : ∀ vm ∈ many, vm.Regular) (sub : few.Sublist many)
    (first : rule.Judged table host few before) (second : rule.Judged table host many after) :
    (before.overloaded = true → after.overloaded = true) ∧
      (before.cause = some .cpu → after.cause = some .cpu) := by
  have occupied (several : few ≠ []) : many ≠ [] := by
    rintro rfl
    exact several (List.sublist_nil.mp sub)
  cases first with
  | idle | healthy => simp [Verdict.overloaded]
  | cpu several known cpuKnown above =>
    have rises {whole : List (α × Vm α)} {more : α} (allKnown : rule.forecasts many = .ok whole)
        (allCpu : predictedCpu host whole = .ok more) : rule.cpuThreshold < more :=
      lt_of_lt_of_le above (predictedCpu_mono bounded (fair_forecasts regular allKnown)
        (forecasts_sublist sub known allKnown) cpuKnown allCpu)
    cases second with
    | idle empty => exact absurd empty (occupied several)
    | cpu => exact ⟨fun _ => rfl, fun _ => rfl⟩
    | memory _ allKnown allCpu below => exact absurd (rises allKnown allCpu) below
    | healthy _ allKnown allCpu below => exact absurd (rises allKnown allCpu) below
  | memory several known _ _ memoryKnown reached =>
    -- with more VMs the CPU may be the cause, and then memory is not looked at
    refine ⟨fun _ => ?_, nofun⟩
    cases second with
    | idle empty => exact absurd empty (occupied several)
    | cpu => rfl
    | memory => rfl
    | healthy _ allKnown _ _ allMemory free =>
      have le := predictedMemory_mono ratios (fair_forecasts regular allKnown)
        (forecasts_sublist sub known allKnown) memoryKnown allMemory
      exact absurd (Linear.le_trans reached le) free

/-- A host that is overloaded stays so, and for the same cause if that is CPU, as VMs join it in any
place, whether as residents or only for the sake of argument. -/
theorem overload_persists {residents newcomers allResidents allNewcomers : List (Vm α)}
    {before after : Verdict α}
    (ratios : ∀ flavor ∈ table.flavors, isBounded flavor.memoryRatio = true)
    (bounded : ∀ capacity, host.capacity = .ok capacity → isBounded capacity = true)
    (regular : ∀ vm ∈ allResidents ++ allNewcomers, vm.Regular)
    (sub : (residents ++ newcomers).Sublist (allResidents ++ allNewcomers))
    (first : rule.assess table { host with vms := residents } newcomers = .ok before)
    (second : rule.assess table { host with vms := allResidents } allNewcomers = .ok after) :
    (before.overloaded = true → after.overloaded = true) ∧
      (before.cause = some .cpu → after.cause = some .cpu) :=
  (judged_of_assess first).persists ratios bounded regular sub (judged_of_assess second)

end

end

/-! An overloaded host that a second VM joins -/

section

open DestinationRule (Sample.vm Sample.host)

theorem regular_sample {id : String} {cores : Int} {load : Float} (nonneg : 0 ≤ cores)
    (bounded : (Sample.vm id cores load).capacity.toOption.all isBounded = true)
    (share : IsShare load) : (Sample.vm id cores load).Regular where
  speed := ⟨(by decide +kernel : (0.0 : Float) ≤ 2500.0),
    (by decide +kernel : isBounded (2500.0 : Float) = true)⟩
  cores := nonneg
  capacity known := by rwa [known] at bounded
  memory := ⟨(by decide +kernel : (0.0 : Float) ≤ 16384.0),
    (by decide +kernel : isBounded (16384.0 : Float) = true)⟩
  samples := by
    intro sample member
    rwa [List.mem_singleton.mp member]
  weighable := Forecast.isBounded_totalWeight_of_le (Nat.succ_le_of_lt (pow_pos two_pos 500))

theorem overload_persists_pair :
    ∃ before after : Verdict Float,
      standard.assess .reference { Sample.host "a" [] with vms := [Sample.vm "x" 8 0.95] } =
        .ok before ∧
      standard.assess .reference
        { Sample.host "a" [] with vms := [Sample.vm "y" 4 0.5, Sample.vm "x" 8 0.95] } =
        .ok after ∧
      before.cause = some .cpu ∧ (before.overloaded = true → after.overloaded = true) ∧
      (before.cause = some .cpu → after.cause = some .cpu) := by
  have ratios : ∀ flavor ∈ (FlavorTable.reference : FlavorTable Float).flavors,
      isBounded flavor.memoryRatio = true := by decide +kernel
  have bounded : (Sample.host "a" []).capacity.toOption.all isBounded = true := by decide +kernel
  have regular : ∀ vm ∈ [Sample.vm "y" 4 0.5, Sample.vm "x" 8 0.95] ++ [], vm.Regular := by
    simp only [List.append_nil, List.forall_mem_cons]
    refine ⟨regular_sample (by decide) (by decide +kernel) ⟨by decide +kernel, by decide +kernel⟩,
      regular_sample (by decide) (by decide +kernel) ⟨by decide +kernel, by decide +kernel⟩, ?_⟩
    exact fun _ absent => absurd absent List.not_mem_nil
  obtain ⟨before, first⟩ := Attempt.ok_of_isOk (show (standard.assess .reference
    { Sample.host "a" [] with vms := [Sample.vm "x" 8 0.95] }).isOk = true by decide +kernel)
  obtain ⟨after, second⟩ := Attempt.ok_of_isOk (show (standard.assess .reference
    { Sample.host "a" [] with vms := [Sample.vm "y" 4 0.5, Sample.vm "x" 8 0.95] }).isOk = true by
      decide +kernel)
  have cause : (standard.assess .reference
      { Sample.host "a" [] with vms := [Sample.vm "x" 8 0.95] }).toOption.bind (·.cause) =
        some .cpu := by decide +kernel
  rw [first] at cause
  exact ⟨before, after, first, second, cause,
    overload_persists ratios (fun capacity known => by rwa [known] at bounded) regular
      (.cons _ (.refl _)) first second⟩

end

end OverloadRule

end Fleet
