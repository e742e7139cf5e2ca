import Fleet.Proofs.Destination.Choice
import Fleet.Proofs.Forecast.Recency
import Fleet.Proofs.Overload

/-! Judgements from the newest samples.

A forecast reaches back by the base window and the samples whose deviations are looked at, or by the
widest window. VMs may forget what lies behind that, and no judgement changes.
-/

set_option autoImplicit false

namespace Fleet

variable {α : Type} [Scalar α]

/-- The second VM is the first one without some of its oldest samples; if it has forgotten any, at least
so many are left. -/
def Vm.Forgets (least : Int) (vm shorter : Vm α) : Prop :=
  ∃ count, shorter = { vm with samples := vm.samples.drop count } ∧
    (count = 0 ∨ least ≤ (vm.samples.drop count).length)

/-- All that is read of a VM once its forecast is made. -/
def Vm.sketch (vm : Vm α) : Vm α := { vm with samples := [] }

namespace OverloadRule

variable {rule : OverloadRule α} {table : FlavorTable α} {host : Host α}

/-- How many samples a forecast looks at. Where the widest window is too wide for a number, no history
is long enough. -/
def horizon (rule : OverloadRule α) : Except (Fault α) Int := do
  let widest ← Forecast.ceil (Scalar.ofNat rule.baseWindow.toNat * (1.0 + rule.epsilon))
  pure (max (rule.baseWindow + 3) widest)

/-! Judgements of sketches -/

theorem predictedCpu_sketch (forecast : List (α × Vm α)) :
    predictedCpu host (forecast.map (Prod.map id Vm.sketch)) = predictedCpu host forecast := by
  unfold predictedCpu
  rw [List.foldlM_map]
  rfl

theorem predictedMemory_sketch (forecast : List (α × Vm α)) :
    predictedMemory table (forecast.map (Prod.map id Vm.sketch)) = predictedMemory table forecast := by
  unfold predictedMemory
  rw [List.foldlM_map]
  rfl

theorem judge_sketch (forecast : List (α × Vm α)) :
    rule.judge table host (forecast.map (Prod.map id Vm.sketch)) = rule.judge table host forecast := by
  unfold judge
  rw [predictedCpu_sketch, predictedMemory_sketch]

/-- Two VMs have the same forecast and agree in all else that a judgement reads. -/
def Matches (rule : OverloadRule α) (vm other : Vm α) : Prop :=
  rule.forecast other = rule.forecast vm ∧ other.sketch = vm.sketch

variable {vms others : List (Vm α)}

theorem forecasts_sketch (alike : List.Forall₂ rule.Matches vms others) :
    (rule.forecasts others).map (List.map (Prod.map id Vm.sketch)) =
      (rule.forecasts vms).map (List.map (Prod.map id Vm.sketch)) := by
  unfold forecasts
  rw [Attempt.map_mapM, Attempt.map_mapM]
  induction alike with
  | nil => rfl
  | @cons vm other _ _ first _ ih =>
    have same : (do pure ((← rule.forecast other), other) : Except (Fault α) (α × Vm α)).map
          (Prod.map id Vm.sketch) =
        (do pure ((← rule.forecast vm), vm) : Except (Fault α) (α × Vm α)).map
          (Prod.map id Vm.sketch) := by
      rw [first.1]
      cases rule.forecast vm with
      | error fault => rfl
      | ok cpu => exact congrArg (fun sketch => Except.ok (cpu, sketch)) first.2
    rw [List.mapM_cons, List.mapM_cons, same, ih]

theorem assess_of_matches {residents extra otherExtra : List (Vm α)}
    (alike : List.Forall₂ rule.Matches (host.vms ++ extra) (residents ++ otherExtra)) :
    rule.assess table { host with vms := residents } otherExtra = rule.assess table host extra := by
  have judged (forecast : Except (Fault α) (List (α × Vm α))) :
      forecast >>= rule.judge table host =
        forecast.map (List.map (Prod.map id Vm.sketch)) >>= rule.judge table host := by
    cases forecast with
    | error fault => rfl
    | ok forecast => exact (judge_sketch forecast).symm
  have length := alike.length_eq
  have empty : (residents ++ otherExtra).isEmpty = (host.vms ++ extra).isEmpty := by
    rw [Bool.eq_iff_iff, List.isEmpty_iff_length_eq_zero, List.isEmpty_iff_length_eq_zero, length]
  -- both sides judge the same sketches
  rw [assess_eq, assess_eq, judged (rule.forecasts (host.vms ++ extra)), ← forecasts_sketch alike,
    ← judged, empty]
  rfl

/-! Judgements of VMs that forget -/

theorem matches_drop {vm : Vm α} {count : Nat} (base : 1 ≤ rule.baseWindow)
    (reached : rule.baseWindow + 3 ≤ (vm.samples.drop count).length)
    (inside : ∀ width, Forecast.widened rule.baseWindow rule.epsilon = .ok width ∨
      Forecast.narrowed rule.baseWindow rule.epsilon = .ok width →
      width ≤ (vm.samples.drop count).length) :
    rule.Matches vm { vm with samples := vm.samples.drop count } := by
  refine ⟨?_, rfl⟩
  obtain ⟨window, inside⟩ := Forecast.adaptiveWindow_drop base reached inside
  unfold forecast
  dsimp only
  rw [window]
  cases read : Forecast.adaptiveWindow vm.samples rule.baseWindow rule.epsilon rule.theta with
  | error fault => rfl
  | ok width =>
    have reached := Forecast.weightedAverage?_drop (inside width read)
    exact congrArg (fun mean => Except.ok (mean.getD 0.0)) reached

section

variable {rule : OverloadRule Float} {least : Int}

theorem matches_of_forgets {vm shorter : Vm Float} (base : 1 ≤ rule.baseWindow)
    (nonneg : (0.0 : Float) ≤ rule.epsilon) (known : rule.horizon = .ok least)
    (forgets : vm.Forgets least shorter) : rule.Matches vm shorter := by
  obtain ⟨count, rfl, none | enough⟩ := forgets
  · subst none
    exact ⟨rfl, rfl⟩
  · obtain ⟨widest, ceiling, same⟩ := Attempt.bind_ok known
    have same : max (rule.baseWindow + 3) widest = least := Except.ok.inj same
    refine matches_drop base (by omega) fun width adapted => ?_
    have narrow := Forecast.width_le_widest nonneg ceiling width adapted
    omega

/-- VMs may forget all but the newest samples: forecasts and judgements stay the same. -/
theorem assess_recent (base : 1 ≤ rule.baseWindow) (nonneg : (0.0 : Float) ≤ rule.epsilon)
    (known : rule.horizon = .ok least) (host : Host Float)
    {residents extra shorterExtra : List (Vm Float)}
    (shorter : List.Forall₂ (Vm.Forgets least) host.vms residents)
    (shorterAlso : List.Forall₂ (Vm.Forgets least) extra shorterExtra) (table : FlavorTable Float) :
    List.Forall₂ (fun vm other => rule.forecast other = rule.forecast vm) (host.vms ++ extra)
        (residents ++ shorterExtra) ∧
      rule.assess table { host with vms := residents } shorterExtra =
        rule.assess table host extra := by
  have alike : List.Forall₂ rule.Matches (host.vms ++ extra) (residents ++ shorterExtra) :=
    (List.rel_append shorter shorterAlso).imp fun vm other =>
      matches_of_forgets base nonneg known
  exact ⟨alike.imp fun vm other same => same.1, assess_of_matches alike⟩

end

/-- A VM with ten samples, of which the standard rule looks at eight. -/
def Sample.aged : Vm Float :=
  { DestinationRule.Sample.vm "x" 8 0.5 with
    samples := [1.0, 1.0, 0.2, 0.3, 0.4, 0.5, 0.6, 0.7, 0.8, 0.9] }

def Sample.forgetful : Vm Float := { Sample.aged with samples := Sample.aged.samples.drop 2 }

theorem assess_recent_aged :
    (standard : OverloadRule Float).horizon = .ok 8 ∧ Sample.aged.Forgets 8 Sample.forgetful ∧
      List.Forall₂ (fun vm other => standard.forecast other = standard.forecast vm)
        ([Sample.aged] ++ []) ([Sample.forgetful] ++ []) ∧
      standard.assess .reference
          { DestinationRule.Sample.host "a" [Sample.aged] with vms := [Sample.forgetful] } =
        standard.assess .reference (DestinationRule.Sample.host "a" [Sample.aged]) := by
  have known : (standard : OverloadRule Float).horizon = .ok 8 :=
    Attempt.ok_of_toOption (by decide +kernel)
  have forgets : Sample.aged.Forgets 8 Sample.forgetful := ⟨2, rfl, .inr (by decide)⟩
  exact ⟨known, forgets, assess_recent (by decide) (by decide +kernel) known
    (DestinationRule.Sample.host "a" [Sample.aged]) (.cons forgets .nil) .nil .reference⟩

end OverloadRule

end Fleet
