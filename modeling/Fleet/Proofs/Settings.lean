import Fleet.Proofs.Attempt
import Fleet.Proofs.Linear
import Fleet.Proofs.Payload
import Fleet.Settings

/-! What loading makes sure of, and that rules can always be made from loaded settings. -/

set_option autoImplicit false

namespace Fleet

open Payload (Bound Checked Value)

deriving instance DecidableEq for Settings

namespace Settings

variable {Result : Type} {sources : Sources} {settings : Settings}

theorem bounded_good {keeps : Result → Bound → Bool} {bounds : List Bound}
    {convert : Value → Checked Result} {value : Value} {result : Result}
    (read : bounded keeps bounds convert value = .good result) :
    ∀ bound ∈ bounds, keeps result bound = true := by
  obtain ⟨converted, -, read⟩ := Checked.bind_good read
  split at read
  · next none =>
    cases read
    simpa using none
  · cases read

theorem get_good {name : String} {keeps : Result → Bound → Bool} {bounds : List Bound}
    {convert : Value → Checked Result} {standard result : Result}
    (standing : ∀ bound ∈ bounds, keeps standard bound = true)
    (read : sources.get name standard (bounded keeps bounds convert) = .good result) :
    ∀ bound ∈ bounds, keeps result bound = true := by
  unfold Sources.get at read
  split at read
  · cases read
    exact standing
  · exact bounded_good (Checked.within_good read)

def Fraction (x : Float) : Prop := (0.0 : Float) < x ∧ x ≤ 1.0

structure Bounded (settings : Settings) : Prop where
  epsilon : (0.0 : Float) ≤ settings.epsilon
  baseWindow : 1 ≤ settings.baseWindow
  theta : (0.0 : Float) ≤ settings.theta
  cpuThreshold : Fraction settings.cpuThreshold
  memoryThreshold : Fraction settings.memoryThreshold
  upperBound : Fraction settings.upperBound
  lowerBand : (0.0 : Float) ≤ settings.lowerBand
  memoryBound : (0.0 : Float) < settings.memoryBound
  underload : Fraction settings.underloadThreshold
  weights : ∀ weight ∈ settings.weights, (0.0 : Float) ≤ weight

theorem get_nonneg {name : String} {standard result : Float}
    (standing : keepsNumber standard (.atLeast 0) = true)
    (read : sources.get name standard (number [.atLeast 0]) = .good result) : (0.0 : Float) ≤ result :=
  of_decide_eq_true (get_good (by simpa using standing) read (.atLeast 0) (by simp))

theorem get_fraction {name : String} {standard result : Float}
    (standing : [Bound.atMost 1, .greaterThan 0].all (keepsNumber standard) = true)
    (read : sources.get name standard fraction = .good result) : Fraction result := by
  have keeps := get_good (List.all_eq_true.mp standing) read
  exact ⟨of_decide_eq_true (keeps (.greaterThan 0) (by simp)),
    of_decide_eq_true (keeps (.atMost 1) (by simp))⟩

theorem ofSources_bounded (read : ofSources sources = .good settings) : settings.Bounded := by
  obtain ⟨_, logLevel, rfl, -, read⟩ := Checked.seq_good read
  obtain ⟨_, token, rfl, -, read⟩ := Checked.seq_good read
  obtain ⟨_, url, rfl, -, read⟩ := Checked.seq_good read
  obtain ⟨_, interval, rfl, -, read⟩ := Checked.seq_good read
  obtain ⟨_, seed, rfl, -, read⟩ := Checked.seq_good read
  obtain ⟨_, risk, rfl, riskRead, read⟩ := Checked.seq_good read
  obtain ⟨_, memory, rfl, memoryRead, read⟩ := Checked.seq_good read
  obtain ⟨_, excess, rfl, excessRead, read⟩ := Checked.seq_good read
  obtain ⟨_, cycle, rfl, cycleRead, read⟩ := Checked.seq_good read
  obtain ⟨_, churn, rfl, churnRead, read⟩ := Checked.seq_good read
  obtain ⟨_, underload, rfl, underloadRead, read⟩ := Checked.seq_good read
  obtain ⟨_, memoryBound, rfl, memoryBoundRead, read⟩ := Checked.seq_good read
  obtain ⟨_, lowerBand, rfl, lowerBandRead, read⟩ := Checked.seq_good read
  obtain ⟨_, upperBound, rfl, upperBoundRead, read⟩ := Checked.seq_good read
  obtain ⟨_, cycleGamma, rfl, -, read⟩ := Checked.seq_good read
  obtain ⟨_, selectionGamma, rfl, -, read⟩ := Checked.seq_good read
  obtain ⟨_, memoryThreshold, rfl, memoryThresholdRead, read⟩ := Checked.seq_good read
  obtain ⟨_, cpuThreshold, rfl, cpuThresholdRead, read⟩ := Checked.seq_good read
  obtain ⟨_, theta, rfl, thetaRead, read⟩ := Checked.seq_good read
  obtain ⟨_, baseWindow, rfl, baseWindowRead, read⟩ := Checked.seq_good read
  obtain ⟨epsilon, rfl, epsilonRead⟩ := Checked.map_good read
  exact {
    epsilon := get_nonneg (by decide +kernel) epsilonRead
    baseWindow := of_decide_eq_true (get_good (by decide) baseWindowRead (.atLeast 1) (by simp))
    theta := get_nonneg (by decide +kernel) thetaRead
    cpuThreshold := get_fraction (by decide +kernel) cpuThresholdRead
    memoryThreshold := get_fraction (by decide +kernel) memoryThresholdRead
    upperBound := get_fraction (by decide +kernel) upperBoundRead
    lowerBand := of_decide_eq_true
      (get_good (by decide +kernel) lowerBandRead (.atLeast 0) (by simp))
    memoryBound := of_decide_eq_true
      (get_good (by decide +kernel) memoryBoundRead (.greaterThan 0) (by simp))
    underload := get_fraction (by decide +kernel) underloadRead
    weights := by
      simp only [Settings.weights, List.forall_mem_cons, List.not_mem_nil, false_imp_iff,
        implies_true, and_true]
      exact ⟨get_nonneg (by decide +kernel) churnRead, get_nonneg (by decide +kernel) cycleRead,
        get_nonneg (by decide +kernel) excessRead, get_nonneg (by decide +kernel) memoryRead,
        get_nonneg (by decide +kernel) riskRead⟩ }

/-- Loaded settings keep their bounds, and the checks that involve several of them have passed. -/
structure Sound (settings : Settings) : Prop extends settings.Bounded where
  ordered : ¬settings.upperBound < settings.lowerBand
  balanced : ¬(1e-9 : Float) < Scalar.abs (Scalar.sum settings.weights - 1.0)

theorem load_sound (loaded : load sources = .ok settings) : settings.Sound := by
  obtain ⟨read, checked, valid⟩ := Attempt.bind_ok loaded
  have bounded := ofSources_bounded (Checked.orFault_ok checked)
  unfold validate at valid
  dsimp only at valid
  split at valid
  · cases valid
  · next ordered =>
    split at valid
    · cases valid
    · next balanced =>
      cases valid
      exact { bounded with ordered, balanced }

def standard : Settings where
  epsilon := 0.2
  baseWindow := 5
  theta := 0.1
  cpuThreshold := 0.9
  memoryThreshold := 0.9
  selectionGamma := 1.0
  cycleGamma := 1.0
  upperBound := 0.9
  lowerBand := 0.8
  memoryBound := 0.95
  underloadThreshold := 0.3
  weightChurn := 0.3
  weightCycle := 0.15
  weightExcess := 0.2
  weightMemory := 0.2
  weightRisk := 0.15
  seed := none
  rebalanceInterval := 300
  controllerUrl := "http://controller:8000"
  controllerToken := none
  logLevel := "INFO"

theorem load_nothing : load ⟨[], []⟩ = .ok standard := Attempt.ok_of_toOption (by decide +kernel)

/-! Rules -/

def overloadRule (settings : Settings) : OverloadRule Float where
  epsilon := settings.epsilon
  baseWindow := settings.baseWindow
  theta := settings.theta
  cpuThreshold := settings.cpuThreshold
  memoryThreshold := settings.memoryThreshold

def rules (settings : Settings) (table : FlavorTable Float) : Plan.Policy Float where
  table := table
  overload := settings.overloadRule
  eviction := ⟨settings.selectionGamma⟩
  destination :=
    { weights := ⟨settings.weightChurn, settings.weightCycle, settings.weightExcess,
        settings.weightMemory, settings.weightRisk⟩
      upperBound := settings.upperBound
      lowerBand := settings.lowerBand
      memoryBound := settings.memoryBound
      gamma := settings.cycleGamma
      overload := settings.overloadRule }
  underload := settings.underloadThreshold

theorem Fraction.inside {x : Float} (fraction : Fraction x) : ¬(x ≤ 0.0 ∨ 1.0 < x) :=
  not_or.mpr ⟨Scalar.not_le_of_lt fraction.1, Scalar.not_lt_of_le fraction.2⟩

namespace Sound

variable (sound : settings.Sound)
include sound

theorem validate_overloadRule : settings.overloadRule.validate = .ok settings.overloadRule := by
  unfold OverloadRule.validate overloadRule
  rw [if_neg (Scalar.not_lt_of_le sound.epsilon), if_neg (not_lt.mpr sound.baseWindow),
    if_neg (Scalar.not_lt_of_le sound.theta), if_neg sound.cpuThreshold.inside,
    if_neg sound.memoryThreshold.inside]

theorem ofList_weights : Weights.ofList settings.weights =
    .ok ⟨settings.weightChurn, settings.weightCycle, settings.weightExcess, settings.weightMemory,
      settings.weightRisk⟩ := by
  have none : settings.weights.any (· < (0.0 : Float)) = false :=
    List.any_eq_false.mpr fun weight member => by
      simpa using Scalar.not_lt_of_le (sound.weights weight member)
  have balanced := sound.balanced
  unfold Settings.weights at none balanced ⊢
  unfold Weights.ofList
  dsimp only
  rw [if_neg (by simpa using none), if_neg balanced]

/-- The band is one of numbers, so it is ordered where its ends are not in the wrong order. -/
theorem band : settings.lowerBand ≤ settings.upperBound :=
  Scalar.le_of_not_lt (Scalar.Linear.self_of_le sound.lowerBand).2
    (Scalar.Linear.self_of_le sound.upperBound.2).1 sound.ordered

theorem make_destination : DestinationRule.make settings.weights settings.upperBound
    settings.lowerBand settings.memoryBound settings.cycleGamma settings.overloadRule =
      .ok (settings.rules FlavorTable.reference).destination := by
  unfold DestinationRule.make
  rw [sound.ofList_weights]
  change (if _ then _ else if _ then _ else if _ then _ else _) = _
  rw [if_neg sound.upperBound.inside, if_neg (not_not.mpr ⟨sound.lowerBand, sound.band⟩),
    if_neg (Scalar.not_le_of_lt sound.memoryBound)]
  rfl

theorem policy_eq (table : FlavorTable Float) : settings.policy table = .ok (settings.rules table) := by
  unfold Settings.policy
  change settings.overloadRule.validate >>= _ = _
  rw [sound.validate_overloadRule]
  change DestinationRule.make settings.weights settings.upperBound settings.lowerBand
    settings.memoryBound settings.cycleGamma settings.overloadRule >>= _ = _
  rw [sound.make_destination]
  change Plan.Policy.validate (settings.rules table) = _
  unfold Plan.Policy.validate rules
  rw [if_neg sound.underload.inside]

end Sound

end Settings

end Fleet
