import Fleet.Proofs.Failing
import Fleet.Proofs.Number.Undefined
import Fleet.Proofs.Ordered
import Fleet.Proofs.Settings

/-! Which parameters rules are made from.

Most checks refuse what lies on the wrong side of a bound. What is no number lies on no side and passes
them, so a rule is as documented exactly if its parameters are numbers. The CPU band is checked for
what it should be, which leaves nothing undefined there.
-/

set_option autoImplicit false

namespace Fleet

open Number
open Settings (Fraction)

/-- How parameters are received, where `numbers` are those that are compared with bounds. -/
structure Admission {Made : Type} (given : Except (Fault Float) Made) (faithful documented : Made → Prop)
    (tolerated : Prop) (numbers : List Float) : Prop where
  /-- They are refused as a configuration, or what is made from them is as documented, unless some of
  them are no numbers and there is nothing else to refuse. -/
  guarded : (∃ fault, given = .error fault ∧ fault.kind = .configuration) ∨
      (∃ made, given = .ok made ∧ documented made) ↔
    (tolerated → ∀ x ∈ numbers, x.isNaN = false)
  accepted : (∃ made, given = .ok made) ↔ tolerated
  faithful : ∀ made, given = .ok made → faithful made

theorem Admission.of {Made : Type} {given : Except (Fault Float) Made}
    {faithful documented : Made → Prop} {tolerated : Prop} {numbers : List Float}
    (refused : FailsOnly (fun fault => fault.kind = .configuration) given)
    (accepted : (∃ made, given = .ok made) ↔ tolerated)
    (made : ∀ made, given = .ok made →
      faithful made ∧ (documented made ↔ ∀ x ∈ numbers, x.isNaN = false)) :
    Admission given faithful documented tolerated numbers := by
  refine ⟨?_, accepted, fun rule known => (made rule known).1⟩
  cases given with
  | error fault =>
    have untold : ¬tolerated := fun tolerated => by cases (accepted.mpr tolerated).choose_spec
    exact ⟨fun _ tolerated => absurd tolerated untold, fun _ => .inl ⟨fault, rfl, refused fault rfl⟩⟩
  | ok rule =>
    have documented := (made rule rfl).2
    constructor
    · rintro (⟨_, failed, -⟩ | ⟨_, same, holds⟩)
      · cases failed
      · cases same
        exact fun _ => documented.mp holds
    · exact fun numbers => .inr ⟨rule, rfl, documented.mpr (numbers (accepted.mp ⟨rule, rfl⟩))⟩

section

variable {Made : Type} {condition : Prop} [Decidable condition] {fault : Fault Float}
  {rest : Except (Fault Float) Made} {made : Made}

theorem guard_eq_ok_iff :
    (if condition then .error fault else rest) = .ok made ↔ ¬condition ∧ rest = .ok made := by
  split <;> simp [*]

theorem FailsOnly.guard {allowed : Fault Float → Prop} (refused : allowed fault)
    (later : FailsOnly allowed rest) :
    FailsOnly allowed (if condition then .error fault else rest) := by
  split
  · rintro _ ⟨⟩
    exact refused
  · exact later

end

/-! Bounds -/

theorem not_negative_iff {x : Float} : ¬x < 0.0 ↔ (0.0 : Float) ≤ x ∨ x.isNaN = true :=
  not_lt_iff Scalar.zero_le_zero

theorem Settings.Fraction.isNaN {x : Float} (fraction : Fraction x) : x.isNaN = false :=
  (number_of_le fraction.2).1

theorem not_outside_iff {x : Float} : ¬(x ≤ 0.0 ∨ 1.0 < x) ↔ Fraction x ∨ x.isNaN = true := by
  rw [not_or, not_le_iff Scalar.zero_le_zero, not_gt_iff Scalar.one_le_one, ← and_or_right]
  rfl

/-! Judging hosts -/

namespace OverloadRule

variable {rule made : OverloadRule Float}

structure Documented (rule : OverloadRule Float) : Prop where
  epsilon : (0.0 : Float) ≤ rule.epsilon
  baseWindow : 1 ≤ rule.baseWindow
  theta : (0.0 : Float) ≤ rule.theta
  cpuThreshold : Fraction rule.cpuThreshold
  memoryThreshold : Fraction rule.memoryThreshold

/-- Documented but for what is no number. -/
structure Tolerated (rule : OverloadRule Float) : Prop where
  epsilon : (0.0 : Float) ≤ rule.epsilon ∨ rule.epsilon.isNaN = true
  baseWindow : 1 ≤ rule.baseWindow
  theta : (0.0 : Float) ≤ rule.theta ∨ rule.theta.isNaN = true
  cpuThreshold : Fraction rule.cpuThreshold ∨ rule.cpuThreshold.isNaN = true
  memoryThreshold : Fraction rule.memoryThreshold ∨ rule.memoryThreshold.isNaN = true

def numbers (rule : OverloadRule Float) : List Float :=
  [rule.epsilon, rule.theta, rule.cpuThreshold, rule.memoryThreshold]

theorem validate_eq_ok_iff : rule.validate = .ok made ↔ rule.Tolerated ∧ rule = made := by
  unfold validate
  simp only [guard_eq_ok_iff, not_negative_iff, not_outside_iff, not_lt, Except.ok.injEq]
  constructor
  · rintro ⟨epsilon, baseWindow, theta, cpuThreshold, memoryThreshold, same⟩
    exact ⟨⟨epsilon, baseWindow, theta, cpuThreshold, memoryThreshold⟩, same⟩
  · rintro ⟨⟨epsilon, baseWindow, theta, cpuThreshold, memoryThreshold⟩, same⟩
    exact ⟨epsilon, baseWindow, theta, cpuThreshold, memoryThreshold, same⟩

theorem validate_failsOnly (rule : OverloadRule Float) :
    FailsOnly (fun fault => fault.kind = .configuration) rule.validate :=
  .guard rfl <| .guard rfl <| .guard rfl <| .guard rfl <| .guard rfl <| .ok rule

theorem Documented.isNaN (documented : rule.Documented) : ∀ x ∈ rule.numbers, x.isNaN = false := by
  simp only [numbers, List.forall_mem_cons, List.not_mem_nil, false_imp_iff, implies_true, and_true]
  exact ⟨(number_of_le documented.epsilon).2, (number_of_le documented.theta).2,
    documented.cpuThreshold.isNaN, documented.memoryThreshold.isNaN⟩

theorem Tolerated.documented (tolerated : rule.Tolerated)
    (numbers : ∀ x ∈ rule.numbers, x.isNaN = false) : rule.Documented := by
  simp only [OverloadRule.numbers, List.forall_mem_cons, List.not_mem_nil, false_imp_iff,
    implies_true, and_true] at numbers
  obtain ⟨epsilon, theta, cpuThreshold, memoryThreshold⟩ := numbers
  exact {
    epsilon := tolerated.epsilon.resolve_right (ne_true_of_eq_false epsilon)
    baseWindow := tolerated.baseWindow
    theta := tolerated.theta.resolve_right (ne_true_of_eq_false theta)
    cpuThreshold := tolerated.cpuThreshold.resolve_right (ne_true_of_eq_false cpuThreshold)
    memoryThreshold := tolerated.memoryThreshold.resolve_right (ne_true_of_eq_false memoryThreshold) }

theorem admission (rule : OverloadRule Float) :
    Admission rule.validate (· = rule) Documented rule.Tolerated rule.numbers := by
  refine .of rule.validate_failsOnly ?_ fun made known => ?_
  · simp [validate_eq_ok_iff]
  · obtain ⟨tolerated, rfl⟩ := validate_eq_ok_iff.mp known
    exact ⟨rfl, Documented.isNaN, tolerated.documented⟩

end OverloadRule

/-! Searching destinations -/

namespace Weights

variable {given : List Float} {weights : Weights Float}

/-- Not negative, and in sum one up to rounding. -/
structure Documented (given : List Float) : Prop where
  nonneg : ∀ x ∈ given, (0.0 : Float) ≤ x
  balanced : Scalar.abs (Scalar.sum given - 1.0) ≤ (1e-9 : Float)

/-- One weight that is no number makes the sum undefined, and the others may be any that are not
negative. -/
structure Tolerated (given : List Float) : Prop where
  five : given.length = 5
  nonneg : ∀ x ∈ given, (0.0 : Float) ≤ x ∨ x.isNaN = true
  balanced : Scalar.abs (Scalar.sum given - 1.0) ≤ (1e-9 : Float) ∨ ∃ x ∈ given, x.isNaN = true

theorem isNaN_balance_iff (nonneg : ∀ x ∈ given, (0.0 : Float) ≤ x ∨ x.isNaN = true) :
    (Scalar.abs (Scalar.sum given - 1.0)).isNaN = true ↔ ∃ x ∈ given, x.isNaN = true := by
  change (Scalar.sum given - 1.0).abs.isNaN = true ↔ _
  rw [isNaN_abs_eq]
  constructor
  · intro undefined
    by_contra numbers
    -- a sum of numbers that are not negative may be infinite, but it is a number
    have sum : (0.0 : Float) ≤ Scalar.sum given := Scalar.sum_nonneg fun x member =>
      (nonneg x member).resolve_right fun undefined => numbers ⟨x, member, undefined⟩
    cases undefined.symm.trans (isNaN_sub_of_value? (number_of_le sum).2 value?_one)
  · exact fun some => isNaN_sub (.inl (isNaN_sum (.inr some)))

theorem any_negative_iff :
    ¬given.any (· < 0.0) = true ↔ ∀ x ∈ given, (0.0 : Float) ≤ x ∨ x.isNaN = true := by
  simp only [List.any_eq_true, decide_eq_true_eq, not_exists, not_and, not_negative_iff]

theorem ofList_eq_ok_iff : ofList given = .ok weights ↔ Tolerated given ∧ given = weights.toList := by
  have limit : (1e-9 : Float) ≤ 1e-9 := by decide +kernel
  unfold ofList
  split
  · next churn cycle excess memory risk =>
    rw [guard_eq_ok_iff, guard_eq_ok_iff, not_gt_iff limit, any_negative_iff, Except.ok.injEq]
    constructor
    · rintro ⟨nonneg, balanced, rfl⟩
      exact ⟨⟨rfl, nonneg, balanced.imp_right (isNaN_balance_iff nonneg).mp⟩, rfl⟩
    · rintro ⟨⟨-, nonneg, balanced⟩, same⟩
      refine ⟨nonneg, balanced.imp_right (isNaN_balance_iff nonneg).mpr, ?_⟩
      cases weights
      cases same
      rfl
  · next unlike =>
    refine ⟨nofun, ?_⟩
    rintro ⟨-, rfl⟩
    exact absurd rfl (unlike _ _ _ _ _)

theorem Tolerated.exists_toList (tolerated : Tolerated given) :
    ∃ weights : Weights Float, given = weights.toList := by
  match given, tolerated.five with
  | [churn, cycle, excess, memory, risk], _ => exact ⟨⟨churn, cycle, excess, memory, risk⟩, rfl⟩

theorem Tolerated.documented (tolerated : Tolerated given)
    (numbers : ∀ x ∈ given, x.isNaN = false) : Documented given where
  nonneg x member := (tolerated.nonneg x member).resolve_right (ne_true_of_eq_false (numbers x member))
  balanced := tolerated.balanced.resolve_right fun ⟨x, member, undefined⟩ =>
    Bool.false_ne_true ((numbers x member).symm.trans undefined)

theorem ofList_failsOnly (given : List Float) :
    FailsOnly (fun fault => fault.kind = .configuration) (ofList given) := by
  unfold ofList
  split
  · exact .guard rfl <| .guard rfl <| .ok _
  · rintro _ ⟨⟩
    rfl

end Weights

namespace DestinationRule

variable {rule made : DestinationRule Float} {weights : List Float}
  {upperBound lowerBand memoryBound gamma : Float} {overload : OverloadRule Float}

def parameters (rule : DestinationRule Float) :
    List Float × Float × Float × Float × Float × OverloadRule Float :=
  (rule.weights.toList, rule.upperBound, rule.lowerBand, rule.memoryBound, rule.gamma, rule.overload)

structure Documented (rule : DestinationRule Float) : Prop where
  weights : Weights.Documented rule.weights.toList
  upperBound : Fraction rule.upperBound
  lowerBand : (0.0 : Float) ≤ rule.lowerBand ∧ rule.lowerBand ≤ rule.upperBound
  memoryBound : (0.0 : Float) < rule.memoryBound

structure Tolerated (given : List Float) (upper lower memory : Float) : Prop where
  weights : Weights.Tolerated given
  upperBound : Fraction upper
  lowerBand : (0.0 : Float) ≤ lower ∧ lower ≤ upper
  memoryBound : (0.0 : Float) < memory ∨ memory.isNaN = true

theorem upperBound_iff (band : (0.0 : Float) ≤ lowerBand ∧ lowerBand ≤ upperBound) :
    ¬(upperBound ≤ 0.0 ∨ 1.0 < upperBound) ↔ Fraction upperBound := by
  rw [not_outside_iff, (number_of_le band.2).2]
  simp

theorem make_eq : make weights upperBound lowerBand memoryBound gamma overload =
    Weights.ofList weights >>= fun known =>
      if upperBound ≤ 0.0 ∨ 1.0 < upperBound then .error (.parameter .upperBound)
      else if ¬(0.0 ≤ lowerBand ∧ lowerBand ≤ upperBound) then
        .error (.parameter (.cpuBand lowerBand upperBound))
      else if memoryBound ≤ 0.0 then .error (.parameter .memoryBound)
      else .ok ⟨known, upperBound, lowerBand, memoryBound, gamma, overload⟩ :=
  rfl

theorem make_eq_ok_iff :
    make weights upperBound lowerBand memoryBound gamma overload = .ok made ↔
      Tolerated weights upperBound lowerBand memoryBound ∧
        made.parameters = (weights, upperBound, lowerBand, memoryBound, gamma, overload) := by
  rw [make_eq]
  constructor
  · intro run
    obtain ⟨known, read, guarded⟩ := Attempt.bind_ok run
    obtain ⟨balanced, rfl⟩ := Weights.ofList_eq_ok_iff.mp read
    rw [guard_eq_ok_iff, guard_eq_ok_iff, guard_eq_ok_iff, not_not,
      not_le_iff Scalar.zero_le_zero] at guarded
    obtain ⟨inside, band, memory, made⟩ := guarded
    cases made
    exact ⟨⟨balanced, (upperBound_iff band).mp inside, band, memory⟩, rfl⟩
  · rintro ⟨⟨balanced, inside, band, memory⟩, same⟩
    cases made
    cases same
    rw [Weights.ofList_eq_ok_iff.mpr ⟨balanced, rfl⟩]
    change (if _ then _ else if _ then _ else if _ then _ else _) = _
    rw [guard_eq_ok_iff, guard_eq_ok_iff, guard_eq_ok_iff, not_not,
      not_le_iff Scalar.zero_le_zero]
    exact ⟨(upperBound_iff band).mpr inside, band, memory, rfl⟩

theorem make_failsOnly : FailsOnly (fun fault => fault.kind = .configuration)
    (make weights upperBound lowerBand memoryBound gamma overload) :=
  (Weights.ofList_failsOnly weights).bind fun _ _ =>
    .guard rfl <| .guard rfl <| .guard rfl <| .ok _

theorem documented_iff
    (tolerated : Tolerated rule.weights.toList rule.upperBound rule.lowerBand rule.memoryBound) :
    rule.Documented ↔ ∀ x ∈ rule.memoryBound :: rule.weights.toList, x.isNaN = false := by
  rw [List.forall_mem_cons]
  constructor
  · intro documented
    exact ⟨(number_of_le (Scalar.le_of_lt documented.memoryBound)).2,
      fun x member => (number_of_le (documented.weights.nonneg x member)).2⟩
  · rintro ⟨memory, numbers⟩
    exact {
      weights := tolerated.weights.documented numbers
      upperBound := tolerated.upperBound
      lowerBand := tolerated.lowerBand
      memoryBound := tolerated.memoryBound.resolve_right (ne_true_of_eq_false memory) }

theorem admission (weights : List Float) (upperBound lowerBand memoryBound gamma : Float)
    (overload : OverloadRule Float) :
    Admission (make weights upperBound lowerBand memoryBound gamma overload)
      (·.parameters = (weights, upperBound, lowerBand, memoryBound, gamma, overload)) Documented
      (Tolerated weights upperBound lowerBand memoryBound) (memoryBound :: weights) := by
  refine .of make_failsOnly ?_ fun made known => ?_
  · constructor
    · rintro ⟨made, known⟩
      exact (make_eq_ok_iff.mp known).1
    · intro tolerated
      obtain ⟨known, rfl⟩ := tolerated.weights.exists_toList
      exact ⟨⟨known, upperBound, lowerBand, memoryBound, gamma, overload⟩,
        make_eq_ok_iff.mpr ⟨tolerated, rfl⟩⟩
  · obtain ⟨tolerated, same⟩ := make_eq_ok_iff.mp known
    refine ⟨same, ?_⟩
    cases same
    exact documented_iff tolerated

end DestinationRule

/-! Planning -/

namespace Plan.Policy

variable {policy made : Policy Float}

def Documented (policy : Policy Float) : Prop := Fraction policy.underload

def Tolerated (policy : Policy Float) : Prop :=
  Fraction policy.underload ∨ policy.underload.isNaN = true

theorem validate_eq_ok_iff : policy.validate = .ok made ↔ policy.Tolerated ∧ policy = made := by
  unfold validate
  rw [guard_eq_ok_iff, not_outside_iff, Except.ok.injEq]
  rfl

theorem admission (policy : Policy Float) :
    Admission policy.validate (· = policy) Documented policy.Tolerated [policy.underload] := by
  refine .of (.guard rfl <| .ok policy) ?_ fun made known => ?_
  · simp [validate_eq_ok_iff]
  · obtain ⟨tolerated, rfl⟩ := validate_eq_ok_iff.mp known
    refine ⟨rfl, ?_⟩
    rw [List.forall_mem_singleton]
    exact ⟨Fraction.isNaN, fun number => tolerated.resolve_right (ne_true_of_eq_false number)⟩

end Plan.Policy

/-- A rule is refused as a configuration or has the parameters that are documented for it, exactly
unless what would otherwise be accepted holds something that is no number and is only compared with
the wrong side of a bound. -/
theorem parameters_documented_iff (overload : OverloadRule Float) (weights : List Float)
    (upperBound lowerBand memoryBound gamma : Float) (policy : Plan.Policy Float) :
    Admission overload.validate (· = overload) OverloadRule.Documented overload.Tolerated
        overload.numbers ∧
      Admission (DestinationRule.make weights upperBound lowerBand memoryBound gamma overload)
        (·.parameters = (weights, upperBound, lowerBand, memoryBound, gamma, overload))
        DestinationRule.Documented
        (DestinationRule.Tolerated weights upperBound lowerBand memoryBound)
        (memoryBound :: weights) ∧
      Admission policy.validate (· = policy) Plan.Policy.Documented policy.Tolerated
        [policy.underload] :=
  ⟨overload.admission, DestinationRule.admission .., policy.admission⟩

end Fleet
