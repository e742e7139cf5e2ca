import Fleet.Proofs.Forecast
import Mathlib.Data.List.Basic

/-! Forecasts from the newest samples.

A window is chosen from the deviations of the last four samples, each over a window of its own, and
reaches back no further than the widest window. Older samples can be forgotten.
-/

set_option autoImplicit false

namespace Fleet.Forecast

section

variable {α : Type} [Scalar α] {history : List α} {window base : Int} {kept forgotten : Nat}

/-! Weighted means of the newest samples -/

theorem weightedMean?_take (newestFirst : List α) (wide : window ≤ kept) :
    weightedMean? (newestFirst.take kept) window = weightedMean? newestFirst window := by
  unfold weightedMean?
  rw [List.take_take, Nat.min_eq_left (by omega)]
  by_cases narrow : window < 1
  · simp [narrow]
  · have some : kept ≠ 0 := by omega
    simp [List.isEmpty_iff, some]

theorem deviation?_take (newestFirst : List α) (some : 0 < kept) (wide : window ≤ kept) :
    deviation? window (newestFirst.take kept) = deviation? window newestFirst := by
  obtain ⟨more, rfl⟩ := Nat.exists_eq_succ_of_ne_zero some.ne'
  cases newestFirst with
  | nil => rfl
  | cons sample older =>
    have mean : weightedMean? (sample :: older.take more) window =
        weightedMean? (sample :: older) window :=
      weightedMean?_take (sample :: older) wide
    simp only [List.take_succ_cons, deviation?, mean]

/-! Forgetting the oldest samples -/

omit [Scalar α] in
theorem reverse_drop (history : List α) (forgotten : Nat) :
    (history.drop forgotten).reverse = history.reverse.take (history.drop forgotten).length := by
  rw [List.reverse_drop, List.length_drop]

theorem weightedAverage?_drop (reached : window ≤ (history.drop forgotten).length) :
    weightedAverage? (history.drop forgotten) window = weightedAverage? history window := by
  unfold weightedAverage?
  dsimp only
  rw [reverse_drop]
  exact weightedMean?_take _ reached

/-- The deviations of the last four samples reach back by three samples and a window. -/
theorem recentDeviation_drop (wide : 1 ≤ window)
    (reached : window + 3 ≤ (history.drop forgotten).length) :
    recentDeviation (history.drop forgotten) window = recentDeviation history window := by
  have fewer : (history.drop forgotten).length ≤ history.length := by simp
  have four {samples : List α} (several : 4 ≤ samples.length) :
      recentDeviation samples window =
        ((recentRuns samples 4).filterMap (deviation? window)).foldl Scalar.max 0.0 := by
    have some : samples.isEmpty = false := by
      rw [List.isEmpty_eq_false_iff_exists_mem, ← List.length_pos_iff_exists_mem]
      omega
    have count : (max 1 (min defaultLookBack (samples.length : Int))).toNat = 4 := by
      unfold defaultLookBack
      omega
    simp [recentDeviation, some, count]
  rw [four (by omega), four (by omega)]
  -- each of the four runs begins with a window that both histories have
  unfold recentRuns
  simp only [List.filterMap_map]
  congr 1
  apply List.filterMap_congr
  intro age member
  have young : age < 4 := List.mem_range.mp (List.mem_reverse.mp member)
  simp only [Function.comp_apply]
  rw [reverse_drop, List.drop_take]
  exact deviation?_take _ (by omega) (by omega)

/-! Windows over the newest samples -/

variable {epsilon theta : α}

def widened (base : Int) (epsilon : α) : Except (Fault α) Int :=
  ceil (Scalar.ofNat base.toNat * (1.0 + Scalar.max 0.0 epsilon))

def narrowed (base : Int) (epsilon : α) : Except (Fault α) Int :=
  floor (Scalar.ofNat base.toNat * (1.0 - Scalar.max 0.0 epsilon * 0.5))

def adapted (history : List α) (base : Int) (epsilon theta : α) : Except (Fault α) Int :=
  if theta < recentDeviation history base then widened base epsilon else narrowed base epsilon

theorem adaptiveWindow_eq (wide : 1 ≤ base) (several : base ≤ history.length) :
    adaptiveWindow history base epsilon theta = (do
      pure (max 1 (min (← adapted history base epsilon theta) history.length))) := by
  have some : history.isEmpty = false := by
    rw [List.isEmpty_eq_false_iff_exists_mem, ← List.length_pos_iff_exists_mem]
    omega
  have width : max 1 (min base history.length) = base := by omega
  unfold adaptiveWindow adapted
  simp only [some, width, Bool.false_eq_true, if_false]
  split <;> rfl

/-- Samples that no window reaches can be forgotten. -/
theorem adaptiveWindow_drop (wide : 1 ≤ base) (reached : base + 3 ≤ (history.drop forgotten).length)
    (inside : ∀ width, widened base epsilon = .ok width ∨ narrowed base epsilon = .ok width →
      width ≤ (history.drop forgotten).length) :
    adaptiveWindow (history.drop forgotten) base epsilon theta =
        adaptiveWindow history base epsilon theta ∧
      ∀ window, adaptiveWindow history base epsilon theta = .ok window →
        window ≤ (history.drop forgotten).length := by
  have fewer : (history.drop forgotten).length ≤ history.length := by simp
  have same : adapted (history.drop forgotten) base epsilon theta =
      adapted history base epsilon theta := by
    unfold adapted
    rw [recentDeviation_drop wide reached]
  rw [adaptiveWindow_eq wide (by omega), adaptiveWindow_eq wide (by omega), same]
  cases read : adapted history base epsilon theta with
  | error fault => exact ⟨rfl, fun window read => by cases read⟩
  | ok width =>
    have short : width ≤ (history.drop forgotten).length := by
      apply inside
      unfold adapted at read
      split at read
      · exact .inl read
      · exact .inr read
    have cut : max 1 (min width ((history.drop forgotten).length : Int)) =
        max 1 (min width (history.length : Int)) := by omega
    refine ⟨congrArg Except.ok cut, fun window read => ?_⟩
    obtain rfl : max 1 (min width (history.length : Int)) = window := Except.ok.inj read
    omega

end

/-! Binary64 windows -/

open Number

theorem exists_value?_of_ceil {x : Float} {whole : Int}
    (read : (ceil x : Except (Fault Float) Int) = .ok whole) :
    ∃ q, value? x = some q ∧ whole = ⌈q⌉ := by
  cases known : value? x with
  | some q => exact ⟨q, rfl, (Except.ok.inj ((ceil_eq known).symm.trans read)).symm⟩
  | none =>
    change (Number.ceil x).mapError Fault.noInteger = _ at read
    unfold value? at known
    unfold Number.ceil at read
    cases unpacked : x.toModel.unpack with
    | infinity | notANumber =>
      rw [unpacked] at read
      cases read
    | zero | finite =>
      rw [unpacked] at known
      cases known

theorem value?_growth {epsilon : Float} {e : ℚ} (known : value? epsilon = some e)
    (nonneg : (0.0 : Float) ≤ epsilon) :
    value? (1.0 + Scalar.max 0.0 epsilon) = value? (1.0 + epsilon) := by
  unfold Scalar.max
  split
  · rfl
  · next notPositive =>
    have low := (le_iff_of_value? value?_zero known).mp nonneg
    have high := mt (lt_iff_of_value? value?_zero known).mpr notPositive
    obtain rfl : e = 0 := le_antisymm (not_lt.mp high) low
    rw [value?_add value?_one value?_zero, value?_add value?_one known]

/-- No window gets wider than a base window that is grown by the whole factor. -/
theorem width_le_widest {base : Int} {epsilon : Float} {widest : Int}
    (nonneg : (0.0 : Float) ≤ epsilon)
    (known : ceil (Scalar.ofNat base.toNat * (1.0 + epsilon)) = .ok widest) (width : Int)
    (adapted : widened base epsilon = .ok width ∨ narrowed base epsilon = .ok width) :
    width ≤ widest := by
  obtain ⟨w, wholeValue, rfl⟩ := exists_value?_of_ceil known
  obtain ⟨⟨s, start⟩, r, factor⟩ := exists_of_value?_mul wholeValue
  obtain ⟨-, e, epsilonValue⟩ := exists_of_value?_add factor
  have growing := (value?_growth epsilonValue nonneg).trans factor
  have grownValue : value? (Scalar.ofNat base.toNat * (1.0 + Scalar.max 0.0 epsilon)) = some w := by
    rw [value?_mul start growing, ← value?_mul start factor, wholeValue]
  -- shrinking takes less than the whole base window, growing takes the whole factor
  rcases adapted with grown | shrunk
  · exact (Except.ok.inj ((ceil_eq grownValue).symm.trans grown)).ge
  · obtain ⟨-, g, growth⟩ := exists_of_value?_add growing
    obtain ⟨n, narrowest, -, below⟩ := within_shrunk start (nonneg_of_value?_ofNat start) growth
      (max_zero_nonneg growth) grownValue
    obtain rfl := Except.ok.inj ((floor_eq narrowest).symm.trans shrunk)
    have le : (⌊n⌋ : ℚ) ≤ ⌈w⌉ := (Int.floor_le n).trans (below.trans (Int.le_ceil w))
    exact Int.cast_le.mp le

end Fleet.Forecast
