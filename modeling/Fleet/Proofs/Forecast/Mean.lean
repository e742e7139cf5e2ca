import Fleet.Proofs.Forecast.Weights
import Mathlib.Algebra.BigOperators.Fin
import Mathlib.Algebra.Order.BigOperators.Ring.Finset
import Mathlib.Data.List.Forall2
import Mathlib.Tactic.Ring

/-! Weighted averages in exact arithmetic.

The oldest sample of a window weighs one and every later one weighs one more. Samples before the window
or after the end have no part in the average, and as it lies between the samples of the window, cutting
it off at zero and at one changes nothing.
-/

set_option autoImplicit false

namespace Fleet

theorem Exact.sum_eq (xs : List ℚ) : Scalar.sum xs = xs.sum := by
  rw [List.sum_eq_foldl]
  unfold Scalar.sum
  rw [Exact.zero_eq]

theorem Exact.clampUnit_eq {q : ℚ} (low : 0 ≤ q) (high : q ≤ 1) : Scalar.clampUnit q = q := by
  unfold Scalar.clampUnit
  rw [Exact.zero_eq, Exact.one_eq, if_neg (not_lt.mpr low), if_neg (not_lt.mpr high)]

namespace Forecast

/-! The samples of a window -/

section

variable {α : Type} {history : List α} {window : Int} {stop : Option Int}

/-- The samples up to an end, or all of them. -/
def samplesUpTo (history : List α) : Option Int → List α
  | none => history
  | some count => history.take count.toNat

/-- The last samples up to an end that a window has room for, oldest first. -/
def windowed (history : List α) (window : Int) (stop : Option Int) : List α :=
  let seen := samplesUpTo history stop
  seen.drop (seen.length - window.toNat)

theorem length_windowed (wide : 1 ≤ window) :
    ((windowed history window stop).length : Int) =
      min window (samplesUpTo history stop).length := by
  simp only [windowed, List.length_drop]
  omega

theorem windowed_ne_nil (nonempty : history ≠ []) (wide : 1 ≤ window)
    (reached : ∀ count ∈ stop, 1 ≤ count) : windowed history window stop ≠ [] := by
  have seen : 0 < (samplesUpTo history stop).length := by
    have several := List.length_pos_iff.mpr nonempty
    cases stop with
    | none => exact several
    | some count =>
      have reached := reached count rfl
      simp only [samplesUpTo, List.length_take]
      omega
  have count : ((windowed history window stop).length : Int) =
      min window (samplesUpTo history stop).length := length_windowed wide
  exact List.length_pos_iff.mp (by omega)

theorem mem_of_mem_windowed {sample : α} (member : sample ∈ windowed history window stop) :
    sample ∈ history := by
  have seen := List.mem_of_mem_drop member
  cases stop with
  | none => exact seen
  | some count => exact List.mem_of_mem_take seen

theorem forall₂_windowed {related : α → α → Prop} {other : List α}
    (all : List.Forall₂ related history other) :
    List.Forall₂ related (windowed history window stop) (windowed other window stop) := by
  have seen : List.Forall₂ related (samplesUpTo history stop) (samplesUpTo other stop) := by
    cases stop with
    | none => exact all
    | some count => exact List.forall₂_take count.toNat all
  unfold windowed
  dsimp only
  rw [seen.length_eq]
  exact List.forall₂_drop _ seen

variable [Scalar α]

theorem weightedAverage?_eq_weightedMean? (history : List α) (window : Int) (stop : Option Int) :
    weightedAverage? history window stop =
      weightedMean? (samplesUpTo history stop).reverse window := by
  cases stop <;> rfl

theorem weightedAverage?_eq_weigh (wide : 1 ≤ window)
    (nonempty : windowed history window stop ≠ []) :
    weightedAverage? history window stop =
      let totals := weigh (windowed history window stop).reverse
      some (Scalar.clampUnit (totals.1 / totals.2)) := by
  have seen : (samplesUpTo history stop).reverse.isEmpty = false := by
    rw [List.isEmpty_reverse, List.isEmpty_eq_false_iff]
    intro empty
    simp [windowed, empty] at nonempty
  rw [weightedAverage?_eq_weightedMean?]
  unfold weightedMean?
  rw [if_neg (by simp [seen, wide]), List.take_reverse]
  rfl

end

/-! Means with rising weights -/

/-- The mean of samples that weigh one, two and so on up to their number. -/
def risingMean (samples : List ℚ) : ℚ :=
  (∑ i : Fin samples.length, ((i : ℚ) + 1) * samples[i]) /
    (samples.length * (samples.length + 1) / 2)

theorem sum_rising (count : ℕ) : ∑ i : Fin count, ((i : ℚ) + 1) = count * (count + 1) / 2 := by
  induction count with
  | zero => simp
  | succ count ih =>
    rw [Fin.sum_univ_castSucc]
    simp only [Fin.val_castSucc, Fin.val_last, ih]
    push_cast
    ring

theorem weightsDown_exact (width : ℕ) :
    (weightsDown width : List ℚ) = (List.ofFn fun i : Fin width => (i : ℚ) + 1).reverse := by
  unfold weightsDown
  rw [List.map_reverse]
  congr 1
  apply List.ext_getElem
  · simp
  · intro i _ _
    simp [Scalar.ofNat, add_comm]

theorem totalWeight_exact (width : ℕ) : (totalWeight width : ℚ) = width * (width + 1) / 2 := by
  unfold totalWeight
  rw [Exact.sum_eq, weightsDown_exact, List.sum_reverse, List.sum_ofFn, sum_rising]

/-- From the newest sample back, the weights fall as they rise from the oldest one on. -/
theorem weighted_exact (samples : List ℚ) :
    (weights samples.reverse).map (fun entry => entry.1 * entry.2) =
      (List.ofFn fun i : Fin samples.length => ((i : ℚ) + 1) * samples[i]).reverse := by
  unfold weights
  rw [List.map_map]
  apply List.ext_getElem
  · simp
  · intro age young _
    simp only [List.length_map, List.length_zipIdx, List.length_reverse] at young
    -- ages count from the newest sample, positions from the oldest
    have position : samples.length - age = samples.length - 1 - age + 1 := by omega
    simp [Scalar.ofNat, position]

theorem weigh_exact (samples : List ℚ) :
    (weigh samples.reverse).1 / (weigh samples.reverse).2 = risingMean samples := by
  rw [weigh_eq, Exact.sum_eq, weighted_exact, List.sum_reverse, List.sum_ofFn, totalWeight_exact,
    List.length_reverse]
  rfl

section

variable {samples others : List ℚ} {bound : ℚ}

theorem rising_pos (nonempty : samples ≠ []) :
    (0 : ℚ) < samples.length * (samples.length + 1) / 2 := by
  have several : (0 : ℚ) < samples.length := by exact_mod_cast List.length_pos_iff.mpr nonempty
  positivity

theorem le_risingMean (nonempty : samples ≠ []) (low : ∀ sample ∈ samples, bound ≤ sample) :
    bound ≤ risingMean samples := by
  unfold risingMean
  rw [le_div_iff₀ (rising_pos nonempty), ← sum_rising, Finset.mul_sum]
  refine Finset.sum_le_sum fun i _ => ?_
  rw [mul_comm]
  exact mul_le_mul_of_nonneg_left (low _ (List.getElem_mem _)) (by positivity)

theorem risingMean_le (nonempty : samples ≠ []) (high : ∀ sample ∈ samples, sample ≤ bound) :
    risingMean samples ≤ bound := by
  unfold risingMean
  rw [div_le_iff₀ (rising_pos nonempty), ← sum_rising, Finset.mul_sum]
  refine Finset.sum_le_sum fun i _ => ?_
  rw [mul_comm bound]
  exact mul_le_mul_of_nonneg_left (high _ (List.getElem_mem _)) (by positivity)

theorem risingMean_mono (le : List.Forall₂ (· ≤ ·) samples others) :
    risingMean samples ≤ risingMean others := by
  obtain ⟨length, each⟩ := List.forall₂_iff_get.mp le
  have sums : ∑ i : Fin samples.length, ((i : ℚ) + 1) * samples[i] ≤
      ∑ i : Fin others.length, ((i : ℚ) + 1) * others[i] := by
    calc ∑ i : Fin samples.length, ((i : ℚ) + 1) * samples[i]
      _ ≤ ∑ i : Fin samples.length, ((i : ℚ) + 1) * others[i.cast length] :=
        Finset.sum_le_sum fun i _ =>
          mul_le_mul_of_nonneg_left (each i i.isLt (i.cast length).isLt) (by positivity)
      _ = ∑ i : Fin others.length, ((i : ℚ) + 1) * others[i] :=
        Fin.sum_congr' (fun i : Fin others.length => ((i : ℚ) + 1) * others[i]) length
  have weights : (samples.length : ℚ) = others.length := congrArg Nat.cast length
  unfold risingMean
  rw [weights]
  exact div_le_div_of_nonneg_right sums (by positivity)

theorem risingMean_between (nonempty : samples ≠ []) :
    ∃ least ∈ samples, ∃ greatest ∈ samples,
      (∀ sample ∈ samples, least ≤ sample ∧ sample ≤ greatest) ∧
      least ≤ risingMean samples ∧ risingMean samples ≤ greatest := by
  obtain ⟨first, rest, rfl⟩ := List.exists_cons_of_ne_nil nonempty
  have self : ∀ sample ∈ first :: rest, sample ≤ sample := fun _ _ => le_rfl
  obtain ⟨leastMem, least⟩ := Scalar.foldl_min_least self
  obtain ⟨greatestMem, greatest⟩ := Scalar.foldl_max_greatest self
  exact ⟨_, leastMem, _, greatestMem, fun sample member => ⟨least sample member, greatest sample member⟩,
    le_risingMean nonempty least, risingMean_le nonempty greatest⟩

end

/-! Averages of shares -/

/-- What is averaged, and how. -/
structure Averages (history : List ℚ) (window : Int) (stop : Option Int) : Prop where
  /-- There are as many samples as the window has room for, or all up to the end. -/
  count : ((windowed history window stop).length : Int) =
    min window (samplesUpTo history stop).length
  mean : weightedAverage? history window stop = some (risingMean (windowed history window stop))
  /-- The end cuts off the history. -/
  ended : weightedAverage? history window stop = weightedAverage? (samplesUpTo history stop) window
  /-- Older samples, and later ones, can be any others. -/
  recent : ∀ other otherStop, windowed other window otherStop = windowed history window stop →
    weightedAverage? other window otherStop = weightedAverage? history window stop
  between : ∃ least ∈ windowed history window stop, ∃ greatest ∈ windowed history window stop,
    (∀ sample ∈ windowed history window stop, least ≤ sample ∧ sample ≤ greatest) ∧
    least ≤ risingMean (windowed history window stop) ∧
    risingMean (windowed history window stop) ≤ greatest
  /-- What the totals give is the mean before it is cut off, and there is nothing to cut off. -/
  uncut : let totals := weigh (windowed history window stop).reverse
    totals.1 / totals.2 = risingMean (windowed history window stop) ∧
      Scalar.clampUnit (totals.1 / totals.2) = totals.1 / totals.2
  /-- No sample is raised without raising the average, or leaving it where it is. -/
  rising : ∀ raised, (∀ sample ∈ raised, 0 ≤ sample ∧ sample ≤ 1) →
    List.Forall₂ (· ≤ ·) history raised → ∃ higher, weightedAverage? raised window stop = some higher ∧
      risingMean (windowed history window stop) ≤ higher

section

variable {history : List ℚ} {window : Int} {stop : Option Int} (nonempty : history ≠ [])
  (shares : ∀ sample ∈ history, 0 ≤ sample ∧ sample ≤ 1) (wide : 1 ≤ window)
  (reached : ∀ count ∈ stop, 1 ≤ count)
include nonempty shares wide reached

theorem clampUnit_risingMean :
    Scalar.clampUnit (risingMean (windowed history window stop)) =
      risingMean (windowed history window stop) := by
  have several := windowed_ne_nil nonempty wide reached
  exact Exact.clampUnit_eq
    (le_risingMean several fun sample member => (shares sample (mem_of_mem_windowed member)).1)
    (risingMean_le several fun sample member => (shares sample (mem_of_mem_windowed member)).2)

theorem weightedAverage?_eq_risingMean :
    weightedAverage? history window stop = some (risingMean (windowed history window stop)) := by
  rw [weightedAverage?_eq_weigh wide (windowed_ne_nil nonempty wide reached)]
  dsimp only
  rw [weigh_exact, clampUnit_risingMean nonempty shares wide reached]

/-- Of a history of shares, the average over a window is the mean of its last samples up to the end,
the newest weighing as much as there are. -/
theorem weightedAverage_exact : Averages history window stop where
  count := length_windowed wide
  mean := weightedAverage?_eq_risingMean nonempty shares wide reached
  ended := by
    rw [weightedAverage?_eq_weightedMean?]
    rfl
  recent other otherStop same := by
    have several := windowed_ne_nil nonempty wide reached
    rw [weightedAverage?_eq_weigh wide several, weightedAverage?_eq_weigh wide (same ▸ several), same]
  between := risingMean_between (windowed_ne_nil nonempty wide reached)
  uncut := by
    dsimp only
    rw [weigh_exact]
    exact ⟨rfl, clampUnit_risingMean nonempty shares wide reached⟩
  rising raised sharesToo le := by
    have nonemptyToo : raised ≠ [] := by
      rintro rfl
      exact nonempty (List.forall₂_nil_right_iff.mp le)
    exact ⟨_, weightedAverage?_eq_risingMean nonemptyToo sharesToo wide reached,
      risingMean_mono (forall₂_windowed le)⟩

end

/-- Two samples before the end: the newer one weighs twice as much. -/
theorem weightedAverage_exact_early :
    let history : List ℚ := [1 / 2, 3 / 5, 7 / 10, 4 / 5]
    Averages history 2 (some 3) ∧ windowed history 2 (some 3) = [3 / 5, 7 / 10] ∧
      weightedAverage? history 2 (some 3) = some (2 / 3) := by
  intro history
  have averages : Averages history 2 (some 3) := by
    apply weightedAverage_exact
    · decide
    · decide +kernel
    · decide
    · decide
  refine ⟨averages, rfl, averages.mean.trans (congrArg some ?_)⟩
  change risingMean [3 / 5, 7 / 10] = 2 / 3
  decide +kernel

end Forecast

end Fleet
