import Fleet.Proofs.Forecast.Recency
import Fleet.Proofs.Ordered

/-! How windows adapt.

Great deviations never make a window narrower than the base window, and small ones never make it wider.
So a threshold that is raised can only narrow it. A width is converted to a number first, which is exact
up to `2 ^ 53`.
-/

set_option autoImplicit false

namespace Fleet

namespace Forecast

/-! Looking further back -/

section

variable {α : Type} [Scalar α] {history : List α}

omit [Scalar α] in
theorem recentRuns_isSuffix {count more : Nat} (le : count ≤ more) :
    recentRuns history count <:+ recentRuns history more := by
  obtain ⟨further, rfl⟩ := Nat.exists_eq_add_of_le le
  unfold recentRuns
  rw [List.range_add, List.reverse_append, List.map_append]
  exact List.suffix_append _ _

theorem recentDeviation_mono [Scalar.Linear α] [Scalar.Ordered α] (history : List α) (window : Int)
    {lookBack further : Int} (le : lookBack ≤ further) :
    recentDeviation history window lookBack ≤ recentDeviation history window further := by
  unfold recentDeviation
  split
  · exact Scalar.zero_le_zero
  · have fewer : (max 1 (min lookBack (history.length : Int))).toNat ≤
        (max 1 (min further (history.length : Int))).toNat := by omega
    -- the deviations of older samples come first, and lift the start for all others
    have later : recentRuns history _ <:+ recentRuns history _ := recentRuns_isSuffix fewer
    obtain ⟨older, split⟩ := later.filterMap (deviation? window)
    dsimp only
    rw [← split, List.foldl_append]
    exact Scalar.foldl_max_mono (Scalar.self_le_foldl_max Scalar.zero_le_zero)

end

/-! Wider and narrower windows -/

open Number

variable {base : Int} {epsilon : Float} {whole : Int}

theorem exists_value?_of_floor {x : Float} (read : (floor x : Except (Fault Float) Int) = .ok whole) :
    ∃ q, value? x = some q ∧ whole = ⌊q⌋ := by
  cases finite : x.isFinite with
  | false =>
    obtain ⟨cause, failed⟩ := floor_fails finite
    cases failed.symm.trans read
  | true =>
    obtain ⟨q, known⟩ := isFinite_iff.mp finite
    exact ⟨q, known, (Except.ok.inj ((floor_eq known).symm.trans read)).symm⟩

theorem value?_start {s : ℚ} (nonneg : 0 ≤ base)
    (known : value? (Scalar.ofNat base.toNat : Float) = some s) : s = nearest base := by
  lift base to ℕ using nonneg
  change value? (Float.ofNat base) = _ at known
  rw [value?_ofNat, inRange?_eq_some] at known
  exact known.1.symm

theorem nearest_le_widened (nonneg : 0 ≤ base) (read : widened base epsilon = .ok whole) :
    nearest base ≤ whole := by
  obtain ⟨w, known, rfl⟩ := exists_value?_of_ceil read
  obtain ⟨⟨s, start⟩, r, factor⟩ := exists_of_value?_mul known
  obtain ⟨-, g, growth⟩ := exists_of_value?_add factor
  have grows := max_zero_nonneg growth
  have one : 1 ≤ r := by
    rw [value?_add value?_one growth, inRange?_eq_some] at factor
    exact factor.1 ▸ le_nearest stored_one.representable (by linarith)
  have above : s ≤ w := by
    rw [value?_mul start factor, inRange?_eq_some] at known
    exact known.1 ▸ le_nearest (stored_of_value? start).representable
      (le_mul_of_one_le_right (nonneg_of_value?_ofNat start) one)
  calc nearest base = s := (value?_start nonneg start).symm
    _ ≤ w := above
    _ ≤ ⌈w⌉ := Int.le_ceil w

theorem narrowed_le_nearest (nonneg : 0 ≤ base) (read : narrowed base epsilon = .ok whole) :
    whole ≤ nearest base := by
  obtain ⟨n, known, rfl⟩ := exists_value?_of_floor read
  obtain ⟨⟨s, start⟩, d, factor⟩ := exists_of_value?_mul known
  obtain ⟨-, h, halved⟩ := exists_of_value?_sub factor
  obtain ⟨⟨g, growth⟩, half, halfValue⟩ := exists_of_value?_mul halved
  have shrinks : 0 ≤ h := by
    have positive : (0 : ℚ) ≤ half := by
      have exactly : value? (0.5 : Float) = some (1 / 2) := by decide +kernel
      rw [← Option.some.inj (exactly.symm.trans halfValue)]
      norm_num
    rw [value?_mul growth halfValue, inRange?_eq_some] at halved
    exact halved.1 ▸ nearest_nonneg (mul_nonneg (max_zero_nonneg growth) positive)
  have one : d ≤ 1 := by
    rw [value?_sub value?_one halved, inRange?_eq_some] at factor
    exact factor.1 ▸ nearest_le stored_one.representable (by linarith)
  have below : n ≤ s := by
    rw [value?_mul start factor, inRange?_eq_some] at known
    exact known.1 ▸ nearest_le (stored_of_value? start).representable
      (mul_le_of_le_one_right (nonneg_of_value?_ofNat start) one)
  calc (⌊n⌋ : ℚ) ≤ n := Int.floor_le n
    _ ≤ s := below
    _ = nearest base := value?_start nonneg start

theorem narrowed_le_widened (read : widened base epsilon = .ok whole) :
    ∃ narrower, narrowed base epsilon = .ok narrower ∧ narrower ≤ whole := by
  obtain ⟨w, known, rfl⟩ := exists_value?_of_ceil read
  obtain ⟨⟨s, start⟩, r, factor⟩ := exists_of_value?_mul known
  obtain ⟨-, g, growth⟩ := exists_of_value?_add factor
  obtain ⟨n, narrowest, -, below⟩ := within_shrunk start (nonneg_of_value?_ofNat start) growth
    (max_zero_nonneg growth) known
  exact ⟨⌊n⌋, floor_eq narrowest, Int.cast_le.mp
    ((Int.floor_le n).trans (below.trans (Int.le_ceil w)))⟩

theorem nearest_intCast_of_le {n : ℤ} (nonneg : 0 ≤ n) (few : n ≤ 2 ^ 53) : nearest n = n := by
  rcases few.lt_or_eq with short | rfl
  · exact (representable_intCast ((abs_of_nonneg nonneg).trans_lt short)).nearest_eq
  · have stored : Stored (2 ^ 53) := stored_two_pow (by decide)
    rw [Int.cast_pow, Int.cast_ofNat]
    exact stored.representable.nearest_eq

section

variable {history : List Float} {theta : Float} {window : Int} (nonempty : history ≠ [])
  (wide : 1 ≤ base)
include nonempty wide

theorem adaptiveWindow_eq_adapted (epsilon theta : Float) :
    adaptiveWindow history base epsilon theta = (do
      let whole ← adapted history (min base history.length) epsilon theta
      pure (max 1 (min whole history.length))) := by
  have several := List.length_pos_iff.mpr nonempty
  have some : history.isEmpty = false := List.isEmpty_eq_false_iff.mpr nonempty
  have cut : adaptiveWindow history base epsilon theta =
      adaptiveWindow history (min base history.length) epsilon theta := by
    simp only [adaptiveWindow, some, Bool.false_eq_true, if_false, min_assoc, min_self]
  rw [cut, adaptiveWindow_eq (by omega) (by omega)]

theorem exists_adapted (read : adaptiveWindow history base epsilon theta = .ok window) :
    ∃ whole, adapted history (min base history.length) epsilon theta = .ok whole ∧
      window = max 1 (min whole history.length) := by
  rw [adaptiveWindow_eq_adapted nonempty wide] at read
  obtain ⟨whole, found, same⟩ := Attempt.bind_ok read
  exact ⟨whole, found, (Except.ok.inj same).symm⟩

theorem window_of_great (read : adaptiveWindow history base epsilon theta = .ok window)
    (great : theta < recentDeviation history (min base history.length)) :
    min (nearest (min base history.length : Int)) history.length ≤ window ∧
      (min base history.length ≤ (2 : Int) ^ 53 → min base history.length ≤ window) := by
  obtain ⟨whole, found, rfl⟩ := exists_adapted nonempty wide read
  have wider := nearest_le_widened (by omega) ((if_pos great).symm.trans found)
  refine ⟨?_, fun few => ?_⟩
  · have cut : min (whole : ℚ) history.length ≤ (max 1 (min whole history.length) : Int) := by
      exact_mod_cast le_max_right 1 (min whole (history.length : Int))
    exact (min_le_min_right _ wider).trans cut
  · rw [nearest_intCast_of_le (by omega) few] at wider
    have wider : min base history.length ≤ whole := Int.cast_le.mp wider
    omega

theorem window_of_small (read : adaptiveWindow history base epsilon theta = .ok window)
    (small : ¬theta < recentDeviation history (min base history.length)) :
    window ≤ nearest (min base history.length : Int) ∧
      (min base history.length ≤ (2 : Int) ^ 53 → window ≤ min base history.length) := by
  have several := List.length_pos_iff.mpr nonempty
  have one : 1 ≤ min base (history.length : Int) := by omega
  obtain ⟨whole, found, rfl⟩ := exists_adapted nonempty wide read
  have narrower := narrowed_le_nearest (by omega) ((if_neg small).symm.trans found)
  refine ⟨?_, fun few => ?_⟩
  · have cut : (max 1 (min whole history.length) : Int) ≤ max 1 (whole : ℚ) := by
      exact_mod_cast max_le_max_left 1 (min_le_left whole (history.length : Int))
    exact cut.trans (max_le (le_nearest stored_one.representable (by exact_mod_cast one)) narrower)
  · rw [nearest_intCast_of_le (by omega) few] at narrower
    have narrower : whole ≤ min base history.length := Int.cast_le.mp narrower
    omega

theorem adaptiveWindow_antitone (read : adaptiveWindow history base epsilon theta = .ok window)
    {greater : Float} (le : theta ≤ greater) :
    ∃ narrower, adaptiveWindow history base epsilon greater = .ok narrower ∧ narrower ≤ window := by
  obtain ⟨whole, found, rfl⟩ := exists_adapted nonempty wide read
  obtain ⟨less, narrower, fewer⟩ : ∃ less,
      adapted history (min base history.length) epsilon greater = .ok less ∧ less ≤ whole := by
    unfold adapted at found ⊢
    -- deviations beyond the greater threshold are beyond the smaller one too
    split at found
    · split
      · exact ⟨whole, found, le_rfl⟩
      · exact narrowed_le_widened found
    · next small =>
      rw [if_neg fun great => small (Scalar.lt_of_le_of_lt le great)]
      exact ⟨whole, found, le_rfl⟩
  refine ⟨max 1 (min less history.length), ?_, by omega⟩
  rw [adaptiveWindow_eq_adapted nonempty wide, narrower]
  rfl

/-- An adaptive window is between one and the length of the history. After deviations beyond the
threshold it is no narrower than the base window, else no wider. It does not get wider when the
threshold is raised, and deviations do not get smaller when more samples are looked at. Beyond `2 ^ 53`
samples, which no memory has room for, a base window counts as the number it is converted to. -/
theorem adaptiveWindow_directed (read : adaptiveWindow history base epsilon theta = .ok window) :
    let width : Int := min base history.length
    (1 ≤ window ∧ window ≤ history.length) ∧
      (theta < recentDeviation history width →
        min (nearest width) history.length ≤ window ∧ (width ≤ 2 ^ 53 → width ≤ window)) ∧
      (¬theta < recentDeviation history width →
        window ≤ nearest width ∧ (width ≤ 2 ^ 53 → window ≤ width)) ∧
      (∀ greater, theta ≤ greater → ∃ narrower,
        adaptiveWindow history base epsilon greater = .ok narrower ∧ narrower ≤ window) ∧
      ∀ span lookBack further, lookBack ≤ further →
        recentDeviation history span lookBack ≤ recentDeviation history span further := by
  refine ⟨?_, window_of_great nonempty wide read, window_of_small nonempty wide read,
    fun greater le => adaptiveWindow_antitone nonempty wide read le,
    fun span lookBack further le => recentDeviation_mono history span le⟩
  have several := List.length_pos_iff.mpr nonempty
  obtain ⟨whole, -, rfl⟩ := exists_adapted nonempty wide read
  omega

end

/-- A history that swings widens a window, unless the threshold is beyond its swings. -/
theorem adaptiveWindow_directed_swinging :
    let history : List Float := [0.0, 1.0, 0.0, 1.0, 0.0, 1.0]
    adaptiveWindow history 2 0.5 0.1 = .ok 3 ∧ (0.1 : Float) < recentDeviation history 2 ∧
      (2 : Int) ≤ 3 ∧
      (∃ narrower, adaptiveWindow history 2 0.5 0.9 = .ok narrower ∧ narrower ≤ 3) ∧
      recentDeviation history 2 1 ≤ recentDeviation history 2 6 := by
  intro history
  have read : adaptiveWindow history 2 0.5 0.1 = .ok 3 := Attempt.ok_of_toOption (by decide +kernel)
  have great : (0.1 : Float) < recentDeviation history 2 := by decide +kernel
  obtain ⟨-, widened, -, falling, further⟩ :=
    adaptiveWindow_directed (by decide : history ≠ []) (by decide) read
  exact ⟨read, great, (widened great).2 (by decide), falling 0.9 (by decide +kernel),
    further 2 1 6 (by decide)⟩

end Forecast

end Fleet
