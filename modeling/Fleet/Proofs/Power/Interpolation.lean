import Fleet.Power
import Fleet.Proofs.Ordered
import Mathlib.Analysis.Convex.Segment

/-! The draw of a server in exact arithmetic.

Between two measurements it lies on the straight line through them. At a tenth the line meets the
measurement, so looking it up there is only a shortcut.
-/

set_option autoImplicit false

namespace Fleet

namespace Exact

theorem ten_eq : ((Scalar.toOfScientific : OfScientific Rat).ofScientific 100 true 1) = 10 := by
  decide +kernel

theorem hundred_eq : ((Scalar.toOfScientific : OfScientific Rat).ofScientific 1000 true 1) = 100 := by
  decide +kernel

theorem tenth_eq : ((Scalar.toOfScientific : OfScientific Rat).ofScientific 1 true 1) = 10⁻¹ := by
  decide +kernel

theorem floor_eq (x : Rat) : (Forecast.floor x : Except (Fault Rat) Int) = .ok ⌊x⌋ := rfl

theorem ceil_eq (x : Rat) : (Forecast.ceil x : Except (Fault Rat) Int) = .ok ⌈x⌉ :=
  congrArg Except.ok (Rat.ceil_eq_neg_floor_neg x)

theorem isMultipleOf_tenth_iff {u : Rat} :
    Scalar.isMultipleOf u 0.1 = true ↔ ∃ n : ℤ, 10 * u = n := by
  change ((u / _ : ℚ).den == 1) = true ↔ _
  rw [tenth_eq, div_inv_eq_mul, mul_comm, beq_iff_eq, Rat.den_eq_one_iff]
  constructor
  · exact fun whole => ⟨_, whole.symm⟩
  · rintro ⟨n, whole⟩
    rw [whole, Rat.num_intCast]

end Exact

namespace PowerCurve

section

variable {α : Type}

def measured (curve : PowerCurve α) (position : Fin 11) : α :=
  curve.watts.get (position.cast curve.eleven.symm)

theorem measured_mem (curve : PowerCurve α) (position : Fin 11) :
    curve.measured position ∈ curve.watts := List.get_mem _ _

theorem sample_measured (curve : PowerCurve α) (position : Fin 11) :
    curve.sample (position : ℕ) = .ok (curve.measured position) := by
  have inside : (position : ℕ) < curve.watts.length := by rw [curve.eleven]; exact position.isLt
  simp [sample, measured, inside]

variable [Scalar α]

def lookedUp (curve : PowerCurve α) (utilization : α) : Except (Fault α) α := do
  curve.sample (← Forecast.floor (utilization * 10.0))

def computed (curve : PowerCurve α) (utilization : α) : Except (Fault α) α := do
  let below ← Forecast.floor (utilization * 10.0)
  let above ← Forecast.ceil (utilization * 10.0)
  let high ← curve.sample above
  let low ← curve.sample below
  let slope := (high - low) / 10.0
  pure (low + slope * (utilization - Scalar.ofNat below.toNat / 10.0) * 100.0)

theorem draw_eq (curve : PowerCurve α) (utilization : α) :
    curve.draw utilization =
      if utilization < 0.0 ∨ 1.0 < utilization then .error (.utilization utilization)
      else if Scalar.isMultipleOf utilization 0.1 then curve.lookedUp utilization
      else curve.computed utilization := rfl

end

def tenth (utilization : ℚ) : Fin 10 := ⟨min 9 ⌊10 * utilization⌋₊, by omega⟩

def line (curve : PowerCurve ℚ) (utilization : ℚ) : ℚ :=
  let k := tenth utilization
  curve.measured k.castSucc +
    (10 * utilization - k) * (curve.measured k.succ - curve.measured k.castSucc)

variable {curve : PowerCurve ℚ} {u : ℚ}

theorem tenth_val (u : ℚ) : (tenth u : ℕ) = min 9 ⌊10 * u⌋₊ := rfl

theorem lookedUp_eq (curve : PowerCurve ℚ) (u : ℚ) : curve.lookedUp u = curve.sample ⌊10 * u⌋ := by
  change curve.sample ⌊(u * _ : ℚ)⌋ = _
  rw [Exact.ten_eq, mul_comm]

theorem computed_eq {lower upper : Fin 11} (below : ⌊10 * u⌋ = (lower : ℕ))
    (above : ⌈10 * u⌉ = (upper : ℕ)) :
    curve.computed u = .ok (curve.measured lower +
      (10 * u - lower) * (curve.measured upper - curve.measured lower)) := by
  have scaled : (u * 10 : ℚ) = 10 * u := mul_comm u 10
  unfold computed
  rw [Exact.ten_eq, Exact.hundred_eq]
  change (Forecast.floor (u * 10 : ℚ) >>= fun below => Forecast.ceil (u * 10 : ℚ) >>= fun above =>
    curve.sample above >>= fun high => curve.sample below >>= fun low =>
      (.ok (low + (high - low) / 10 * (u - (below.toNat : ℚ) / 10) * 100) : Except (Fault ℚ) ℚ)) = _
  rw [scaled, Exact.floor_eq, Exact.ceil_eq, below, above]
  simp only [bind, Except.bind, sample_measured, Int.toNat_natCast]
  congr 1
  ring

/-! Utilizations on a tenth, and between two of them -/

theorem computed_of_whole {position : Fin 11} (whole : 10 * u = position) :
    curve.computed u = .ok (curve.measured position) := by
  have below : ⌊10 * u⌋ = (position : ℕ) := by rw [whole]; exact Int.floor_natCast _
  have above : ⌈10 * u⌉ = (position : ℕ) := by rw [whole]; exact Int.ceil_natCast _
  rw [computed_eq below above, whole, sub_self, zero_mul, add_zero]

theorem lookedUp_of_whole {position : Fin 11} (whole : 10 * u = position) :
    curve.lookedUp u = .ok (curve.measured position) := by
  rw [lookedUp_eq, whole, Int.floor_natCast, sample_measured]

theorem line_of_whole {position : Fin 11} (whole : 10 * u = position) :
    curve.line u = curve.measured position := by
  have low : ⌊10 * u⌋₊ = position := by rw [whole]; exact Nat.floor_natCast _
  induction position using Fin.lastCases with
  | last =>
    have same : tenth u = Fin.last 9 := Fin.ext (by rw [tenth_val, low]; rfl)
    have share : 10 * u - (Fin.last 9 : ℕ) = 1 := by rw [whole]; norm_num
    unfold line
    dsimp only
    rw [same, share, one_mul, Fin.succ_last, add_sub_cancel]
  | cast k =>
    have same : tenth u = k := Fin.ext (by rw [tenth_val, low, Fin.val_castSucc]; omega)
    unfold line
    dsimp only
    rw [same, whole, Fin.val_castSucc, sub_self, zero_mul, add_zero]

section

variable (low : 0 ≤ u) (high : u ≤ 1)
include low high

theorem exists_position (whole : ∃ n : ℤ, 10 * u = n) : ∃ position : Fin 11, 10 * u = position := by
  obtain ⟨n, whole⟩ := whole
  have least : (0 : ℚ) ≤ n := by linarith
  have most : (n : ℚ) ≤ 10 := by linarith
  lift n to ℕ using by exact_mod_cast least
  have few : n ≤ 10 := by exact_mod_cast most
  exact ⟨⟨n, by omega⟩, by exact_mod_cast whole⟩

theorem computed_of_between (between : ¬∃ n : ℤ, 10 * u = n) :
    curve.computed u = .ok (curve.line u) := by
  have least : 0 ≤ 10 * u := by linarith
  have less : 10 * u < 10 := lt_of_le_of_ne (by linarith) fun full => between ⟨10, full⟩
  have value : (tenth u : ℕ) = ⌊10 * u⌋₊ := by
    have few : ⌊10 * u⌋₊ < 10 := (Nat.floor_lt least).mpr less
    rw [tenth_val]
    omega
  have below : ⌊10 * u⌋ = ((tenth u).castSucc : ℕ) := by
    rw [Fin.val_castSucc, value, Int.natCast_floor_eq_floor least]
  have above : ⌈10 * u⌉ = ((tenth u).succ : ℕ) := by
    have apart : ⌈10 * u⌉ = ⌊10 * u⌋ + 1 :=
      (Int.ceil_eq_floor_add_one_iff_notMem _).mpr fun ⟨n, whole⟩ => between ⟨n, whole.symm⟩
    rw [apart, below, Fin.val_succ, Fin.val_castSucc, Nat.cast_succ]
  exact computed_eq below above

theorem computed_eq_line : curve.computed u = .ok (curve.line u) := by
  by_cases whole : ∃ n : ℤ, 10 * u = n
  · obtain ⟨position, whole⟩ := exists_position low high whole
    rw [computed_of_whole whole, line_of_whole whole]
  · exact computed_of_between low high whole

theorem draw_eq_line : curve.draw u = .ok (curve.line u) := by
  have inside : ¬((u < 0.0 : Prop) ∨ 1.0 < u) := by
    rw [Exact.zero_eq, Exact.one_eq]
    exact not_or.mpr ⟨not_lt.mpr low, not_lt.mpr high⟩
  rw [draw_eq, if_neg inside]
  split
  · next multiple =>
    obtain ⟨position, whole⟩ := exists_position low high (Exact.isMultipleOf_tenth_iff.mp multiple)
    rw [lookedUp_of_whole whole, line_of_whole whole]
  · exact computed_eq_line low high

theorem share_bounds : 0 ≤ 10 * u - tenth u ∧ 10 * u - tenth u ≤ 1 := by
  have least : 0 ≤ 10 * u := by linarith
  have floor := Nat.floor_le least
  have ceil := Nat.lt_floor_add_one (10 * u)
  rw [tenth_val]
  rcases le_total ⌊10 * u⌋₊ 9 with few | full
  · rw [min_eq_right few]
    constructor <;> linarith
  · have nine : (9 : ℚ) ≤ ⌊10 * u⌋₊ := by exact_mod_cast full
    rw [min_eq_left full]
    push_cast
    constructor <;> linarith

omit low high in
theorem line_eq_combination (curve : PowerCurve ℚ) (u : ℚ) :
    curve.line u = (1 - (10 * u - tenth u)) • curve.measured (tenth u).castSucc +
      (10 * u - tenth u) • curve.measured (tenth u).succ := by
  simp only [line, smul_eq_mul]
  ring

theorem line_between :
    min (curve.measured (tenth u).castSucc) (curve.measured (tenth u).succ) ≤ curve.line u ∧
      curve.line u ≤ max (curve.measured (tenth u).castSucc) (curve.measured (tenth u).succ) := by
  obtain ⟨least, most⟩ := share_bounds low high
  rw [line_eq_combination]
  exact ⟨Convex.min_le_combo _ _ (sub_nonneg.mpr most) least (sub_add_cancel 1 _),
    Convex.combo_le_max _ _ (sub_nonneg.mpr most) least (sub_add_cancel 1 _)⟩

end

/-- In exact arithmetic the draw at a utilization from zero to one lies on the line through the
measurements at the tenths around it. The formula for what lies between two tenths gives the same
line, and at a tenth it gives what is looked up there. The line stays between the two measurements,
so it is not negative if the table is not. -/
theorem draw_interpolates (curve : PowerCurve ℚ) {u : ℚ} (low : 0 ≤ u) (high : u ≤ 1) :
    let k := tenth u
    let below := curve.measured k.castSucc
    let above := curve.measured k.succ
    let watts := below + (10 * u - k) * (above - below)
    curve.draw u = .ok watts ∧ curve.computed u = .ok watts ∧
      (∀ position : Fin 11, u = position / 10 →
        curve.lookedUp u = .ok (curve.measured position) ∧ watts = curve.measured position) ∧
      min below above ≤ watts ∧ watts ≤ max below above ∧
      ((∀ sample ∈ curve.watts, 0 ≤ sample) → 0 ≤ watts) := by
  intro k below above watts
  obtain ⟨least, most⟩ : min below above ≤ watts ∧ watts ≤ max below above := line_between low high
  refine ⟨draw_eq_line low high, computed_eq_line low high, fun position grid => ?_, least, most,
    fun nonneg => ?_⟩
  · have whole : 10 * u = position := by rw [grid]; ring
    exact ⟨lookedUp_of_whole whole, line_of_whole whole⟩
  · have ends : 0 ≤ min below above :=
      le_min (nonneg _ (curve.measured_mem _)) (nonneg _ (curve.measured_mem _))
    exact ends.trans least

/-- A quarter lies half way between two tenths. -/
theorem draw_interpolates_quarter :
    (0 : ℚ) ≤ 1 / 4 ∧ (1 / 4 : ℚ) ≤ 1 ∧ tenth (1 / 4) = 2 ∧
      (xeonE5 ℚ).draw (1 / 4) = .ok (297 / 4) := by
  have low : (0 : ℚ) ≤ 1 / 4 := by norm_num
  have high : (1 / 4 : ℚ) ≤ 1 := by norm_num
  have second : tenth (1 / 4) = 2 := by decide +kernel
  obtain ⟨drawn, -⟩ := draw_interpolates (xeonE5 ℚ) low high
  refine ⟨low, high, second, drawn.trans (congrArg Except.ok ?_)⟩
  rw [second]
  decide +kernel

end PowerCurve

end Fleet
