import Fleet.Proofs.Forecast
import Fleet.Proofs.Power.Interpolation

/-! Reading a power curve at a utilization kept between zero and one always succeeds.

Ten times such a utilization is rounded, but not beyond zero or ten, so the tenths around it are
positions of the curve.
-/

set_option autoImplicit false

namespace Fleet

open Number

theorem within_kept (x : Float) : Within 0 1 (Scalar.min 1.0 (Scalar.max 0.0 x)) := by
  have zero := value?_zero
  have one := value?_one
  unfold Scalar.min Scalar.max
  by_cases positive : (0.0 : Float) < x
  · rw [if_pos positive]
    split
    · next less => exact within_unit_of_le (Scalar.le_of_lt positive) (Scalar.le_of_lt less)
    · exact ⟨1, one, zero_le_one, le_rfl⟩
  · rw [if_neg positive]
    split
    · exact ⟨0, zero, le_rfl, zero_le_one⟩
    · exact ⟨1, one, zero_le_one, le_rfl⟩

namespace PowerCurve

/-- The tenths at or around a utilization, as ten times the utilization tells them. -/
structure Tenths (utilization : Float) where
  below : Fin 11
  above : Fin 11
  floor : (Forecast.floor (utilization * 10.0) : Except (Fault Float) Int) = .ok (below : ℕ)
  ceil : (Forecast.ceil (utilization * 10.0) : Except (Fault Float) Int) = .ok (above : ℕ)
  ordered : below ≤ above
  near : (above : ℕ) ≤ below + 1

def Tenths.watts {utilization : Float} (tenths : Tenths utilization) (curve : PowerCurve Float) :
    Float :=
  let low := curve.measured tenths.below
  let high := curve.measured tenths.above
  if Scalar.isMultipleOf utilization 0.1 then low
  else low + (high - low) / 10.0 * (utilization - Float.ofNat tenths.below / 10.0) * 100.0

variable {utilization : Float} (within : Within 0 1 utilization)
include within

theorem not_outside : ¬(utilization < 0.0 ∨ 1.0 < utilization) := by
  obtain ⟨q, known, low, high⟩ := within
  rw [lt_iff_of_value? known value?_zero, lt_iff_of_value? value?_one known]
  push Not
  exact ⟨low, high⟩

theorem exists_tenths : Nonempty (Tenths utilization) := by
  obtain ⟨q, known, low, high⟩ := within
  have ten : value? (10.0 : Float) = some 10 := by decide +kernel
  obtain ⟨r, scaled, least, most⟩ := within_mul Forecast.stored_zero (stored_of_value? ten)
    known ten (by linarith) (by linarith)
  -- zero and ten are integers, so rounding to one does not lead beyond them either
  obtain ⟨below, floor⟩ := Int.eq_ofNat_of_zero_le (Int.floor_nonneg.mpr least)
  obtain ⟨above, ceil⟩ := Int.eq_ofNat_of_zero_le (Int.ceil_nonneg least)
  have last : ⌈r⌉ ≤ 10 := Int.ceil_le.mpr (by exact_mod_cast most)
  have ordered := Int.floor_le_ceil r
  have near := Int.ceil_le_floor_add_one r
  exact ⟨{
    below := ⟨below, by omega⟩
    above := ⟨above, by omega⟩
    floor := by rw [Forecast.floor_eq scaled, floor]
    ceil := by rw [Forecast.ceil_eq scaled, ceil]
    ordered := Fin.mk_le_mk.mpr (by omega)
    near := by dsimp only; omega }⟩

theorem draw_of_tenths (curve : PowerCurve Float) (tenths : Tenths utilization) :
    curve.draw utilization = .ok (tenths.watts curve) := by
  rw [draw_eq, if_neg (not_outside within)]
  unfold Tenths.watts
  split
  · rw [lookedUp, tenths.floor]
    exact curve.sample_measured tenths.below
  · rw [computed, tenths.floor, tenths.ceil]
    simp only [bind, Except.bind, sample_measured, Int.toNat_natCast]
    rfl

theorem draw_ok (curve : PowerCurve Float) : ∃ watts, curve.draw utilization = .ok watts := by
  obtain ⟨tenths⟩ := exists_tenths within
  exact ⟨tenths.watts curve, draw_of_tenths within curve tenths⟩

end PowerCurve

end Fleet
