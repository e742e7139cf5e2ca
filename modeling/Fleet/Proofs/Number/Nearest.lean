import Mathlib.Data.Int.Log
import Mathlib.Data.Rat.Floor
import Mathlib.Tactic.Linarith
import Mathlib.Tactic.FieldSimp
import Mathlib.Tactic.Ring

/-! The binary64 number nearest to a rational number, while its exponent may be as large as it likes.

Near a number, binary64 numbers are equally spaced, at a power of two. Rounding to a multiple of the
spacing is monotone, also where the spacing changes, and leaves alone what need not be rounded.
-/

set_option autoImplicit false

namespace Fleet.Number

/-- The nearest integer; of two that are equally near, the even one. -/
def halfEven (q : ℚ) : ℤ :=
  if 2 * Int.fract q < 1 then ⌊q⌋
  else if 1 < 2 * Int.fract q then ⌊q⌋ + 1
  else ⌊q⌋ + ⌊q⌋ % 2

theorem floor_le_halfEven (q : ℚ) : ⌊q⌋ ≤ halfEven q := by
  unfold halfEven
  split_ifs <;> omega

theorem halfEven_le_succ_floor (q : ℚ) : halfEven q ≤ ⌊q⌋ + 1 := by
  unfold halfEven
  split_ifs <;> omega

@[simp] theorem halfEven_intCast (n : ℤ) : halfEven n = n := by
  simp [halfEven]

theorem halfEven_mono {p q : ℚ} (le : p ≤ q) : halfEven p ≤ halfEven q := by
  rcases (Int.floor_le_floor le).lt_or_eq with less | same
  · have below := halfEven_le_succ_floor p
    have above := floor_le_halfEven q
    omega
  · -- between the same two integers, the fractions decide
    have fract : Int.fract p ≤ Int.fract q := by
      have split := Int.floor_add_fract p
      have splitOther := Int.floor_add_fract q
      rw [same] at split
      linarith
    unfold halfEven
    rw [same]
    split_ifs <;> first | omega | (exfalso; linarith)

theorem halfEven_neg (q : ℚ) : halfEven (-q) = -halfEven q := by
  by_cases whole : Int.fract q = 0
  · have integer : q = (⌊q⌋ : ℤ) := by
      have split := Int.floor_add_fract q
      rw [whole, add_zero] at split
      exact split.symm
    rw [integer, ← Int.cast_neg, halfEven_intCast, halfEven_intCast]
  · have fract := Int.fract_neg whole
    have floor : ⌊-q⌋ = -⌊q⌋ - 1 := by
      have split := Int.floor_add_fract q
      have splitNeg := Int.floor_add_fract (-q)
      rw [fract] at splitNeg
      have cast : ((⌊-q⌋ : ℤ) : ℚ) = ((-⌊q⌋ - 1 : ℤ) : ℚ) := by
        push_cast
        linarith
      exact_mod_cast cast
    unfold halfEven
    rw [fract, floor]
    split_ifs <;> first | omega | (exfalso; linarith)

theorem halfEven_le {q : ℚ} {n : ℤ} (le : q ≤ n) : halfEven q ≤ n :=
  (halfEven_mono le).trans_eq (halfEven_intCast n)

theorem le_halfEven {q : ℚ} {n : ℤ} (le : (n : ℚ) ≤ q) : n ≤ halfEven q :=
  (halfEven_intCast n).symm.trans_le (halfEven_mono le)

/-! Spacing -/

/-- The exponent of the spacing near a number: 53 digits are kept, but none below `2 ^ (-1074)`. -/
def spacing (q : ℚ) : ℤ := max (Int.log 2 |q| - 52) (-1074)

def nearest (q : ℚ) : ℚ := halfEven (q / 2 ^ spacing q) * 2 ^ spacing q

/-- Written with 53 digits. -/
def Representable (q : ℚ) : Prop :=
  ∃ mantissa exponent : ℤ, |mantissa| < 2 ^ 53 ∧ -1074 ≤ exponent ∧ q = mantissa * 2 ^ exponent

theorem two_zpow_pos (exponent : ℤ) : (0 : ℚ) < 2 ^ exponent := zpow_pos two_pos exponent

@[simp] theorem spacing_neg (q : ℚ) : spacing (-q) = spacing q := by
  unfold spacing
  rw [abs_neg]

@[simp] theorem nearest_neg (q : ℚ) : nearest (-q) = -nearest q := by
  unfold nearest
  rw [spacing_neg, neg_div, halfEven_neg]
  push_cast
  ring

@[simp] theorem nearest_zero : nearest 0 = 0 := by
  have zero : halfEven 0 = 0 := by simpa using halfEven_intCast 0
  simp [nearest, zero]

theorem spacing_mono {p q : ℚ} (positive : 0 < p) (le : p ≤ q) : spacing p ≤ spacing q := by
  have log := Int.log_mono_right (b := 2) (abs_pos.mpr positive.ne') (abs_le_abs_of_nonneg positive.le le)
  unfold spacing
  omega

theorem nearest_le_of_multiple {q : ℚ} {n : ℤ} (le : q ≤ n * 2 ^ spacing q) :
    nearest q ≤ n * 2 ^ spacing q := by
  have scaled : q / 2 ^ spacing q ≤ n := (div_le_iff₀ (two_zpow_pos _)).mpr le
  exact mul_le_mul_of_nonneg_right (by exact_mod_cast halfEven_le scaled) (two_zpow_pos _).le

theorem le_nearest_of_multiple {q : ℚ} {n : ℤ} (le : n * 2 ^ spacing q ≤ q) :
    n * 2 ^ spacing q ≤ nearest q := by
  have scaled : (n : ℚ) ≤ q / 2 ^ spacing q := (le_div_iff₀ (two_zpow_pos _)).mpr le
  exact mul_le_mul_of_nonneg_right (by exact_mod_cast le_halfEven scaled) (two_zpow_pos _).le

theorem nearest_nonneg {q : ℚ} (nonneg : 0 ≤ q) : 0 ≤ nearest q := by
  have above := le_nearest_of_multiple (q := q) (n := 0)
  simpa [nonneg] using above

theorem exists_boundary {p q : ℚ} (wider : spacing p < spacing q) :
    |p| ≤ 2 ^ (spacing q + 52) ∧ (0 < q → 2 ^ (spacing q + 52) ≤ q) := by
  have spacings : Int.log 2 |p| + 1 ≤ spacing q + 52 ∧ spacing q + 52 = Int.log 2 |q| := by
    unfold spacing at wider ⊢
    omega
  constructor
  · calc |p| ≤ 2 ^ (Int.log 2 |p| + 1) := (Int.lt_zpow_succ_log_self (by norm_num) |p|).le
      _ ≤ 2 ^ (spacing q + 52) := zpow_le_zpow_right₀ one_le_two spacings.1
  · intro positive
    rw [spacings.2]
    have below := Int.zpow_log_le_self (b := 2) (by norm_num) (abs_pos.mpr positive.ne')
    rwa [abs_of_pos positive] at below ⊢

theorem two_zpow_eq_multiple {small large : ℤ} (le : small ≤ large) :
    (2 : ℚ) ^ large = ((2 ^ (large - small).toNat : ℤ) : ℚ) * 2 ^ small := by
  have split : large = ((large - small).toNat : ℤ) + small := by omega
  conv_lhs => rw [split, zpow_add₀ two_ne_zero, zpow_natCast]
  push_cast
  rfl

theorem nearest_le_nearest_of_pos {p q : ℚ} (positive : 0 < p) (le : p ≤ q) :
    nearest p ≤ nearest q := by
  rcases (spacing_mono positive le).eq_or_lt with same | wider
  · unfold nearest
    rw [same]
    have scaled : p / 2 ^ spacing q ≤ q / 2 ^ spacing q :=
      div_le_div_of_nonneg_right le (two_zpow_pos _).le
    exact mul_le_mul_of_nonneg_right (by exact_mod_cast halfEven_mono scaled) (two_zpow_pos _).le
  · obtain ⟨below, above⟩ := exists_boundary wider
    have multiple := two_zpow_eq_multiple (by omega : spacing p ≤ spacing q + 52)
    have multipleOther := two_zpow_eq_multiple (by omega : spacing q ≤ spacing q + 52)
    calc nearest p ≤ 2 ^ (spacing q + 52) := by
          rw [multiple]
          exact nearest_le_of_multiple (multiple ▸ (le_abs_self p).trans below)
      _ ≤ nearest q := by
          rw [multipleOther]
          exact le_nearest_of_multiple (multipleOther ▸ above (positive.trans_le le))

theorem nearest_mono : Monotone nearest := by
  intro p q le
  rcases lt_or_ge 0 p with positive | nonpos
  · exact nearest_le_nearest_of_pos positive le
  · rcases lt_or_ge q 0 with negative | nonneg
    · have mirrored := nearest_le_nearest_of_pos (neg_pos.mpr negative) (neg_le_neg le)
      rw [nearest_neg, nearest_neg] at mirrored
      exact neg_le_neg_iff.mp mirrored
    · have low := nearest_nonneg (neg_nonneg.mpr nonpos)
      rw [nearest_neg] at low
      exact (neg_nonneg.mp low).trans (nearest_nonneg nonneg)

theorem spacing_le {mantissa exponent : ℤ} (digits : |mantissa| < 2 ^ 53)
    (least : -1074 ≤ exponent) (nonzero : mantissa ≠ 0) :
    spacing (mantissa * 2 ^ exponent) ≤ exponent := by
  have positive : (0 : ℚ) < |(mantissa : ℚ) * 2 ^ exponent| :=
    abs_pos.mpr (mul_ne_zero (by exact_mod_cast nonzero) (two_zpow_pos _).ne')
  have below : |(mantissa : ℚ) * 2 ^ exponent| < 2 ^ (53 + exponent) := by
    rw [abs_mul, abs_of_pos (two_zpow_pos exponent), zpow_add₀ two_ne_zero]
    exact mul_lt_mul_of_pos_right (by exact_mod_cast digits) (two_zpow_pos _)
  have log : Int.log 2 |(mantissa : ℚ) * 2 ^ exponent| < 53 + exponent :=
    (Int.lt_zpow_iff_log_lt (by norm_num) positive).mp (by exact_mod_cast below)
  unfold spacing
  omega

theorem Representable.nearest_eq {q : ℚ} (representable : Representable q) : nearest q = q := by
  obtain ⟨mantissa, exponent, digits, least, rfl⟩ := representable
  rcases eq_or_ne mantissa 0 with rfl | nonzero
  · simp
  · have fine := spacing_le digits least nonzero
    have multiple := two_zpow_eq_multiple fine
    generalize grid : spacing (mantissa * 2 ^ exponent) = small at fine multiple
    have whole : (mantissa : ℚ) * 2 ^ exponent / 2 ^ small =
        ((mantissa * 2 ^ (exponent - small).toNat : ℤ) : ℚ) := by
      rw [multiple, ← mul_assoc, mul_div_cancel_right₀ _ (two_zpow_pos small).ne']
      push_cast
      rfl
    unfold nearest
    rw [grid, whole, halfEven_intCast, ← whole, div_mul_cancel₀ _ (two_zpow_pos small).ne']

theorem nearest_le {q bound : ℚ} (representable : Representable bound) (le : q ≤ bound) :
    nearest q ≤ bound := (nearest_mono le).trans_eq representable.nearest_eq

theorem le_nearest {q bound : ℚ} (representable : Representable bound) (le : bound ≤ q) :
    bound ≤ nearest q := representable.nearest_eq.symm.trans_le (nearest_mono le)

theorem abs_nearest_le {q bound : ℚ} (representable : Representable bound) (le : |q| ≤ bound) :
    |nearest q| ≤ bound := by
  obtain ⟨low, high⟩ := abs_le.mp le
  have below := nearest_le representable (neg_le.mp low)
  rw [nearest_neg] at below
  exact abs_le.mpr ⟨neg_le.mp below, nearest_le representable high⟩

end Fleet.Number
