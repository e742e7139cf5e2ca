import Fleet.Proofs.Number.Reading

/-! Finite numbers within bounds.

Where the bounds are numbers themselves, rounding does not lead beyond them. Beside a number that is
large enough, a small summand is lost: the greatest finite number stays what it is, and a sum that
adds one at a time does not get beyond `2 ^ 53`.
-/

set_option autoImplicit false

namespace Fleet.Number

structure Stored (q : ℚ) : Prop where
  representable : Representable q
  finite : |q| < 2 ^ 1024

/-- A finite number, and between the given ones. -/
def Within (low high : ℚ) (x : Float) : Prop := ∃ q, value? x = some q ∧ low ≤ q ∧ q ≤ high

variable {x y : Float} {p q low high : ℚ}

theorem stored_of_value? (known : value? x = some q) : Stored q :=
  ⟨representable_of_value? known, abs_lt_of_value? known⟩

theorem stored_two_pow {digits : ℕ} (fits : digits ≤ 1023) : Stored (2 ^ digits) where
  representable := ⟨1, digits, by norm_num, by omega, by rw [Int.cast_one, one_mul, zpow_natCast]⟩
  finite := by
    rw [abs_of_pos (pow_pos two_pos digits)]
    exact pow_lt_pow_right₀ one_lt_two (by omega)

theorem Stored.neg (stored : Stored q) : Stored (-q) := by
  obtain ⟨⟨mantissa, exponent, digits, least, rfl⟩, finite⟩ := stored
  exact ⟨⟨-mantissa, exponent, by rwa [abs_neg], least, by push_cast; ring⟩, by rwa [abs_neg]⟩

theorem Within.mono {lower higher : ℚ} (within : Within low high x) (below : lower ≤ low)
    (above : high ≤ higher) : Within lower higher x := by
  obtain ⟨q, known, least, greatest⟩ := within
  exact ⟨q, known, below.trans least, greatest.trans above⟩

theorem Within.isFinite (within : Within low high x) : x.isFinite = true := by
  obtain ⟨q, known, -⟩ := within
  exact isFinite_iff.mpr ⟨q, known⟩

theorem within_of_inRange? (computed : value? x = inRange? (nearest q)) (lowStored : Stored low)
    (highStored : Stored high) (below : low ≤ nearest q) (above : nearest q ≤ high) :
    Within low high x := by
  have finite : |nearest q| < 2 ^ 1024 :=
    abs_lt.mpr ⟨(abs_lt.mp lowStored.finite).1.trans_le below,
      above.trans_lt (abs_lt.mp highStored.finite).2⟩
  exact ⟨nearest q, computed.trans (inRange?_eq_some.mpr ⟨rfl, finite⟩), below, above⟩

/-! Bounds on exact results -/

section

variable (lowStored : Stored low) (highStored : Stored high)
include lowStored highStored

theorem within_of_exact (computed : value? x = inRange? (nearest q)) (below : low ≤ q)
    (above : q ≤ high) : Within low high x :=
  within_of_inRange? computed lowStored highStored (le_nearest lowStored.representable below)
    (nearest_le highStored.representable above)

variable (first : value? x = some p) (second : value? y = some q)
include first second

theorem within_add (below : low ≤ p + q) (above : p + q ≤ high) : Within low high (x + y) :=
  within_of_exact lowStored highStored (value?_add first second) below above

theorem within_sub (below : low ≤ p - q) (above : p - q ≤ high) : Within low high (x - y) :=
  within_of_exact lowStored highStored (value?_sub first second) below above

theorem within_mul (below : low ≤ p * q) (above : p * q ≤ high) : Within low high (x * y) :=
  within_of_exact lowStored highStored (value?_mul first second) below above

theorem within_div (nonzero : q ≠ 0) (below : low ≤ p / q) (above : p / q ≤ high) :
    Within low high (x / y) :=
  within_of_exact lowStored highStored (value?_div first second nonzero) below above

end

/-! Literals -/

theorem value?_zero : value? 0.0 = some 0 := by decide +kernel

theorem value?_one : value? 1.0 = some 1 := by decide +kernel

theorem within_zero : Within 0 0 (0.0 : Float) := ⟨0, value?_zero, le_rfl, le_rfl⟩

theorem within_unit_of_le (low : (0.0 : Float) ≤ x) (high : x ≤ 1.0) : Within 0 1 x :=
  exists_value?_of_le value?_zero value?_one low high

/-! Summands that are lost -/

theorem halfEven_add_of_lt (n : ℤ) {rest : ℚ} (nonneg : 0 ≤ rest) (less : rest < 1 / 2) :
    halfEven (n + rest) = n := by
  have floor : ⌊(n : ℚ) + rest⌋ = n := by
    rw [Int.floor_intCast_add, Int.floor_eq_zero_iff.mpr ⟨nonneg, by linarith⟩, add_zero]
  unfold halfEven
  rw [if_pos (by rw [Int.fract, floor]; linarith), floor]

theorem spacing_natCast {n : ℕ} {digits : ℕ} (low : 2 ^ (digits + 52) ≤ n)
    (high : n < 2 ^ (digits + 53)) : spacing n = digits := by
  have log : Nat.log 2 n = digits + 52 :=
    Nat.log_eq_of_pow_le_of_lt_pow low high
  unfold spacing
  rw [Nat.abs_cast, Int.log_natCast, log]
  omega

/-- Half of the last unit is lost: the sum lies in the middle, and the even neighbour is below. -/
theorem nearest_two_pow_add (digits : ℕ) :
    nearest (2 ^ (digits + 53) + 2 ^ digits) = 2 ^ (digits + 53) := by
  have space : spacing (2 ^ (digits + 53) + 2 ^ digits) = (digits + 1 : ℕ) := by
    have space : spacing ((2 ^ (digits + 53) + 2 ^ digits : ℕ) : ℚ) = (digits + 1 : ℕ) := by
      have small : 2 ^ digits < 2 ^ (digits + 53) := Nat.pow_lt_pow_right one_lt_two (by omega)
      have next : 2 ^ (digits + 1 + 53) = 2 ^ (digits + 53) + 2 ^ (digits + 53) := by
        rw [← two_mul, ← pow_succ']
      refine spacing_natCast ?_ (by omega)
      rw [show digits + 1 + 52 = digits + 53 by omega]
      exact Nat.le_add_right _ _
    push_cast at space
    exact_mod_cast space
  have scaled : ((2 : ℚ) ^ (digits + 53) + 2 ^ digits) / 2 ^ (digits + 1) = 2 ^ 52 + 1 / 2 := by
    have unit : (0 : ℚ) < 2 ^ digits := pow_pos two_pos digits
    rw [pow_add, pow_succ, div_eq_iff (by positivity)]
    ring
  have floor : ⌊(2 : ℚ) ^ 52 + 1 / 2⌋ = 2 ^ 52 := Int.floor_eq_iff.mpr (by norm_num)
  have middle : halfEven (2 ^ 52 + 1 / 2) = 2 ^ 52 := by
    unfold halfEven
    rw [Int.fract, floor]
    norm_num
  unfold nearest
  rw [space, zpow_natCast, scaled, middle]
  have powers : (2 : ℚ) ^ (digits + 53) = 2 ^ 52 * 2 ^ (digits + 1) := by
    rw [← pow_add]
    congr 1
    omega
  rw [powers]
  norm_num

def lastUnit : ℚ := 2 ^ (971 : ℤ)

theorem lastUnit_pos : 0 < lastUnit := two_zpow_pos 971

theorem le_lastUnit : 2 ^ 55 ≤ lastUnit := by
  have grows : (2 : ℚ) ^ (55 : ℤ) ≤ lastUnit := zpow_le_zpow_right₀ one_le_two (by decide)
  simpa using grows

theorem mul_lastUnit : 2 ^ 53 * lastUnit = 2 ^ 1024 := by
  unfold lastUnit
  rw [← zpow_natCast 2 53, ← zpow_natCast 2 1024, ← zpow_add₀ two_ne_zero]
  rfl

theorem cast_greatestDigits : ((2 ^ 53 - 1 : ℤ) : ℚ) = 2 ^ 53 - 1 := by norm_num

def greatest : ℚ := (2 ^ 53 - 1) * lastUnit

theorem greatest_nonneg : 0 ≤ greatest := mul_nonneg (by norm_num) lastUnit_pos.le

theorem two_pow_le_greatest : 2 ^ 1023 ≤ greatest := by
  have half : (2 : ℚ) ^ 1023 = 2 ^ 52 * lastUnit := by
    unfold lastUnit
    rw [← zpow_natCast 2 1023, ← zpow_natCast 2 52, ← zpow_add₀ two_ne_zero]
    rfl
  rw [half, greatest]
  exact mul_le_mul_of_nonneg_right (by norm_num) lastUnit_pos.le

theorem stored_greatest : Stored greatest where
  representable := ⟨2 ^ 53 - 1, 971, by norm_num, by decide, by
    rw [cast_greatestDigits, greatest, lastUnit]⟩
  finite := by
    rw [abs_of_nonneg greatest_nonneg, ← mul_lastUnit]
    exact mul_lt_mul_of_pos_right (by norm_num) lastUnit_pos

theorem abs_le_greatest (known : value? x = some q) : |q| ≤ greatest := by
  have canonical : Canonical x.toModel.unpack := canonical_unpack x.toModel.toBits.toBitVec
  unfold value? at known
  generalize x.toModel.unpack = number at known canonical
  cases canonical with
  | infinity | notANumber => cases known
  | zero =>
    cases known
    rw [abs_zero]
    exact greatest_nonneg
  | @finite sign mantissa exponent positive kept bound =>
    cases known
    have digits : (mantissa : ℚ) ≤ 2 ^ 53 - 1 := by
      have short : mantissa + 1 ≤ 2 ^ 53 := kept.digits
      have cast : (mantissa : ℚ) + 1 ≤ 2 ^ 53 := by exact_mod_cast short
      linarith
    rw [signed_abs]
    calc (mantissa : ℚ) * 2 ^ exponent ≤ (2 ^ 53 - 1) * 2 ^ exponent :=
          mul_le_mul_of_nonneg_right digits (two_zpow_pos _).le
      _ ≤ (2 ^ 53 - 1) * 2 ^ (971 : ℤ) :=
          mul_le_mul_of_nonneg_left (zpow_le_zpow_right₀ one_le_two bound) (by norm_num)

theorem nearest_greatest_add : nearest (greatest + 2 ^ 53) = greatest := by
  have large := le_lastUnit
  have space : spacing (greatest + 2 ^ 53) = 971 := by
    have positive : 0 < greatest + 2 ^ 53 := by linarith only [greatest_nonneg]
    have lowPower : ((2 : ℕ) : ℚ) ^ (1023 : ℤ) = 2 ^ 52 * lastUnit := by
      unfold lastUnit
      rw [← zpow_natCast 2 52, Nat.cast_ofNat, ← zpow_add₀ two_ne_zero]
      rfl
    have highPower : ((2 : ℕ) : ℚ) ^ (1024 : ℤ) = 2 ^ 53 * lastUnit := by
      unfold lastUnit
      rw [← zpow_natCast 2 53, Nat.cast_ofNat, ← zpow_add₀ two_ne_zero]
      rfl
    have low := (Int.zpow_le_iff_le_log (by norm_num) positive).mp
      (lowPower.trans_le (by unfold greatest; linarith only [large]))
    have high := (Int.lt_zpow_iff_log_lt (by norm_num) positive).mp
      (lt_of_lt_of_eq (by unfold greatest; linarith only [large]) highPower.symm)
    unfold spacing
    rw [abs_of_pos positive]
    omega
  have cut : (greatest + 2 ^ 53) / lastUnit = ((2 ^ 53 - 1 : ℤ) : ℚ) + 2 ^ 53 / lastUnit := by
    rw [cast_greatestDigits, greatest, add_div, mul_div_cancel_right₀ _ lastUnit_pos.ne']
  have rest : 2 ^ 53 / lastUnit < 1 / 2 := by
    rw [div_lt_iff₀ lastUnit_pos]
    linarith only [large]
  have nonneg : 0 ≤ 2 ^ 53 / lastUnit := div_nonneg (by norm_num) lastUnit_pos.le
  have rounded := halfEven_add_of_lt (2 ^ 53 - 1) nonneg rest
  unfold nearest
  rw [space, ← lastUnit, cut, rounded, cast_greatestDigits, greatest]

theorem within_add_of_isFinite (small : Within 0 (2 ^ 53) x) (finite : y.isFinite = true) :
    Within (-greatest) greatest (x + y) := by
  obtain ⟨p, first, nonneg, bound⟩ := small
  obtain ⟨q, second⟩ := isFinite_iff.mp finite
  obtain ⟨low, high⟩ := abs_le.mp (abs_le_greatest second)
  refine within_of_inRange? (value?_add first second) stored_greatest.neg stored_greatest
    (le_nearest stored_greatest.neg.representable (by linarith)) ?_
  exact (nearest_mono (by linarith)).trans_eq nearest_greatest_add

/-! Integers as numbers -/

theorem abs_nearest_le_greatest (bound : |q| ≤ greatest) : |nearest q| ≤ greatest :=
  abs_nearest_le stored_greatest.representable bound

theorem value?_of_ofInt? {n : ℤ} (converted : ofInt? n = some x) : value? x = some (nearest n) := by
  unfold ofInt? at converted
  dsimp only at converted
  split at converted
  · next finite =>
    obtain ⟨q, known⟩ := isFinite_iff.mp finite
    have same := known
    rw [value?_ofInt, inRange?_eq_some] at same
    rw [← Option.some.inj converted, known, same.1]
  · cases converted

theorem exists_ofInt? {n : ℤ} (bound : |(n : ℚ)| ≤ greatest) : ∃ x, ofInt? n = some x := by
  have inside := abs_nearest_le_greatest bound
  have finite : (Float.ofInt n).isFinite = true := by
    refine isFinite_iff.mpr ⟨nearest n, ?_⟩
    rw [value?_ofInt]
    exact inRange?_eq_some.mpr ⟨rfl, inside.trans_lt
      (abs_of_nonneg greatest_nonneg ▸ stored_greatest.finite)⟩
  exact ⟨Float.ofInt n, if_pos finite⟩

theorem exists_ofInt?_of_natAbs {n : ℤ} {digits : ℕ} (fits : digits ≤ 1023)
    (small : n.natAbs ≤ 2 ^ digits) : ∃ x, ofInt? n = some x := by
  refine exists_ofInt? (le_trans ?_ ((pow_le_pow_right₀ one_le_two fits).trans two_pow_le_greatest))
  have cast := Nat.cast_le (α := ℚ) |>.mpr small
  rw [Nat.cast_pow, Nat.cast_ofNat] at cast
  rwa [← Int.cast_abs, Int.abs_eq_natAbs, Int.cast_natCast]

/-! Squares -/

variable {y : Float} {p : ℚ}

theorem exists_value?_of_abs_le_limit (small : x.abs ≤ 1e150) :
    ∃ q, value? x = some q ∧ |q| ≤ 2 ^ 500 := by
  have limit : (value? (1e150 : Float)).any (· ≤ 2 ^ 500) = true := by decide +kernel
  cases bound : value? (1e150 : Float) with
  | none =>
    rw [bound] at limit
    cases limit
  | some r =>
    rw [bound, Option.any_some, decide_eq_true_eq] at limit
    obtain ⟨q, known, le⟩ := exists_value?_of_abs_le bound small
    exact ⟨q, known, le.trans limit⟩

theorem two_pow_add_self (digits : ℕ) : (2 : ℚ) ^ digits + 2 ^ digits = 2 ^ (digits + 1) := by
  rw [pow_succ, mul_two]

section

variable {digits : ℕ} (fits : digits + 1 ≤ 1023) (first : value? x = some p)
  (second : value? y = some q) (firstSmall : |p| ≤ 2 ^ digits) (secondSmall : |q| ≤ 2 ^ digits)
include fits first second firstSmall secondSmall

theorem within_sub_two_pow : Within (-2 ^ (digits + 1)) (2 ^ (digits + 1)) (x - y) := by
  have stored := stored_two_pow fits
  obtain ⟨firstLow, firstHigh⟩ := abs_le.mp firstSmall
  obtain ⟨secondLow, secondHigh⟩ := abs_le.mp secondSmall
  have sum := two_pow_add_self digits
  exact within_sub stored.neg stored first second (by linarith) (by linarith)

theorem within_add_two_pow : Within (-2 ^ (digits + 1)) (2 ^ (digits + 1)) (x + y) := by
  have stored := stored_two_pow fits
  obtain ⟨firstLow, firstHigh⟩ := abs_le.mp firstSmall
  obtain ⟨secondLow, secondHigh⟩ := abs_le.mp secondSmall
  have sum := two_pow_add_self digits
  exact within_add stored.neg stored first second (by linarith) (by linarith)

end

theorem within_quarter {digits : ℕ} (fits : digits ≤ 1023) (known : value? x = some q)
    (small : |q| < 2 ^ (digits + 2)) : Within (-2 ^ digits) (2 ^ digits) (0.25 * x) := by
  have quarter : value? (0.25 : Float) = some (1 / 4) := by decide +kernel
  have stored := stored_two_pow fits
  obtain ⟨low, high⟩ := abs_lt.mp small
  have twice := two_pow_add_self digits
  have again := two_pow_add_self (digits + 1)
  exact within_mul stored.neg stored quarter known (by linarith) (by linarith)

theorem within_mul_self {digits : ℕ} (fits : digits + digits ≤ 1023) (known : value? x = some q)
    (small : |q| ≤ 2 ^ digits) : Within 0 (2 ^ (digits + digits)) (x * x) := by
  refine within_mul (stored_of_value? value?_zero) (stored_two_pow fits) known known
    (mul_self_nonneg q) ?_
  rw [← abs_mul_abs_self, pow_add]
  exact mul_le_mul small small (abs_nonneg q) (pow_pos two_pos digits).le

/-- A finite number that cannot be squared lies beyond the limit, however little it is reduced before. -/
theorem beyond_limit_of_square? {n : ℤ} (converted : ofInt? n = some y) (few : n.natAbs ≤ 2 ^ 52)
    (infinite : square? (x - y) = none) : x.isFinite = true ∧ 1e150 < x.abs := by
  unfold square? at infinite
  dsimp only at infinite
  split at infinite
  · next both =>
    obtain ⟨finite, square⟩ := Bool.and_eq_true_iff.mp both
    obtain ⟨d, difference⟩ := isFinite_iff.mp finite
    obtain ⟨⟨q, known⟩, r, other⟩ := exists_of_value?_sub difference
    refine ⟨isFinite_iff.mpr ⟨q, known⟩, ?_⟩
    by_contra small
    have limitSelf : (1e150 : Float) ≤ 1e150 := by decide +kernel
    have sizeSelf : x.abs ≤ x.abs := (le_iff_of_value? (value?_abs known) (value?_abs known)).mpr le_rfl
    obtain ⟨q', known', size⟩ :=
      exists_value?_of_abs_le_limit (Scalar.le_of_not_lt sizeSelf limitSelf small)
    obtain rfl := Option.some.inj (known.symm.trans known')
    have subtracted : |nearest n| ≤ 2 ^ 52 := by
      refine abs_nearest_le (stored_two_pow (by decide)).representable ?_
      have cast := Nat.cast_le (α := ℚ) |>.mpr few
      rwa [Nat.cast_pow, Nat.cast_ofNat, Nat.cast_natAbs, Int.cast_abs] at cast
    obtain ⟨e, reduced, low, high⟩ := within_sub_two_pow (by decide) known
      (value?_of_ofInt? converted) size (subtracted.trans (pow_le_pow_right₀ one_le_two (by decide)))
    have squared := within_mul_self (by decide) reduced (abs_le.mpr ⟨low, high⟩)
    rw [squared.isFinite] at square
    cases square
  · cases infinite

end Fleet.Number
