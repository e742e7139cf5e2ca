import Fleet.Number.Binary64
import Fleet.Proofs.Number.Nearest

/-! Rounding as binary64 arithmetic carries it out, digit by digit.

A mantissa that is cut off keeps two bits of what was cut: the first one, and whether any other was set.
They tell on which side of the middle the exact number lies, and so the result is the nearest number.
-/

set_option autoImplicit false

namespace Fleet.Number

open Float.Model (Format UnpackedFloat totalExponent)
open Float.Model.UnpackedFloat

/-! What is kept of the digits cut off -/

/-- The mantissa and the two bits tell where the number lies. -/
inductive Tells : ExtendedMantissa → ℚ → Prop
  | exact (mantissa : ℕ) : Tells ⟨mantissa, false, false⟩ mantissa
  | below {mantissa : ℕ} {q : ℚ} : (mantissa : ℚ) < q → q < mantissa + 1 / 2 →
      Tells ⟨mantissa, false, true⟩ q
  | middle (mantissa : ℕ) : Tells ⟨mantissa, true, false⟩ (mantissa + 1 / 2)
  | above {mantissa : ℕ} {q : ℚ} : (mantissa : ℚ) + 1 / 2 < q → q < mantissa + 1 →
      Tells ⟨mantissa, true, true⟩ q

namespace Tells

variable {extended : ExtendedMantissa} {q : ℚ}

theorem floor_eq (tells : Tells extended q) : ⌊q⌋ = (extended.mantissa : ℤ) := by
  cases tells with
  | exact mantissa => simp
  | below low high => exact Int.floor_eq_iff.mpr ⟨low.le, by push_cast; linarith⟩
  | middle mantissa => exact Int.floor_eq_iff.mpr ⟨by push_cast; linarith, by push_cast; linarith⟩
  | above low high => exact Int.floor_eq_iff.mpr ⟨by push_cast; linarith, by push_cast; linarith⟩

theorem roundedMantissa_eq (tells : Tells extended q) :
    (extended.roundedMantissa : ℤ) = halfEven q := by
  have floor := tells.floor_eq
  have fract := Int.self_sub_floor q
  rw [floor] at fract
  unfold halfEven
  rw [floor, ← fract]
  cases tells with
  | exact mantissa => simp [ExtendedMantissa.roundedMantissa, ExtendedMantissa.accuracy,
      Accuracy.roundToNearestEven]
  | @below mantissa q low high =>
    rw [if_pos (by push_cast; linarith)]
    rfl
  | middle mantissa =>
    rw [if_neg (by push_cast; linarith), if_neg (by push_cast; linarith)]
    simp [ExtendedMantissa.roundedMantissa, ExtendedMantissa.accuracy,
      Accuracy.roundToNearestEven]
  | @above mantissa q low high =>
    rw [if_neg (by push_cast; linarith), if_pos (by push_cast; linarith)]
    rfl

theorem shiftRightOne_even (half : ℕ) (round sticky : Bool) :
    (⟨2 * half, round, sticky⟩ : ExtendedMantissa).shiftRightOne = ⟨half, false, round || sticky⟩ := by
  simp [ExtendedMantissa.shiftRightOne]

theorem shiftRightOne_odd (half : ℕ) (round sticky : Bool) :
    (⟨2 * half + 1, round, sticky⟩ : ExtendedMantissa).shiftRightOne =
      ⟨half, true, round || sticky⟩ := by
  simp [ExtendedMantissa.shiftRightOne, Nat.add_mod, Nat.mul_add_div]

theorem shiftRightOne (tells : Tells extended q) : Tells extended.shiftRightOne (q / 2) := by
  obtain ⟨mantissa, round, sticky⟩ := extended
  obtain ⟨half, rfl | rfl⟩ : ∃ half, mantissa = 2 * half ∨ mantissa = 2 * half + 1 :=
    ⟨mantissa / 2, by omega⟩
  · rw [shiftRightOne_even]
    cases tells with
    | exact =>
      have whole : ((2 * half : ℕ) : ℚ) / 2 = (half : ℕ) := by push_cast; ring
      exact whole ▸ .exact half
    | below low high => 
      push_cast at low high
      exact .below (by linarith) (by linarith)
    | middle => exact .below (by push_cast; linarith) (by push_cast; linarith)
    | above low high =>
      push_cast at low high
      exact .below (by linarith) (by linarith)
  · rw [shiftRightOne_odd]
    cases tells with
    | exact =>
      have middle : ((2 * half + 1 : ℕ) : ℚ) / 2 = (half : ℕ) + 1 / 2 := by push_cast; ring
      exact middle ▸ .middle half
    | below low high =>
      push_cast at low high
      exact .above (by linarith) (by linarith)
    | middle => exact .above (by push_cast; linarith) (by push_cast; linarith)
    | above low high =>
      push_cast at low high
      exact .above (by linarith) (by linarith)

theorem shiftRight (tells : Tells extended q) (count : ℕ) :
    Tells (extended >>> count) (q / 2 ^ count) := by
  change Tells (count.repeat ExtendedMantissa.shiftRightOne extended) _
  induction count with
  | zero =>
    rw [pow_zero, div_one]
    exact tells
  | succ count ih =>
    rw [pow_succ, ← div_div]
    exact ih.shiftRightOne

theorem ofFraction (whole : ℕ) {part all : ℕ} (less : part < all) :
    Tells (.ofMantissaAndAccuracy whole (accuracyOfFraction part all)) (whole + part / all) := by
  have positive : (0 : ℚ) < all := by exact_mod_cast part.zero_le.trans_lt less
  unfold accuracyOfFraction
  split
  · next none =>
    have same : (whole : ℚ) + (part : ℚ) / all = whole := by simp [none]
    rw [same]
    exact .exact whole
  · next some =>
    have low : (0 : ℚ) < part / all := div_pos (by exact_mod_cast Nat.pos_of_ne_zero some) positive
    have high : (part : ℚ) / all < 1 := (div_lt_one positive).mpr (by exact_mod_cast less)
    rcases order : compare (2 * part) all with _ | _ | _
    · have half : (2 * part : ℚ) < all := by exact_mod_cast Nat.compare_eq_lt.mp order
      have half : (part : ℚ) / all < 1 / 2 := by rw [div_lt_iff₀ positive]; linarith
      exact .below (by linarith) (by linarith)
    · have half : (2 * part : ℚ) = all := by exact_mod_cast Nat.compare_eq_eq.mp order
      have half : (part : ℚ) / all = 1 / 2 := by rw [div_eq_iff positive.ne']; linarith
      exact half ▸ .middle whole
    · have half : (all : ℚ) < 2 * part := by exact_mod_cast Nat.compare_eq_gt.mp order
      have half : 1 / 2 < (part : ℚ) / all := by rw [lt_div_iff₀ positive]; linarith
      exact .above (by linarith) (by linarith)

end Tells

/-! Rounding -/

/-- Digits and exponent of a number in the form that binary64 keeps them, but for the greatest exponent.
-/
structure Kept (mantissa : ℕ) (exponent : ℤ) : Prop where
  digits : mantissa < 2 ^ 53
  least : -1074 ≤ exponent
  full : 2 ^ 52 ≤ mantissa ∨ exponent = -1074

/-- The rational number that a binary64 number is. -/
def unpackedValue? : UnpackedFloat → Option ℚ
  | .zero _ => some 0
  | .finite sign mantissa exponent _ => some (signed sign mantissa * 2 ^ exponent)
  | .infinity _ | .notANumber => none

/-- The number is the given one, with digits and exponent in the form that binary64 keeps them. -/
inductive Holds : UnpackedFloat → ℚ → Prop
  | zero (sign : Sign) : Holds (.zero sign) 0
  | finite {sign : Sign} {mantissa : ℕ} {exponent : ℤ} (positive : 0 < mantissa) :
      Kept mantissa exponent →
      Holds (.finite sign mantissa exponent positive) (signed sign mantissa * 2 ^ exponent)

theorem log_lt_of_lt_one {q : ℚ} (positive : 0 < q) (small : q < 1) (exponent : ℤ) :
    Int.log 2 |q * 2 ^ exponent| < exponent := by
  have size : 0 < q * 2 ^ exponent := mul_pos positive (two_zpow_pos exponent)
  have less : q * 2 ^ exponent < 2 ^ exponent := by
    simpa using mul_lt_mul_of_pos_right small (two_zpow_pos exponent)
  rw [abs_of_pos size]
  exact (Int.lt_zpow_iff_log_lt (b := 2) (by norm_num) size).mp (by exact_mod_cast less)

theorem targetExponent_binary64 (mantissa : ℕ) (exponent : ℤ) :
    Format.binary64.targetExponent (totalExponent mantissa exponent) =
      max ((mantissa.log2 : ℤ) + 1 + exponent - 53) (-1074) := rfl

theorem targetExponent_eq {mantissa : ℕ} {exponent : ℤ} {q : ℚ} (positive : 0 < q)
    (floor : ⌊q⌋ = (mantissa : ℤ)) (visible : mantissa ≠ 0 ∨ exponent ≤ -1074) :
    Format.binary64.targetExponent (totalExponent mantissa exponent) =
      spacing (q * 2 ^ exponent) := by
  have bounds := Int.floor_eq_iff.mp floor
  push_cast at bounds
  have size : 0 < q * 2 ^ exponent := mul_pos positive (two_zpow_pos exponent)
  rw [targetExponent_binary64]
  unfold spacing
  by_cases zero : mantissa = 0
  · subst zero
    have log := log_lt_of_lt_one positive (by simpa using bounds.2) exponent
    have none : Nat.log2 0 = 0 := rfl
    omega
  · rw [abs_of_pos size]
    have low : (2 : ℚ) ^ ((mantissa.log2 : ℤ) + exponent) ≤ q * 2 ^ exponent := by
      rw [zpow_add₀ two_ne_zero]
      have digits : ((2 ^ mantissa.log2 : ℕ) : ℚ) ≤ mantissa := by
        exact_mod_cast Nat.log2_self_le zero
      push_cast at digits
      exact mul_le_mul_of_nonneg_right (by exact_mod_cast digits.trans bounds.1)
        (two_zpow_pos exponent).le
    have high : q * 2 ^ exponent < (2 : ℚ) ^ ((mantissa.log2 : ℤ) + 1 + exponent) := by
      rw [zpow_add₀ two_ne_zero]
      have digits : ((mantissa + 1 : ℕ) : ℚ) ≤ (2 ^ (mantissa.log2 + 1) : ℕ) := by
        exact_mod_cast Nat.lt_log2_self
      push_cast at digits
      exact mul_lt_mul_of_pos_right (by exact_mod_cast bounds.2.trans_le digits)
        (two_zpow_pos exponent)
    have lowLog := (Int.zpow_le_iff_le_log (b := 2) (by norm_num) size).mp (by exact_mod_cast low)
    have highLog := (Int.lt_zpow_iff_log_lt (b := 2) (by norm_num) size).mp (by exact_mod_cast high)
    omega

def unit : Sign → ℚ
  | .positive => 1
  | .negative => -1

theorem signed_eq (sign : Sign) (mantissa : ℕ) :
    ((signed sign mantissa : ℤ) : ℚ) = unit sign * mantissa := by
  cases sign <;> simp [signed, unit]

theorem nearest_unit_mul (sign : Sign) (q : ℚ) : nearest (unit sign * q) = unit sign * nearest q := by
  cases sign <;> simp [unit]

theorem shiftToTargetExponent_of_lt {mantissa : ℕ} {exponent : ℤ} (fewer : mantissa < 2 ^ 53)
    (least : -1074 ≤ exponent) : shiftToTargetExponent .binary64 mantissa exponent .exact =
      (⟨mantissa, false, false⟩, exponent) := by
  have log : mantissa.log2 ≤ 52 := by
    rcases eq_or_ne mantissa 0 with rfl | nonzero
    · exact Nat.zero_le _
    · exact Nat.lt_succ_iff.mp ((Nat.log2_lt nonzero).mpr fewer)
  have stay : (Format.binary64.targetExponent (totalExponent mantissa exponent) -
      exponent).toNat = 0 := by
    rw [targetExponent_binary64]
    omega
  simp only [shiftToTargetExponent, shiftToExponent, stay]
  simp
  rfl

theorem shiftToTargetExponent_two_pow {exponent : ℤ} (least : -1074 ≤ exponent) :
    shiftToTargetExponent .binary64 (2 ^ 53) exponent .exact =
      (⟨2 ^ 52, false, false⟩, exponent + 1) := by
  have one : (Format.binary64.targetExponent (totalExponent (2 ^ 53) exponent) -
      exponent).toNat = 1 := by
    rw [targetExponent_binary64, Nat.log2_two_pow]
    omega
  simp only [shiftToTargetExponent, shiftToExponent, one]
  rfl

theorem holds_rounded (sign : Sign) {mantissa : ℕ} {exponent : ℤ} (digits : mantissa ≤ 2 ^ 53)
    (least : -1074 ≤ exponent) (full : 2 ^ 52 ≤ mantissa ∨ exponent = -1074) :
    Holds
      (let cut := shiftToTargetExponent .binary64 mantissa exponent .exact
      if none : cut.1.mantissa = 0 then .zero sign
      else .finite sign cut.1.mantissa cut.2 (Nat.pos_of_ne_zero none))
      (unit sign * (mantissa * 2 ^ exponent)) := by
  rcases digits.lt_or_eq with fewer | rfl
  · rw [shiftToTargetExponent_of_lt fewer least]
    dsimp only
    by_cases none : mantissa = 0
    · subst none
      rw [dif_pos rfl]
      simpa using Holds.zero sign
    · rw [dif_neg none]
      have holds : Holds (.finite sign _ _ (Nat.pos_of_ne_zero none)) _ :=
        .finite _ ⟨fewer, least, full⟩
      rwa [signed_eq, mul_assoc] at holds
  · rw [shiftToTargetExponent_two_pow least]
    dsimp only
    rw [dif_neg (by norm_num)]
    have holds : Holds (.finite sign (2 ^ 52) (exponent + 1) (by norm_num)) _ :=
      .finite _ ⟨by norm_num, by omega, .inl le_rfl⟩
    have same : ((signed sign (2 ^ 52) : ℤ) : ℚ) * 2 ^ (exponent + 1) =
        unit sign * (((2 ^ 53 : ℕ) : ℚ) * 2 ^ exponent) := by
      rw [signed_eq, zpow_add_one₀ two_ne_zero]
      push_cast
      ring
    exact same ▸ holds

theorem scaled_lt {q : ℚ} (positive : 0 < q) : q / 2 ^ spacing q < 2 ^ 53 := by
  rw [div_lt_iff₀ (two_zpow_pos _)]
  have digits : Int.log 2 |q| + 1 ≤ 53 + spacing q := by
    unfold spacing
    omega
  calc q = |q| := (abs_of_pos positive).symm
    _ < 2 ^ (Int.log 2 |q| + 1) := Int.lt_zpow_succ_log_self (by norm_num) _
    _ ≤ 2 ^ (53 + spacing q) := zpow_le_zpow_right₀ one_le_two digits
    _ = 2 ^ 53 * 2 ^ spacing q := by rw [zpow_add₀ two_ne_zero]; rfl

theorem le_scaled {q : ℚ} (positive : 0 < q) (coarse : spacing q ≠ -1074) :
    2 ^ 52 ≤ q / 2 ^ spacing q := by
  rw [le_div_iff₀ (two_zpow_pos _)]
  have digits : Int.log 2 |q| = 52 + spacing q := by
    unfold spacing at coarse ⊢
    omega
  calc (2 : ℚ) ^ 52 * 2 ^ spacing q = 2 ^ (52 + spacing q) := by rw [zpow_add₀ two_ne_zero]; rfl
    _ = 2 ^ Int.log 2 |q| := by rw [digits]
    _ ≤ |q| := Int.zpow_log_le_self (by norm_num) (abs_pos.mpr positive.ne')
    _ = q := abs_of_pos positive

theorem halfEven_scaled_le {q : ℚ} (positive : 0 < q) : halfEven (q / 2 ^ spacing q) ≤ 2 ^ 53 :=
  halfEven_le (by exact_mod_cast (scaled_lt positive).le)

theorem le_halfEven_scaled {q : ℚ} (positive : 0 < q) :
    2 ^ 52 ≤ halfEven (q / 2 ^ spacing q) ∨ spacing q = -1074 :=
  or_iff_not_imp_right.mpr fun coarse =>
    le_halfEven (by exact_mod_cast le_scaled positive coarse)

theorem ne_zero_or_le_of_fine {mantissa : ℕ} {exponent : ℤ} {q : ℚ} (positive : 0 < q)
    (floor : ⌊q⌋ = (mantissa : ℤ)) (fine : exponent ≤ spacing (q * 2 ^ exponent)) :
    mantissa ≠ 0 ∨ exponent ≤ -1074 := by
  by_contra unseen
  push Not at unseen
  obtain ⟨rfl, large⟩ := unseen
  have small : q < 1 := by simpa using (Int.floor_eq_iff.mp floor).2
  have log := log_lt_of_lt_one positive small exponent
  unfold spacing at fine
  omega

theorem holds_roundWithAccuracy (sign : Sign) {mantissa : ℕ} {exponent : ℤ} {accuracy : Accuracy}
    {q : ℚ} (tells : Tells (.ofMantissaAndAccuracy mantissa accuracy) q) (positive : 0 < q)
    (fine : exponent ≤ spacing (q * 2 ^ exponent)) :
    Holds (roundWithAccuracy .binary64 sign mantissa exponent accuracy)
      (nearest (unit sign * (q * 2 ^ exponent))) := by
  have floor : ⌊q⌋ = (mantissa : ℤ) := by
    have floor := tells.floor_eq
    rcases accuracy with _ | _ | _ | _ <;> exact floor
  have size : 0 < q * 2 ^ exponent := mul_pos positive (two_zpow_pos exponent)
  have aim := targetExponent_eq positive floor (ne_zero_or_le_of_fine positive floor fine)
  generalize exact : q * 2 ^ exponent = x at fine size aim ⊢
  -- the digits are cut off at the spacing, and what is told of the rest decides how to round
  have shifted : q / 2 ^ (spacing x - exponent).toNat = x / 2 ^ spacing x := by
    rw [two_zpow_eq_multiple fine, ← exact, mul_div_mul_right _ _ (two_zpow_pos exponent).ne', exact]
    push_cast
    rfl
  have rounded := (shifted ▸ tells.shiftRight (spacing x - exponent).toNat).roundedMantissa_eq
  have first : shiftToTargetExponent .binary64 mantissa exponent accuracy =
      (ExtendedMantissa.ofMantissaAndAccuracy mantissa accuracy >>> (spacing x - exponent).toNat,
        spacing x) := by
    have back : exponent + ((spacing x - exponent).toNat : ℤ) = spacing x := by omega
    rw [shiftToTargetExponent, aim, shiftToExponent, back]
  generalize ExtendedMantissa.ofMantissaAndAccuracy mantissa accuracy >>>
    (spacing x - exponent).toNat = cut at rounded first
  have few : cut.roundedMantissa ≤ 2 ^ 53 := by
    exact_mod_cast rounded ▸ halfEven_scaled_le size
  have full : 2 ^ 52 ≤ cut.roundedMantissa ∨ spacing x = -1074 :=
    (le_halfEven_scaled size).imp_left fun full => by exact_mod_cast rounded ▸ full
  have least : -1074 ≤ spacing x := le_max_right _ _
  have holds := holds_rounded sign few least full
  have value : unit sign * ((cut.roundedMantissa : ℚ) * 2 ^ spacing x) =
      nearest (unit sign * x) := by
    have cast : (cut.roundedMantissa : ℚ) = halfEven (x / 2 ^ spacing x) := by
      exact_mod_cast rounded
    rw [cast, nearest_unit_mul]
    rfl
  rw [value] at holds
  unfold roundWithAccuracy
  rw [first]
  exact holds

theorem holds_roundWithAccuracy_exact (sign : Sign) {mantissa : ℕ} {exponent : ℤ}
    (positive : 0 < mantissa) (fine : exponent ≤ spacing (mantissa * 2 ^ exponent)) :
    Holds (roundWithAccuracy .binary64 sign mantissa exponent .exact)
      (nearest (unit sign * (mantissa * 2 ^ exponent))) :=
  holds_roundWithAccuracy sign (.exact mantissa) (by exact_mod_cast positive) fine

end Fleet.Number
