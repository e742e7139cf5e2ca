import Fleet.Proofs.Number.Packing

/-! Arithmetic on the digits and exponents of finite numbers.

Every operation aligns its operands or keeps enough digits, so that the number it ends with is the one
nearest to the exact result.
-/

set_option autoImplicit false

namespace Fleet.Number

open Float.Model (Format UnpackedFloat totalExponent)
open Float.Model.UnpackedFloat

def inRange? (q : ℚ) : Option ℚ := if |q| < 2 ^ 1024 then some q else none

theorem signed_abs (sign : Sign) (mantissa : ℕ) (exponent : ℤ) :
    |((signed sign mantissa : ℤ) : ℚ) * 2 ^ exponent| = mantissa * 2 ^ exponent := by
  rw [abs_mul, abs_of_pos (two_zpow_pos exponent)]
  cases sign <;> simp [signed]

namespace Holds

variable {x y : UnpackedFloat} {p q : ℚ}

theorem of_unpack {bits : BitVec 64} (known : unpackedValue? (unpack .binary64 bits) = some q) :
    Holds (unpack .binary64 bits) q := by
  have canonical := canonical_unpack bits
  generalize unpack .binary64 bits = number at known canonical ⊢
  cases canonical with
  | infinity | notANumber => cases known
  | zero sign =>
    cases known
    exact .zero sign
  | finite positive kept bound =>
    cases known
    exact .finite positive kept

theorem representable (holds : Holds x q) : Representable q := by
  cases holds with
  | zero => exact ⟨0, 0, by simp, by decide, by simp⟩
  | @finite sign mantissa exponent positive kept =>
    refine ⟨signed sign mantissa, exponent, ?_, kept.least, rfl⟩
    have digits := kept.digits
    cases sign <;> simp only [signed, abs_neg, Nat.abs_cast] <;> exact_mod_cast digits

theorem stored (holds : Holds x q) :
    unpackedValue? (Float.Model.pack x).unpack = inRange? q := by
  change unpackedValue? (unpack .binary64 (pack .binary64 x)) = inRange? q
  cases holds with
  | zero sign =>
    rw [unpack_pack (.zero sign)]
    change some 0 = inRange? 0
    simp [inRange?]
  | @finite sign mantissa exponent positive kept =>
    unfold inRange?
    rw [signed_abs]
    by_cases bound : exponent ≤ 971
    · have less : (mantissa : ℚ) * 2 ^ exponent < 2 ^ 1024 :=
        calc (mantissa : ℚ) * 2 ^ exponent < 2 ^ 53 * 2 ^ exponent :=
              mul_lt_mul_of_pos_right (by exact_mod_cast kept.digits) (two_zpow_pos exponent)
          _ ≤ 2 ^ 53 * 2 ^ (971 : ℤ) :=
              mul_le_mul_of_nonneg_left (zpow_le_zpow_right₀ one_le_two bound) (by positivity)
          _ = 2 ^ 1024 := by
              rw [← zpow_natCast 2 53, ← zpow_natCast 2 1024, ← zpow_add₀ two_ne_zero]
              rfl
      rw [unpack_pack (.finite positive kept bound), if_pos less]
      rfl
    · have full : 2 ^ 52 ≤ mantissa := kept.full.resolve_right (by omega)
      have more : (2 : ℚ) ^ 1024 ≤ mantissa * 2 ^ exponent :=
        calc (2 : ℚ) ^ 1024 = (2 : ℚ) ^ 52 * 2 ^ (972 : ℤ) := by
              rw [← zpow_natCast 2 52, ← zpow_natCast 2 1024, ← zpow_add₀ two_ne_zero]
              rfl
          _ ≤ (mantissa : ℚ) * 2 ^ (972 : ℤ) :=
              mul_le_mul_of_nonneg_right (by exact_mod_cast full) (two_zpow_pos _).le
          _ ≤ mantissa * 2 ^ exponent :=
              mul_le_mul_of_nonneg_left (zpow_le_zpow_right₀ one_le_two (by omega)) (by positivity)
      rw [unpack_pack_of_large sign positive (by omega), if_neg more.not_gt]
      rfl

theorem exists_infinity (holds : Holds x q)
    (lost : unpackedValue? (Float.Model.pack x).unpack = none) :
    ∃ sign, (Float.Model.pack x).unpack = .infinity sign := by
  change unpackedValue? (unpack .binary64 (pack .binary64 x)) = none at lost
  cases holds with
  | zero sign =>
    rw [unpack_pack (.zero sign)] at lost
    cases lost
  | @finite sign mantissa exponent positive kept =>
    by_cases bound : exponent ≤ 971
    · rw [unpack_pack (.finite positive kept bound)] at lost
      cases lost
    · exact ⟨sign, unpack_pack_of_large sign positive (by omega)⟩

end Holds

/-! Rounding to the format -/

theorem decreaseExponent_value (mantissa : ℕ) (exponent target : ℤ) :
    (((mantissa <<< (exponent - target).toNat : ℕ) : ℚ)) *
      2 ^ (exponent - (exponent - target).toNat : ℤ) = mantissa * 2 ^ exponent := by
  rw [Nat.shiftLeft_eq, zpow_sub₀ two_ne_zero, zpow_natCast]
  push_cast
  field_simp

theorem holds_round (sign : Sign) {mantissa : ℕ} (exponent : ℤ) (positive : 0 < mantissa) :
    Holds (UnpackedFloat.round .binary64 sign mantissa exponent)
      (nearest (unit sign * (mantissa * 2 ^ exponent))) := by
  have aim : Format.binary64.targetExponent (totalExponent mantissa exponent) =
      spacing (mantissa * 2 ^ exponent) :=
    targetExponent_eq (by exact_mod_cast positive) (by simp) (.inl positive.ne')
  unfold UnpackedFloat.round
  rw [aim]
  have kept := decreaseExponent_value mantissa exponent (spacing (mantissa * 2 ^ exponent))
  have shifted : 0 < mantissa <<< (exponent - spacing (mantissa * 2 ^ exponent)).toNat := by
    rw [Nat.shiftLeft_eq]
    exact Nat.mul_pos positive (Nat.two_pow_pos _)
  have holds := holds_roundWithAccuracy_exact sign shifted (by rw [kept]; omega :
    exponent - (exponent - spacing (mantissa * 2 ^ exponent)).toNat ≤ _)
  rw [kept] at holds
  exact holds

theorem holds_normalize (mantissa exponent : ℤ) (zeroSign : Sign) :
    Holds (UnpackedFloat.normalize .binary64 mantissa exponent zeroSign)
      (nearest (mantissa * 2 ^ exponent)) := by
  unfold UnpackedFloat.normalize
  rcases order : compare mantissa 0 with _ | _ | _
  · have negative := Int.compare_eq_lt.mp order
    have holds := holds_round .negative exponent (by omega : 0 < (-mantissa).toNat)
    have cast : (((-mantissa).toNat : ℤ) : ℚ) = -mantissa := by
      rw [Int.toNat_of_nonneg (by omega)]
      push_cast
      rfl
    have same : unit .negative * (((-mantissa).toNat : ℚ) * 2 ^ exponent) = mantissa * 2 ^ exponent := by
      rw [← Int.cast_natCast, cast, unit]
      ring
    exact same ▸ holds
  · obtain rfl := Int.compare_eq_eq.mp order
    simpa using Holds.zero zeroSign
  · have positive := Int.compare_eq_gt.mp order
    have holds := holds_round .positive exponent (by omega : 0 < mantissa.toNat)
    have cast : ((mantissa.toNat : ℤ) : ℚ) = mantissa := by
      rw [Int.toNat_of_nonneg (by omega)]
    have same : unit .positive * ((mantissa.toNat : ℚ) * 2 ^ exponent) = mantissa * 2 ^ exponent := by
      rw [← Int.cast_natCast, cast, unit, one_mul]
    exact same ▸ holds

/-! The operations -/

theorem aligned (sign : Sign) (mantissa : ℕ) {exponent common : ℤ} (le : common ≤ exponent) :
    ((sign.apply ((mantissa <<< (exponent - common).toNat : ℕ) : ℤ) : ℤ) : ℚ) * 2 ^ common =
      signed sign mantissa * 2 ^ exponent := by
  have kept := decreaseExponent_value mantissa exponent common
  have back : exponent - ((exponent - common).toNat : ℤ) = common := by omega
  rw [back] at kept
  rw [signed_eq, mul_assoc, ← kept]
  cases sign <;> simp only [Sign.apply, unit, Int.cast_neg, Int.cast_natCast, neg_mul, one_mul]

theorem unit_mul (first second : Sign) : unit (first * second) = unit first * unit second := by
  cases first <;> cases second <;> decide +kernel

theorem unit_div (first second : Sign) : unit (first / second) = unit first / unit second := by
  cases first <;> cases second <;> decide +kernel

namespace Holds

variable {x y : UnpackedFloat} {p q : ℚ}

theorem add (first : Holds x p) (second : Holds y q) :
    Holds (UnpackedFloat.add .binary64 x y) (nearest (p + q)) := by
  have firstKept := first.representable.nearest_eq
  have secondKept := second.representable.nearest_eq
  cases first with
  | zero sign =>
    cases second with
    | zero other =>
      rw [add_zero, nearest_zero]
      cases sign <;> cases other <;> exact .zero _
    | finite positive kept =>
      rw [zero_add, secondKept]
      exact .finite positive kept
  | @finite sign mantissa exponent positive kept =>
    cases second with
    | zero other =>
      rw [add_zero, firstKept]
      exact .finite positive kept
    | @finite other otherMantissa otherExponent _ _ =>
      have holds := holds_normalize
        (sign.apply ((mantissa <<< (exponent - min exponent otherExponent).toNat : ℕ) : ℤ) +
          other.apply ((otherMantissa <<< (otherExponent - min exponent otherExponent).toNat : ℕ) : ℤ))
        (min exponent otherExponent) .positive
      push_cast at holds
      rw [add_mul] at holds
      exact aligned sign mantissa (min_le_left _ _) ▸ aligned other otherMantissa (min_le_right _ _) ▸
        holds

theorem neg (holds : Holds x q) : Holds x.neg (-q) := by
  cases holds with
  | zero sign =>
    rw [neg_zero]
    exact .zero (-sign)
  | @finite sign mantissa exponent positive kept =>
    have flipped : ((signed (-sign) mantissa : ℤ) : ℚ) = -(signed sign mantissa : ℤ) := by
      cases sign
      · exact (neg_neg ((mantissa : ℤ) : ℚ)).symm.trans (by push_cast; rfl)
      · exact Int.cast_neg _
    rw [← neg_mul, ← flipped]
    exact .finite positive kept

theorem abs (holds : Holds x q) : Holds x.abs |q| := by
  cases holds with
  | zero sign =>
    rw [abs_zero]
    exact .zero .positive
  | @finite sign mantissa exponent positive kept =>
    rw [signed_abs]
    exact (.finite positive kept : Holds (.finite .positive mantissa exponent positive) _)

theorem sub_eq_add_opposite (first : Holds x p) (second : Holds y q) :
    UnpackedFloat.sub .binary64 x y = UnpackedFloat.add .binary64 x y.neg := by
  cases first with
  | zero sign => cases second <;> rfl
  | @finite sign mantissa exponent positive kept =>
    cases second with
    | zero other => rfl
    | @finite other otherMantissa otherExponent _ _ =>
      have flipped (magnitude : ℤ) : (-other).apply magnitude = -other.apply magnitude := by
        cases other
        · exact (neg_neg magnitude).symm
        · rfl
      exact congrArg (UnpackedFloat.normalize .binary64 · (min exponent otherExponent) .positive)
        (Int.sub_eq_add_neg.trans (congrArg _ (flipped _).symm))

theorem sub (first : Holds x p) (second : Holds y q) :
    Holds (UnpackedFloat.sub .binary64 x y) (nearest (p - q)) := by
  rw [first.sub_eq_add_opposite second, sub_eq_add_neg]
  exact first.add second.neg

theorem le_spacing {mantissa : ℕ} (exponent : ℤ) (full : 2 ^ 52 ≤ mantissa) :
    exponent ≤ spacing (mantissa * 2 ^ exponent) := by
  have size : (0 : ℚ) < mantissa * 2 ^ exponent :=
    mul_pos (by exact_mod_cast (Nat.two_pow_pos 52).trans_le full) (two_zpow_pos exponent)
  have low : (2 : ℚ) ^ (52 + exponent) ≤ mantissa * 2 ^ exponent := by
    rw [zpow_add₀ two_ne_zero]
    exact mul_le_mul_of_nonneg_right (by exact_mod_cast full) (two_zpow_pos exponent).le
  have log := (Int.zpow_le_iff_le_log (b := 2) (by norm_num) size).mp (by exact_mod_cast low)
  unfold spacing
  rw [abs_of_pos size]
  omega

theorem mul (first : Holds x p) (second : Holds y q) :
    Holds (UnpackedFloat.mul .binary64 x y) (nearest (p * q)) := by
  cases first with
  | zero sign =>
    rw [zero_mul, nearest_zero]
    cases second <;> exact .zero _
  | @finite sign mantissa exponent positive kept =>
    cases second with
    | zero other =>
      rw [mul_zero, nearest_zero]
      exact .zero _
    | @finite other otherMantissa otherExponent otherPositive otherKept =>
      -- unless both numbers are as small as they get, the product has digits enough
      have fine : exponent + otherExponent ≤
          spacing ((mantissa * otherMantissa : ℕ) * 2 ^ (exponent + otherExponent)) := by
        by_cases full : 2 ^ 52 ≤ mantissa * otherMantissa
        · exact le_spacing _ full
        · have small : exponent = -1074 := kept.full.resolve_left fun large =>
            full (large.trans (Nat.le_mul_of_pos_right _ otherPositive))
          have otherSmall : otherExponent = -1074 := otherKept.full.resolve_left fun large =>
            full (large.trans (Nat.le_mul_of_pos_left _ positive))
          unfold spacing
          omega
      have holds := holds_roundWithAccuracy_exact (sign * other)
        (Nat.mul_pos positive otherPositive) fine
      have exact : unit (sign * other) *
          (((mantissa * otherMantissa : ℕ) : ℚ) * 2 ^ (exponent + otherExponent)) =
            signed sign mantissa * 2 ^ exponent * (signed other otherMantissa * 2 ^ otherExponent) := by
        rw [unit_mul, signed_eq, signed_eq, zpow_add₀ two_ne_zero]
        push_cast
        ring
      exact exact ▸ holds

/-- The position of the first digit tells the size of a quotient up to a factor of two. -/
theorem targetExponent_le_spacing_div {mantissa other : ℕ} (exponent otherExponent : ℤ)
    (positive : 0 < mantissa) (otherPositive : 0 < other) :
    Format.binary64.targetExponent
        (totalExponent mantissa exponent - totalExponent other otherExponent) ≤
      spacing (mantissa * 2 ^ exponent / (other * 2 ^ otherExponent)) := by
  have divisor : (0 : ℚ) < other * 2 ^ otherExponent :=
    mul_pos (by exact_mod_cast otherPositive) (two_zpow_pos _)
  have size : (0 : ℚ) < mantissa * 2 ^ exponent / (other * 2 ^ otherExponent) :=
    div_pos (mul_pos (by exact_mod_cast positive) (two_zpow_pos _)) divisor
  have low : (2 : ℚ) ^ (mantissa.log2 + exponent : ℤ) ≤ mantissa * 2 ^ exponent := by
    rw [zpow_add₀ two_ne_zero, zpow_natCast]
    exact mul_le_mul_of_nonneg_right (by exact_mod_cast Nat.log2_self_le positive.ne')
      (two_zpow_pos _).le
  have high : (other : ℚ) * 2 ^ otherExponent ≤ 2 ^ (other.log2 + 1 + otherExponent : ℤ) := by
    rw [zpow_add₀ two_ne_zero]
    exact mul_le_mul_of_nonneg_right (by exact_mod_cast Nat.lt_log2_self.le) (two_zpow_pos _).le
  have bound : (2 : ℚ) ^ (mantissa.log2 + exponent - (other.log2 + 1 + otherExponent) : ℤ) ≤
      mantissa * 2 ^ exponent / (other * 2 ^ otherExponent) := by
    rw [le_div_iff₀ divisor]
    calc _ ≤ (2 : ℚ) ^ (mantissa.log2 + exponent - (other.log2 + 1 + otherExponent) : ℤ) *
          2 ^ (other.log2 + 1 + otherExponent : ℤ) :=
            mul_le_mul_of_nonneg_left high (two_zpow_pos _).le
      _ = 2 ^ (mantissa.log2 + exponent : ℤ) := by
            rw [← zpow_add₀ two_ne_zero, sub_add_cancel]
      _ ≤ mantissa * 2 ^ exponent := low
  have log := (Int.zpow_le_iff_le_log (b := 2) (by norm_num) size).mp (by exact_mod_cast bound)
  change max ((mantissa.log2 + 1 + exponent - (other.log2 + 1 + otherExponent) : ℤ) - 53) (-1074) ≤
    max (Int.log 2 |(_ : ℚ)| - 52) (-1074)
  rw [abs_of_pos size]
  omega

theorem shiftLeft_div_add_mod (mantissa shift : ℕ) {divisor : ℕ} (positive : 0 < divisor) :
    ((mantissa <<< shift / divisor : ℕ) : ℚ) + ((mantissa <<< shift % divisor : ℕ) : ℚ) / divisor =
      mantissa * 2 ^ shift / divisor := by
  have nonzero : (divisor : ℚ) ≠ 0 := by exact_mod_cast positive.ne'
  have split := Nat.div_add_mod (mantissa <<< shift) divisor
  have shifted : ((mantissa <<< shift : ℕ) : ℚ) = mantissa * 2 ^ shift := by
    rw [Nat.shiftLeft_eq]
    push_cast
    rfl
  rw [eq_div_iff nonzero, add_mul, div_mul_cancel₀ _ nonzero, mul_comm, ← shifted]
  exact_mod_cast split

theorem div_mul_zpow (mantissa divisor : ℚ) {shift : ℕ} {exponent divisorExponent target : ℤ}
    (back : exponent - divisorExponent = shift + target) :
    mantissa * 2 ^ shift / divisor * 2 ^ target =
      mantissa * 2 ^ exponent / (divisor * 2 ^ divisorExponent) := by
  have exponents : (2 : ℚ) ^ exponent = 2 ^ shift * 2 ^ target * 2 ^ divisorExponent := by
    rw [← zpow_natCast, ← zpow_add₀ two_ne_zero, ← zpow_add₀ two_ne_zero]
    congr 1
    omega
  rw [exponents]
  field_simp

theorem div (first : Holds x p) (second : Holds y q) (nonzero : q ≠ 0) :
    Holds (UnpackedFloat.div .binary64 x y) (nearest (p / q)) := by
  cases second with
  | zero => exact absurd rfl nonzero
  | @finite other otherMantissa otherExponent otherPositive otherKept =>
  cases first with
  | zero sign =>
    rw [zero_div, nearest_zero]
    exact .zero _
  | @finite sign mantissa exponent positive kept =>
  have divisor : (0 : ℚ) < otherMantissa := by exact_mod_cast otherPositive
  have dividend : (0 : ℚ) < mantissa := by exact_mod_cast positive
  generalize aim : min (exponent - otherExponent) (Format.binary64.targetExponent
    (totalExponent mantissa exponent - totalExponent otherMantissa otherExponent)) = target
  generalize count : (exponent - otherExponent - target).toNat = shift
  have back : exponent - otherExponent = shift + target := by omega
  have value := div_mul_zpow (mantissa : ℚ) (otherMantissa : ℚ) back
  have fine : target ≤ spacing (mantissa * 2 ^ shift / otherMantissa * 2 ^ target) := by
    rw [value, ← aim]
    exact (min_le_right _ _).trans
      (targetExponent_le_spacing_div exponent otherExponent positive otherPositive)
  -- the digits of the quotient and the remainder tell the quotient
  have holds := holds_roundWithAccuracy (sign / other)
    (shiftLeft_div_add_mod mantissa shift otherPositive ▸
      Tells.ofFraction (mantissa <<< shift / otherMantissa)
        (Nat.mod_lt (mantissa <<< shift) otherPositive)) (by positivity) fine
  have exact : unit (sign / other) * (mantissa * 2 ^ shift / otherMantissa * 2 ^ target) =
      signed sign mantissa * 2 ^ exponent / (signed other otherMantissa * 2 ^ otherExponent) := by
    rw [value, unit_div, signed_eq, signed_eq]
    field_simp
  rw [exact] at holds
  subst count
  subst aim
  exact holds

end Holds

end Fleet.Number
