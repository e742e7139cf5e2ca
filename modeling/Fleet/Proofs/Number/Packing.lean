import Fleet.Proofs.Number.Rounding

/-! Binary64 numbers as sign, digits and exponent, and as the 64 bits that hold these.

Digits and exponent that fit come back from the bits as they were, and a number whose exponent is too
great comes back as infinite. So a number held by an intermediate result is the number stored, unless
it lies beyond the finite range.
-/

set_option autoImplicit false

namespace Fleet.Number

open Float.Model (Format UnpackedFloat)
open Float.Model.UnpackedFloat

theorem toNat_leading (digits : BitVec 52) : (1#1 ++ digits).toNat = 2 ^ 52 + digits.toNat := by
  rw [BitVec.toNat_append, ← Nat.shiftLeft_add_eq_or_of_lt digits.isLt]
  rfl

def decoded (sign : Sign) (exponent : BitVec 11) (digits : BitVec 52) : UnpackedFloat :=
  if exponent = -1#_ then
    if digits = 0#_ then .infinity sign else .notANumber
  else if exponent = 0#_ then
    if none : digits = 0#_ then .zero sign
    else .finite sign digits.toNat (exponent.toNat - 1075 + 1)
      (by simpa [BitVec.toNat_pos, BitVec.pos_iff_ne_zero])
  else .finite sign (1#1 ++ digits).toNat (exponent.toNat - 1075)
    (by rw [toNat_leading]; omega)

theorem unpack_eq (bits : BitVec 64) :
    unpack .binary64 bits = decoded (.ofBitVec (@unpackSign .binary64 bits))
      (@unpackExponent .binary64 bits) (@unpackMantissa .binary64 bits) :=
  rfl

theorem unpackSign_packComponents (sign : Sign) (exponent : BitVec 11) (digits : BitVec 52) :
    @unpackSign .binary64 (packComponents .binary64 sign exponent digits) =
      sign.toBitVec := by
  apply BitVec.eq_of_getLsbD_eq
  intro position inside
  obtain rfl : position = 0 := by omega
  change BitVec.getLsbD (BitVec.cast _ (BitVec.extractLsb 63 63
    (packComponents .binary64 sign exponent digits))) 0 = _
  simp only [packComponents, BitVec.getLsbD_cast, BitVec.getLsbD_extractLsb, BitVec.getLsbD_append]
  simp

theorem unpack_packComponents (sign : Sign) (exponent : BitVec 11) (digits : BitVec 52) :
    unpack .binary64 (packComponents .binary64 sign exponent digits) =
      decoded sign exponent digits := by
  rw [unpack_eq, unpackSign_packComponents]
  simp only [unpackMantissa_packComponents, unpackExponent_packComponents]
  cases sign <;> rfl

/-- Digits and exponent as binary64 keeps them, if the number is finite. -/
inductive Canonical : UnpackedFloat → Prop
  | infinity (sign : Sign) : Canonical (.infinity sign)
  | notANumber : Canonical .notANumber
  | zero (sign : Sign) : Canonical (.zero sign)
  | finite {sign : Sign} {mantissa : ℕ} {exponent : ℤ} (positive : 0 < mantissa) :
      Kept mantissa exponent → exponent ≤ 971 → Canonical (.finite sign mantissa exponent positive)

theorem canonical_decoded (sign : Sign) (exponent : BitVec 11) (digits : BitVec 52) :
    Canonical (decoded sign exponent digits) := by
  have small : digits.toNat < 2 ^ 52 := digits.isLt
  have range : exponent.toNat < 2 ^ 11 := exponent.isLt
  unfold decoded
  by_cases top : exponent = -1#_
  · rw [if_pos top]
    split
    · exact .infinity _
    · exact .notANumber
  rw [if_neg top]
  have bound : exponent.toNat ≠ 2047 := fun same => top (BitVec.eq_of_toNat_eq same)
  by_cases least : exponent = 0#_
  · rw [if_pos least]
    by_cases none : digits = 0#_
    · rw [dif_pos none]
      exact .zero _
    · rw [dif_neg none]
      subst least
      exact .finite _ ⟨by omega, le_rfl, .inr rfl⟩ (by decide)
  · rw [if_neg least]
    have nonzero : exponent.toNat ≠ 0 := fun zero => least (BitVec.eq_of_toNat_eq zero)
    have leading := toNat_leading digits
    exact .finite _ ⟨by omega, by omega, .inl (by omega)⟩ (by omega)

theorem canonical_unpack (bits : BitVec 64) : Canonical (unpack .binary64 bits) :=
  canonical_decoded _ _ _

/-! Packing -/

theorem unpack_packedInfinity (sign : Sign) :
    unpack .binary64 (packedInfinity .binary64 sign) = .infinity sign :=
  (unpack_packComponents _ _ _).trans (by cases sign <;> rfl)

theorem unpack_pack_of_large (sign : Sign) {mantissa : ℕ} {exponent : ℤ} (positive : 0 < mantissa)
    (large : 971 < exponent) :
    unpack .binary64 (pack .binary64 (.finite sign mantissa exponent positive)) =
      .infinity sign := by
  have biased : 2 ^ 11 ≤ (exponent + (1023 : ℕ) + (52 : ℕ)).toNat + 1 := by omega
  have packed : pack .binary64 (.finite sign mantissa exponent positive) =
      packedInfinity .binary64 sign := if_pos biased
  rw [packed, unpack_packedInfinity]

section

variable (sign : Sign) {mantissa : ℕ} {exponent : ℤ} (positive : 0 < mantissa)
  (kept : Kept mantissa exponent) (bound : exponent ≤ 971)
include kept bound

theorem pack_finite : pack .binary64 (.finite sign mantissa exponent positive) =
    if 2 ^ 52 ≤ mantissa then
      packComponents .binary64 sign (BitVec.ofNat 11 (exponent + (1023 : ℕ) + (52 : ℕ)).toNat)
        (BitVec.ofNat 52 mantissa)
    else packComponents .binary64 sign 0#11 (BitVec.ofNat 52 mantissa) := by
  have least := kept.least
  have digits := kept.digits
  have biased : ¬2 ^ 11 ≤ (exponent + (1023 : ℕ) + (52 : ℕ)).toNat + 1 := by omega
  have log : mantissa.log2 + 1 = 53 ↔ 2 ^ 52 ≤ mantissa := by
    have low := Nat.le_log2 positive.ne' (k := 52)
    have high := Nat.log2_lt positive.ne' (k := 53)
    omega
  exact (if_neg biased).trans (if_congr log rfl rfl)

theorem decoded_of_full (full : 2 ^ 52 ≤ mantissa) :
    decoded sign (BitVec.ofNat 11 (exponent + (1023 : ℕ) + (52 : ℕ)).toNat)
      (BitVec.ofNat 52 mantissa) = .finite sign mantissa exponent positive := by
  have least := kept.least
  have digits := kept.digits
  have code : (BitVec.ofNat 11 (exponent + (1023 : ℕ) + (52 : ℕ)).toNat).toNat =
      (exponent + 1075).toNat := by
    rw [BitVec.toNat_ofNat]
    omega
  have leading : (1#1 ++ BitVec.ofNat 52 mantissa).toNat = mantissa := by
    rw [toNat_leading, BitVec.toNat_ofNat]
    omega
  unfold decoded
  rw [if_neg fun top => ?_, if_neg fun bottom => ?_]
  · refine (UnpackedFloat.finite.injEq ..).mpr ⟨rfl, leading, ?_⟩
    rw [code]
    omega
  · rw [bottom] at code
    change 0 = _ at code
    omega
  · rw [top] at code
    change 2047 = _ at code
    omega

omit bound in
theorem decoded_of_short (short : ¬2 ^ 52 ≤ mantissa) :
    decoded sign 0#11 (BitVec.ofNat 52 mantissa) = .finite sign mantissa exponent positive := by
  have code : (BitVec.ofNat 52 mantissa).toNat = mantissa := by
    rw [BitVec.toNat_ofNat]
    omega
  unfold decoded
  rw [if_neg (by decide), if_pos rfl, dif_neg fun none => ?_]
  · exact (UnpackedFloat.finite.injEq ..).mpr ⟨rfl, code, (kept.full.resolve_left short).symm⟩
  · rw [none] at code
    exact positive.ne code

end

theorem unpack_pack {number : UnpackedFloat} (canonical : Canonical number) :
    unpack .binary64 (pack .binary64 number) = number := by
  cases canonical with
  | infinity sign => exact unpack_packedInfinity sign
  | notANumber => exact unpack_packComponents _ _ _
  | zero sign => exact (unpack_packComponents _ _ _).trans (by cases sign <;> rfl)
  | @finite sign mantissa exponent positive kept bound =>
    rw [pack_finite sign positive kept bound]
    by_cases full : 2 ^ 52 ≤ mantissa
    · rw [if_pos full, unpack_packComponents, decoded_of_full sign positive kept bound full]
    · rw [if_neg full, unpack_packComponents, decoded_of_short sign positive kept full]

end Fleet.Number
