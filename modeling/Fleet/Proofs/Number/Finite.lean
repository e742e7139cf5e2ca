import Fleet.Proofs.Linear
import Fleet.Proofs.Number.Arithmetic

/-! Finite binary64 numbers as the rational numbers that they are.

The result of an operation is the number nearest to the exact result, if that lies in the finite
range. So bounds on exact results carry over to the numbers computed. Comparisons and integer readings
are exact.
-/

set_option autoImplicit false

namespace Fleet.Number

open Float.Model (UnpackedFloat)
open Float.Model.UnpackedFloat

/-- The rational number that a binary64 number is, if it is finite. -/
def value? (x : Float) : Option ℚ := unpackedValue? x.toModel.unpack

variable {x y z : Float} {p q : ℚ}

theorem holds_of_value? (known : value? x = some q) : Holds x.toModel.unpack q :=
  .of_unpack known

theorem representable_of_value? (known : value? x = some q) : Representable q :=
  (holds_of_value? known).representable

theorem inRange?_of_value? (known : value? x = some q) : inRange? q = some q := by
  have canonical := canonical_unpack x.toModel.toBits.toBitVec
  rw [← (holds_of_value? known).stored]
  exact (congrArg unpackedValue? (unpack_pack canonical)).trans known

theorem inRange?_eq_some : inRange? p = some q ↔ p = q ∧ |q| < 2 ^ 1024 := by
  unfold inRange?
  split
  · next inside =>
    refine ⟨fun same => ?_, fun both => congrArg some both.1⟩
    obtain rfl := Option.some.inj same
    exact ⟨rfl, inside⟩
  · next outside =>
    refine ⟨fun none => (by cases none), fun both => ?_⟩
    obtain ⟨rfl, inside⟩ := both
    exact absurd inside outside

theorem abs_lt_of_value? (known : value? x = some q) : |q| < 2 ^ 1024 :=
  (inRange?_eq_some.mp (inRange?_of_value? known)).2

theorem isFinite_iff : x.isFinite = true ↔ ∃ q, value? x = some q := by
  change x.toModel.unpack.isFinite = true ↔ _
  unfold value?
  cases x.toModel.unpack with
  | zero | finite => exact ⟨fun _ => ⟨_, rfl⟩, fun _ => rfl⟩
  | infinity | notANumber =>
    refine ⟨fun finite => ?_, fun known => ?_⟩
    · cases finite
    · obtain ⟨q, known⟩ := known
      cases known

/-! Operations -/

theorem value?_add (first : value? x = some p) (second : value? y = some q) :
    value? (x + y) = inRange? (nearest (p + q)) :=
  ((holds_of_value? first).add (holds_of_value? second)).stored

theorem value?_sub (first : value? x = some p) (second : value? y = some q) :
    value? (x - y) = inRange? (nearest (p - q)) :=
  ((holds_of_value? first).sub (holds_of_value? second)).stored

theorem value?_mul (first : value? x = some p) (second : value? y = some q) :
    value? (x * y) = inRange? (nearest (p * q)) :=
  ((holds_of_value? first).mul (holds_of_value? second)).stored

theorem value?_div (first : value? x = some p) (second : value? y = some q) (nonzero : q ≠ 0) :
    value? (x / y) = inRange? (nearest (p / q)) :=
  ((holds_of_value? first).div (holds_of_value? second) nonzero).stored

theorem value?_abs (known : value? x = some q) : value? x.abs = some |q| := by
  have inside := abs_lt_of_value? known
  rw [← abs_abs] at inside
  exact ((holds_of_value? known).abs.stored).trans (inRange?_eq_some.mpr ⟨rfl, inside⟩)

/-- Neither infinite numbers nor what is no number become finite by being stored. -/
theorem unpackedValue?_pack_eq_none {number : UnpackedFloat} (special : unpackedValue? number = none) :
    unpackedValue? (Float.Model.pack number).unpack = none := by
  change unpackedValue? (unpack .binary64 (pack .binary64 number)) = none
  cases number with
  | infinity sign => rw [unpack_pack (.infinity sign)]; rfl
  | notANumber => rw [unpack_pack .notANumber]; rfl
  | zero | finite => cases special

theorem unpackedValue?_add_eq_none {first second : UnpackedFloat}
    (special : unpackedValue? first = none ∨ unpackedValue? second = none) :
    unpackedValue? (UnpackedFloat.add .binary64 first second) = none := by
  rcases first with (_ | _) | _ | _ | _ <;> rcases second with (_ | _) | _ | _ | _ <;>
    first | rfl | (rcases special with none | none <;> cases none)

theorem unpackedValue?_mul_eq_none {first second : UnpackedFloat}
    (special : unpackedValue? first = none ∨ unpackedValue? second = none) :
    unpackedValue? (UnpackedFloat.mul .binary64 first second) = none := by
  rcases first with _ | _ | _ | _ <;> rcases second with _ | _ | _ | _ <;>
    first | rfl | (rcases special with none | none <;> cases none)

theorem value?_div_of_infinity {sign : Sign} (first : value? x = some p)
    (infinite : y.toModel.unpack = .infinity sign) : value? (x / y) = some 0 := by
  change unpackedValue? (Float.Model.pack
    (UnpackedFloat.div .binary64 x.toModel.unpack y.toModel.unpack)).unpack = _
  have zero : inRange? 0 = some 0 := by simp [inRange?]
  rw [infinite, ← zero]
  have holds := holds_of_value? first
  generalize x.toModel.unpack = number at holds ⊢
  cases holds <;> exact (Holds.zero _).stored

theorem value?_neg (x : Float) : value? x.neg = (value? x).map fun q => -q := by
  cases known : value? x with
  | some q =>
    have inside := abs_lt_of_value? known
    rw [← abs_neg] at inside
    exact ((holds_of_value? known).neg.stored).trans (inRange?_eq_some.mpr ⟨rfl, inside⟩)
  | none =>
    refine unpackedValue?_pack_eq_none ?_
    unfold value? at known
    generalize x.toModel.unpack = number at known ⊢
    cases number <;> first | rfl | cases known

theorem unpackedValue?_sub_eq_none {first second : UnpackedFloat}
    (special : unpackedValue? first = none ∨ unpackedValue? second = none) :
    unpackedValue? (UnpackedFloat.sub .binary64 first second) = none := by
  rcases first with (_ | _) | _ | _ | _ <;> rcases second with (_ | _) | _ | _ | _ <;>
    first | rfl | (rcases special with none | none <;> cases none)

/-- What is finite has not been computed from anything that an operation does not make finite. -/
theorem exists_of_computed {operation : UnpackedFloat → UnpackedFloat → UnpackedFloat}
    (absorbs : ∀ {first second}, unpackedValue? first = none ∨ unpackedValue? second = none →
      unpackedValue? (operation first second) = none)
    (known : unpackedValue?
      (Float.Model.pack (operation x.toModel.unpack y.toModel.unpack)).unpack = some q) :
    (∃ p, value? x = some p) ∧ ∃ r, value? y = some r := by
  have finite (special : value? x = none ∨ value? y = none) : False := by
    rw [unpackedValue?_pack_eq_none (absorbs special)] at known
    cases known
  exact ⟨Option.ne_none_iff_exists'.mp fun special => finite (.inl special),
    Option.ne_none_iff_exists'.mp fun special => finite (.inr special)⟩

theorem exists_of_value?_add (known : value? (x + y) = some q) :
    (∃ p, value? x = some p) ∧ ∃ r, value? y = some r :=
  exists_of_computed unpackedValue?_add_eq_none known

theorem exists_of_value?_sub (known : value? (x - y) = some q) :
    (∃ p, value? x = some p) ∧ ∃ r, value? y = some r :=
  exists_of_computed unpackedValue?_sub_eq_none known

theorem exists_of_value?_mul (known : value? (x * y) = some q) :
    (∃ p, value? x = some p) ∧ ∃ r, value? y = some r :=
  exists_of_computed unpackedValue?_mul_eq_none known

/-! Integers -/

theorem representable_intCast {n : ℤ} (short : |n| < 2 ^ 53) : Representable n :=
  ⟨n, 0, short, by decide, by simp⟩

theorem representable_natCast {n : ℕ} (short : n < 2 ^ 53) : Representable n := by
  exact_mod_cast representable_intCast (n := n) (by rw [Nat.abs_cast]; exact_mod_cast short)

theorem inRange?_natCast {n : ℕ} (short : n < 2 ^ 53) : inRange? n = some (n : ℚ) := by
  refine inRange?_eq_some.mpr ⟨rfl, ?_⟩
  rw [Nat.abs_cast]
  calc (n : ℚ) < 2 ^ 53 := by exact_mod_cast short
    _ ≤ 2 ^ 1024 := pow_le_pow_right₀ one_le_two (by decide)

theorem value?_ofNat_of_short {n : ℕ} (short : n < 2 ^ 53) :
    value? (Float.ofNat n) = some (n : ℚ) := by
  have fast : Float.ofNat n = n.toUInt64.toFloat * Float.exactlyRepresentablePowersOfTen[0] := by
    change Float.ofScientific n false 0 = _
    unfold Float.ofScientific
    rw [dif_pos ⟨short, by decide⟩]
    rfl
  have whole : n.toUInt64.toNat = n := by
    simp only [Nat.toUInt64_eq, UInt64.toNat_ofNat']
    omega
  have read : value? n.toUInt64.toFloat = some (n : ℚ) := by
    have holds := (holds_normalize n.toUInt64.toNat 0 .positive).stored
    rw [whole, zpow_zero, mul_one, Int.cast_natCast, (representable_natCast short).nearest_eq,
      inRange?_natCast short] at holds
    rw [← holds]
    change unpackedValue? (Float.Model.pack
      (UnpackedFloat.normalize .binary64 n.toUInt64.toNat 0 _)).unpack = _
    rw [whole]
  have one : value? Float.exactlyRepresentablePowersOfTen[0] = some 1 := by decide +kernel
  rw [fast, value?_mul read one, mul_one, (representable_natCast short).nearest_eq,
    inRange?_natCast short]

theorem exists_holds_ofNat {n : ℕ} (long : 2 ^ 53 ≤ n) :
    ∃ number, Holds number (nearest n) ∧ (Float.ofNat n).toModel = .pack number := by
  have slow : (Float.ofNat n).toModel = .pack (UnpackedFloat.ofScientific .binary64 n 0) := by
    change (Float.ofScientific n false 0).toModel = _
    unfold Float.ofScientific
    rw [dif_neg fun both => long.not_gt both.1]
    rfl
  have rounded : UnpackedFloat.ofScientific .binary64 n 0 =
      roundWithAccuracy .binary64 .positive (n <<< 53 * 1) (-53 + 0) .exact := by
    unfold UnpackedFloat.ofScientific
    have low : ¬(0 : ℤ) < -((2 ^ 11 : ℤ) + n.log2) := by omega
    rw [dif_neg (by omega), if_neg (by decide), if_neg low, if_pos le_rfl]
    rfl
  have shifted : ((n <<< 53 * 1 : ℕ) : ℚ) * 2 ^ (-53 + 0 : ℤ) = n := by
    rw [mul_one, Nat.shiftLeft_eq, add_zero, zpow_neg, Nat.cast_mul]
    exact mul_inv_cancel_right₀ (by norm_num) _
  have fine : (-53 + 0 : ℤ) ≤ spacing ((n <<< 53 * 1 : ℕ) * 2 ^ (-53 + 0 : ℤ)) := by
    refine Holds.le_spacing _ ?_
    rw [mul_one, Nat.shiftLeft_eq]
    omega
  have holds := holds_roundWithAccuracy_exact .positive
    (by rw [mul_one, Nat.shiftLeft_eq]; exact Nat.mul_pos (by omega) (by decide)) fine
  rw [shifted, unit, one_mul, ← rounded] at holds
  exact ⟨_, holds, slow⟩

theorem value?_ofNat (n : ℕ) : value? (Float.ofNat n) = inRange? (nearest n) := by
  rcases Nat.lt_or_ge n (2 ^ 53) with short | long
  · rw [value?_ofNat_of_short short, (representable_natCast short).nearest_eq,
      inRange?_natCast short]
  · obtain ⟨number, holds, stored⟩ := exists_holds_ofNat long
    unfold value?
    rw [stored]
    exact holds.stored

theorem exists_infinity_of_ofNat {n : ℕ} (large : value? (Float.ofNat n) = none) :
    ∃ sign, (Float.ofNat n).toModel.unpack = .infinity sign := by
  rcases Nat.lt_or_ge n (2 ^ 53) with short | long
  · rw [value?_ofNat_of_short short] at large
    cases large
  · obtain ⟨number, holds, stored⟩ := exists_holds_ofNat long
    unfold value? at large
    rw [stored] at large ⊢
    exact holds.exists_infinity large

theorem inRange?_neg (q : ℚ) : inRange? (-q) = (inRange? q).map fun q => -q := by
  unfold inRange?
  rw [abs_neg]
  split <;> rfl

theorem value?_ofInt (n : ℤ) : value? (Float.ofInt n) = inRange? (nearest n) := by
  cases n with
  | ofNat n => exact value?_ofNat n
  | negSucc n =>
    change value? (Float.neg (Float.ofNat (n + 1))) = _
    rw [value?_neg, value?_ofNat, Int.cast_negSucc, nearest_neg, inRange?_neg]

end Fleet.Number
