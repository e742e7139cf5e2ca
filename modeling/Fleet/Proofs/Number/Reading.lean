import Fleet.Proofs.Number.Finite

/-! Comparisons and integer readings of finite binary64 numbers.

Both are those of the rational numbers: numbers in the form that binary64 keeps them are ordered by
exponent and digits, and floors and ceilings are not rounded.
-/

set_option autoImplicit false

namespace Fleet.Number

open Float.Model (UnpackedFloat)

variable {x y z : Float} {p q r : ℚ}

/-! Comparisons -/

theorem Kept.scaled_lt {mantissa other : ℕ} {exponent otherExponent : ℤ}
    (kept : Kept mantissa exponent) (otherKept : Kept other otherExponent)
    (lt : toLex (exponent, (mantissa : ℤ)) < toLex (otherExponent, (other : ℤ))) :
    (mantissa : ℚ) * 2 ^ exponent < other * 2 ^ otherExponent := by
  rcases Prod.Lex.toLex_lt_toLex.mp lt with less | ⟨same, less⟩
  · -- the greater exponent is not the least one, so its mantissa is full
    have full : 2 ^ 52 ≤ other := otherKept.full.resolve_right
      (kept.least.trans_lt less).ne'
    calc (mantissa : ℚ) * 2 ^ exponent < 2 ^ 53 * 2 ^ exponent :=
          mul_lt_mul_of_pos_right (by exact_mod_cast kept.digits) (two_zpow_pos _)
      _ = 2 ^ 52 * 2 ^ (exponent + 1) := by rw [zpow_add_one₀ two_ne_zero]; ring
      _ ≤ 2 ^ 52 * 2 ^ otherExponent :=
          mul_le_mul_of_nonneg_left (zpow_le_zpow_right₀ one_le_two less) (by positivity)
      _ ≤ other * 2 ^ otherExponent :=
          mul_le_mul_of_nonneg_right (by exact_mod_cast full) (two_zpow_pos _).le
  · obtain rfl : exponent = otherExponent := same
    have fewer : mantissa < other := Int.ofNat_lt.mp less
    exact mul_lt_mul_of_pos_right (by exact_mod_cast fewer) (two_zpow_pos _)

theorem Holds.lt_of_rank_lt {first second : UnpackedFloat} {low high : ℤ ×ₗ ℤ ×ₗ ℤ}
    (holds : Holds first p) (other : Holds second q) (lowRank : rank first = some low)
    (highRank : rank second = some high) (lt : low < high) : p < q := by
  have positive {mantissa : ℕ} (exponent : ℤ) (nonzero : 0 < mantissa) :
      (0 : ℚ) < mantissa * 2 ^ exponent :=
    mul_pos (by exact_mod_cast nonzero) (two_zpow_pos _)
  rcases holds with _ | @⟨_ | _, mantissa, exponent, nonzero, kept⟩ <;>
    rcases other with _ | @⟨_ | _, otherMantissa, otherExponent, otherNonzero, otherKept⟩ <;>
    cases lowRank <;> cases highRank
  case zero.zero => exact absurd lt (lt_irrefl _)
  case zero.finite.negative => simp [Prod.Lex.toLex_lt_toLex] at lt
  case zero.finite.positive => simpa [signed] using positive otherExponent otherNonzero
  case finite.negative.zero => simpa [signed] using positive exponent nonzero
  case finite.positive.zero => simp [Prod.Lex.toLex_lt_toLex] at lt
  case finite.negative.finite.positive =>
    have below := positive exponent nonzero
    have above := positive otherExponent otherNonzero
    simp only [signed, Int.cast_neg, Int.cast_natCast, neg_mul]
    linarith
  case finite.positive.finite.negative => simp [Prod.Lex.toLex_lt_toLex] at lt
  case finite.positive.finite.positive =>
    have inner := (Prod.Lex.toLex_lt_toLex.mp lt).resolve_left (lt_irrefl _)
    simpa only [signed, Int.cast_natCast] using kept.scaled_lt otherKept inner.2
  case finite.negative.finite.negative =>
    -- of two negative numbers the one of greater size is less
    have inner := ((Prod.Lex.toLex_lt_toLex.mp lt).resolve_left (lt_irrefl _)).2
    have mirrored : toLex (otherExponent, (otherMantissa : ℤ)) < toLex (exponent, (mantissa : ℤ)) := by
      have cases := Prod.Lex.toLex_lt_toLex.mp inner
      refine Prod.Lex.toLex_lt_toLex.mpr ?_
      dsimp only at cases ⊢
      omega
    simpa only [signed, Int.cast_neg, Int.cast_natCast, neg_mul, neg_lt_neg_iff] using
      otherKept.scaled_lt kept mirrored

theorem Holds.eq_of_rank_eq {first second : UnpackedFloat} (holds : Holds first p)
    (other : Holds second q) (same : rank first = rank second) : p = q := by
  rcases holds with _ | @⟨_ | _, mantissa, exponent, nonzero, kept⟩ <;>
    rcases other with _ | @⟨_ | _, otherMantissa, otherExponent, otherNonzero, otherKept⟩ <;>
    dsimp only [rank] at same <;>
    simp_all

theorem Holds.exists_rank {number : UnpackedFloat} (holds : Holds number q) :
    ∃ place, rank number = some place ∧ toLex ((-2 : ℤ), toLex ((0 : ℤ), (0 : ℤ))) < place ∧
      place < toLex ((2 : ℤ), toLex ((0 : ℤ), (0 : ℤ))) := by
  rcases holds with _ | @⟨_ | _, _, _, _, _⟩ <;>
    exact ⟨_, rfl, by simp [Prod.Lex.toLex_lt_toLex], by simp [Prod.Lex.toLex_lt_toLex]⟩

section

variable (first : value? x = some p) (second : value? y = some q)
include first second

theorem lt_iff_of_value? : x < y ↔ p < q := by
  have holds := holds_of_value? first
  have other := holds_of_value? second
  rw [lt_iff]
  constructor
  · rintro ⟨low, lowRank, high, highRank, lt⟩
    exact holds.lt_of_rank_lt other lowRank highRank lt
  · intro less
    obtain ⟨low, lowRank, -⟩ := holds.exists_rank
    obtain ⟨high, highRank, -⟩ := other.exists_rank
    refine ⟨low, lowRank, high, highRank, ?_⟩
    rcases lt_trichotomy low high with lt | rfl | gt
    · exact lt
    · exact absurd (holds.eq_of_rank_eq other (lowRank.trans highRank.symm)) less.ne
    · exact absurd (other.lt_of_rank_lt holds highRank lowRank gt) less.not_gt

theorem le_iff_of_value? : x ≤ y ↔ p ≤ q := by
  have self {z : Float} {r : ℚ} (known : value? z = some r) : z ≤ z := by
    obtain ⟨place, rank, -⟩ := (holds_of_value? known).exists_rank
    exact le_iff.mpr ⟨place, rank, place, rank, le_rfl⟩
  rw [← not_lt, ← lt_iff_of_value? second first]
  refine ⟨fun le less => (Scalar.Linear.lt_iff.mp less).2 le, fun notLess => ?_⟩
  exact Scalar.le_of_not_lt (self first) (self second) notLess

end

theorem exists_value?_of_le (low : value? x = some p) (high : value? z = some r) (above : x ≤ y)
    (below : y ≤ z) : ∃ q, value? y = some q ∧ p ≤ q ∧ q ≤ r := by
  have finite : ∃ q, value? y = some q := by
    obtain ⟨least, leastRank, bottom, -⟩ := (holds_of_value? low).exists_rank
    obtain ⟨greatest, greatestRank, -, top⟩ := (holds_of_value? high).exists_rank
    obtain ⟨_, lowRank, place, rank, up⟩ := le_iff.mp above
    obtain ⟨_, rank', _, highRank, down⟩ := le_iff.mp below
    obtain rfl := Option.some.inj (leastRank.symm.trans lowRank)
    obtain rfl := Option.some.inj (greatestRank.symm.trans highRank)
    obtain rfl := Option.some.inj (rank.symm.trans rank')
    unfold standing at rank
    unfold value?
    generalize y.toModel.unpack = number at rank ⊢
    rcases number with (_ | _) | _ | _ | _
    · cases rank
      exact absurd up bottom.not_ge
    · cases rank
      exact absurd down top.not_ge
    · cases rank
    · exact ⟨_, rfl⟩
    · exact ⟨_, rfl⟩
  obtain ⟨q, known⟩ := finite
  exact ⟨q, known, (le_iff_of_value? low known).mp above, (le_iff_of_value? known high).mp below⟩

theorem exists_value?_of_abs_le (bound : value? z = some r) (below : x.abs ≤ z) :
    ∃ q, value? x = some q ∧ |q| ≤ r := by
  have finite : ∃ q, value? x = some q := by
    obtain ⟨greatest, greatestRank, -, top⟩ := (holds_of_value? bound).exists_rank
    obtain ⟨place, placeRank, _, highRank, down⟩ := le_iff.mp below
    obtain rfl := Option.some.inj (greatestRank.symm.trans highRank)
    change rank (Float.Model.pack (UnpackedFloat.abs x.toModel.unpack)).unpack = _ at placeRank
    unfold value?
    cases unpacked : x.toModel.unpack with
    | zero | finite => exact ⟨_, rfl⟩
    | notANumber =>
      rw [unpacked] at placeRank
      cases placeRank.symm.trans (congrArg rank (unpack_pack .notANumber))
    | infinity sign =>
      rw [unpacked] at placeRank
      cases placeRank.symm.trans (congrArg rank (unpack_pack (.infinity .positive)))
      exact absurd down top.not_ge
  obtain ⟨q, known⟩ := finite
  exact ⟨q, known, (le_iff_of_value? (value?_abs known) bound).mp below⟩

theorem isBounded_of_value? (known : value? x = some q) : Scalar.isBounded x = true := by
  obtain ⟨place, rank, -, top⟩ := (holds_of_value? known).exists_rank
  have infinite : standing (1.0 / 0.0) = some (toLex ((2 : ℤ), toLex ((0 : ℤ), (0 : ℤ)))) := by
    decide +kernel
  exact decide_eq_true (lt_iff.mpr ⟨place, rank, _, infinite, top⟩)

/-! Integer readings -/

theorem scaledFloor_eq (significand exponent : ℤ) :
    scaledFloor significand exponent = ⌊(significand : ℚ) * 2 ^ exponent⌋ := by
  rcases le_or_gt 0 exponent with nonneg | negative
  · obtain ⟨count, rfl⟩ := Int.eq_ofNat_of_zero_le nonneg
    rw [scaledFloor_of_nonneg _ nonneg, zpow_natCast]
    exact_mod_cast (Int.floor_intCast (R := ℚ) (significand * 2 ^ count)).symm
  · obtain ⟨count, same⟩ := Int.eq_ofNat_of_zero_le (Int.neg_nonneg.mpr negative.le)
    obtain rfl : exponent = -(count : ℤ) := by omega
    rw [scaledFloor_of_neg _ negative, zpow_neg, zpow_natCast, ← div_eq_mul_inv, neg_neg]
    have cast : ((2 : ℚ) ^ count) = ((power 2 count : ℕ) : ℚ) := by
      simp [power]
    rw [cast, Rat.floor_intCast_div_natCast]

theorem floor_of_value? (known : value? x = some q) : floor x = .ok ⌊q⌋ := by
  unfold value? at known
  unfold floor
  cases number : x.toModel.unpack with
  | infinity | notANumber => rw [number] at known; cases known
  | zero sign =>
    rw [number] at known
    cases known
    simp
  | finite sign mantissa exponent positive =>
    rw [number] at known
    cases known
    exact congrArg _ (scaledFloor_eq _ _)

theorem ceil_of_value? (known : value? x = some q) : ceil x = .ok ⌈q⌉ := by
  unfold value? at known
  unfold ceil
  cases number : x.toModel.unpack with
  | infinity | notANumber => rw [number] at known; cases known
  | zero sign =>
    rw [number] at known
    cases known
    simp
  | finite sign mantissa exponent positive =>
    rw [number] at known
    cases known
    have mirrored := scaledFloor_eq (-signed sign mantissa) exponent
    rw [Int.cast_neg, neg_mul, Int.floor_neg] at mirrored
    exact congrArg Except.ok ((congrArg _ mirrored).trans (neg_neg _))

end Fleet.Number
