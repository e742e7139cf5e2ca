import Fleet.Proofs.Number.Extended

/-! What is no number.

It stays none when it is computed with, and it lies on no side of any bound.
-/

set_option autoImplicit false

namespace Fleet.Number

open Float.Model (UnpackedFloat)

variable {x y : Float}

theorem isNaN_iff : x.isNaN = true ↔ x.toModel.unpack = .notANumber := by
  change x.toModel.unpack.isNaN = true ↔ _
  constructor
  · intro undefined
    cases unpacked : x.toModel.unpack with
    | notANumber => rfl
    | _ => rw [unpacked] at undefined; cases undefined
  · intro unpacked
    rw [unpacked]
    rfl

theorem le_self_of_isNaN_eq_false (number : x.isNaN = false) : x ≤ x := by
  have known := mt isNaN_iff.mpr (Bool.eq_false_iff.mp number)
  rw [le_iff]
  unfold standing
  cases unpacked : x.toModel.unpack with
  | notANumber => exact absurd unpacked known
  | infinity sign | zero sign | finite sign => cases sign <;> exact ⟨_, rfl, _, rfl, le_rfl⟩

theorem isNaN_of_extended? {place : WithBotTop ℚ} (known : extended? x = some place) :
    x.isNaN = false := by
  refine Bool.eq_false_iff.mpr fun undefined => ?_
  rw [extended?, isNaN_iff.mp undefined] at known
  cases known

theorem isNaN_of_infinity {sign : UnpackedFloat.Sign} (infinite : x.toModel.unpack = .infinity sign) :
    x.isNaN = false := by
  refine Bool.eq_false_iff.mpr fun undefined => ?_
  cases infinite.symm.trans (isNaN_iff.mp undefined)

theorem le_self_iff : x ≤ x ↔ x.isNaN = false := by
  refine ⟨fun self => ?_, le_self_of_isNaN_eq_false⟩
  obtain ⟨place, known⟩ := exists_extended_of_self self
  exact isNaN_of_extended? known

theorem number_of_le (le : x ≤ y) : x.isNaN = false ∧ y.isNaN = false :=
  (Scalar.Linear.self_of_le le).imp le_self_iff.mp le_self_iff.mp

/-! Computations -/

theorem standing_of_isNaN (undefined : x.isNaN = true) : standing x = none := by
  unfold standing
  rw [isNaN_iff.mp undefined]
  rfl

theorem floor_of_isNaN (undefined : x.isNaN = true) : floor x = .error .notANumber := by
  unfold floor
  rw [isNaN_iff.mp undefined]

theorem isNaN_abs (undefined : x.isNaN = true) : x.abs.isNaN = true := by
  rw [isNaN_iff] at undefined ⊢
  change (Float.Model.pack (UnpackedFloat.abs x.toModel.unpack)).unpack = _
  rw [undefined]
  exact unpack_pack .notANumber

theorem isNaN_add (undefined : x.isNaN = true ∨ y.isNaN = true) : (x + y).isNaN = true := by
  simp only [isNaN_iff] at undefined ⊢
  change (Float.Model.pack
    (UnpackedFloat.add .binary64 x.toModel.unpack y.toModel.unpack)).unpack = _
  rcases undefined with first | second
  · rw [first]
    exact unpack_pack .notANumber
  · rw [second]
    cases x.toModel.unpack <;> exact unpack_pack .notANumber

theorem isNaN_sub (undefined : x.isNaN = true ∨ y.isNaN = true) : (x - y).isNaN = true := by
  simp only [isNaN_iff] at undefined ⊢
  change (Float.Model.pack
    (UnpackedFloat.sub .binary64 x.toModel.unpack y.toModel.unpack)).unpack = _
  rcases undefined with first | second
  · rw [first]
    exact unpack_pack .notANumber
  · rw [second]
    cases x.toModel.unpack <;> exact unpack_pack .notANumber

theorem isNaN_div (undefined : x.isNaN = true) : (x / y).isNaN = true := by
  simp only [isNaN_iff] at undefined ⊢
  change (Float.Model.pack
    (UnpackedFloat.div .binary64 x.toModel.unpack y.toModel.unpack)).unpack = _
  rw [undefined]
  exact unpack_pack .notANumber

theorem unpack_sub_of_infinity {sign : UnpackedFloat.Sign} {q : ℚ}
    (infinite : x.toModel.unpack = .infinity sign) (finite : value? y = some q) :
    (x - y).toModel.unpack = .infinity sign := by
  change (Float.Model.pack
    (UnpackedFloat.sub .binary64 x.toModel.unpack y.toModel.unpack)).unpack = _
  rw [infinite]
  have holds := holds_of_value? finite
  generalize y.toModel.unpack = other at holds ⊢
  cases holds <;> exact unpack_pack (.infinity sign)

theorem isNaN_sub_of_value? {q : ℚ} (number : x.isNaN = false) (finite : value? y = some q) :
    (x - y).isNaN = false := by
  obtain ⟨place, known⟩ := exists_extended_of_self (le_self_of_isNaN_eq_false number)
  cases place using WithBotTop.rec with
  | bot => exact isNaN_of_infinity (unpack_sub_of_infinity (unpack_of_extended?_bot known) finite)
  | top => exact isNaN_of_infinity (unpack_sub_of_infinity (unpack_of_extended?_top known) finite)
  | coe p =>
    have difference := (holds_of_value? (value?_of_extended? known)).sub (holds_of_value? finite)
    exact isNaN_of_extended? (x := x - y) difference.place?_pack

theorem unpack_abs_of_infinity {sign : UnpackedFloat.Sign}
    (infinite : x.toModel.unpack = .infinity sign) :
    x.abs.toModel.unpack = .infinity .positive := by
  change (Float.Model.pack (UnpackedFloat.abs x.toModel.unpack)).unpack = _
  rw [infinite]
  exact unpack_pack (.infinity .positive)

theorem isNaN_abs_eq (x : Float) : x.abs.isNaN = x.isNaN := by
  cases number : x.isNaN with
  | true => exact isNaN_abs number
  | false =>
    obtain ⟨place, known⟩ := exists_extended_of_self (le_self_of_isNaN_eq_false number)
    cases place using WithBotTop.rec with
    | bot => exact isNaN_of_infinity (unpack_abs_of_infinity (unpack_of_extended?_bot known))
    | top => exact isNaN_of_infinity (unpack_abs_of_infinity (unpack_of_extended?_top known))
    | coe p => exact isNaN_of_extended? (extended?_of_value? (value?_abs (value?_of_extended? known)))

theorem isNaN_sum {xs : List Float} {start : Float}
    (undefined : start.isNaN = true ∨ ∃ x ∈ xs, x.isNaN = true) :
    (xs.foldl (· + ·) start).isNaN = true := by
  induction xs generalizing start with
  | nil => exact undefined.resolve_right (by simp)
  | cons x rest ih =>
    refine ih ?_
    rcases undefined with already | ⟨other, member, none⟩
    · exact .inl (isNaN_add (.inl already))
    · rcases List.mem_cons.mp member with rfl | later
      · exact .inl (isNaN_add (.inr none))
      · exact .inr ⟨other, later, none⟩

/-! Bounds -/

section

variable (bound : y ≤ y)
include bound

theorem not_lt_iff : ¬x < y ↔ y ≤ x ∨ x.isNaN = true := by
  cases undefined : x.isNaN with
  | true => simp [lt_iff, standing_of_isNaN undefined]
  | false =>
    have self := le_self_of_isNaN_eq_false undefined
    simpa using ⟨Scalar.le_of_not_lt bound self, Scalar.not_lt_of_le⟩

theorem not_gt_iff : ¬y < x ↔ x ≤ y ∨ x.isNaN = true := by
  cases undefined : x.isNaN with
  | true => simp [lt_iff, standing_of_isNaN undefined]
  | false =>
    have self := le_self_of_isNaN_eq_false undefined
    simpa using ⟨Scalar.le_of_not_lt self bound, Scalar.not_lt_of_le⟩

theorem not_le_iff : ¬x ≤ y ↔ y < x ∨ x.isNaN = true := by
  cases undefined : x.isNaN with
  | true => simp [le_iff, standing_of_isNaN undefined]
  | false =>
    have self := le_self_of_isNaN_eq_false undefined
    rw [Scalar.Linear.lt_iff]
    simpa using fun above => (Scalar.Linear.le_total self bound).resolve_left above

end

end Fleet.Number
