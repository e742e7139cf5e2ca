import Fleet.Proofs.Accumulation
import Fleet.Proofs.Number.Bounds
import Fleet.Proofs.Number.Extended

/-! Arithmetic that keeps the order of what is not negative.

A sum over some of the numbers is not more than a sum over all of them, whether the sums are exact,
rounded or beyond all bounds.
-/

set_option autoImplicit false

namespace Fleet

open Number

/-- Addition, multiplication and division by a positive number are monotone on what is not negative. -/
class Scalar.Ordered (α : Type) [Scalar α] : Prop where
  zero_lt_one : (0.0 : α) < 1.0
  isBounded_one : isBounded (1.0 : α) = true
  isBounded_of_le {x y : α} : x ≤ y → isBounded y = true → isBounded x = true
  ofNat_pos {n : Nat} : 0 < n → (0.0 : α) < ofNat n
  isSize_of_ofInt? {n : Int} {x : α} : 0 ≤ n → ofInt? n = some x → IsSize x
  le_add_right {x y : α} : 0.0 ≤ x → 0.0 ≤ y → x ≤ x + y
  le_add_left {x y : α} : 0.0 ≤ x → 0.0 ≤ y → y ≤ x + y
  add_le_add {x y z : α} : 0.0 ≤ x → x ≤ y → 0.0 ≤ z → x + z ≤ y + z
  mul_nonneg {x y : α} : IsSize x → IsSize y → 0.0 ≤ x * y
  mul_le_left {x share : α} : IsSize x → 0.0 ≤ share → share ≤ 1.0 → x * share ≤ x
  div_le_div {x y z : α} : x ≤ y → 0.0 < z → isBounded z = true → x / z ≤ y / z

namespace Exact

theorem zero_eq : ((Scalar.toOfScientific : OfScientific Rat).ofScientific 0 true 1) = 0 := by
  decide +kernel

theorem one_eq : ((Scalar.toOfScientific : OfScientific Rat).ofScientific 10 true 1) = 1 := by
  decide +kernel

end Exact

instance : Scalar.Ordered Rat where
  zero_lt_one := by decide +kernel
  isBounded_one := rfl
  isBounded_of_le _ _ := rfl
  ofNat_pos positive := lt_of_eq_of_lt Exact.zero_eq (Nat.cast_pos.mpr positive)
  isSize_of_ofInt? := by
    intro n x nonneg converted
    cases converted
    exact ⟨le_of_eq_of_le Exact.zero_eq (Int.cast_nonneg nonneg), rfl⟩
  le_add_right _ nonneg := le_add_of_nonneg_right (le_of_eq_of_le Exact.zero_eq.symm nonneg)
  le_add_left nonneg _ := le_add_of_nonneg_left (le_of_eq_of_le Exact.zero_eq.symm nonneg)
  add_le_add _ le _ := add_le_add_left le _
  mul_nonneg first second := le_of_eq_of_le Exact.zero_eq (mul_nonneg
    (le_of_eq_of_le Exact.zero_eq.symm first.1) (le_of_eq_of_le Exact.zero_eq.symm second.1))
  mul_le_left size _ most := mul_le_of_le_one_right
    (le_of_eq_of_le Exact.zero_eq.symm size.1) (le_of_le_of_eq most Exact.one_eq)
  div_le_div le positive _ :=
    div_le_div_of_nonneg_right le (lt_of_eq_of_lt Exact.zero_eq.symm positive).le

namespace Number

variable {x y z : Float} {q : ℚ} {a b : WithBotTop ℚ}

theorem extended?_zero : extended? 0.0 = some (0 : ℚ) := extended?_of_value? value?_zero

theorem extended?_one : extended? 1.0 = some (1 : ℚ) := extended?_of_value? value?_one

theorem exists_extended_of_le (le : x ≤ y) :
    ∃ a b, extended? x = some a ∧ extended? y = some b ∧ a ≤ b := by
  obtain ⟨firstSelf, secondSelf⟩ := Scalar.Linear.self_of_le le
  obtain ⟨a, first⟩ := exists_extended_of_self firstSelf
  obtain ⟨b, second⟩ := exists_extended_of_self secondSelf
  exact ⟨a, b, first, second, (le_iff_of_extended first second).mp le⟩

theorem exists_extended_of_nonneg (nonneg : (0.0 : Float) ≤ x) :
    ∃ a, extended? x = some a ∧ ((0 : ℚ) : WithBotTop ℚ) ≤ a := by
  obtain ⟨zero, a, known, place, le⟩ := exists_extended_of_le nonneg
  obtain rfl := Option.some.inj (known.symm.trans extended?_zero)
  exact ⟨a, place, le⟩

theorem exists_value?_of_isSize (size : Scalar.IsSize x) : ∃ q, value? x = some q ∧ 0 ≤ q := by
  obtain ⟨a, place, nonneg⟩ := exists_extended_of_nonneg size.1
  have infinite : extended? (1.0 / 0.0) = some ⊤ := by decide +kernel
  have less : x < 1.0 / 0.0 := of_decide_eq_true size.2
  cases a using WithBotTop.rec with
  | bot => exact absurd (le_bot_iff.mp nonneg) (WithBotTop.coe_ne_bot 0)
  | top => exact absurd ((le_iff_of_extended infinite place).mpr le_rfl) (Scalar.not_le_of_lt less)
  | coe q => exact ⟨q, value?_of_extended? place, WithBotTop.coe_le_coe.mp nonneg⟩

theorem isSize_of_value? (known : value? x = some q) (nonneg : 0 ≤ q) : Scalar.IsSize x :=
  ⟨(le_iff_of_value? value?_zero known).mpr nonneg, isBounded_of_value? known⟩

theorem extended?_add_of_nonneg (first : extended? x = some a) (second : extended? y = some b)
    (low : ((0 : ℚ) : WithBotTop ℚ) ≤ a) (high : ((0 : ℚ) : WithBotTop ℚ) ≤ b) :
    extended? (x + y) = some (rounded (a + b)) := by
  have nowhere {c : WithBotTop ℚ} (nonneg : ((0 : ℚ) : WithBotTop ℚ) ≤ c) : c ≠ ⊥ := by
    rintro rfl
    exact WithBotTop.coe_ne_bot 0 (le_bot_iff.mp nonneg)
  exact extended?_add first second (fun both => nowhere low both.1) fun both => nowhere high both.2

theorem extended?_ofNat (n : ℕ) : extended? (Float.ofNat n) = some (rounded ((n : ℚ) : WithBotTop ℚ)) := by
  rcases Nat.lt_or_ge n (2 ^ 53) with short | long
  · have known := extended?_of_value? (value?_ofNat_of_short short)
    rw [rounded_of_extended? known]
    exact known
  · obtain ⟨number, holds, stored⟩ := exists_holds_ofNat long
    unfold extended?
    rw [stored]
    exact holds.place?_pack

end Number

instance : Scalar.Ordered Float where
  zero_lt_one := by decide +kernel
  isBounded_one := by decide +kernel
  isBounded_of_le le bounded :=
    decide_eq_true (Scalar.lt_of_le_of_lt le (of_decide_eq_true bounded))
  ofNat_pos := by
    intro n positive
    have unit : (1.0 : Float) ≤ Float.ofNat n := by
      refine (le_iff_of_extended extended?_one (extended?_ofNat n)).mpr ?_
      rw [← rounded_of_extended? extended?_one]
      exact rounded_mono (WithBotTop.coe_le_coe.mpr (Nat.one_le_cast.mpr positive))
    exact Scalar.lt_of_lt_of_le (by decide +kernel : (0.0 : Float) < 1.0) unit
  isSize_of_ofInt? nonneg converted :=
    isSize_of_value? (value?_of_ofInt? converted) (nearest_nonneg (Int.cast_nonneg nonneg))
  le_add_right := by
    intro x y low high
    obtain ⟨a, first, firstLow⟩ := exists_extended_of_nonneg low
    obtain ⟨b, second, secondLow⟩ := exists_extended_of_nonneg high
    refine (le_iff_of_extended first (extended?_add_of_nonneg first second firstLow secondLow)).mpr ?_
    calc a = rounded a := (rounded_of_extended? first).symm
      _ ≤ rounded (a + b) := rounded_mono (le_add_of_nonneg_right secondLow)
  le_add_left := by
    intro x y low high
    obtain ⟨a, first, firstLow⟩ := exists_extended_of_nonneg low
    obtain ⟨b, second, secondLow⟩ := exists_extended_of_nonneg high
    refine (le_iff_of_extended second (extended?_add_of_nonneg first second firstLow secondLow)).mpr ?_
    calc b = rounded b := (rounded_of_extended? second).symm
      _ ≤ rounded (a + b) := rounded_mono (le_add_of_nonneg_left firstLow)
  add_le_add := by
    intro x y z low le high
    obtain ⟨a, first, firstLow⟩ := exists_extended_of_nonneg low
    obtain ⟨b, second, secondLow⟩ := exists_extended_of_nonneg (Scalar.Linear.le_trans low le)
    obtain ⟨c, third, thirdLow⟩ := exists_extended_of_nonneg high
    have order := (le_iff_of_extended first second).mp le
    refine (le_iff_of_extended (extended?_add_of_nonneg first third firstLow thirdLow)
      (extended?_add_of_nonneg second third secondLow thirdLow)).mpr ?_
    exact rounded_mono (add_le_add_left order c)
  mul_nonneg := by
    intro x y first second
    obtain ⟨p, known, low⟩ := exists_value?_of_isSize first
    obtain ⟨q, other, high⟩ := exists_value?_of_isSize second
    refine (le_iff_of_extended extended?_zero (extended?_mul known other)).mpr ?_
    rw [← rounded_of_extended? extended?_zero]
    exact rounded_mono (WithBotTop.coe_le_coe.mpr (mul_nonneg low high))
  mul_le_left := by
    intro x share size least most
    obtain ⟨p, known, low⟩ := exists_value?_of_isSize size
    obtain ⟨q, other, -, high⟩ := within_unit_of_le least most
    refine (le_iff_of_extended (extended?_mul known other) (extended?_of_value? known)).mpr ?_
    rw [← rounded_of_extended? (extended?_of_value? known)]
    exact rounded_mono (WithBotTop.coe_le_coe.mpr (mul_le_of_le_one_right low high))
  div_le_div := by
    intro x y z le positive bounded
    obtain ⟨a, b, first, second, order⟩ := exists_extended_of_le le
    obtain ⟨q, known, nonneg⟩ := exists_value?_of_isSize ⟨Scalar.le_of_lt positive, bounded⟩
    have above := (lt_iff_of_value? value?_zero known).mp positive
    refine (le_iff_of_extended (extended?_div first known above)
      (extended?_div second known above)).mpr ?_
    exact rounded_mono (quotient_mono above order)

instance : Scalar.Accumulating Float where
  le_add := by
    intro total x self size
    obtain ⟨a, first⟩ := exists_extended_of_self self
    obtain ⟨q, known, nonneg⟩ := exists_value?_of_isSize size
    have sum := extended?_add first (extended?_of_value? known)
      (fun both => WithBotTop.coe_ne_top q both.2) fun both => WithBotTop.coe_ne_bot q both.2
    refine (le_iff_of_extended first sum).mpr ?_
    calc a = rounded a := (rounded_of_extended? first).symm
      _ ≤ rounded (a + q) := rounded_mono (le_add_of_nonneg_right (WithBotTop.coe_le_coe.mpr nonneg))
  add_le_add := by
    intro first second x le size
    obtain ⟨a, b, low, high, order⟩ := exists_extended_of_le le
    obtain ⟨q, known, -⟩ := exists_value?_of_isSize size
    have sum {y : Float} {c : WithBotTop ℚ} (place : extended? y = some c) :
        extended? (y + x) = some (rounded (c + q)) :=
      extended?_add place (extended?_of_value? known)
        (fun both => WithBotTop.coe_ne_top q both.2) fun both => WithBotTop.coe_ne_bot q both.2
    exact (le_iff_of_extended (sum low) (sum high)).mpr (rounded_mono (add_le_add_left order _))

namespace Scalar

open Linear Ordered

variable {α : Type} [Scalar α] [Linear α] [Ordered α]

theorem zero_le_zero : (0.0 : α) ≤ 0.0 := (self_of_le (le_of_lt zero_lt_one)).1

theorem one_le_one : (1.0 : α) ≤ 1.0 := (self_of_le (le_of_lt zero_lt_one)).2

/-! Sums of what is not negative -/

variable {part whole xs : List α} {x first second : α}

theorem sum_le_sum (sub : part.Sublist whole) (nonneg : ∀ x ∈ whole, (0.0 : α) ≤ x) :
    sum part ≤ sum whole :=
  foldl_add_le_foldl (fun low high => le_add_right low high) (fun low le high => add_le_add low le high)
    (fun low le => le_trans low le) sub nonneg zero_le_zero zero_le_zero

theorem sum_nonneg (nonneg : ∀ x ∈ xs, (0.0 : α) ≤ x) : 0.0 ≤ sum xs :=
  sum_le_sum (List.nil_sublist xs) nonneg

theorem le_sum (member : x ∈ xs) (nonneg : ∀ x ∈ xs, (0.0 : α) ≤ x) : x ≤ sum xs := by
  have alone : x ≤ sum [x] := le_add_left zero_le_zero (nonneg x member)
  exact le_trans alone (sum_le_sum (List.singleton_sublist.mpr member) nonneg)

/-! Least numbers beside numbers beyond bounds -/

section

variable {Item : Type} {scored : List (Item × α)} {least : Item × α}

end

/-! Shares -/

/-- A number from zero to one. -/
def IsShare (x : α) : Prop := 0.0 ≤ x ∧ x ≤ 1.0

omit [Linear α] in
theorem IsShare.isSize (share : IsShare x) : IsSize x :=
  ⟨share.1, isBounded_of_le share.2 isBounded_one⟩

theorem isShare_zero : IsShare (0.0 : α) := ⟨zero_le_zero, le_of_lt zero_lt_one⟩

theorem isShare_clampUnit (self : x ≤ x) : IsShare (clampUnit x) := by
  have unit : (0.0 : α) ≤ 1.0 := le_of_lt zero_lt_one
  unfold clampUnit
  split
  · exact isShare_zero
  · next notNegative =>
    split
    · exact ⟨unit, one_le_one⟩
    · next notMore =>
      exact ⟨le_of_not_lt zero_le_zero self notNegative, le_of_not_lt self one_le_one notMore⟩

end Scalar

end Fleet
