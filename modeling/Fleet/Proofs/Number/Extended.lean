import Fleet.Proofs.Number.Reading
import Mathlib.Algebra.Order.Monoid.WithTop
import Mathlib.Order.WithBotTop

/-! Binary64 numbers on a line with two ends.

A result beyond the finite range lies at an end of the line. Seen so, an operation rounds the exact
result, and rounding keeps the order. So sums, products and quotients are in order even where they get
too large.
-/

set_option autoImplicit false

namespace Fleet.Number

open Float.Model (UnpackedFloat)
open Float.Model.UnpackedFloat

def cut (q : ℚ) : WithBotTop ℚ := if q ≤ -2 ^ 1024 then ⊥ else if 2 ^ 1024 ≤ q then ⊤ else q

/-- Rounding leaves the ends where they are. -/
def rounded : WithBotTop ℚ → WithBotTop ℚ := WithBotTop.rec ⊥ (fun q => cut (nearest q)) ⊤

@[simp] theorem rounded_coe (q : ℚ) : rounded q = cut (nearest q) := rfl

theorem range_pos : (0 : ℚ) < 2 ^ 1024 := by positivity

theorem cut_mono {p q : ℚ} (le : p ≤ q) : cut p ≤ cut q := by
  have positive := range_pos
  unfold cut
  generalize (2 : ℚ) ^ 1024 = range at positive ⊢
  split_ifs
  · exact le_rfl
  · exact bot_le
  · exact bot_le
  · linarith
  · exact le_rfl
  · linarith
  · linarith
  · exact le_top
  · exact WithBotTop.coe_le_coe.mpr le

theorem cut_of_abs_lt {q : ℚ} (inside : |q| < 2 ^ 1024) : cut q = q := by
  obtain ⟨low, high⟩ := abs_lt.mp inside
  unfold cut
  rw [if_neg (not_le.mpr low), if_neg (not_le.mpr high)]

theorem cut_of_le {q : ℚ} (large : 2 ^ 1024 ≤ q) : cut q = ⊤ := by
  have above : -2 ^ 1024 < q := (neg_lt_zero.mpr range_pos).trans (range_pos.trans_le large)
  unfold cut
  rw [if_neg (not_le.mpr above), if_pos large]

theorem cut_of_le_neg {q : ℚ} (small : q ≤ -2 ^ 1024) : cut q = ⊥ := by
  unfold cut
  rw [if_pos small]

theorem rounded_mono {a b : WithBotTop ℚ} (le : a ≤ b) : rounded a ≤ rounded b := by
  cases a using WithBotTop.rec with
  | bot => exact bot_le
  | top => rw [top_le_iff.mp le]
  | coe p =>
    cases b using WithBotTop.rec with
    | bot => exact absurd (le_bot_iff.mp le) (WithBotTop.coe_ne_bot p)
    | top => exact le_top
    | coe q =>
      rw [rounded_coe, rounded_coe]
      exact cut_mono (nearest_mono (WithBotTop.coe_le_coe.mp le))

/-! Numbers on the line -/

def farEnd : Sign → WithBotTop ℚ
  | .positive => ⊤
  | .negative => ⊥

/-- The place of a number on the line, if it has one. -/
def place? : UnpackedFloat → Option (WithBotTop ℚ)
  | .notANumber => none
  | .infinity sign => some (farEnd sign)
  | .zero _ => some (0 : ℚ)
  | .finite sign mantissa exponent _ => some ((signed sign mantissa * 2 ^ exponent : ℚ))

theorem place?_of_holds {number : UnpackedFloat} {q : ℚ} (holds : Holds number q) :
    place? number = some (q : WithBotTop ℚ) := by
  cases holds <;> rfl

/-- A number is stored where the cut puts it. -/
theorem Holds.place?_pack {number : UnpackedFloat} {q : ℚ} (holds : Holds number q) :
    place? (Float.Model.pack number).unpack = some (cut q) := by
  have stored := holds.stored
  cases inside : inRange? q with
  | some r =>
    obtain ⟨rfl, small⟩ := inRange?_eq_some.mp inside
    rw [inside] at stored
    rw [cut_of_abs_lt small]
    exact place?_of_holds (.of_unpack stored)
  | none =>
    have beyond : 2 ^ 1024 ≤ |q| := by
      by_contra inner
      rw [inRange?_eq_some.mpr ⟨rfl, not_le.mp inner⟩] at inside
      cases inside
    cases holds with
    | zero => exact absurd beyond (by rw [abs_zero]; exact range_pos.not_ge)
    | @finite sign mantissa exponent positive kept =>
      have large : 971 < exponent := by
        by_contra small
        have canonical : Canonical (.finite sign mantissa exponent positive) :=
          .finite positive kept (not_lt.mp small)
        have whole := unpack_pack canonical
        rw [inside] at stored
        cases stored.symm.trans (congrArg unpackedValue? whole)
      have size : (0 : ℚ) ≤ mantissa * 2 ^ exponent :=
        mul_nonneg (Nat.cast_nonneg mantissa) (two_zpow_pos exponent).le
      rw [signed_abs] at beyond
      have infinite := unpack_pack_of_large sign positive large
      change place? (unpack .binary64 (pack .binary64 _)) = _
      rw [infinite, signed_eq]
      cases sign with
      | positive => rw [unit, one_mul, cut_of_le beyond]; rfl
      | negative => rw [unit, neg_one_mul, neg_mul, cut_of_le_neg (neg_le_neg beyond)]; rfl

def extended? (x : Float) : Option (WithBotTop ℚ) := place? x.toModel.unpack

variable {x y : Float} {p q : ℚ} {a b : WithBotTop ℚ}

theorem extended?_of_value? (known : value? x = some q) : extended? x = some (q : WithBotTop ℚ) :=
  place?_of_holds (holds_of_value? known)

theorem value?_of_extended? (known : extended? x = some (q : WithBotTop ℚ)) : value? x = some q := by
  unfold extended? at known
  unfold value?
  generalize x.toModel.unpack = number at known ⊢
  rcases number with (_ | _) | _ | _ | _
  · cases known
  · cases known
  · cases known
  · obtain rfl := WithBotTop.coe_injective (Option.some.inj known)
    rfl
  · obtain rfl := WithBotTop.coe_injective (Option.some.inj known)
    rfl

theorem unpack_of_extended?_bot (known : extended? x = some ⊥) :
    x.toModel.unpack = .infinity .negative := by
  unfold extended? at known
  generalize x.toModel.unpack = number at known ⊢
  rcases number with (_ | _) | _ | _ | _ <;> cases known
  rfl

theorem unpack_of_extended?_top (known : extended? x = some ⊤) :
    x.toModel.unpack = .infinity .positive := by
  unfold extended? at known
  generalize x.toModel.unpack = number at known ⊢
  rcases number with (_ | _) | _ | _ | _ <;> cases known
  rfl

theorem rank_of_extended?_bot (known : extended? x = some ⊥) :
    standing x = some (toLex ((-2 : ℤ), toLex ((0 : ℤ), (0 : ℤ)))) := by
  unfold standing
  rw [unpack_of_extended?_bot known]
  rfl

theorem rank_of_extended?_top (known : extended? x = some ⊤) :
    standing x = some (toLex ((2 : ℤ), toLex ((0 : ℤ), (0 : ℤ)))) := by
  unfold standing
  rw [unpack_of_extended?_top known]
  rfl

theorem rank_of_extended?_coe (known : extended? x = some (q : WithBotTop ℚ)) :
    ∃ r, standing x = some r ∧ toLex ((-2 : ℤ), toLex ((0 : ℤ), (0 : ℤ))) < r ∧
      r < toLex ((2 : ℤ), toLex ((0 : ℤ), (0 : ℤ))) :=
  (holds_of_value? (value?_of_extended? known)).exists_rank

theorem le_iff_of_extended (first : extended? x = some a) (second : extended? y = some b) :
    x ≤ y ↔ a ≤ b := by
  have ends : toLex ((-2 : ℤ), toLex ((0 : ℤ), (0 : ℤ))) < toLex ((2 : ℤ), toLex ((0 : ℤ), (0 : ℤ))) := by
    simp [Prod.Lex.toLex_lt_toLex]
  have ranked {r s : ℤ ×ₗ ℤ ×ₗ ℤ} (low : standing x = some r) (high : standing y = some s) :
      x ≤ y ↔ r ≤ s := by
    rw [le_iff, low, high]
    simp
  cases a using WithBotTop.rec with
  | bot =>
    have least := rank_of_extended?_bot first
    cases b using WithBotTop.rec with
    | bot => simp [ranked least (rank_of_extended?_bot second)]
    | top => simp [ranked least (rank_of_extended?_top second), ends.le]
    | coe q =>
      obtain ⟨s, high, above, -⟩ := rank_of_extended?_coe second
      simp [ranked least high, above.le]
  | top =>
    have greatest := rank_of_extended?_top first
    cases b using WithBotTop.rec with
    | bot => simp [ranked greatest (rank_of_extended?_bot second), ends.not_ge]
    | top => simp [ranked greatest (rank_of_extended?_top second)]
    | coe q =>
      obtain ⟨s, high, -, below⟩ := rank_of_extended?_coe second
      simp [ranked greatest high, below.not_ge]
  | coe p =>
    obtain ⟨r, low, bottom, top⟩ := rank_of_extended?_coe first
    cases b using WithBotTop.rec with
    | bot => simp [ranked low (rank_of_extended?_bot second), bottom.not_ge]
    | top => simp [ranked low (rank_of_extended?_top second), top.le]
    | coe q =>
      rw [le_iff_of_value? (value?_of_extended? first) (value?_of_extended? second),
        WithBotTop.coe_le_coe]

theorem exists_extended_of_self (self : x ≤ x) : ∃ a, extended? x = some a := by
  obtain ⟨r, known, -⟩ := le_iff.mp self
  unfold standing at known
  unfold extended?
  generalize x.toModel.unpack = number at known ⊢
  rcases number with (_ | _) | _ | _ | _
  case notANumber => cases known
  all_goals exact ⟨_, rfl⟩

theorem rounded_of_extended? (known : extended? x = some a) : rounded a = a := by
  cases a using WithBotTop.rec with
  | bot => rfl
  | top => rfl
  | coe q =>
    have value := value?_of_extended? known
    rw [rounded_coe, (representable_of_value? value).nearest_eq, cut_of_abs_lt (abs_lt_of_value? value)]

/-! Operations -/

theorem extended?_add_of_value? (first : value? x = some p) (second : value? y = some q) :
    extended? (x + y) = some (rounded ((p + q : ℚ) : WithBotTop ℚ)) :=
  ((holds_of_value? first).add (holds_of_value? second)).place?_pack

/-- An end stays, whatever is added to it, unless that is the other end. -/
theorem extended?_farEnd_add (sign : Sign) (first : extended? x = some (farEnd sign))
    (second : extended? y = some b) (apart : b ≠ farEnd (-sign)) :
    extended? (x + y) = some (farEnd sign) ∧ extended? (y + x) = some (farEnd sign) := by
  have infinite : x.toModel.unpack = .infinity sign := by
    cases sign with
    | positive => exact unpack_of_extended?_top first
    | negative => exact unpack_of_extended?_bot first
  have stays : UnpackedFloat.add .binary64 (.infinity sign) y.toModel.unpack = .infinity sign ∧
      UnpackedFloat.add .binary64 y.toModel.unpack (.infinity sign) = .infinity sign := by
    unfold extended? at second
    generalize y.toModel.unpack = number at second ⊢
    rcases number with other | _ | _ | _
    · cases sign <;> cases other <;> cases second <;>
        first | exact ⟨rfl, rfl⟩ | exact absurd rfl apart
    · cases second
    · exact ⟨rfl, rfl⟩
    · exact ⟨rfl, rfl⟩
  have stored : place? (Float.Model.pack (.infinity sign)).unpack = some (farEnd sign) :=
    congrArg place? (unpack_pack (.infinity sign))
  constructor
  · change place? (Float.Model.pack
      (UnpackedFloat.add .binary64 x.toModel.unpack y.toModel.unpack)).unpack = _
    rw [infinite, stays.1, stored]
  · change place? (Float.Model.pack
      (UnpackedFloat.add .binary64 y.toModel.unpack x.toModel.unpack)).unpack = _
    rw [infinite, stays.2, stored]

/-- Unless opposite ends meet, a sum is the rounded sum on the line. -/
theorem extended?_add (first : extended? x = some a) (second : extended? y = some b)
    (rising : ¬(a = ⊥ ∧ b = ⊤)) (falling : ¬(a = ⊤ ∧ b = ⊥)) :
    extended? (x + y) = some (rounded (a + b)) := by
  cases a using WithBotTop.rec with
  | bot =>
    rw [WithBot.bot_add]
    exact (extended?_farEnd_add .negative first second fun same => rising ⟨rfl, same⟩).1
  | top =>
    have above : b ≠ ⊥ := fun same => falling ⟨rfl, same⟩
    have sum : (⊤ : WithBotTop ℚ) + b = ⊤ := by
      cases b using WithBotTop.rec with
      | bot => exact absurd rfl above
      | top => rfl
      | coe q => rfl
    rw [sum]
    exact (extended?_farEnd_add .positive first second above).1
  | coe p =>
    cases b using WithBotTop.rec with
    | bot =>
      exact (extended?_farEnd_add .negative second first (WithBotTop.coe_ne_top p)).2
    | top =>
      exact (extended?_farEnd_add .positive second first (WithBotTop.coe_ne_bot p)).2
    | coe q => exact extended?_add_of_value? (value?_of_extended? first) (value?_of_extended? second)

theorem extended?_mul (first : value? x = some p) (second : value? y = some q) :
    extended? (x * y) = some (rounded ((p * q : ℚ) : WithBotTop ℚ)) :=
  ((holds_of_value? first).mul (holds_of_value? second)).place?_pack

def quotient (a : WithBotTop ℚ) (q : ℚ) : WithBotTop ℚ :=
  a.rec ⊥ (fun p => (p / q : ℚ)) ⊤

theorem quotient_mono (positive : 0 < q) (le : a ≤ b) : quotient a q ≤ quotient b q := by
  cases a using WithBotTop.rec with
  | bot => exact bot_le
  | top => rw [top_le_iff.mp le]
  | coe p =>
    cases b using WithBotTop.rec with
    | bot => exact absurd (le_bot_iff.mp le) (WithBotTop.coe_ne_bot p)
    | top => exact le_top
    | coe r =>
      exact WithBotTop.coe_le_coe.mpr
        (div_le_div_of_nonneg_right (WithBotTop.coe_le_coe.mp le) positive.le)

theorem extended?_div (first : extended? x = some a) (second : value? y = some q)
    (positive : 0 < q) : extended? (x / y) = some (rounded (quotient a q)) := by
  have infinite {sign : Sign} (unpacked : x.toModel.unpack = .infinity sign) :
      extended? (x / y) = some (farEnd sign) := by
    have holds := holds_of_value? second
    have stays : UnpackedFloat.div .binary64 (.infinity sign) y.toModel.unpack = .infinity sign := by
      generalize y.toModel.unpack = number at holds ⊢
      cases holds with
      | zero => exact absurd rfl positive.ne
      | @finite other mantissa exponent _ _ =>
        cases other with
        | positive => cases sign <;> rfl
        | negative =>
          have size : (0 : ℚ) ≤ mantissa * 2 ^ exponent :=
            mul_nonneg (Nat.cast_nonneg mantissa) (two_zpow_pos exponent).le
          rw [signed_eq, unit, neg_one_mul, neg_mul] at positive
          exact absurd positive (neg_nonpos.mpr size).not_gt
    change place? (Float.Model.pack
      (UnpackedFloat.div .binary64 x.toModel.unpack y.toModel.unpack)).unpack = _
    rw [unpacked, stays]
    exact congrArg place? (unpack_pack (.infinity sign))
  cases a using WithBotTop.rec with
  | bot => exact infinite (unpack_of_extended?_bot first)
  | top => exact infinite (unpack_of_extended?_top first)
  | coe p =>
    exact ((holds_of_value? (value?_of_extended? first)).div (holds_of_value? second)
      positive.ne').place?_pack

end Fleet.Number
