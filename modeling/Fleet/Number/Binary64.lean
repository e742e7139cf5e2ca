/-! Exact integer readings of binary64 numbers.

A finite number is `significand * 2 ^ exponent`, so its floor, its ceiling and the question whether
it is a multiple of a step are integer arithmetic and involve no rounding.
-/

set_option autoImplicit false

namespace Fleet.Number

open Float.Model (UnpackedFloat)

inductive NoInteger where
  | infinite
  | notANumber
  deriving DecidableEq, Repr

def power (base : Nat) (exponent : Int) : Nat := Nat.pow base exponent.toNat

theorem power_pos {base : Nat} (positive : 0 < base) (exponent : Int) : 0 < power base exponent :=
  Nat.pow_pos positive

/-- The greatest integer not above `significand * 2 ^ exponent`. -/
def scaledFloor (significand exponent : Int) : Int :=
  if 0 ≤ exponent then significand * power 2 exponent else significand / power 2 (-exponent)

theorem scaledFloor_of_nonneg (significand : Int) {exponent : Int} (nonneg : 0 ≤ exponent) :
    scaledFloor significand exponent = significand * power 2 exponent := by
  simp [scaledFloor, nonneg]

theorem scaledFloor_of_neg (significand : Int) {exponent : Int} (negative : exponent < 0) :
    scaledFloor significand exponent = significand / power 2 (-exponent) := by
  simp [scaledFloor, Int.not_le.mpr negative]

def signed : UnpackedFloat.Sign → Nat → Int
  | .positive, magnitude => magnitude
  | .negative, magnitude => -magnitude

def floor (x : Float) : Except NoInteger Int :=
  match x.toModel.unpack with
  | .notANumber => .error .notANumber
  | .infinity _ => .error .infinite
  | .zero _ => .ok 0
  | .finite sign mantissa exponent _ => .ok (scaledFloor (signed sign mantissa) exponent)

def ceil (x : Float) : Except NoInteger Int :=
  match x.toModel.unpack with
  | .notANumber => .error .notANumber
  | .infinity _ => .error .infinite
  | .zero _ => .ok 0
  | .finite sign mantissa exponent _ => .ok (-scaledFloor (-signed sign mantissa) exponent)

/-- Both numbers are brought to the smaller exponent, where divisibility is that of integers. -/
def isMultipleOf (x step : Float) : Bool :=
  match x.toModel.unpack, step.toModel.unpack with
  | .zero _, .finite .. => true
  | .finite _ mantissa exponent _, .finite _ stepMantissa stepExponent _ =>
      let common := min exponent stepExponent
      mantissa * power 2 (exponent - common) % (stepMantissa * power 2 (stepExponent - common)) == 0
  | _, _ => false

def equalsInt (x : Float) (n : Int) : Bool :=
  match x.toModel.unpack with
  | .zero _ => n == 0
  | .finite sign mantissa exponent _ =>
      if 0 ≤ exponent then signed sign mantissa * power 2 exponent == n
      else signed sign mantissa == n * power 2 (-exponent)
  | _ => false

def ofInt? (n : Int) : Option Float :=
  let x := Float.ofInt n
  if x.isFinite then some x else none

/-- The square, unless a finite number has one that rounds beyond the finite range. -/
def square? (x : Float) : Option Float :=
  let result := x * x
  if x.isFinite && !result.isFinite then none else some result

/-- The number nearest to `coefficient * 10 ^ exponent`. Exponents far outside the range of
binary64 are settled by the digit count alone. -/
def ofDecimal (coefficient : Nat) (exponent : Int) : Float :=
  let magnitude := exponent + (Nat.log2 coefficient * 30103 / 100000 : Nat)
  if coefficient = 0 then 0.0
  else if magnitude > 310 then 1.0 / 0.0
  else if magnitude < -330 then 0.0
  else if exponent < 0 then OfScientific.ofScientific coefficient true (-exponent).toNat
  else OfScientific.ofScientific coefficient false exponent.toNat

end Fleet.Number
