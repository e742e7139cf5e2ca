import Fleet.Number.Binary64

/-! The fewest decimal digits that read back to a binary64 number.

The reals that round to `m * 2 ^ e` form an interval around it, which contains its ends exactly when
`m` is even. On the grid of multiples of `10 ^ k` only the two neighbours of the number have to be
tested, so the answer is the first hit over grids of decreasing step.
-/

set_option autoImplicit false

namespace Fleet.Number

structure Decimal where
  coefficient : Nat
  exponent : Int
  deriving DecidableEq, Repr

/-- A positive binary64 number with the quarter units of its last place that separate it from the
ends of its rounding interval. -/
structure Interval where
  mantissa : Nat
  exponent : Int
  below : Nat
  above : Nat
  deriving Repr

/-- The gap below a power of two is half as wide, unless the exponent cannot get smaller. -/
def Interval.of (mantissa : Nat) (exponent : Int) : Interval where
  mantissa := mantissa
  exponent := exponent
  below := if mantissa = power 2 52 ∧ -1074 < exponent then 1 else 2
  above := 2

def Interval.factors (interval : Interval) (k : Int) : Nat × Nat :=
  (power 2 interval.exponent * power 10 (-k), power 10 k * power 2 (-interval.exponent))

def Interval.contains (interval : Interval) (k : Int) (coefficient : Nat) : Bool :=
  let (binary, decimal) := interval.factors k
  let low := (4 * interval.mantissa - interval.below) * binary
  let high := (4 * interval.mantissa + interval.above) * binary
  let value := 4 * coefficient * decimal
  if interval.mantissa % 2 = 0 then low ≤ value && value ≤ high else low < value && value < high

/-- The nearest multiple of `10 ^ k` that rounds to the number; a tie goes to the even neighbour. -/
def Interval.hit? (interval : Interval) (k : Int) : Option Nat :=
  let (binary, decimal) := interval.factors k
  let value := interval.mantissa * binary
  let lower := value / decimal
  let toLower := value - lower * decimal
  let toUpper := (lower + 1) * decimal - value
  match interval.contains k lower, interval.contains k (lower + 1) with
  | false, false => none
  | true, false => some lower
  | false, true => some (lower + 1)
  | true, true =>
      if toLower < toUpper then some lower
      else if toUpper < toLower then some (lower + 1)
      else some (if lower % 2 = 0 then lower else lower + 1)

def Interval.search (interval : Interval) : Nat → Int → Decimal
  | 0, k => ⟨0, k⟩
  | grids + 1, k =>
      match interval.hit? k with
      | some (coefficient + 1) => ⟨coefficient + 1, k⟩
      | _ => interval.search grids (k - 1)

/-- Seventeen digits always suffice, and the search begins at most three places too high. -/
def shortest (mantissa : Nat) (exponent : Int) : Decimal :=
  let magnitude := ((Nat.log2 mantissa : Int) + exponent) * 30103 / 100000
  (Interval.of mantissa exponent).search 22 (magnitude + 2)

end Fleet.Number
