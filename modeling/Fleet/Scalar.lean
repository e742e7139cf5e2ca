import Fleet.Number.Binary64

/-! The numbers that loads, forecasts and scores are computed with.

Everything numeric is written once over `Scalar` and runs at `Float`. The instance for `Rat` gives the
same formulas in exact arithmetic. No law is part of the class: a comparison with a binary64 number
that is not a number is false, and the formulas are read with that in mind.
-/

set_option autoImplicit false

namespace Fleet

class Scalar (α : Type) extends Add α, Sub α, Mul α, Div α, LT α, LE α, BEq α, OfScientific α where
  decLt (first second : α) : Decidable (first < second)
  decLe (first second : α) : Decidable (first ≤ second)
  abs : α → α
  ofNat : Nat → α
  /-- The nearest number, unless the integer lies beyond all of them. -/
  ofInt? : Int → Option α
  floor : α → Except Number.NoInteger Int
  ceil : α → Except Number.NoInteger Int
  isMultipleOf : α → α → Bool
  equalsInt : α → Int → Bool
  /-- The square, unless it lies beyond all numbers. -/
  square? : α → Option α
  /-- Whether some number is greater. -/
  isBounded : α → Bool

attribute [reducible, instance] Scalar.decLt Scalar.decLe

instance : Scalar Float where
  decLt _ _ := inferInstance
  decLe _ _ := inferInstance
  abs := Float.abs
  ofNat := Float.ofNat
  ofInt? := Number.ofInt?
  floor := Number.floor
  ceil := Number.ceil
  isMultipleOf := Number.isMultipleOf
  equalsInt := Number.equalsInt
  square? := Number.square?
  isBounded x := x < 1.0 / 0.0

instance : Scalar Rat where
  decLt _ _ := inferInstance
  decLe _ _ := inferInstance
  abs := Rat.abs
  ofNat n := (n : Rat)
  ofInt? n := some (n : Rat)
  floor x := .ok x.floor
  ceil x := .ok x.ceil
  isMultipleOf x step := (x / step).den == 1
  equalsInt x n := x == (n : Rat)
  square? x := some (x * x)
  isBounded _ := true

namespace Scalar

variable {α : Type} [Scalar α]

/-- The second number only if it is greater. -/
def max (first second : α) : α := if first < second then second else first

/-- The second number only if it is less. -/
def min (first second : α) : α := if second < first then second else first

def clampUnit (x : α) : α :=
  if x < 0.0 then 0.0 else if 1.0 < x then 1.0 else x

/-- Neither below zero nor above one. What is not a number passes. -/
def isFraction (x : α) : Bool := !decide (x < 0.0) && !decide (1.0 < x)

/-- Addition from left to right, beginning with zero. -/
def sum (xs : List α) : α := xs.foldl (· + ·) 0.0

theorem sum_append (xs ys : List α) : sum (xs ++ ys) = ys.foldl (· + ·) (sum xs) :=
  List.foldl_append

theorem sum_concat (xs : List α) (x : α) : sum (xs ++ [x]) = sum xs + x := by
  simp [sum_append]

/-- Each number beside the item it belongs to: the first item of least number, unless no number
lies below all bounds. -/
def firstLeast {β : Type} (scored : List (β × α)) : Option (β × α) :=
  scored.foldl (fun best entry =>
    match best with
    | none => if isBounded entry.2 then some entry else none
    | some least => if entry.2 < least.2 then some entry else best) none

end Scalar

end Fleet
