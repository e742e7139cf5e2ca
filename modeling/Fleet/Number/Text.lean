import Fleet.Number.Shortest

/-! Written numbers: the shortest form of reports and messages, and forms with fixed places. -/

set_option autoImplicit false

namespace Fleet.Number

open Float.Model (UnpackedFloat)

def digitsOf (n : Nat) : List Char := Nat.toDigits 10 n

def zeros (count : Nat) : List Char := List.replicate count '0'

structure Style where
  least : Int
  most : Int
  exponentWidth : Nat

/-- Numbers from `1e-04` up to, but not including, `1e+16` are positional and keep a decimal point;
an exponent has a sign and at least two digits. -/
def Style.report : Style := ⟨-4, 15, 2⟩

def Style.exponentText (style : Style) (exponent : Int) : List Char :=
  let digits := digitsOf exponent.natAbs
  'e' :: (if exponent < 0 then '-' else '+') :: (zeros (style.exponentWidth - digits.length) ++ digits)

/-- A positive decimal with digits `d₁…dₙ` and leading place `10 ^ leading`. -/
def Style.write (style : Style) (decimal : Decimal) : List Char :=
  let digits := digitsOf decimal.coefficient
  let leading := decimal.exponent + (digits.length : Int) - 1
  if leading < style.least ∨ style.most < leading then
    let fraction := digits.drop 1
    digits.take 1 ++ (if fraction.isEmpty then [] else '.' :: fraction) ++ style.exponentText leading
  else if leading < 0 then
    '0' :: '.' :: (zeros (-leading - 1).toNat ++ digits)
  else
    let whole := (leading + 1).toNat
    let fraction := digits.drop whole
    digits.take whole ++ zeros (whole - digits.length) ++
      '.' :: (if fraction.isEmpty then ['0'] else fraction)

def signText : UnpackedFloat.Sign → List Char
  | .positive => []
  | .negative => ['-']

def text (x : Float) : String :=
  String.ofList <|
    match x.toModel.unpack with
    | .notANumber => "nan".toList
    | .infinity sign => signText sign ++ "inf".toList
    | .zero sign => signText sign ++ "0.0".toList
    | .finite sign mantissa exponent _ => signText sign ++ Style.report.write (shortest mantissa exponent)

/-- The quotient rounded to the nearest integer, a tie to the even one. -/
def roundDiv (numerator denominator : Nat) : Nat :=
  let quotient := numerator / denominator
  let twice := 2 * (numerator % denominator)
  if twice < denominator then quotient
  else if denominator < twice then quotient + 1
  else quotient + quotient % 2

def writePlaces (places units : Nat) : List Char :=
  let digits := digitsOf units
  let padded := zeros (places + 1 - digits.length) ++ digits
  let whole := padded.length - places
  padded.take whole ++ (if places = 0 then [] else '.' :: padded.drop whole)

def fixedText (places : Nat) (x : Float) : String :=
  String.ofList <|
    match x.toModel.unpack with
    | .notANumber => "nan".toList
    | .infinity sign => signText sign ++ "inf".toList
    | .zero sign => signText sign ++ writePlaces places 0
    | .finite sign mantissa exponent _ =>
        signText sign ++ writePlaces places
          (roundDiv (mantissa * power 10 places * power 2 exponent) (power 2 (-exponent)))

def listText (xs : List Float) : String :=
  "[" ++ ", ".intercalate (xs.map text) ++ "]"

end Fleet.Number
