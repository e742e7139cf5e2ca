import Fleet.Number.Binary64

/-! Numbers read from text.

A decimal literal has a sign, digits with at most one point among or beside them, and an exponent;
the words for infinity and for no number are read in any case. An integer literal has a sign and
digits without leading zeros. Both kinds are also read from looser forms: with underscores, and for
integers with a plus sign, with zeros in front, or with a point and zeros at the end.
-/

set_option autoImplicit false

namespace Fleet.Number

/-- The characters with the Unicode property `White_Space`. -/
def isBlank (c : Char) : Bool :=
  let code := c.toNat
  (9 ≤ code && code ≤ 13) || code == 32 || code == 0x85 || code == 0xA0 || code == 0x1680 ||
    (0x2000 ≤ code && code ≤ 0x200A) || code == 0x2028 || code == 0x2029 || code == 0x202F ||
    code == 0x205F || code == 0x3000

def trim (text : List Char) : List Char :=
  ((text.dropWhile isBlank).reverse.dropWhile isBlank).reverse

def digitsValue (digits : List Char) : Nat :=
  digits.foldl (fun value digit => 10 * value + (digit.toNat - '0'.toNat)) 0

def splitSign : List Char → Bool × List Char
  | '-' :: rest => (true, rest)
  | '+' :: rest => (false, rest)
  | text => (false, text)

def hasDoubleUnderscore : List Char → Bool
  | '_' :: '_' :: _ => true
  | _ :: rest => hasDoubleUnderscore rest
  | [] => false

def joinGroups? (text : List Char) : Option (List Char) :=
  if text.head? == some '_' || text.getLast? == some '_' || !text.contains '_' ||
      hasDoubleUnderscore text then none
  else some (text.filter (· != '_'))

def groupsDigits : List Char → Bool
  | first :: '_' :: third :: rest =>
      first.isDigit && third.isDigit && groupsDigits (third :: rest)
  | '_' :: _ | [_, '_'] => false
  | _ :: rest => groupsDigits rest
  | [] => true

/-! Decimals -/

def readExponent? : List Char → Option Int
  | [] => some 0
  | marker :: rest =>
      let (negative, digits) := splitSign rest
      if marker.toLower != 'e' || digits.isEmpty || !digits.all Char.isDigit then none
      else some (if negative then -(digitsValue digits : Int) else digitsValue digits)

def readMagnitude? (text : List Char) : Option Float :=
  match String.ofList (text.map Char.toLower) with
  | "inf" | "infinity" => some (1.0 / 0.0)
  | "nan" => some (0.0 / 0.0)
  | _ =>
      let whole := text.takeWhile Char.isDigit
      let rest := text.dropWhile Char.isDigit
      let (fraction, rest) :=
        match rest with
        | '.' :: tail => (tail.takeWhile Char.isDigit, tail.dropWhile Char.isDigit)
        | _ => ([], rest)
      if whole.isEmpty && fraction.isEmpty then none
      else (readExponent? rest).map fun exponent =>
        ofDecimal (digitsValue (whole ++ fraction)) (exponent - fraction.length)

def readPlain? (text : List Char) : Option Float :=
  let (negative, magnitude) := splitSign text
  (readMagnitude? magnitude).map fun value => if negative then -value else value

def readDecimal? (text : String) : Option Float :=
  readPlain? (trim text.toList) <|> (joinGroups? text.toList).bind readPlain?

def readGroupedDecimal? (text : String) : Option Float :=
  let trimmed := trim text.toList
  if groupsDigits trimmed then readPlain? (trimmed.filter (· != '_')) else none

/-! Integers -/

inductive IntegerReading where
  | value (value : Int)
  | malformed
  /-- The text begins as an integer that has too many digits. -/
  | oversized
  deriving DecidableEq, Repr

/-- An integer has this many digits at most; its minus sign does not count. -/
def longestInteger : Nat := 4300

def signedValue (negative : Bool) (digits : List Char) : Int :=
  if negative then -(digitsValue digits : Int) else digitsValue digits

def splitMinus : List Char → Bool × List Char
  | '-' :: rest => (true, rest)
  | text => (false, text)

/-- Whether the text begins with too many digits, whatever follows them. -/
def isOversized (text : List Char) : Bool :=
  let digits := (splitMinus text).2.takeWhile Char.isDigit
  digits.head? != some '0' && longestInteger < digits.length

/-- An optional minus sign and digits, of which the first one is zero only if it is the only one. -/
def readCanonical? (text : List Char) : Option Int :=
  let (negative, digits) := splitMinus text
  if digits = ['0'] then some 0
  else if digits.isEmpty || digits.head? == some '0' || !digits.all Char.isDigit then none
  else if longestInteger < digits.length then none
  else some (signedValue negative digits)

/-- The text after its leading zeros, among which underscores may stand. The last character before a
point or before the end of the text is kept. -/
def skipZeros? (previous : Char) : List Char → Option (List Char)
  | [] => some [previous]
  | c :: rest =>
      if c == '0' || c == '_' then skipZeros? c rest
      else if c == '-' || c.isDigit then some (c :: rest)
      else if c == '.' then some (previous :: c :: rest)
      else none

def withoutZeros? : List Char → Option (List Char)
  | '0' :: rest => skipZeros? '0' rest
  | c :: rest => if c.isDigit then some (c :: rest) else none
  | [] => none

/-- The text up to its first point, if nothing but zeros, and one at least, comes after it. -/
def withoutPoint (text : List Char) : List Char :=
  match text.dropWhile (· != '.') with
  | '.' :: '0' :: zeros =>
      if zeros.all (· == '0') then text.takeWhile (· != '.') else text
  | _ => text

def withoutLead? : List Char → Option (List Char)
  | '-' :: rest => (withoutZeros? rest).map ('-' :: ·)
  | '+' :: rest => withoutZeros? rest
  | text => withoutZeros? text

def canonical? (text : List Char) : Option (List Char) :=
  (withoutLead? text).map fun text =>
    let whole := withoutPoint text
    (joinGroups? whole).getD whole

/-- An integer literal between blanks. Only a text without blanks before it counts as oversized. -/
def readInteger (text : String) : IntegerReading :=
  if isOversized text.toList then .oversized
  else ((canonical? (trim text.toList)).bind readCanonical?).elim .malformed .value

end Fleet.Number
