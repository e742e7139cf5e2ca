import Fleet.Text.CodePoint
import Fleet.Text.Unseen

/-! Text between quotes, as messages show it.

The quotes are single ones, unless the text has single quotes and no double ones. The quote in use, the
backslash and what cannot be seen are escaped, apart from the space.
-/

set_option autoImplicit false

namespace Fleet.Text

def quoteFor (text : List Nat) : Char :=
  if text.contains '\''.toNat && !text.contains '"'.toNat then '"' else '\''

def hexadecimal (width value : Nat) : List Char :=
  let digits := Nat.toDigits 16 value
  List.replicate (width - digits.length) '0' ++ digits

/-- A code point as two, four or eight digits, the fewest that hold it. -/
def escapedCode (code : Nat) : List Char :=
  if code < 0x100 then '\\' :: 'x' :: hexadecimal 2 code
  else if code < 0x10000 then '\\' :: 'u' :: hexadecimal 4 code
  else '\\' :: 'U' :: hexadecimal 8 code

def escaped (quote : Char) (code : Nat) : List Char :=
  if code = quote.toNat ∨ code = '\\'.toNat then ['\\', Char.ofNat code]
  else if code = '\n'.toNat then ['\\', 'n']
  else if code = '\r'.toNat then ['\\', 'r']
  else if code = '\t'.toNat then ['\\', 't']
  else if code = ' '.toNat ∨ !isUnseen code then [Char.ofNat code]
  else escapedCode code

def quoted (text : String) : String :=
  let points := codes text
  let quote := quoteFor points
  String.ofList (quote :: points.flatMap (escaped quote) ++ [quote])

end Fleet.Text
