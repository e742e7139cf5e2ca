import Fleet.Number.Literal
import Fleet.Payload.Issue
import Fleet.Scalar
import Fleet.Text.CodePoint

/-! Decoded payloads and their conversion into fields.

A conversion is lenient: numbers may be written as text, truth values as numbers, and so on. Issues of
all fields are collected, each with the path to where it arose.
-/

set_option autoImplicit false

namespace Fleet.Payload

/-- A decoded payload. Integers and decimals are told apart by the way they are written. -/
inductive Value where
  | null
  | boolean (value : Bool)
  | integer (value : Int)
  | decimal (value : Float)
  | text (value : String)
  | list (items : List Value)
  | object (fields : List (String × Value))

abbrev Fields := List (String × Value)

/-- A converted value, or everything that is wrong with the payload. -/
inductive Checked (Result : Type) where
  | good (result : Result)
  | bad (issues : List Issue)

namespace Checked

variable {First Second : Type}

def fail (problem : Problem) : Checked First := .bad [⟨[], problem⟩]

def within (step : String) : Checked First → Checked First
  | good result => good result
  | bad issues => bad (issues.map (·.within step))

def bind (checked : Checked First) (next : First → Checked Second) : Checked Second :=
  match checked with
  | good result => next result
  | bad issues => bad issues

def apply (function : Checked (First → Second)) (argument : Checked First) : Checked Second :=
  match function, argument with
  | good change, good result => good (change result)
  | good _, bad issues => bad issues
  | bad issues, good _ => bad issues
  | bad first, bad second => bad (first ++ second)

instance : Applicative Checked where
  pure := good
  seq function argument := apply function (argument ())

def orFault {Fault : Type} (fault : List Issue → Fault) : Checked First → Except Fault First
  | good result => .ok result
  | bad issues => .error (fault issues)

end Checked

namespace Value

def toText : Value → Checked String
  | text value => .good value
  | _ => .fail .notText

def readText {Result : Type} (text : String) (read : String → Checked Result) : Checked Result :=
  if Text.hasHalf text then .fail .notUnicode else read text

def toNumber : Value → Checked Float
  | integer value => (Number.ofInt? value).elim (.fail .notNumber) .good
  | decimal value => .good value
  | boolean value => .good (if value then 1.0 else 0.0)
  | text value =>
      readText value fun value => (Number.readDecimal? value).elim (.fail .unreadableNumber) .good
  | _ => .fail .notNumber

def isSmall (n : Int) : Bool := -9223372036854775808 ≤ n && n ≤ 9223372036854775807

def wholeDecimal (value : Float) : Checked Int :=
  match Number.floor value with
  | .error _ => .fail .unboundedInteger
  | .ok whole =>
      if !Number.equalsInt value whole then .fail .fractionalInteger
      else if whole.natAbs < 9223372036854775808 then .good whole
      else .fail .oversizedInteger

def toInteger : Value → Checked Int
  | integer value => .good value
  | boolean value => .good (if value then 1 else 0)
  | decimal value => wholeDecimal value
  | text value =>
      readText value fun value =>
        match Number.readInteger value with
        | .value value => .good value
        | .malformed => .fail .unreadableInteger
        | .oversized => .fail .oversizedInteger
  | _ => .fail .notInteger

def numberToBoolean (value : Int) : Checked Bool :=
  if value = 0 then .good false
  else if value = 1 then .good true
  else if isSmall value then .fail .unreadableBoolean
  else .fail .notBoolean

def wordToBoolean (written : String) : Checked Bool :=
  let word := String.ofList (written.toList.map Char.toLower)
  if ["0", "off", "f", "false", "n", "no"].contains word then .good false
  else if ["1", "on", "t", "true", "y", "yes"].contains word then .good true
  else .fail .unreadableBoolean

/-- Words for yes and no count in any case, numbers if they are one or zero. -/
def toBoolean : Value → Checked Bool
  | boolean value => .good value
  | integer value => numberToBoolean value
  | decimal value =>
      match wholeDecimal value with
      | .good whole => numberToBoolean whole
      | .bad _ => .fail .notBoolean
  | text value => readText value wordToBoolean
  | _ => .fail .notBoolean

def toOptional {Result : Type} (convert : Value → Checked Result) : Value → Checked (Option Result)
  | null => .good none
  | value => some <$> convert value

def convertItems {Result : Type} (convert : Value → Checked Result) :
    Nat → List Value → Checked (List Result)
  | _, [] => .good []
  | position, item :: rest =>
      List.cons <$> (convert item).within (toString position) <*>
        convertItems convert (position + 1) rest

def toList {Result : Type} (convert : Value → Checked Result) : Value → Checked (List Result)
  | list items => convertItems convert 0 items
  | _ => .fail .notList

def toIdSet : Value → Checked (List String)
  | list items => List.eraseDups <$> convertItems toText 0 items
  | _ => .fail .notSet

def toFields : Value → Checked Fields
  | object fields => .good fields
  | _ => .fail .notDictionary

/-- Utilization samples. Their range is looked at only if all of them are numbers. -/
def toSamples (value : Value) : Checked (List Float) :=
  (toList toNumber value).bind fun samples =>
    match samples.find? (!Scalar.isFraction ·) with
    | none => .good samples
    | some sample => .fail (.sample sample)

end Value

namespace Fields

variable {Result : Type}

def required (fields : Fields) (name : String) (convert : Value → Checked Result) : Checked Result :=
  Checked.within name <|
    match fields.lookup name with
    | none => .fail .missing
    | some value => convert value

def optional (fields : Fields) (name : String) (standard : Result)
    (convert : Value → Checked Result) : Checked Result :=
  match fields.lookup name with
  | none => .good standard
  | some value => (convert value).within name

def set (fields : Fields) (name : String) (value : Value) : Fields :=
  if (fields.lookup name).isSome then
    fields.map fun field => if field.1 = name then (name, value) else field
  else fields ++ [(name, value)]

end Fields

end Fleet.Payload
