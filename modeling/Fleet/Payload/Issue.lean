import Fleet.Number.Text

/-! What can be wrong with one field of a payload, and where the field is. -/

set_option autoImplicit false

namespace Fleet.Payload

inductive Bound where
  | greaterThan (limit : Nat)
  | atLeast (limit : Nat)
  | atMost (limit : Nat)
  deriving DecidableEq, Repr

inductive Problem where
  | missing
  | notText
  | notUnicode
  | notNumber
  | unreadableNumber
  | notInteger
  | unreadableInteger
  | fractionalInteger
  | unboundedInteger
  | oversizedInteger
  | notBoolean
  | unreadableBoolean
  | notList
  | notSet
  | notDictionary
  | notRecord (model : String)
  | sample (value : Float)
  | bound (bound : Bound)

def Problem.code : Problem → String
  | .missing => "missing"
  | .notText => "string_type"
  | .notUnicode => "string_unicode"
  | .notNumber => "float_type"
  | .unreadableNumber => "float_parsing"
  | .notInteger => "int_type"
  | .unreadableInteger => "int_parsing"
  | .fractionalInteger => "int_from_float"
  | .unboundedInteger => "finite_number"
  | .oversizedInteger => "int_parsing_size"
  | .notBoolean => "bool_type"
  | .unreadableBoolean => "bool_parsing"
  | .notList => "list_type"
  | .notSet => "set_type"
  | .notDictionary => "dict_type"
  | .notRecord _ => "model_type"
  | .sample _ => "value_error"
  | .bound (.greaterThan _) => "greater_than"
  | .bound (.atLeast _) => "greater_than_equal"
  | .bound (.atMost _) => "less_than_equal"

def sampleText (value : Float) : String :=
  s!"utilization sample {Number.text value} outside [0, 1]"

def Problem.text : Problem → String
  | .missing => "Field required"
  | .notText => "Input should be a valid string"
  | .notUnicode => "Input should be a valid string, unable to parse raw data as a unicode string"
  | .notNumber => "Input should be a valid number"
  | .unreadableNumber => "Input should be a valid number, unable to parse string as a number"
  | .notInteger => "Input should be a valid integer"
  | .unreadableInteger => "Input should be a valid integer, unable to parse string as an integer"
  | .fractionalInteger => "Input should be a valid integer, got a number with a fractional part"
  | .unboundedInteger => "Input should be a finite number"
  | .oversizedInteger =>
      "Unable to parse input string as an integer, exceeded maximum size"
  | .notBoolean => "Input should be a valid boolean"
  | .unreadableBoolean => "Input should be a valid boolean, unable to interpret input"
  | .notList => "Input should be a valid list"
  | .notSet => "Input should be a valid set"
  | .notDictionary => "Input should be a valid dictionary"
  | .notRecord model => s!"Input should be a valid dictionary or instance of {model}"
  | .sample value => "Value error, " ++ sampleText value
  | .bound (.greaterThan limit) => s!"Input should be greater than {limit}"
  | .bound (.atLeast limit) => s!"Input should be greater than or equal to {limit}"
  | .bound (.atMost limit) => s!"Input should be less than or equal to {limit}"

structure Issue where
  path : List String
  problem : Problem

def Issue.within (step : String) (issue : Issue) : Issue :=
  { issue with path := step :: issue.path }

end Fleet.Payload
