import Fleet.Fault
import Fleet.Payload.Value

/-! The entries of an inventory: fields given as an object, or as pairs of a name and a value.

Whatever consists of two items counts as a pair, a text of two code points as well as an object of two
fields, of which only the names are items.
-/

set_option autoImplicit false

namespace Fleet.Payload

def Value.items? : Value → Option (List Value)
  | list items => some items
  | text value => some ((Text.codes value).map fun code => text (Text.ofCodes [code]))
  | object fields => some (fields.map fun field => text field.1)
  | _ => none

def Value.iterate (value : Value) : Except (Fault Float) (List Value) :=
  value.items?.elim (.error .wrongType) .ok

structure Entry where
  fields : Fields := []
  /-- Whether a value came with a name that is no text. -/
  misnamed : Bool := false

namespace Entry

/-- Sets the field of a pair. Numbers and the like may be names, but not lists and objects. -/
def addPair (entry : Entry) (position : Nat) (pair : Value) : Except (Fault Float) Entry := do
  match ← pair.iterate with
  | [.text name, value] => pure { entry with fields := entry.fields.set name value }
  | [.list _, _] | [.object _, _] => throw .wrongType
  | [_, _] => pure { entry with misnamed := true }
  | items => throw (.pairLength position items.length)

def addPairs : Nat → List Value → Entry → Except (Fault Float) Entry
  | _, [], entry => .ok entry
  | position, pair :: rest, entry => do addPairs (position + 1) rest (← entry.addPair position pair)

def read : Value → Except (Fault Float) Entry
  | .object fields => .ok { fields }
  | value => do addPairs 0 (← value.iterate) {}

def recordFields (entry : Entry) : Except (Fault Float) Fields :=
  if entry.misnamed then .error .wrongType else .ok entry.fields

end Entry

end Fleet.Payload
