import Fleet.Draw.Twister

/-! Where the draws of the destination search come from. -/

set_option autoImplicit false

namespace Fleet.Draw

/-- A seeded generator, or given values that are repeated in turn. -/
inductive Source where
  | generated (twister : Twister)
  | listed (values : Array Float) (position : Nat)

namespace Source

def ofSeed (seed : Int) : Source := .generated (.ofSeed seed)

def ofValues (values : List Float) : Source := .listed values.toArray 0

def next : Source → Float × Source
  | .generated twister =>
      let (value, twister) := twister.unit
      (value, .generated twister)
  | .listed values position =>
      (values.getD position 0.0, .listed values ((position + 1) % values.size))

end Source

end Fleet.Draw
