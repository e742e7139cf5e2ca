import Fleet.Fault

/-! The time of a planning cycle, as reports tell it and as recorded metrics are stamped with it.

Both are the same number. But a text that divides the number by underscores in unusual places is read
for reports only, so that no metric can be stamped.
-/

set_option autoImplicit false

namespace Fleet

structure Tick (α : Type) where
  value : α
  /-- The text of the tick, if it cannot be a timestamp. -/
  unstamped : Option String := none
  deriving Repr

namespace Tick

variable {α : Type}

def stamp (tick : Tick α) : Except (Fault α) α :=
  match tick.unstamped with
  | none => .ok tick.value
  | some text => .error (.unreadableNumber text)

/-- A timestamp is never another number than the one of the report. -/
theorem eq_value_of_stamp {tick : Tick α} {time : α} (stamped : tick.stamp = .ok time) :
    time = tick.value := by
  unfold stamp at stamped
  split at stamped
  · exact (Except.ok.inj stamped).symm
  · cases stamped

end Tick

end Fleet
