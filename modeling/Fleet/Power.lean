import Fleet.Forecast

/-! Power drawn at a utilization, interpolated between measurements at every tenth. -/

set_option autoImplicit false

namespace Fleet

/-- A server with its draw in watts at utilizations `0, 0.1, …, 1`. -/
structure PowerCurve (α : Type) where
  name : String
  watts : List α
  eleven : watts.length = 11

namespace PowerCurve

variable {α : Type}

def ofSamples (name : String) (watts : List α) : Except (Fault α) (PowerCurve α) :=
  if eleven : watts.length = 11 then .ok ⟨name, watts, eleven⟩
  else .error (.powerSamples name watts.length)

def label (curve : PowerCurve α) : String := s!"SpecPowerModel({curve.name})"

/-- The measurement at a tenth of utilization; positions outside the table are faults. -/
def sample (curve : PowerCurve α) (position : Int) : Except (Fault α) α :=
  if 0 ≤ position then
    match curve.watts[position.toNat]? with
    | some value => .ok value
    | none => .error (.powerPosition position)
  else .error (.powerPosition position)

variable [Scalar α]

/-- On a tenth the measurement itself, between two of them a straight line. -/
def draw (curve : PowerCurve α) (utilization : α) : Except (Fault α) α :=
  if utilization < 0.0 ∨ 1.0 < utilization then .error (.utilization utilization)
  else if Scalar.isMultipleOf utilization 0.1 then do
    curve.sample (← Forecast.floor (utilization * 10.0))
  else do
    let below ← Forecast.floor (utilization * 10.0)
    let above ← Forecast.ceil (utilization * 10.0)
    let high ← curve.sample above
    let low ← curve.sample below
    let slope := (high - low) / 10.0
    pure (low + slope * (utilization - Scalar.ofNat below.toNat / 10.0) * 100.0)

variable (α)

def xeonE5 : PowerCurve α where
  name := "pm1"
  watts := [35.0, 52.0, 70.0, 78.5, 87.0, 96.5, 104.0, 108.0, 112.0, 129.0, 147.0]
  eleven := rfl

def graviton2 : PowerCurve α where
  name := "pm2"
  watts := [70.8, 102.8, 137.2, 169.2, 201.2, 236.6, 268.6, 300.6, 336.0, 403.4, 451.4]
  eleven := rfl

def xeonP8175 : PowerCurve α where
  name := "pm3"
  watts := [50.0, 75.0, 100.0, 112.0, 125.0, 137.0, 150.0, 155.0, 160.0, 135.0, 210.0]
  eleven := rfl

def named? (name : String) : Option (PowerCurve α) :=
  [xeonE5 α, graviton2 α, xeonP8175 α].find? (·.name == name)

end PowerCurve

end Fleet
