import Fleet.Fault

/-! Windows over utilization histories and the forecasts made from them.

A history is a list of fractions, oldest first. A forecast of `none` means that there is nothing to
forecast from; callers choose what to assume then.
-/

set_option autoImplicit false

namespace Fleet.Forecast

variable {α : Type} [Scalar α]

def floor (x : α) : Except (Fault α) Int := (Scalar.floor x).mapError .noInteger

def ceil (x : α) : Except (Fault α) Int := (Scalar.ceil x).mapError .noInteger

def changes : List α → List α
  | older :: newer :: rest => Scalar.abs (newer - older) :: changes (newer :: rest)
  | _ => []

def meanChange (history : List α) : α :=
  if history.length < 2 then 0.0
  else Scalar.sum (changes history) / Scalar.ofNat (history.length - 1)

/-- A window that grows with volatility, kept between one and the length of the history. Fewer than
two samples have no volatility, and then `gamma` alone counts. -/
def volatilityWindow (history : List α) (gamma : α) : Except (Fault α) Int :=
  if history.length < 2 then do
    let width ← floor gamma
    pure (max 1 width)
  else do
    let width ← floor (meanChange history + gamma)
    pure (max 1 (min width history.length))

def plainAverage? (history : List α) (window : Int) : Option α :=
  if history.isEmpty ∨ window < 1 then none
  else
    let recent := history.drop (history.length - window.toNat)
    some (Scalar.clampUnit (Scalar.sum recent / Scalar.ofNat recent.length))

def weights (recent : List α) : List (α × α) :=
  recent.zipIdx.map fun (sample, age) => (Scalar.ofNat (recent.length - age), sample)

def weigh (recent : List α) : α × α :=
  (weights recent).foldl
    (fun (samples, total) (weight, sample) => (samples + weight * sample, total + weight)) (0.0, 0.0)

def weightedMean? (newestFirst : List α) (window : Int) : Option α :=
  if newestFirst.isEmpty ∨ window < 1 then none
  else
    let (samples, total) := weigh (newestFirst.take window.toNat)
    some (Scalar.clampUnit (samples / total))

/-- The weighted mean of the last `window` of the first `stop` samples, or of all samples. -/
def weightedAverage? (history : List α) (window : Int) (stop : Option Int := none) : Option α :=
  match stop with
  | none => weightedMean? history.reverse window
  | some count => weightedMean? (history.take count.toNat).reverse window

/-- How far the newest sample lies from the weighted mean that includes it. -/
def deviation? (window : Int) : List α → Option α
  | [] => none
  | sample :: older =>
      (weightedMean? (sample :: older) window).map fun mean => Scalar.abs (sample - mean)

/-- The samples up to each of the last `count` ones, newest first, the shortest list first. -/
def recentRuns (history : List α) (count : Nat) : List (List α) :=
  (List.range count).reverse.map fun age => history.reverse.drop age

def defaultLookBack : Int := 4

/-- The greatest deviation among the last `lookBack` samples, at least one of them. -/
def recentDeviation (history : List α) (window : Int) (lookBack : Int := defaultLookBack) : α :=
  if history.isEmpty then 0.0
  else
    let count := max 1 (min lookBack history.length)
    ((recentRuns history count.toNat).filterMap (deviation? window)).foldl Scalar.max 0.0

/-- The base window, made wider after deviations beyond `theta` and narrower otherwise. -/
def adaptiveWindow (history : List α) (base : Int) (epsilon theta : α) : Except (Fault α) Int :=
  if history.isEmpty then pure (max 1 base)
  else do
    let growth := Scalar.max 0.0 epsilon
    let width := max 1 (min base history.length)
    let start : α := Scalar.ofNat width.toNat
    let adapted ←
      if theta < recentDeviation history width then ceil (start * (1.0 + growth))
      else floor (start * (1.0 - growth * 0.5))
    pure (max 1 (min adapted history.length))

def memoryFraction (cpu ratio : α) : α := Scalar.max 0.0 (ratio * cpu)

end Fleet.Forecast
