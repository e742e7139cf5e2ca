import Fleet.Draw.Source
import Fleet.Payload.Record
import Fleet.Plan.Advisor

/-! The settings of the service, read from overrides and environment variables.

An override wins over the environment. Each setting has its own bounds; the CPU band and the sum of the
weights are checked once all settings are read.
-/

set_option autoImplicit false

namespace Fleet

open Payload (Bound Checked Fields Value)

structure Settings where
  epsilon : Float
  baseWindow : Int
  theta : Float
  cpuThreshold : Float
  memoryThreshold : Float
  selectionGamma : Float
  cycleGamma : Float
  upperBound : Float
  lowerBand : Float
  memoryBound : Float
  underloadThreshold : Float
  weightChurn : Float
  weightCycle : Float
  weightExcess : Float
  weightMemory : Float
  weightRisk : Float
  /-- Seed of the draws; unset, draws need not be reproducible. -/
  seed : Option Int
  /-- Seconds between cycles. -/
  rebalanceInterval : Int
  controllerUrl : String
  controllerToken : Option String
  logLevel : String

namespace Settings

/-- Environment variables below overrides. The names of both count in any case, so that an override
`EPSILON` sets `epsilon`. -/
structure Sources where
  environment : List (String × String)
  overrides : Fields

/-- The small letter of a character. The Kelvin sign is the only one outside ASCII that has a small
letter of ASCII. -/
def smallLetter (c : Char) : Char := if c.toNat = 0x212A then 'k' else c.toLower

def names (written name : String) : Bool := String.ofList (written.toList.map smallLetter) == name

/-- The last variable of that name. -/
def Sources.inEnvironment? (sources : Sources) (name : String) : Option String :=
  (sources.environment.reverse.find? fun entry => names entry.1 name).map (·.2)

/-- The first override of that name. -/
def Sources.override? (sources : Sources) (name : String) : Option Value :=
  (sources.overrides.find? fun entry => names entry.1 name).map (·.2)

def Sources.value? (sources : Sources) (name : String) : Option Value :=
  sources.override? name <|> (sources.inEnvironment? name).map .text

def Sources.get {Result : Type} (sources : Sources) (name : String) (standard : Result)
    (convert : Value → Checked Result) : Checked Result :=
  match sources.value? name with
  | none => .good standard
  | some value => (convert value).within name

/-- Whether a number keeps the bound; what is not a number keeps none. -/
def keepsNumber (value : Float) : Bound → Bool
  | .greaterThan limit => Float.ofNat limit < value
  | .atLeast limit => Float.ofNat limit ≤ value
  | .atMost limit => value ≤ Float.ofNat limit

def keepsInteger (value : Int) : Bound → Bool
  | .greaterThan limit => (limit : Int) < value
  | .atLeast limit => (limit : Int) ≤ value
  | .atMost limit => value ≤ (limit : Int)

def bounded {Result : Type} (keeps : Result → Bound → Bool) (bounds : List Bound)
    (convert : Value → Checked Result) (value : Value) : Checked Result :=
  (convert value).bind fun result =>
    match bounds.find? (!keeps result ·) with
    | none => .good result
    | some bound => .fail (.bound bound)

def number (bounds : List Bound) : Value → Checked Float := bounded keepsNumber bounds Value.toNumber

def integer (bounds : List Bound) : Value → Checked Int := bounded keepsInteger bounds Value.toInteger

def fraction : Value → Checked Float := number [.atMost 1, .greaterThan 0]

def ofSources (sources : Sources) : Checked Settings :=
  Settings.mk <$> sources.get "epsilon" 0.2 (number [.atLeast 0])
    <*> sources.get "base_window" 5 (integer [.atLeast 1])
    <*> sources.get "theta" 0.1 (number [.atLeast 0])
    <*> sources.get "gamma_cpu" 0.9 fraction
    <*> sources.get "mem_threshold_frac" 0.9 fraction
    <*> sources.get "selection_gamma" 1.0 Value.toNumber
    <*> sources.get "cycle_gamma" 1.0 Value.toNumber
    <*> sources.get "upper_bound" 0.9 fraction
    <*> sources.get "lower_band" 0.8 (number [.atMost 1, .atLeast 0])
    <*> sources.get "memory_bound" 0.95 (number [.greaterThan 0])
    <*> sources.get "underload_threshold" 0.3 fraction
    <*> sources.get "weight_delta_u" 0.3 (number [.atLeast 0])
    <*> sources.get "weight_cycle" 0.15 (number [.atLeast 0])
    <*> sources.get "weight_per" 0.2 (number [.atLeast 0])
    <*> sources.get "weight_mem" 0.2 (number [.atLeast 0])
    <*> sources.get "weight_sla" 0.15 (number [.atLeast 0])
    <*> sources.get "seed" none (Value.toOptional Value.toInteger)
    <*> sources.get "rebalance_interval" 300 (integer [.atLeast 1])
    <*> sources.get "controller_base_url" "http://controller:8000" Value.toText
    <*> sources.get "controller_token" none (Value.toOptional Value.toText)
    <*> sources.get "log_level" "INFO" Value.toText

def weights (settings : Settings) : List Float :=
  [settings.weightChurn, settings.weightCycle, settings.weightExcess, settings.weightMemory,
    settings.weightRisk]

def validate (settings : Settings) : Except (Fault Float) Settings :=
  let total := Scalar.sum settings.weights
  if settings.upperBound < settings.lowerBand then
    .error (.parameter (.bandOrder settings.lowerBand settings.upperBound))
  else if 1e-9 < Float.abs (total - 1.0) then .error (.parameter (.weightSum total))
  else .ok settings

def load (sources : Sources) : Except (Fault Float) Settings := do
  let settings ← (ofSources sources).orFault .settings
  settings.validate

def policy (settings : Settings) (table : FlavorTable Float) :
    Except (Fault Float) (Plan.Policy Float) := do
  let overload ← OverloadRule.validate {
    epsilon := settings.epsilon
    baseWindow := settings.baseWindow
    theta := settings.theta
    cpuThreshold := settings.cpuThreshold
    memoryThreshold := settings.memoryThreshold }
  let destination ← DestinationRule.make settings.weights settings.upperBound settings.lowerBand
    settings.memoryBound settings.cycleGamma overload
  Plan.Policy.validate {
    table, overload, destination
    eviction := ⟨settings.selectionGamma⟩
    underload := settings.underloadThreshold }

/-- The draws of a cycle. Without a seed they come from a source that is not known. -/
def draws (settings : Settings) (entropy : Draw.Source) : Draw.Source :=
  settings.seed.elim entropy .ofSeed

end Settings

end Fleet
