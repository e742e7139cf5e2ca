import Fleet.Proofs.Failing
import Fleet.Proofs.Service.Runs
import Fleet.Proofs.Settings

/-! From the sources of settings to an engine with its rules.

Settings are checked when they are read, and every rule checks its own again. The second checks refuse
nothing that the first ones let through, at the bounds and beyond all numbers as well, so only reading
can fail.
-/

set_option autoImplicit false

namespace Fleet

open Payload (Checked Value)

namespace Settings

/-- The rules have the values of the settings. The search for a destination judges hosts by the rule
that judges them at the beginning of a cycle. -/
structure Installed (settings : Settings) (table : FlavorTable Float)
    (policy : Plan.Policy Float) : Prop where
  table : policy.table = table
  epsilon : policy.overload.epsilon = settings.epsilon
  baseWindow : policy.overload.baseWindow = settings.baseWindow
  theta : policy.overload.theta = settings.theta
  cpuThreshold : policy.overload.cpuThreshold = settings.cpuThreshold
  memoryThreshold : policy.overload.memoryThreshold = settings.memoryThreshold
  selectionGamma : policy.eviction.gamma = settings.selectionGamma
  weights : policy.destination.weights.toList = settings.weights
  upperBound : policy.destination.upperBound = settings.upperBound
  lowerBand : policy.destination.lowerBand = settings.lowerBand
  memoryBound : policy.destination.memoryBound = settings.memoryBound
  cycleGamma : policy.destination.gamma = settings.cycleGamma
  judging : policy.destination.overload = policy.overload
  underload : policy.underload = settings.underloadThreshold

theorem installed_rules (settings : Settings) (table : FlavorTable Float) :
    Installed settings table (settings.rules table) := by
  constructor <;> rfl

theorem load_failsOnly (sources : Sources) :
    FailsOnly (fun fault => fault.kind = .configuration) (load sources) := by
  refine .bind (fun fault failed => ?_) fun settings _ fault failed => ?_
  · cases read : ofSources sources with
    | good settings =>
      rw [read] at failed
      cases failed
    | bad issues =>
      rw [read] at failed
      cases failed
      rfl
  · unfold validate at failed
    dsimp only at failed
    split at failed
    · cases failed
      rfl
    · split at failed
      · cases failed
        rfl
      · cases failed

end Settings

namespace Service

theorem prepare_sound {settings : Settings} (sound : settings.Sound) {service : Service}
    (adopted : service.settings = settings) {entropy : Draw.Source} {hosts vms tick : Value}
    {cluster : Cluster Float} {time : Tick Float}
    (loaded : Inventory.load Service.table hosts vms = .ok cluster)
    (read : Payload.readTick tick = .ok time) :
    service.prepare entropy hosts vms tick =
      .ok (service.engine entropy cluster, settings.rules Service.table, time) :=
  prepare_eq loaded (adopted ▸ sound.policy_eq Service.table) read

/-- Whatever the environment and the overrides say: they are refused as a configuration, or all rules
can be made from the settings, for any table, and hold these settings; and a service with these
settings has an engine for every inventory that it can load. -/
theorem load_sets_up (sources : Settings.Sources) :
    (∃ fault, Settings.load sources = .error fault ∧ fault.kind = .configuration) ∨
      ∃ settings, Settings.load sources = .ok settings ∧
        (∀ table, ∃ policy, settings.policy table = .ok policy ∧
          settings.Installed table policy) ∧
        ∀ service : Service, service.settings = settings →
          ∀ entropy hosts vms tick cluster time,
            Inventory.load Service.table hosts vms = .ok cluster → Payload.readTick tick = .ok time →
            ∃ engine policy, service.prepare entropy hosts vms tick = .ok (engine, policy, time) ∧
              engine.cluster = cluster ∧ engine.advisors.timeline = service.timeline ∧
              (∀ seed ∈ settings.seed, engine.advisors.draws = .ofSeed seed) ∧
              (settings.seed = none → engine.advisors.draws = entropy) ∧
              settings.Installed Service.table policy := by
  cases loading : Settings.load sources with
  | error fault => exact .inl ⟨fault, rfl, Settings.load_failsOnly sources fault loading⟩
  | ok settings =>
    have sound := Settings.load_sound loading
    refine .inr ⟨settings, rfl, fun table => ⟨_, sound.policy_eq table,
      settings.installed_rules table⟩, ?_⟩
    intro service adopted entropy hosts vms tick cluster time loaded read
    refine ⟨_, _, prepare_sound sound adopted loaded read, rfl, rfl, fun seed given => ?_,
      fun unset => ?_, settings.installed_rules Service.table⟩
    · rw [engine, adopted, Settings.draws, given]
      rfl
    · rw [engine, adopted, Settings.draws, unset]
      rfl

namespace Sample

/-- Overrides go before the environment. -/
def extreme : Settings.Sources where
  environment := [("EPSILON", "inf"), ("Upper_Bound", "1"), ("GAMMA_CPU", "0.5")]
  overrides :=
    [("memory_bound", .decimal (1.0 / 0.0)), ("lower_band", .integer 1), ("gamma_cpu", .decimal 1.0),
      ("seed", .integer 7)]

def stretched : Settings :=
  { Settings.standard with
    epsilon := 1.0 / 0.0
    cpuThreshold := 1.0
    upperBound := 1.0
    lowerBand := 1.0
    memoryBound := 1.0 / 0.0
    seed := some 7 }

theorem load_extreme : Settings.load extreme = .ok stretched :=
  Attempt.ok_of_toOption (by decide +kernel)

end Sample

theorem load_sets_up_extreme :
    ∃ policy, Sample.stretched.policy FlavorTable.reference = .ok policy ∧
      Sample.stretched.Installed FlavorTable.reference policy := by
  rcases load_sets_up Sample.extreme with ⟨_, failed, _⟩ | ⟨settings, loaded, ruled, _⟩
  · cases failed.symm.trans Sample.load_extreme
  · obtain rfl := Except.ok.inj (loaded.symm.trans Sample.load_extreme)
    exact ruled FlavorTable.reference

end Service

end Fleet
