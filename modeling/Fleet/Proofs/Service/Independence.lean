import Fleet.Proofs.Plan.Independence
import Fleet.Proofs.Service.Runs

/-! Cycles of the service do not influence each other's plans.

Recorded metrics, the tick counter and the last report are carried from one cycle to the next, and none
of them flows back into a plan: of what happened before, the plan for a request shows nothing. What is
drawn comes from the seed, if there is one.
-/

set_option autoImplicit false

namespace Fleet.Service

open Payload (Value)

variable {entropy chance : Draw.Source} {hosts vms : Value}

theorem runCycle_planned {service : Service} {tick : Option Value} {cluster : Cluster Float}
    {policy : Plan.Policy Float} {time : Tick Float}
    (loaded : Inventory.load table hosts vms = .ok cluster)
    (built : service.settings.policy table = .ok policy)
    (read : Payload.readTick (service.nextTick tick).2 = .ok time) :
    let planned := (service.engine entropy cluster).plan (policy.advisors Draw.Source.next)
      policy.underload time
    (service.runCycle entropy hosts vms tick).1 = planned.1 ∧
      ∀ moves, planned.1 = .ok moves →
        (service.runCycle entropy hosts vms tick).2.report = planned.2.report := by
  rw [← settings_nextTick service tick] at built
  have prepared : (service.nextTick tick).1.prepare entropy hosts vms (service.nextTick tick).2 = _ :=
    prepare_eq loaded built read
  unfold runCycle
  dsimp only
  rw [prepared]
  dsimp only
  rw [engine_nextTick]
  generalize (service.engine entropy cluster).plan _ _ time = planned
  obtain ⟨result, after⟩ := planned
  cases result with
  | error fault => exact ⟨rfl, fun _ done => by cases done⟩
  | ok moves => exact ⟨rfl, fun _ _ => rfl⟩

theorem engine_level {first second : Service}
    (drawn : second.settings.draws chance = first.settings.draws entropy) (cluster : Cluster Float) :
    (first.engine entropy cluster).Renamed Renaming.id Plan.World.Level
      (second.engine chance cluster) where
  cluster := cluster.renamed_id
  advisors := drawn
  phase := rfl
  report := rfl
  timings := rfl

theorem runCycle_level {first second : Service} (settings : second.settings = first.settings)
    (drawn : second.settings.draws chance = first.settings.draws entropy)
    {tick time : Option Value} {now other : Float} (timed : first.timeOf tick = .ok now)
    (timedOther : second.timeOf time = .ok other) :
    (second.runCycle chance hosts vms time).1 = (first.runCycle entropy hosts vms tick).1 ∧
      ∀ moves, (first.runCycle entropy hosts vms tick).1 = .ok moves →
        ∃ report : Plan.Report Float,
          (first.runCycle entropy hosts vms tick).2.report = some { report with tick := now } ∧
            (second.runCycle chance hosts vms time).2.report = some { report with tick := other } := by
  obtain ⟨read, told, stamped⟩ := Attempt.bind_ok timed
  obtain ⟨readOther, toldOther, stampedOther⟩ := Attempt.bind_ok timedOther
  -- inventory, settings and ticks are read without a look at what was recorded
  cases loaded : Inventory.load table hosts vms with
  | error fault =>
    have refused (service : Service) (entropy : Draw.Source) (tick : Option Value) :
        (service.runCycle entropy hosts vms tick).1 = .error fault :=
      runCycle_refused (prepare_unloaded loaded)
    exact ⟨(refused second chance time).trans (refused first entropy tick).symm,
      fun _ done => by cases (refused first entropy tick).symm.trans done⟩
  | ok cluster =>
    cases built : first.settings.policy table with
    | error fault =>
      have refused {service : Service} (entropy : Draw.Source) (tick : Option Value)
          (same : service.settings = first.settings) :
          (service.runCycle entropy hosts vms tick).1 = .error fault := by
        rw [← same, ← settings_nextTick service tick] at built
        exact runCycle_refused (prepare_unruled loaded built)
      exact ⟨(refused chance time settings).trans (refused entropy tick rfl).symm,
        fun _ done => by cases (refused entropy tick rfl).symm.trans done⟩
    | ok policy =>
      have builtOther : second.settings.policy table = .ok policy := settings ▸ built
      obtain ⟨results, reports⟩ := Plan.Engine.plan_level policy Draw.Source.next policy.underload
        stamped stampedOther (engine_level drawn cluster) rfl
      obtain ⟨result, reported⟩ := runCycle_planned loaded built told
      obtain ⟨resultOther, reportedOther⟩ := runCycle_planned loaded builtOther toldOther
      refine ⟨by rw [result, resultOther, results], fun moves done => ?_⟩
      rw [result] at done
      obtain ⟨report, first, second⟩ := reports moves done
      refine ⟨report, ?_, ?_⟩
      · rw [reported moves done, first, Tick.eq_value_of_stamp stamped]
      · rw [reportedOther moves (results.trans done), second, Tick.eq_value_of_stamp stampedOther]

/-- With a seed, what a cycle returns depends on its request alone. After any two runs of services of
the same settings, at any two ticks that are numbers, and whatever else could be drawn, it returns the
same moves or fails in the same way; if it returns, the reports tell the same but for their ticks. -/
theorem runCycle_independent {settings : Settings} (seeded : settings.seed.isSome)
    (earlier others : List Request) {tick time : Option Value} {now other : Float}
    (timed : (({ settings } : Service).afterAll earlier).timeOf tick = .ok now)
    (timedOther : (({ settings } : Service).afterAll others).timeOf time = .ok other) :
    let first := (({ settings } : Service).afterAll earlier).runCycle entropy hosts vms tick
    let second := (({ settings } : Service).afterAll others).runCycle chance hosts vms time
    second.1 = first.1 ∧ ∀ moves, first.1 = .ok moves →
      ∃ report : Plan.Report Float, first.2.report = some { report with tick := now } ∧
        second.2.report = some { report with tick := other } := by
  have first := settings_afterAll { settings } earlier
  have second := settings_afterAll { settings } others
  obtain ⟨seed, known⟩ := Option.isSome_iff_exists.mp seeded
  refine runCycle_level (second.trans first.symm) ?_ timed timedOther
  rw [first, second, Settings.draws, Settings.draws, known]
  rfl

/-- The same plan at the second tick of a run and, with other entropy, at the first one of another. -/
theorem runCycle_independent_counted :
    let later := ({ settings := Sample.settings } : Service).afterAll Sample.requests
    let fresh := ({ settings := Sample.settings } : Service).afterAll []
    (later.runCycle Sample.entropy Sample.hosts (.list []) none).1 = .ok [⟨"x", "a", "b"⟩] ∧
      (fresh.runCycle (.ofSeed 1) Sample.hosts (.list []) none).1 = .ok [⟨"x", "a", "b"⟩] ∧
      ∃ report : Plan.Report Float,
        (later.runCycle Sample.entropy Sample.hosts (.list []) none).2.report =
            some { report with tick := 600.0 } ∧
          (fresh.runCycle (.ofSeed 1) Sample.hosts (.list []) none).2.report =
            some { report with tick := 300.0 } := by
  have timed : (({ settings := Sample.settings } : Service).afterAll Sample.requests).timeOf none =
      .ok 600.0 := Attempt.ok_of_toOption (by decide +kernel)
  have timedOther : (({ settings := Sample.settings } : Service).afterAll []).timeOf none =
      .ok 300.0 := Attempt.ok_of_toOption (by decide +kernel)
  have planned : ((({ settings := Sample.settings } : Service).afterAll Sample.requests).runCycle
      Sample.entropy Sample.hosts (.list []) none).1 = .ok [⟨"x", "a", "b"⟩] :=
    Attempt.ok_of_toOption (by decide +kernel)
  obtain ⟨same, reports⟩ :=
    runCycle_independent (rfl : Sample.settings.seed.isSome) Sample.requests [] timed timedOther
  exact ⟨planned, same.trans planned, reports _ planned⟩

end Fleet.Service
