import Fleet.Proofs.Plan.Records
import Fleet.Proofs.Service.Runs

/-! The tick counter and the recorded metrics over whole runs.

Every request without a tick counts, and every request that comes to judge hosts extends the records,
whether or not it is answered with a plan in the end.
-/

set_option autoImplicit false

namespace Fleet

/-- One more record for each of the hosts, in their order, and none for others. -/
structure Timeline.Booked (before : Timeline Float) (tick : Tick Float) (hosts : List (Host Float))
    (after : Timeline Float) : Prop where
  order : ∃ added, after.entries = before.entries ++ added ∧ added.map (·.1) = hosts.map (·.id)
  each : ∀ host ∈ hosts, ∃ metric : Metric Float, metric.Shows host tick ∧
    after.records host.id = before.records host.id ++ [metric]
  others : ∀ id, id ∉ hosts.map (·.id) → after.records id = before.records id

namespace Timeline

variable {tick : Tick Float} {hosts : List (Host Float)} {before after : Timeline Float}

theorem Recorded.booked (recorded : Recorded tick hosts before after)
    (distinct : (hosts.map (·.id)).Nodup) : before.Booked tick hosts after where
  order := recorded.entries
  each := recorded.records_of_mem distinct
  others _ := recorded.records_of_absent

theorem Booked.records (booked : before.Booked tick hosts after) (id : String) :
    ∃ added, added.length ≤ 1 ∧ after.records id = before.records id ++ added := by
  by_cases present : id ∈ hosts.map (·.id)
  · obtain ⟨host, member, rfl⟩ := List.mem_map.mp present
    obtain ⟨metric, _, added⟩ := booked.each host member
    exact ⟨[metric], Nat.le_refl 1, added⟩
  · exact ⟨[], Nat.zero_le 1, by rw [booked.others id present, List.append_nil]⟩

end Timeline

namespace Service

open Payload (Value)

/-- The hosts of the inventory of a request as they are loaded; none if the inventory is rejected. -/
def Request.loaded (request : Request) : List (Host Float) :=
  (Inventory.load table request.hosts request.vms).toOption.elim [] Cluster.hosts

theorem ticks_nextTick (service : Service) (request : Request) :
    (service.nextTick request.tick).1.ticks =
      service.ticks + if request.isUntimed then 1 else 0 := by
  unfold nextTick Request.isUntimed
  rcases request.tick with _ | _ | _ <;> rfl

variable {before after : Service} {request : Request} {result : Except (Fault Float) (List Move)}

theorem ticks_serve (run : before.serve request = (result, after)) :
    after.ticks = before.ticks + if request.isUntimed then 1 else 0 := by
  cases served run <;> exact ticks_nextTick before request

theorem report_serve (run : before.serve request = (result, after)) {fault : Fault Float}
    (failed : result = .error fault) : after.report = before.report := by
  cases served run with
  | refused => exact report_nextTick before request.tick
  | broken => exact report_nextTick before request.tick
  | completed => cases failed

theorem loaded_eq {cluster : Cluster Float}
    (loaded : Inventory.load table request.hosts request.vms = .ok cluster) :
    request.loaded = cluster.hosts := by
  rw [Request.loaded, loaded]
  rfl

theorem booked_of_plan {entropy : Draw.Source} {cluster : Cluster Float}
    {policy : Plan.Policy Float} {tick : Tick Float}
    {engine : Plan.Engine Float (Plan.World Float Draw.Source)}
    (loaded : Inventory.load table request.hosts request.vms = .ok cluster)
    (planned : (before.engine entropy cluster).plan (policy.advisors Draw.Source.next)
      policy.underload tick = (result, engine)) :
    ∃ seen, seen <+: request.loaded ∧
      before.timeline.Booked tick seen engine.advisors.timeline ∧
      ∀ moves, result = .ok moves → seen = request.loaded := by
  obtain ⟨seen, within, recorded, all⟩ := Plan.Engine.plan_records planned
  have distinct : ((before.engine entropy cluster).cluster.hosts.map (·.id)).Nodup :=
    cluster.nodup_hosts
  rw [loaded_eq loaded]
  exact ⟨seen, within, recorded.booked ((within.map _).sublist.nodup distinct), all⟩

theorem timeline_serve (run : before.serve request = (result, after)) :
    ∃ seen tick, seen <+: request.loaded ∧ before.timeline.Booked tick seen after.timeline ∧
      (seen = [] ∨ Payload.readTick (before.nextTick request.tick).2 = .ok tick) ∧
      ∀ moves, result = .ok moves → seen = request.loaded ∧
        Payload.readTick (before.nextTick request.tick).2 = .ok tick := by
  cases served run with
  | refused =>
    refine ⟨[], ⟨0.0, none⟩, List.nil_prefix, ?_, .inl rfl, fun _ done => by cases done⟩
    rw [timeline_nextTick]
    exact (Timeline.Recorded.nil before.timeline).booked List.nodup_nil
  | broken loaded built read planned =>
    obtain ⟨seen, within, booked, _⟩ := booked_of_plan loaded planned
    exact ⟨seen, _, within, booked, .inr read, fun _ done => by cases done⟩
  | completed loaded built read planned =>
    obtain ⟨seen, within, booked, all⟩ := booked_of_plan loaded planned
    exact ⟨seen, _, within, booked, .inr read, fun _ done => ⟨all _ done, read⟩⟩

theorem ticks_afterAll (service : Service) (requests : List Request) :
    (service.afterAll requests).ticks = service.ticks + requests.countP (·.isUntimed) := by
  induction requests generalizing service with
  | nil => rfl
  | cons request rest ih =>
    have counted := ticks_serve (Prod.eta (service.serve request)).symm
    rw [List.countP_cons, afterAll, List.foldl_cons, ← afterAll, ih, counted]
    omega

theorem records_afterAll (service : Service) (requests : List Request) (id : String) :
    service.timeline.records id <+: (service.afterAll requests).timeline.records id := by
  induction requests generalizing service with
  | nil => exact List.prefix_refl _
  | cons request rest ih =>
    obtain ⟨seen, tick, _, booked, _⟩ := timeline_serve (Prod.eta (service.serve request)).symm
    obtain ⟨added, _, extended⟩ := booked.records id
    exact (extended ▸ List.prefix_append _ _).trans (ih _)

/-- After any run of a service, and for any next request: the tick counter is the number of requests
that came without a tick; what has been recorded stays at the beginning of all later records; the request
adds at most one record for a host, and these at the end. If it returns a plan, it adds exactly one for
each host of its inventory, showing the tick and the utilization as loaded, and none for others. If it
fails, it does so for some of these hosts from the first one on, and leaves the report. -/
theorem serve_books (settings : Settings) (earlier : List Request) (request : Request) :
    let before := ({ settings } : Service).afterAll earlier
    let result := (before.serve request).1
    let after := (before.serve request).2
    before.ticks = earlier.countP (·.isUntimed) ∧
      (∀ later id, before.timeline.records id <+: (before.afterAll later).timeline.records id) ∧
      (∀ id, ∃ added, added.length ≤ 1 ∧
        after.timeline.records id = before.timeline.records id ++ added) ∧
      (∀ moves, result = .ok moves → ∃ tick,
        Payload.readTick (before.nextTick request.tick).2 = .ok tick ∧
          before.timeline.Booked tick request.loaded after.timeline) ∧
      ∀ fault, result = .error fault → after.report = before.report ∧
        ∃ seen tick, seen <+: request.loaded ∧ before.timeline.Booked tick seen after.timeline ∧
          (seen = [] ∨ Payload.readTick (before.nextTick request.tick).2 = .ok tick) := by
  intro before result after
  have run : before.serve request = (result, after) := (Prod.eta _).symm
  obtain ⟨seen, tick, within, booked, known, all⟩ := timeline_serve run
  refine ⟨?_, records_afterAll before, booked.records, fun moves done => ?_, fun fault failed => ?_⟩
  · exact (ticks_afterAll _ earlier).trans (Nat.zero_add _)
  · obtain ⟨rfl, read⟩ := all moves done
    exact ⟨tick, read, booked⟩
  · exact ⟨report_serve run failed, seen, tick, within, booked, known⟩

/-- Of two requests one came without a tick; a third one adds its records to those of the first. -/
theorem serve_books_twice :
    let before := ({ settings := Sample.settings } : Service).afterAll Sample.requests
    let after := (before.serve ⟨Sample.hosts, .list [], none, Sample.entropy⟩).2
    before.ticks = 1 ∧ (before.timeline.records "a").length = 1 ∧
      (∃ added, added.length ≤ 1 ∧
        after.timeline.records "a" = before.timeline.records "a" ++ added) ∧
      ∃ tick, before.timeline.Booked tick
        (Request.loaded ⟨Sample.hosts, .list [], none, Sample.entropy⟩) after.timeline := by
  obtain ⟨ticks, _, records, planned, _⟩ :=
    serve_books Sample.settings Sample.requests ⟨Sample.hosts, .list [], none, Sample.entropy⟩
  obtain ⟨tick, _, booked⟩ := planned [⟨"x", "a", "b"⟩] (Attempt.ok_of_toOption (by decide +kernel))
  exact ⟨ticks, by decide +kernel, records "a", tick, booked⟩

end Service

end Fleet
