import Fleet.Proofs.Plan.Frame
import Fleet.Proofs.Plan.Round

/-! A consolidation, round after round, until all hosts are settled or none is left to pick. -/

set_option autoImplicit false

namespace Fleet.Plan.Planner

open Step

variable {α State : Type} [Scalar α]

variable {planner : Planner α State} {settled closed : List String} {now later last : Progress α State}
  {attempt : Attempt α State} {attempts : List (Attempt α State)}

/-! One round that comes to an end -/

theorem of_pick {machine : Machine α}
    (pick : (leastLoaded? settled planner.underload none planner.machines).run.run now =
      (.ok (some machine), later)) :
    machine ∈ planner.machines ∧ machine.id ∉ settled ∧
      isPinned (now.occupancy.host machine) = false := by
  have named : (leastLoaded? settled planner.underload none planner.machines).Ends now
      (fun found _ => ∀ machine, found = some machine → machine ∈ planner.machines ∧
        machine.id ∉ settled ∧ isPinned (now.occupancy.host machine) = false) fun _ _ => True :=
    ends_leastLoaded? (fun _ named => named) fun _ => trivial
  exact named.of_ok pick machine rfl

structure Made (planner : Planner α State) (settled closed : List String) (now : Progress α State)
    (attempt : Attempt α State) (later : Progress α State) : Prop where
  pick : (leastLoaded? settled planner.underload none planner.machines).run.run
    { now with phase := .detectUnderloaded } =
      (.ok (some attempt.machine), { now with phase := .detectUnderloaded })
  picked : attempt.picked = { now with phase := .drainOrCancel }
  drain : (planner.drain attempt.machine (attempt.close closed)).run.run attempt.picked =
    (.ok attempt.outcome, attempt.ended)
  noted : later = attempt.ended.note attempt.machine.id attempt.outcome

theorem run_round : (planner.round settled closed).run.run now =
    match (leastLoaded? settled planner.underload none planner.machines).run.run
      { now with phase := .detectUnderloaded } with
    | (.error fault, last) => (.error fault, last)
    | (.ok none, last) => (.ok none, last)
    | (.ok (some machine), looked) =>
        match (planner.drain machine (closed.insert machine.id)).run.run
          { looked with phase := .drainOrCancel } with
        | (.error fault, last) => (.error fault, last)
        | (.ok outcome, ended) =>
            (.ok (some ⟨machine, { looked with phase := .drainOrCancel }, outcome, ended⟩),
              ended.note machine.id outcome) := by
  unfold round
  rw [Attempt.run_bind]
  change (leastLoaded? settled planner.underload none planner.machines >>= _).run.run
    { now with phase := .detectUnderloaded } = _
  rw [Attempt.run_bind]
  rcases (leastLoaded? settled planner.underload none planner.machines).run.run
    { now with phase := .detectUnderloaded } with ⟨fault | _ | machine, looked⟩
  · rfl
  · rfl
  · change (planner.drain machine (closed.insert machine.id) >>= _).run.run
      { looked with phase := .drainOrCancel } = _
    rw [Attempt.run_bind]
    dsimp only
    rcases (planner.drain machine (closed.insert machine.id)).run.run
      { looked with phase := .drainOrCancel } with ⟨fault | outcome, ended⟩ <;> rfl

theorem of_run_round {found : Option (Attempt α State)}
    (run : (planner.round settled closed).run.run now = (.ok found, later)) :
    match found with
    | none => (leastLoaded? settled planner.underload none planner.machines).run.run
        { now with phase := .detectUnderloaded } = (.ok none, later) ∧
        later = { now with phase := .detectUnderloaded }
    | some attempt => planner.Made settled closed now attempt later := by
  have looking : (leastLoaded? settled planner.underload none planner.machines :
      Step α State _).Keeps id := keeps_leastLoaded? _ _ _ _
  rw [run_round] at run
  split at run
  · cases run
  · next looked pick =>
    cases run
    exact ⟨pick, looking.of_run pick⟩
  · next machine looked pick =>
    obtain rfl : looked = { now with phase := .detectUnderloaded } := looking.of_run pick
    split at run
    · cases run
    · next outcome ended drain =>
      cases run
      exact ⟨pick, rfl, drain, rfl⟩

def marks (progress : Progress α State) : List String × List String :=
  (progress.drained, progress.cancelled)

omit [Scalar α] in
theorem aloof_marks : Aloof (marks : Progress α State → _) :=
  ⟨⟨fun _ _ => rfl, fun _ _ => rfl⟩, fun _ _ => rfl⟩

namespace Made

variable (made : planner.Made settled closed now attempt later)
include made

theorem fresh : attempt.machine.id ∉ settled := (of_pick made.pick).2.1

theorem marks_eq (decided : attempt.outcome ≠ some []) : marks later =
    if attempt.outcome.isSome then (now.drained ++ [attempt.machine.id], now.cancelled)
    else (now.drained, now.cancelled ++ [attempt.machine.id]) := by
  have unmarked : marks attempt.ended = marks attempt.picked :=
    (keeps_drain (aloof_marks.discreet planner) (fun _ _ => rfl) _ _).of_run made.drain
  rw [made.picked] at unmarked
  obtain ⟨drained, cancelled⟩ := Prod.mk.inj unmarked
  rw [made.noted]
  rcases outcome : attempt.outcome with _ | _ | ⟨first, rest⟩
  · simp [marks, Progress.note, drained, cancelled]
  · exact absurd outcome decided
  · simp [marks, Progress.note, drained, cancelled]

theorem outcome_ne (reliable : planner.advisors.Reliable) : attempt.outcome ≠ some [] := by
  intro nothing
  have emptied := (drain_empties reliable).of_ok made.drain [] nothing
  rw [made.picked] at emptied
  exact emptied.ne_nil (of_pick made.pick).2.2 rfl

end Made

/-! The list of attempts -/

theorem length_le_addAll (ids known : List String) : known.length ≤ (addAll ids known).length := by
  unfold addAll
  induction ids generalizing known with
  | nil => exact Nat.le_refl _
  | cons id rest ih => exact Nat.le_trans List.length_le_length_insert (ih (known.insert id))

theorem Made.settles (made : planner.Made settled closed now attempt later) :
    settled.length < (attempt.settle settled).length := by
  refine Nat.lt_of_lt_of_le ?_ (length_le_addAll _ _)
  rw [List.length_insert_of_not_mem made.fresh]
  exact Nat.lt_succ_self _

/-! Consolidations that come to an end or break off -/

/-- One host after the other is picked to be drained, until all hosts are settled or none is left to
pick. A fault breaks this off in the middle of a round. -/
inductive Consolidates (planner : Planner α State) : List String → List String → Progress α State →
    List (Machine α) → Except (Fault α) (List Move) × Progress α State → Prop
  | full {settled closed : List String} {now : Progress α State} :
      planner.machines.length ≤ settled.length →
      Consolidates planner settled closed now [] (.ok [], now)
  | unseen {settled closed : List String} {now last : Progress α State} {fault : Fault α} :
      settled.length < planner.machines.length →
      (leastLoaded? settled planner.underload none planner.machines).run.run
        { now with phase := .detectUnderloaded } = (.error fault, last) →
      Consolidates planner settled closed now [] (.error fault, last)
  | idle {settled closed : List String} {now last : Progress α State} :
      settled.length < planner.machines.length →
      (planner.round settled closed).run.run now = (.ok none, last) →
      Consolidates planner settled closed now [] (.ok [], last)
  | broken {settled closed : List String} {now looked last : Progress α State}
      {machine : Machine α} {fault : Fault α} :
      settled.length < planner.machines.length →
      (leastLoaded? settled planner.underload none planner.machines).run.run
        { now with phase := .detectUnderloaded } = (.ok (some machine), looked) →
      (planner.drain machine (closed.insert machine.id)).run.run
        { looked with phase := .drainOrCancel } = (.error fault, last) →
      Consolidates planner settled closed now [machine] (.error fault, last)
  | next {settled closed : List String} {now later last : Progress α State}
      {attempt : Attempt α State} {attempted : List (Machine α)}
      {ended : Except (Fault α) (List Move)} :
      settled.length < planner.machines.length →
      (planner.round settled closed).run.run now = (.ok (some attempt), later) →
      Consolidates planner (attempt.settle settled) (attempt.close closed) later attempted
        (ended, last) →
      Consolidates planner settled closed now (attempt.machine :: attempted)
        (ended.map (attempt.moves ++ ·), last)

/-- A consolidation comes to an end: every attempt settles one more host. -/
theorem exists_consolidates (planner : Planner α State) (settled closed : List String)
    (now : Progress α State) :
    ∃ attempted ended last, planner.Consolidates settled closed now attempted (ended, last) := by
  induction left : planner.machines.length - settled.length using Nat.strongRecOn
    generalizing settled closed now with
  | ind left ih =>
    rcases Nat.lt_or_ge settled.length planner.machines.length with room | full
    · rcases round : (planner.round settled closed).run.run now with ⟨fault | _ | attempt, later⟩
      · rw [run_round] at round
        split at round
        · next unseen => exact ⟨_, _, _, .unseen room unseen⟩
        · cases round
        · next machine looked pick =>
          split at round
          · next drain => exact ⟨_, _, _, .broken room pick drain⟩
          · cases round
      · exact ⟨_, _, _, .idle room round⟩
      · have longer := (of_run_round round).settles
        obtain ⟨attempted, ended, last, rest⟩ :=
          ih _ (by omega) (attempt.settle settled) (attempt.close closed) later rfl
        exact ⟨_, _, _, .next room round rest⟩
    · exact ⟨_, _, _, .full full⟩

namespace Consolidates

variable {attempted : List (Machine α)} {outcome : Except (Fault α) (List Move) × Progress α State}
  (consolidates : planner.Consolidates settled closed now attempted outcome)
include consolidates

theorem run_eq {count : Nat} (enough : planner.machines.length ≤ settled.length + count) :
    (planner.consolidate count settled closed).run.run now = outcome := by
  have left {settled : List String} {count : Nat} (room : settled.length < planner.machines.length)
      (enough : planner.machines.length ≤ settled.length + count) : ∃ fewer, count = fewer + 1 :=
    Nat.exists_eq_add_one_of_ne_zero (by omega)
  induction consolidates generalizing count with
  | full full =>
    cases count with
    | zero => rfl
    | succ count =>
      rw [consolidate_succ, if_neg (Nat.not_lt.mpr full)]
      rfl
  | unseen room unseen =>
    obtain ⟨count, rfl⟩ := left room enough
    rw [consolidate_succ, if_pos room, Attempt.run_bind, run_round, unseen]
  | idle room round =>
    obtain ⟨count, rfl⟩ := left room enough
    rw [consolidate_succ, if_pos room, Attempt.run_bind, round]
    rfl
  | broken room pick drain =>
    obtain ⟨count, rfl⟩ := left room enough
    rw [consolidate_succ, if_pos room, Attempt.run_bind, run_round, pick]
    dsimp only
    rw [drain]
  | next room round _ ih =>
    obtain ⟨count, rfl⟩ := left room enough
    have longer := (of_run_round round).settles
    rw [consolidate_succ, if_pos room, Attempt.run_bind, round]
    dsimp only
    rw [run_made, ih (by omega)]

theorem fresh : ∀ machine ∈ attempted, machine ∈ planner.machines ∧ machine.id ∉ settled := by
  induction consolidates with
  | full | unseen | idle => exact fun _ absent => absurd absent List.not_mem_nil
  | broken _ pick =>
    obtain ⟨member, fresh, _⟩ := of_pick pick
    exact List.forall_mem_singleton.mpr ⟨member, fresh⟩
  | next _ round _ ih =>
    obtain ⟨member, fresh, _⟩ := of_pick (of_run_round round).pick
    refine List.forall_mem_cons.mpr ⟨⟨member, fresh⟩, fun other otherMem => ?_⟩
    obtain ⟨known, unsettled⟩ := ih other otherMem
    exact ⟨known, fun inside => unsettled
      (mem_addAll.mpr (.inr (List.mem_insert_of_mem inside)))⟩

theorem once : (attempted.map (·.id)).Nodup := by
  induction consolidates with
  | full | unseen | idle => exact .nil
  | broken => exact List.nodup_singleton _
  | next _ _ rest ih =>
    refine List.nodup_cons.mpr ⟨fun again => ?_, ih⟩
    obtain ⟨other, otherMem, same⟩ := List.mem_map.mp again
    exact (rest.fresh other otherMem).2 (mem_addAll.mpr (.inr (same ▸ List.mem_insert_self)))

end Consolidates

/-! Consolidations that come to an end -/

inductive Rounds (planner : Planner α State) : List String → List String → Progress α State →
    List (Attempt α State) → Progress α State → Prop
  | full {settled closed : List String} {now : Progress α State} :
      planner.machines.length ≤ settled.length → Rounds planner settled closed now [] now
  | idle {settled closed : List String} {now last : Progress α State} :
      settled.length < planner.machines.length →
      (planner.round settled closed).run.run now = (.ok none, last) →
      Rounds planner settled closed now [] last
  | next {settled closed : List String} {now later last : Progress α State}
      {attempt : Attempt α State} {attempts : List (Attempt α State)} :
      settled.length < planner.machines.length →
      (planner.round settled closed).run.run now = (.ok (some attempt), later) →
      Rounds planner (attempt.settle settled) (attempt.close closed) later attempts last →
      Rounds planner settled closed now (attempt :: attempts) last

theorem Consolidates.exists_rounds {attempted : List (Machine α)}
    {outcome : Except (Fault α) (List Move) × Progress α State} {moves : List Move}
    (consolidates : planner.Consolidates settled closed now attempted outcome)
    (came : outcome = (.ok moves, last)) :
    ∃ attempts, planner.Rounds settled closed now attempts last ∧
      moves = attempts.flatMap (·.moves) := by
  induction consolidates generalizing moves with
  | full full =>
    cases came
    exact ⟨[], .full full, rfl⟩
  | unseen | broken => cases came
  | idle room round =>
    cases came
    exact ⟨[], .idle room round, rfl⟩
  | @next _ _ _ _ _ attempt _ ended room round _ ih =>
    cases ended with
    | error fault => cases came
    | ok more =>
      cases came
      obtain ⟨attempts, rounds, rfl⟩ := ih rfl
      exact ⟨attempt :: attempts, .next room round rounds, rfl⟩

theorem consolidate_rounds {count : Nat} {moves : List Move}
    (enough : planner.machines.length ≤ settled.length + count)
    (run : (planner.consolidate count settled closed).run.run now = (.ok moves, last)) :
    ∃ attempts, planner.Rounds settled closed now attempts last ∧
      moves = attempts.flatMap (·.moves) := by
  obtain ⟨_, _, _, consolidates⟩ := exists_consolidates planner settled closed now
  exact consolidates.exists_rounds ((consolidates.run_eq enough).symm.trans run)

namespace Rounds

theorem consolidates (rounds : planner.Rounds settled closed now attempts last) :
    planner.Consolidates settled closed now (attempts.map (·.machine))
      (.ok (attempts.flatMap (·.moves)), last) := by
  induction rounds with
  | full full => exact .full full
  | idle room round => exact .idle room round
  | next room round _ ih => exact .next room round ih

theorem fresh (rounds : planner.Rounds settled closed now attempts last) :
    ∀ attempt ∈ attempts, attempt.machine.id ∉ settled := fun _ attemptMem =>
  (rounds.consolidates.fresh _ (List.mem_map_of_mem attemptMem)).2

theorem once (rounds : planner.Rounds settled closed now attempts last) :
    (attempts.map (·.machine.id)).Nodup := by
  simpa [Function.comp_def] using rounds.consolidates.once

theorem marks_eq (rounds : planner.Rounds settled closed now attempts last)
    (decided : ∀ attempt ∈ attempts, attempt.outcome ≠ some []) : marks last =
      (now.drained ++ (attempts.filter (·.outcome.isSome)).map (·.machine.id),
        now.cancelled ++ (attempts.filter (·.outcome.isNone)).map (·.machine.id)) := by
  induction rounds with
  | full => simp [marks]
  | idle _ round =>
    rw [(of_run_round round).2]
    simp [marks]
  | @next _ _ _ _ _ attempt _ _ round _ ih =>
    obtain ⟨here, others⟩ := List.forall_mem_cons.mp decided
    have marked := (of_run_round round).marks_eq here
    rw [ih others]
    cases outcome : attempt.outcome <;> simp_all [marks]

variable {cluster : Cluster α} {overloaded loose : List String} {selected : Occupancy α}
  {moves : List Move}

theorem ships (reliable : planner.advisors.Reliable) (distinct : cluster.DistinctVms)
    (same : planner.machines = cluster.machines)
    (rounds : planner.Rounds settled closed now attempts last)
    (standing : Standing cluster overloaded loose closed settled selected moves now.occupancy) :
    (∀ attempt ∈ attempts, Tried cluster closed attempt) ∧
      ∃ loose' closed' settled', Standing cluster overloaded loose' closed' settled' selected
        (moves ++ attempts.flatMap (·.moves)) last.occupancy ∧
        attempts.map (·.machine.id) ++ loose ⊆ loose' := by
  induction rounds generalizing loose moves with
  | full => exact ⟨by simp, loose, _, _, by simpa using standing, by simp⟩
  | idle _ round =>
    have unchanged := (round_ships reliable distinct same standing).of_ok round
    exact ⟨by simp, loose, _, _, by simpa [unchanged] using standing, by simp⟩
  | next _ round _ ih =>
    obtain ⟨fresh, tried, later⟩ := (round_ships reliable distinct same standing).of_ok round
    obtain ⟨laterTried, loose', closed', settled', standing', inside⟩ := ih later
    refine ⟨List.forall_mem_cons.mpr ⟨?_, ?_⟩, loose', closed', settled', ?_, ?_⟩
    -- what was closed at first stays closed to every attempt
    · exact tried.mono fun id inside => List.mem_insert_of_mem inside
    · exact fun other otherMem =>
        (laterTried other otherMem).mono fun id inside => List.mem_insert_of_mem inside
    · simpa using standing'
    · exact List.Subset.trans List.perm_middle.symm.subset inside

end Rounds

end Fleet.Plan.Planner
