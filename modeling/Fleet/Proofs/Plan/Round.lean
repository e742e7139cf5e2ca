import Fleet.Proofs.Plan.Drain

/-! One round of a consolidation: a host is picked, and its VMs leave it or it is left as it was.

A drained host is never one that received a VM: such hosts are settled. This is why the moves of
several drains can be replayed one after the other, and why a host that is not settled is still as it
was at the beginning.
-/

set_option autoImplicit false

namespace Fleet.Plan

open Step

variable {α State : Type}

/-- An attempt to drain a host: what was where when the host had been picked, and when its VMs had
left or had been taken back. -/
structure Attempt (α State : Type) where
  machine : Machine α
  picked : Progress α State
  outcome : Option (List Move)
  ended : Progress α State

namespace Attempt

variable (attempt : Attempt α State)

def moves : List Move := attempt.outcome.getD []

def settle (settled : List String) : List String :=
  Planner.addAll (attempt.moves.map (·.destination)) (settled.insert attempt.machine.id)

def close (closed : List String) : List String := closed.insert attempt.machine.id

end Attempt

def Progress.note (progress : Progress α State) (host : String) :
    Option (List Move) → Progress α State
  | none => { progress with cancelled := progress.cancelled ++ [host] }
  | some [] => progress
  | some (_ :: _) => { progress with drained := progress.drained ++ [host] }

@[simp] theorem Progress.occupancy_note (progress : Progress α State) (host : String)
    (outcome : Option (List Move)) : (progress.note host outcome).occupancy = progress.occupancy := by
  unfold note
  split <;> rfl

theorem Emptied.ne_nil {machine : Machine α} {closed : List String} {now : Occupancy α}
    {moves : List Move} (emptied : Emptied machine closed now moves)
    (free : Planner.isPinned (now.host machine) = false) : moves ≠ [] := by
  rintro rfl
  have stuck := emptied.vms
  rw [List.map_nil, List.nil_perm, List.map_eq_nil_iff, List.filter_eq_nil_iff] at stuck
  obtain ⟨vm, resident, still⟩ := (Planner.isPinned_eq_false.mp free).2
  exact stuck vm resident (by simp [still])

namespace Planner

theorem mem_addAll {id : String} {ids known : List String} :
    id ∈ addAll ids known ↔ id ∈ ids ∨ id ∈ known := by
  unfold addAll
  induction ids generalizing known with
  | nil => simp
  | cons first rest ih =>
    rw [List.foldl_cons, ih, List.mem_insert_iff, List.mem_cons]
    tauto

/-- The lists that a consolidation keeps: overloaded hosts are loose, loose hosts closed, and closed
hosts settled, as is every host that received a VM. -/
structure Ledger (overloaded loose closed settled : List String) (moves : List Move) : Prop where
  overloaded : overloaded ⊆ loose
  loose : loose ⊆ closed
  closed : closed ⊆ settled
  received : ∀ move ∈ moves, move.destination ∈ settled

namespace Ledger

variable {overloaded loose closed settled : List String} {moves : List Move}
  (ledger : Ledger overloaded loose closed settled moves)
include ledger

theorem notReceived {host : String} (fresh : host ∉ settled) :
    host ∉ moves.map (·.destination) := by
  intro there
  obtain ⟨move, moveMem, destination⟩ := List.mem_map.mp there
  exact fresh (destination ▸ ledger.received move moveMem)

theorem settle (host : String) :
    Ledger overloaded (host :: loose) (closed.insert host) (settled.insert host) moves where
  overloaded := List.subset_cons_of_subset _ ledger.overloaded
  loose _ inside :=
    List.mem_insert_iff.mpr ((List.mem_cons.mp inside).imp_right fun old => ledger.loose old)
  closed _ inside :=
    List.mem_insert_iff.mpr ((List.mem_insert_iff.mp inside).imp_right fun old => ledger.closed old)
  received move moveMem := List.mem_insert_iff.mpr (.inr (ledger.received move moveMem))

theorem receive (more : List Move) :
    Ledger overloaded loose closed (addAll (more.map (·.destination)) settled) (moves ++ more) where
  overloaded := ledger.overloaded
  loose := ledger.loose
  closed _ inside := mem_addAll.mpr (.inr (ledger.closed inside))
  received move moveMem := by
    rcases List.mem_append.mp moveMem with before | added
    · exact mem_addAll.mpr (.inr (ledger.received move before))
    · exact mem_addAll.mpr (.inl (List.mem_map_of_mem added))

end Ledger

variable [Scalar α]

/-- Picks a host, if there is one to pick, and tries to drain it. -/
def round (planner : Planner α State) (settled closed : List String) :
    Step α State (Option (Attempt α State)) := do
  enter .detectUnderloaded
  match ← leastLoaded? settled planner.underload none planner.machines with
  | none => pure none
  | some machine =>
      enter .drainOrCancel
      let picked ← get
      let outcome ← planner.drain machine (closed.insert machine.id)
      let ended ← get
      modify (·.note machine.id outcome)
      pure (some { machine, picked, outcome, ended })

omit [Scalar α] in
theorem get_bind {Answer : Type} (next : Step α State Answer) :
    ((get : Step α State (Progress α State)) >>= fun _ => next) = next := rfl

theorem consolidate_succ (planner : Planner α State) (attempts : Nat)
    (settled closed : List String) : planner.consolidate (attempts + 1) settled closed =
      if settled.length < planner.machines.length then do
        match ← planner.round settled closed with
        | none => pure []
        | some attempt =>
            let later ← planner.consolidate attempts (attempt.settle settled) (attempt.close closed)
            pure (attempt.moves ++ later)
      else pure [] := by
  rw [consolidate]
  split
  · simp only [round, bind_assoc]
    congr 1
    funext _
    congr 1
    funext found
    cases found with
    | none => rfl
    | some machine =>
      simp only [bind_assoc, pure_bind, Attempt.settle, Attempt.close, Attempt.moves, get_bind]
      congr 1
      funext _
      congr 1
      funext outcome
      -- a drain that was undone and one that had nothing to move settle no host but this one
      rcases outcome with _ | _ | ⟨first, others⟩
      · simp only [Progress.note, Option.getD_none, List.map_nil, addAll, List.foldl_nil,
          List.nil_append, bind_pure]
      · simp only [Progress.note, Option.getD_some, List.map_nil, addAll, List.foldl_nil,
          List.nil_append, bind_pure]
        rfl
      · rfl
  · rfl

/-! What a round keeps, and what it does -/

variable {cluster : Cluster α} {overloaded loose closed settled : List String}
  {selected now : Occupancy α} {moves : List Move}

structure Standing (cluster : Cluster α) (overloaded loose closed settled : List String)
    (selected : Occupancy α) (moves : List Move) (now : Occupancy α) : Prop where
  ledger : Ledger overloaded loose closed settled moves
  sheltered : Sheltered cluster overloaded selected now
  rehearsed : Rehearsed cluster loose moves now

namespace Standing

variable (standing : Standing cluster overloaded loose closed settled selected moves now)
  {machine : Machine α} (fresh : machine.id ∉ settled)
include standing fresh

theorem tight : machine.id ∉ loose := fun inside =>
  fresh (standing.ledger.closed (standing.ledger.loose inside))

theorem calm : machine.id ∉ overloaded := fun inside =>
  standing.tight fresh (standing.ledger.overloaded inside)

theorem untouched (member : machine ∈ cluster.machines) :
    now.residents machine.id = cluster.occupancy.residents machine.id :=
  standing.rehearsed.residents_eq member (standing.tight fresh) (standing.ledger.notReceived fresh)

theorem host_eq (member : machine ∈ cluster.machines) :
    now.host machine = cluster.occupancy.host machine := by
  rw [Occupancy.host, standing.untouched fresh member, Occupancy.host]

end Standing

/-- The attempt was made at a host that nothing had touched and nothing migrates into, and it did all
or nothing. -/
structure Tried (cluster : Cluster α) (closed : List String) (attempt : Attempt α State) :
    Prop where
  member : attempt.machine ∈ cluster.machines
  untouched : attempt.picked.occupancy.residents attempt.machine.id =
    cluster.occupancy.residents attempt.machine.id
  free : isPinned (attempt.picked.occupancy.host attempt.machine) = false
  emptied : ∀ moves, attempt.outcome = some moves →
    Emptied attempt.machine closed attempt.picked.occupancy moves
  restored : attempt.outcome = none →
    Restored cluster attempt.machine attempt.picked.occupancy attempt.ended.occupancy
  tracked : Tracked cluster attempt.ended.occupancy

namespace Tried

omit [Scalar α] in
theorem mono {attempt : Attempt α State} {fewer : List String}
    (tried : Tried cluster closed attempt) (inside : fewer ⊆ closed) :
    Tried cluster fewer attempt where
  member := tried.member
  untouched := tried.untouched
  free := tried.free
  emptied moves same :=
    have emptied := tried.emptied moves same
    ⟨emptied.vms, emptied.source, fun move moveMem there =>
      emptied.destination move moveMem (inside there)⟩
  restored := tried.restored
  tracked := tried.tracked

omit [Scalar α] in
theorem outcome_ne {attempt : Attempt α State} (tried : Tried cluster closed attempt) :
    attempt.outcome ≠ some [] := fun nothing =>
  (tried.emptied [] nothing).ne_nil tried.free rfl

omit [Scalar α] in
theorem calm {attempt : Attempt α State} (tried : Tried cluster closed attempt) :
    ∀ vm ∈ cluster.occupancy.residents attempt.machine.id, vm.id ∉ attempt.machine.arriving :=
  tried.untouched ▸ (isPinned_eq_false.mp tried.free).1

end Tried

variable {planner : Planner α State} {progress : Progress α State}

theorem round_ships (reliable : planner.advisors.Reliable) (distinct : cluster.DistinctVms)
    (same : planner.machines = cluster.machines)
    (standing : Standing cluster overloaded loose closed settled selected moves
      progress.occupancy) :
    (planner.round settled closed).Ends progress
      (fun found later => match found with
        | none => later.occupancy = progress.occupancy
        | some attempt => attempt.machine.id ∉ settled ∧
            Tried cluster (attempt.close closed) attempt ∧
            Standing cluster overloaded (attempt.machine.id :: loose) (attempt.close closed)
              (attempt.settle settled) selected (moves ++ attempt.moves) later.occupancy)
      (fun _ later => Sheltered cluster overloaded selected later.occupancy) := by
  have sheltered := standing.sheltered
  rw [round, ends_bind, ends_enter, ends_bind]
  refine ends_leastLoaded? (fun found named => ?_) fun _ => sheltered
  cases found with
  | none => rfl
  | some machine =>
    obtain ⟨member, fresh, free⟩ := named machine rfl
    rw [same] at member
    have settled := standing.ledger.settle machine.id
    rw [ends_bind, ends_enter, ends_bind, ends_get, ends_bind]
    refine Ends.mono (Ends.and (drain_ships distinct member (standing.calm fresh) reliable same
      settled.loose (List.Subset.trans settled.overloaded settled.loose) sheltered
      standing.rehearsed free (standing.tight fresh) (standing.ledger.notReceived fresh))
        (drain_empties reliable)) ?_ fun _ _ broke => broke.1
    rintro outcome ended ⟨⟨kept, shipped, restored⟩, emptied⟩
    rw [ends_bind, ends_get, ends_bind, ends_modify, ends_pure]
    refine ⟨fresh, ⟨member, standing.untouched fresh member, free, emptied, restored,
      kept.tracked⟩, ?_⟩
    rw [Progress.occupancy_note]
    exact ⟨settled.receive _, kept, shipped⟩

end Planner

end Fleet.Plan
