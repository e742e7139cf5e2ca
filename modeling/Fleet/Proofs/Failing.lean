import Fleet.Fault
import Fleet.Proofs.Attempt

/-! Which faults a computation can fail with, put together from its parts. -/

set_option autoImplicit false

namespace Fleet

variable {α Item Result Other : Type}

/-- If the computation fails, then with one of these faults. -/
def FailsOnly (allowed : Fault α → Prop) (given : Except (Fault α) Result) : Prop :=
  ∀ fault, given = .error fault → allowed fault

namespace FailsOnly

variable {allowed : Fault α → Prop}

theorem ok (result : Result) : FailsOnly allowed (.ok result) := fun _ failed => by cases failed

theorem pure (result : Result) : FailsOnly allowed (pure result : Except (Fault α) Result) :=
  .ok result

theorem of_ok {given : Except (Fault α) Result} {result : Result} (read : given = .ok result) :
    FailsOnly allowed given := read ▸ .ok result

theorem bind {given : Except (Fault α) Other} {next : Other → Except (Fault α) Result}
    (first : FailsOnly allowed given)
    (second : ∀ value, given = .ok value → FailsOnly allowed (next value)) :
    FailsOnly allowed (given >>= next) := by
  intro fault failed
  cases given with
  | error cause =>
    cases failed
    exact first _ rfl
  | ok value => exact second value rfl fault failed

theorem mapM {compute : Item → Except (Fault α) Result} {items : List Item}
    (each : ∀ item ∈ items, FailsOnly allowed (compute item)) :
    FailsOnly allowed (items.mapM compute) := by
  induction items with
  | nil => exact .pure []
  | cons item rest ih =>
    obtain ⟨here, later⟩ := List.forall_mem_cons.mp each
    rw [List.mapM_cons]
    exact here.bind fun _ _ => (ih later).bind fun _ _ => .pure _

theorem foldlM {step : Result → Item → Except (Fault α) Result} {items : List Item} {start : Result}
    (each : ∀ item ∈ items, ∀ total, FailsOnly allowed (step total item)) :
    FailsOnly allowed (items.foldlM step start) := by
  induction items generalizing start with
  | nil => exact .pure start
  | cons item rest ih =>
    obtain ⟨here, later⟩ := List.forall_mem_cons.mp each
    rw [List.foldlM_cons]
    exact (here start).bind fun _ _ => ih later

theorem sieve {test : Item → Except (Fault α) Bool} {items : List Item}
    (each : ∀ item ∈ items, FailsOnly allowed (test item)) :
    FailsOnly allowed (sieve test items) := by
  induction items with
  | nil => exact .pure []
  | cons item rest ih =>
    obtain ⟨here, later⟩ := List.forall_mem_cons.mp each
    exact here.bind fun _ _ => (ih later).bind fun _ _ => .pure _

theorem exists_ok {given : Except (Fault α) Result} (never : FailsOnly (fun _ => False) given) :
    ∃ result, given = .ok result := by
  cases given with
  | error fault => exact (never fault rfl).elim
  | ok result => exact ⟨result, rfl⟩

theorem mono {given : Except (Fault α) Result} {more : Fault α → Prop}
    (fails : FailsOnly allowed given) (weaker : ∀ fault, allowed fault → more fault) :
    FailsOnly more given :=
  fun fault failed => weaker fault (fails fault failed)

end FailsOnly

end Fleet
