import Fleet.Proofs.Ordered
import Fleet.Proofs.Plan.Capacity

/-! A host under calls of any kind and in any order.

A VM comes to the host with the check or leaves it, and a refused call leaves everything as it was.
The check at each arrival is all that keeps the memory within its limit: what leaves is taken out of
the middle of the list, and the sum over the others is a different one, but not a greater one.
-/

set_option autoImplicit false

namespace Fleet

open Scalar

section

variable {α : Type} [Scalar α] {host : Host α} {vm : Vm α}

theorem Host.refusal?_eq_none_iff :
    host.refusal? vm = none ↔ host.holds vm.id = false ∧ host.fits vm = true := by
  refine ⟨fun taken => ⟨holds_of_refusal? taken, ?_⟩, fun ⟨free, fits⟩ =>
    refusal?_eq_none free fun _ => fits⟩
  unfold refusal? at taken
  rw [holds_of_refusal? taken, if_neg Bool.false_ne_true, Bool.true_and] at taken
  by_contra misfit
  rw [Bool.not_eq_true] at misfit
  rw [misfit, if_pos (by rfl)] at taken
  cases taken

theorem Host.kind_of_refusal? {check : Bool} {fault : Fault α}
    (refused : host.refusal? vm check = some fault) : fault.kind = .capacity := by
  unfold refusal? at refused
  split at refused
  · cases refused
    rfl
  · split at refused
    · cases refused
      rfl
    · cases refused

end

namespace Plan

open Step

/-- A call on a host. -/
inductive Transfer (α : Type) where
  | arrival (vm : Vm α)
  | departure (vm : Vm α)

/-- What a host has let in. -/
structure Admitted {α : Type} [Scalar α] (machine : Machine α) (occupancy : Occupancy α) :
    Prop where
  once : ((occupancy.residents machine.id).map (·.id)).Nodup
  labelled : ∀ vm ∈ occupancy.residents machine.id, occupancy.home vm.key = some machine.id
  sizes : ∀ vm ∈ occupancy.residents machine.id, IsSize vm.ramMb
  /-- An empty host may offer less than no memory. -/
  room : occupancy.residents machine.id ≠ [] → machine.Takes (occupancy.residents machine.id)

namespace Transfer

variable {α State : Type}

def vm : Transfer α → Vm α
  | arrival vm | departure vm => vm

variable [Scalar α] (machine : Machine α)

def step : Transfer α → Step α State Unit
  | arrival vm => accept machine vm
  | departure vm => release machine.id vm

/-- What the call leaves, also if it is refused. -/
def apply (now : Progress α State) (transfer : Transfer α) : Progress α State :=
  ((transfer.step machine).run.run now).2

def applyAll (start : Progress α State) (transfers : List (Transfer α)) : Progress α State :=
  transfers.foldl (apply machine) start

end Transfer

namespace Admitted

variable {α : Type} [Scalar α] {machine : Machine α} {occupancy : Occupancy α} {vm : Vm α}

theorem vacant (empty : occupancy.residents machine.id = []) : Admitted machine occupancy where
  once := empty ▸ List.nodup_nil
  labelled _ member := by simp [empty] at member
  sizes _ member := by simp [empty] at member
  room some := absurd empty some

theorem shape (admitted : Admitted machine occupancy) :
    ∀ vm ∈ occupancy.residents machine.id, vm.within machine.toShape = true := fun vm member =>
  (admitted.room (List.ne_nil_of_mem member)).shape vm member

theorem place (admitted : Admitted machine occupancy)
    (free : (occupancy.host machine).holds vm.id = false)
    (fits : (occupancy.host machine).fits vm = true) (size : IsSize vm.ramMb) :
    Admitted machine (occupancy.place machine.id vm) := by
  have placed : (occupancy.place machine.id vm).residents machine.id =
      occupancy.residents machine.id ++ [vm] := by
    rw [Occupancy.residents_place, if_pos rfl]
  have absent : vm.id ∉ (occupancy.residents machine.id).map (·.id) := by
    simpa [Host.holds, Occupancy.host] using free
  constructor
  · rw [placed, List.map_append, List.map_singleton]
    exact List.nodup_append_comm.mp (List.nodup_cons.mpr ⟨absent, admitted.once⟩)
  · intro other member
    rw [placed] at member
    rw [Occupancy.home_place]
    split
    · rfl
    · next apart =>
      rcases List.mem_append.mp member with before | added
      · exact admitted.labelled other before
      · exact absurd (congrArg Vm.key (List.mem_singleton.mp added)) apart
  · rw [placed]
    exact List.forall_mem_append.mpr ⟨admitted.sizes, List.forall_mem_singleton.mpr size⟩
  · rw [placed]
    exact fun _ => Machine.Takes.of_fits admitted.shape fits

theorem release [Linear α] [Accumulating α] (admitted : Admitted machine occupancy) (vm : Vm α) :
    Admitted machine (occupancy.release machine.id vm) := by
  have fewer := occupancy.residents_release_sublist machine.id vm machine.id
  have stayed {other : Vm α} (member : other ∈ (occupancy.release machine.id vm).residents
      machine.id) : other.id ≠ vm.id := by
    rw [Occupancy.residents_release, if_pos rfl] at member
    exact bne_iff_ne.mp (List.mem_filter.mp member).2
  refine ⟨admitted.once.sublist (fewer.map _), fun other member => ?_, fun other member =>
    admitted.sizes other (fewer.subset member), fun some => ?_⟩
  · have apart : other.key ≠ vm.key := fun same => stayed member (congrArg Prod.fst same)
    rw [Occupancy.home_release, if_neg fun both => apart both.1]
    exact admitted.labelled other (fewer.subset member)
  · have before : occupancy.residents machine.id ≠ [] := fun empty =>
      some (List.sublist_nil.mp (empty ▸ fewer))
    exact (admitted.room before).sublist fewer admitted.sizes

end Admitted

namespace Transfer

section

variable {α State : Type} [Scalar α] {machine : Machine α} {now later : Progress α State}
  {vm : Vm α}

theorem refused {transfer : Transfer α} {fault : Fault α}
    (failed : (transfer.step machine).run.run now = (.error fault, later)) :
    fault.kind = .capacity ∧ later = now := by
  cases transfer with
  | arrival vm =>
    rw [step, run_accept] at failed
    split at failed
    · next refusal =>
      cases failed
      exact ⟨Host.kind_of_refusal? refusal, rfl⟩
    · cases failed
  | departure vm => cases failed

theorem arrival_eq_ok_iff :
    ((arrival vm).step machine).run.run now = (.ok (), later) ↔
      ((now.occupancy.host machine).holds vm.id = false ∧
        (now.occupancy.host machine).fits vm = true) ∧
      later = { now with occupancy := now.occupancy.place machine.id vm } := by
  rw [step, run_accept, ← Host.refusal?_eq_none_iff]
  cases (now.occupancy.host machine).refusal? vm with
  | some fault => exact ⟨nofun, fun taken => nomatch taken.1⟩
  | none =>
    refine ⟨fun run => ⟨rfl, (congrArg Prod.snd run).symm⟩, fun taken => ?_⟩
    rw [taken.2]

omit [Scalar α] in
theorem departs_again (free : (now.occupancy.host machine).holds vm.id = false) :
    ((now.occupancy.place machine.id vm).release machine.id vm).residents machine.id =
      now.occupancy.residents machine.id := by
  have others : ∀ other ∈ now.occupancy.residents machine.id, other.id ≠ vm.id := by
    simpa [Host.holds, Occupancy.host] using free
  rw [Occupancy.residents_release, if_pos rfl, Occupancy.residents_place, if_pos rfl,
    List.filter_append, List.filter_eq_self.mpr fun other member => bne_iff_ne.mpr
      (others other member)]
  simp

theorem admitted_apply [Linear α] [Accumulating α] (admitted : Admitted machine now.occupancy)
    (transfer : Transfer α) (size : IsSize transfer.vm.ramMb) :
    Admitted machine (apply machine now transfer).occupancy := by
  unfold apply
  rcases run : (transfer.step machine).run.run now with ⟨fault | ⟨⟩, later⟩
  · exact (refused run).2 ▸ admitted
  · cases transfer with
    | arrival vm =>
      obtain ⟨⟨free, fits⟩, rfl⟩ := arrival_eq_ok_iff.mp run
      exact admitted.place free fits size
    | departure vm =>
      cases run
      exact admitted.release vm

theorem admitted_applyAll [Linear α] [Accumulating α] {transfers : List (Transfer α)}
    (admitted : Admitted machine now.occupancy)
    (sizes : ∀ transfer ∈ transfers, IsSize transfer.vm.ramMb) :
    Admitted machine (applyAll machine now transfers).occupancy := by
  induction transfers generalizing now with
  | nil => exact admitted
  | cons transfer rest ih =>
    obtain ⟨size, others⟩ := List.forall_mem_cons.mp sizes
    exact ih (admitted_apply admitted transfer size) others

end

variable {State : Type} {machine : Machine Float} {start : Progress Float State}
  {transfers : List (Transfer Float)}

/-- Whatever is called on a host that begins empty, and in whatever order: it holds what it has let
in, a refused call has changed nothing, and a VM that comes and goes at once leaves no trace in the
list. -/
theorem applyAll_consistent (vacant : start.occupancy.residents machine.id = [])
    (sizes : ∀ transfer ∈ transfers, IsSize transfer.vm.ramMb) {now : Progress Float State}
    (called : applyAll machine start transfers = now) :
    Admitted machine now.occupancy ∧
      (∀ (transfer : Transfer Float) (fault : Fault Float) (later : Progress Float State),
        (transfer.step machine).run.run now = (.error fault, later) →
          fault.kind = .capacity ∧ later = now) ∧
      ∀ vm : Vm Float,
        ((∃ later, ((arrival vm).step machine).run.run now = (.ok (), later)) ↔
          (now.occupancy.host machine).holds vm.id = false ∧
            (now.occupancy.host machine).fits vm = true) ∧
        ∀ later, ((arrival vm).step machine).run.run now = (.ok (), later) →
          later.occupancy.residents machine.id = now.occupancy.residents machine.id ++ [vm] ∧
          ∃ back, ((departure vm).step machine).run.run later = (.ok (), back) ∧
            back.occupancy.residents machine.id = now.occupancy.residents machine.id := by
  subst called
  refine ⟨admitted_applyAll (.vacant vacant) sizes, fun _ _ _ failed => refused failed,
    fun vm => ⟨?_, fun later taken => ?_⟩⟩
  · simp only [arrival_eq_ok_iff, exists_and_left, exists_eq, and_true]
  · obtain ⟨⟨free, _⟩, rfl⟩ := arrival_eq_ok_iff.mp taken
    refine ⟨?_, _, rfl, departs_again free⟩
    rw [Occupancy.residents_place, if_pos rfl]

namespace Sample

def server : Machine Float where
  mips := 1000.0
  cores := 4
  id := "h"
  ramMb := 2000.0
  samples := []
  arriving := []
  power := PowerCurve.xeonE5 Float

def guest (id : String) (ramMb : Float) : Vm Float where
  mips := 500.0
  cores := 2
  serial := 0
  id := id
  ramMb := ramMb
  samples := []
  migrating := false

def vacant : Engine Float Unit where
  cluster := .ofHosts [⟨server, []⟩] fun _ => none
  advisors := ()

def calls : List (Transfer Float) :=
  [.arrival (guest "a" 1000.0), .arrival (guest "b" 1500.0), .departure (guest "c" 0.0),
    .arrival (guest "d" 500.0), .arrival (guest "a" 10.0), .departure (guest "a" 1000.0),
    .arrival (guest "b" 1500.0)]

end Sample

/-- In the end the memory is full, and nothing more is let in. -/
theorem applyAll_consistent_busy :
    ∃ now, applyAll Sample.server Sample.vacant.begin Sample.calls = now ∧
      (now.occupancy.residents Sample.server.id).map (·.id) = ["d", "b"] ∧
      Admitted Sample.server now.occupancy ∧
      ∃ fault, ((arrival (Sample.guest "c" 1.0)).step Sample.server).run.run now =
        (.error fault, now) ∧ fault.kind = .capacity := by
  have vacant : Sample.vacant.begin.occupancy.residents Sample.server.id = [] := rfl
  have sizes : ∀ transfer ∈ Sample.calls, IsSize transfer.vm.ramMb := by
    unfold IsSize
    decide +kernel
  obtain ⟨admitted, refusals, arrivals⟩ := applyAll_consistent vacant sizes rfl
  refine ⟨_, rfl, by decide +kernel, admitted, ?_⟩
  rcases run : ((arrival (Sample.guest "c" 1.0)).step Sample.server).run.run
    (applyAll Sample.server Sample.vacant.begin Sample.calls) with ⟨fault | ⟨⟩, later⟩
  · obtain ⟨kind, same⟩ := refusals _ fault later run
    exact ⟨fault, congrArg (Prod.mk _) same, kind⟩
  · obtain ⟨_, fits⟩ := (arrivals _).1.mp ⟨later, run⟩
    exact absurd fits (by decide +kernel)

end Transfer

end Plan

end Fleet
