import Fleet.Plan.Advisor
import Fleet.Proofs.Destination.Search

/-! What a cycle can rely on in the answers of its advisors.

The answers of every policy are reliable, and they stay so when calls are turned into faults from
outside. Nothing is promised about when an answer comes at all.
-/

set_option autoImplicit false

namespace Fleet

open Attempt

variable {α : Type} [Scalar α]

theorem Scalar.firstLeast_mem {Item : Type} {scored : List (Item × α)} {least : Item × α}
    (found : firstLeast scored = some least) : least ∈ scored := by
  -- whatever has been the least so far is in the list
  refine List.foldlRecOn (motive := fun best => ∀ entry, best = some entry → entry ∈ scored) scored
    _
    (fun _ absent => by cases absent) (fun best known entry member other same => ?_) least found
  cases best with
  | none =>
    dsimp only at same
    split at same
    · exact Option.some.inj same ▸ member
    · cases same
  | some old =>
    dsimp only at same
    split at same
    · exact Option.some.inj same ▸ member
    · exact known other same

theorem EvictionRule.victim?_mem {rule : EvictionRule α} {table : FlavorTable α} {host : Host α}
    {vm : Vm α} (found : rule.victim? table host = .ok (some vm)) :
    vm ∈ host.vms ∧ vm.migrating = false := by
  obtain ⟨scored, read, found⟩ := bind_ok found
  obtain ⟨entry, least, rfl⟩ := Option.map_eq_some_iff.mp (Except.ok.inj found)
  obtain ⟨listed, -⟩ :=
    (mapM_made_eq_ok_iff Prod.fst Prod.snd (fun _ _ => ⟨rfl, rfl⟩) fun _ => rfl).mp read
  have member : entry.1 ∈ host.vms.filter (!·.migrating) :=
    listed ▸ List.mem_map_of_mem (Scalar.firstLeast_mem least)
  simpa using member

namespace DestinationRule

theorem best?_mem {scored : List (Host α × Score α)} {host : Host α}
    (found : best? scored = some host) : host ∈ scored.map (·.1) := by
  obtain ⟨entry, least, rfl⟩ := Option.map_eq_some_iff.mp found
  obtain ⟨pair, member, rfl⟩ := List.mem_map.mp (Scalar.firstLeast_mem least)
  exact List.mem_map_of_mem member

theorem settle_phases_mem {rule : DestinationRule α} {scored : List (Host α × Score α)} {draw : α}
    {host : Host α} (settled : (rule.phases scored).settle draw = some host) :
    host ∈ scored.map (·.1) := by
  have inside {keep : Host α × Score α → Bool} {host : Host α}
      (found : best? (scored.filter keep) = some host) : host ∈ scored.map (·.1) :=
    (List.filter_sublist.map _).subset (best?_mem found)
  unfold phases at settled
  split at settled
  · next guided =>
    cases settled
    exact inside guided
  · split at settled
    · next territorial =>
      cases settled
      exact inside territorial
    · simp only [Search.settle, Search.drawn?, Option.orElse_eq_orElse, Option.orElse_eq_or,
        Option.or_eq_some_iff] at settled
      rcases settled with above | ⟨-, least⟩
      · exact inside above
      · exact best?_mem least

theorem settle_mem {rule : DestinationRule α} {table : FlavorTable α} {vm : Vm α}
    {hosts : List (Host α)} {excluded : List String} {search : Search α} {draw : α} {host : Host α}
    (searched : rule.search table vm hosts excluded = .ok search)
    (settled : search.settle draw = some host) :
    ∃ passed, candidates vm hosts excluded = .ok passed ∧ host ∈ passed := by
  obtain ⟨passed, sieved, concluded⟩ := search_eq_ok_iff.mp searched
  refine ⟨passed, sieved, ?_⟩
  cases concluded with
  | nobody => cases settled
  | only host =>
    cases settled
    exact List.mem_singleton_self _
  | several scores => exact scores.listed ▸ settle_phases_mem settled

theorem candidates_suitable {vm : Vm α} {hosts passed : List (Host α)} {excluded : List String}
    (sieved : candidates vm hosts excluded = .ok passed) {host : Host α} (member : host ∈ passed) :
    host ∈ hosts ∧ host.id ∉ excluded ∧ host.isSuitable vm = .ok true := by
  obtain ⟨present, tested⟩ := sieve_ok sieved host member
  refine ⟨present, ?_⟩
  unfold isCandidate at tested
  split at tested
  · cases tested
  · next open_ =>
    obtain ⟨suitable, judged, run⟩ := bind_ok tested
    cases suitable with
    | false => cases run
    | true => exact ⟨open_, judged⟩

end DestinationRule

namespace Plan

variable {State : Type}

/-- A victim is a resident that is not migrating; a destination is one of the hosts offered, is not
closed, and is suitable. -/
structure Advisors.Reliable (advisors : Advisors α State) : Prop where
  victim : ∀ {host : Host α} {state later : State} {vm : Vm α},
    (advisors.victim? host).run.run state = (.ok (some vm), later) →
    vm ∈ host.vms ∧ vm.migrating = false
  destination : ∀ {vm : Vm α} {hosts : List (Host α)} {closed : List String} {state later : State}
    {host : Host α},
    (advisors.destination? vm hosts closed).run.run state = (.ok (some host), later) →
    host ∈ hosts ∧ host.id ∉ closed ∧ host.isSuitable vm = .ok true

namespace Policy

variable {Draws : Type} {policy : Policy α} {draw : Draws → α × Draws} {vm : Vm α}
  {hosts : List (Host α)} {closed : List String}

theorem destination?_of_settled {found : Option (Host α)}
    (searched : policy.destination.search policy.table vm hosts closed = .ok (.settled found))
    (draw : Draws → α × Draws) (state : World α Draws) :
    (policy.destination? draw vm hosts closed).run.run state = (.ok found, state) := by
  simp only [destination?, searched]
  rfl

theorem destination?_of_search {search : Search α}
    (searched : policy.destination.search policy.table vm hosts closed = .ok search)
    (draw : Draws → α × Draws) (state : World α Draws) :
    ∃ later, (policy.destination? draw vm hosts closed).run.run state =
      (.ok (search.settle (draw state.draws).1), later) := by
  cases search with
  | settled found => exact ⟨state, destination?_of_settled searched draw state⟩
  | contested scored =>
    refine ⟨{ state with draws := (draw state.draws).2 }, ?_⟩
    simp only [destination?, searched]
    rfl

theorem destination?_settles {state later : World α Draws} {host : Host α}
    (answered : (policy.destination? draw vm hosts closed).run.run state =
      (.ok (some host), later)) :
    ∃ search value, policy.destination.search policy.table vm hosts closed = .ok search ∧
      search.settle value = some host := by
  cases searched : policy.destination.search policy.table vm hosts closed with
  | error fault =>
    have run : (policy.destination? draw vm hosts closed).run.run state =
        (.error fault, state) := by
      simp only [destination?, searched]
      rfl
    cases run.symm.trans answered
  | ok search =>
    obtain ⟨_, run⟩ := destination?_of_search searched draw state
    exact ⟨search, _, rfl, Except.ok.inj (congrArg Prod.fst (run.symm.trans answered))⟩

end Policy

theorem Policy.reliable {Draws : Type} (policy : Policy α) (draw : Draws → α × Draws) :
    (policy.advisors draw).Reliable where
  victim answered := EvictionRule.victim?_mem (congrArg Prod.fst answered)
  destination answered := by
    obtain ⟨search, value, searched, settled⟩ := destination?_settles answered
    obtain ⟨passed, sieved, member⟩ := DestinationRule.settle_mem searched settled
    exact DestinationRule.candidates_suitable sieved member

/-! Disturbances from outside -/

/-- Before each call, `strike` decides whether a fault comes in its place. It remembers what it
likes, for instance how many calls there were. -/
def guarded {Mood Answer : Type} (strike : Mood → Option (Fault α) × Mood)
    (question : Ask α State Answer) : Ask α (State × Mood) Answer :=
  ExceptT.mk fun (state, mood) =>
    match strike mood with
    | (some fault, mood) => (.error fault, (state, mood))
    | (none, mood) =>
        let (answer, state) := question.run.run state
        (answer, (state, mood))

def Advisors.disturbed {Mood : Type} (advisors : Advisors α State)
    (strike : Mood → Option (Fault α) × Mood) : Advisors α (State × Mood) where
  isOverloaded host tick := guarded strike (advisors.isOverloaded host tick)
  staysOverloaded host := guarded strike (advisors.staysOverloaded host)
  victim? host := guarded strike (advisors.victim? host)
  destination? vm hosts closed := guarded strike (advisors.destination? vm hosts closed)

omit [Scalar α] in
theorem answer_of_guarded {Mood Answer : Type} {strike : Mood → Option (Fault α) × Mood}
    {question : Ask α State Answer} {state later : State × Mood} {answer : Answer}
    (answered : (guarded strike question).run.run state = (.ok answer, later)) :
    question.run.run state.1 = (.ok answer, later.1) := by
  obtain ⟨state, mood⟩ := state
  rcases stricken : strike mood with ⟨_ | fault, calm⟩
  · have run : (guarded strike question).run.run (state, mood) =
        ((question.run.run state).1, ((question.run.run state).2, calm)) := by
      simp only [guarded, ExceptT.run_mk, StateT.run, stricken]
      rfl
    obtain ⟨first, rest⟩ := Prod.mk.inj (run.symm.trans answered)
    exact Prod.ext first (congrArg Prod.fst rest)
  · have run : (guarded strike question).run.run (state, mood) = (.error fault, (state, calm)) := by
      simp only [guarded, ExceptT.run_mk, StateT.run, stricken]
    cases run.symm.trans answered

theorem Advisors.Reliable.disturbed {Mood : Type} {advisors : Advisors α State}
    (reliable : advisors.Reliable) (strike : Mood → Option (Fault α) × Mood) :
    (advisors.disturbed strike).Reliable where
  victim answered := reliable.victim (answer_of_guarded answered)
  destination answered := reliable.destination (answer_of_guarded answered)

end Plan

end Fleet
