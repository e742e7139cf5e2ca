import Fleet.Proofs.Linear
import Fleet.Proofs.Plan.Advice

/-! The host that a search chooses.

Three phases look at the scores of all hosts that can take the VM, and each takes the first host of
least total among those that pass its test. Where totals are bounded, the shortcuts of the search
change nothing.
-/

set_option autoImplicit false

namespace Fleet

variable {α : Type} [Scalar α]

/-- A number between the least total and the greatest one, as far along as the draw is between zero
and one. -/
def Search.IsThreshold (totals : List α) (draw limit : α) : Prop :=
  ∃ least ∈ totals, ∃ greatest ∈ totals,
    (∀ total ∈ totals, least ≤ total ∧ total ≤ greatest) ∧
      limit = least + draw * (greatest - least)

theorem Search.isThreshold_threshold [Scalar.Linear α] {totals : List α} (several : totals ≠ [])
    (self : ∀ total ∈ totals, total ≤ total) (draw : α) :
    IsThreshold totals draw (threshold totals draw) := by
  cases totals with
  | nil => exact absurd rfl several
  | cons first rest =>
    obtain ⟨leastMem, least⟩ := Scalar.foldl_min_least self
    obtain ⟨greatestMem, greatest⟩ := Scalar.foldl_max_greatest self
    exact ⟨_, leastMem, _, greatestMem, fun total member =>
      ⟨least total member, greatest total member⟩, rfl⟩

namespace DestinationRule

variable {rule : DestinationRule α} {table : FlavorTable α} {vm : Vm α}
  {scored : List (Host α × Score α)} {draw : α} {host : Host α}

/-! The first of least total -/

/-- The host is the first one of least total among those whose score passes the test. -/
def Leads (scored : List (Host α × Score α)) (test : Score α → Bool) (host : Host α) : Prop :=
  ∃ total, Scalar.FirstLeast
    ((scored.filter fun entry => test entry.2).map fun entry => (entry.1, entry.2.total))
    (host, total)

theorem Leads.mem {test : Score α → Bool} {host : Host α} (leads : Leads scored test host) :
    ∃ entry ∈ scored, entry.1 = host ∧ test entry.2 = true := by
  obtain ⟨total, before, after, split, -⟩ := leads
  have member : (host, total) ∈
      (scored.filter fun entry => test entry.2).map fun entry => (entry.1, entry.2.total) := by
    rw [split]
    exact List.mem_append_right _ List.mem_cons_self
  obtain ⟨entry, passed, same⟩ := List.mem_map.mp member
  obtain ⟨entryMem, tested⟩ := List.mem_filter.mp passed
  exact ⟨entry, entryMem, (Prod.mk.inj same).1, tested⟩

theorem Leads.filter {test : Score α → Bool} {host : Host α} {keep : Host α → Bool}
    (leads : Leads scored test host) (kept : keep host = true) :
    Leads (scored.filter fun entry => keep entry.1) test host := by
  obtain ⟨total, first⟩ := leads
  refine ⟨total, ?_⟩
  have fewer := first.filter (fun entry => keep entry.1) kept
  rw [List.filter_map, List.filter_filter] at fewer
  simpa only [List.filter_filter, Function.comp_def, Bool.and_comm] using fewer

section

variable [Scalar.Linear α] (bounded : ∀ entry ∈ scored, Scalar.isBounded entry.2.total = true)
include bounded

omit [Scalar.Linear α] in
theorem totals_bounded (test : Score α → Bool) :
    ∀ entry ∈ (scored.filter fun entry => test entry.2).map fun entry => (entry.1, entry.2.total),
      Scalar.isBounded entry.2 = true :=
  List.forall_mem_map.mpr fun entry member => bounded entry (List.mem_filter.mp member).1

theorem best?_eq_some_iff (test : Score α → Bool) {host : Host α} :
    best? (scored.filter fun entry => test entry.2) = some host ↔ Leads scored test host := by
  unfold best? Leads
  simp only [Option.map_eq_some_iff, Scalar.firstLeast_eq_some_iff (totals_bounded bounded test)]
  constructor
  · rintro ⟨⟨_, total⟩, first, rfl⟩
    exact ⟨total, first⟩
  · rintro ⟨total, first⟩
    exact ⟨(host, total), first, rfl⟩

theorem best?_eq_none_iff (test : Score α → Bool) :
    best? (scored.filter fun entry => test entry.2) = none ↔
      ∀ entry ∈ scored, test entry.2 = false := by
  unfold best?
  simp only [Option.map_eq_none_iff, Scalar.firstLeast_eq_none_iff (totals_bounded bounded test),
    List.map_eq_nil_iff, List.filter_eq_nil_iff, Bool.not_eq_true]

end

/-! The three phases -/

/-- The host that the three phases choose, each where those before it have none to choose from. -/
inductive Chooses (rule : DestinationRule α) (scored : List (Host α × Score α)) (draw : α) :
    Host α → Prop where
  | guided {host : Host α} : Leads scored rule.isGuided host → Chooses rule scored draw host
  | territorial {host : Host α} :
      (∀ entry ∈ scored, rule.isGuided entry.2 = false) →
      Leads scored rule.isTerritorial host → Chooses rule scored draw host
  | above {host : Host α} {limit : α} :
      (∀ entry ∈ scored, rule.isGuided entry.2 = false) →
      (∀ entry ∈ scored, rule.isTerritorial entry.2 = false) →
      Search.IsThreshold (scored.map (·.2.total)) draw limit →
      Leads scored (fun score => limit ≤ score.total) host → Chooses rule scored draw host
  | least {host : Host α} {limit : α} :
      (∀ entry ∈ scored, rule.isGuided entry.2 = false) →
      (∀ entry ∈ scored, rule.isTerritorial entry.2 = false) →
      Search.IsThreshold (scored.map (·.2.total)) draw limit →
      (∀ entry ∈ scored, ¬limit ≤ entry.2.total) →
      Leads scored (fun _ => true) host → Chooses rule scored draw host

theorem Chooses.mem (chosen : rule.Chooses scored draw host) : host ∈ scored.map (·.1) := by
  have listed {test : Score α → Bool} (leads : Leads scored test host) :
      host ∈ scored.map (·.1) := by
    obtain ⟨entry, member, rfl, -⟩ := leads.mem
    exact List.mem_map_of_mem member
  cases chosen with
  | guided leads => exact listed leads
  | territorial _ leads => exact listed leads
  | above _ _ _ leads => exact listed leads
  | least _ _ _ _ leads => exact listed leads

variable [Scalar.Linear α]

section

variable (bounded : ∀ entry ∈ scored, Scalar.isBounded entry.2.total = true)
include bounded

theorem exists_best? (several : scored ≠ []) :
    ∃ host, best? scored = some host ∧ Leads scored (fun _ => true) host := by
  have all : scored.filter (fun _ => true) = scored := by simp
  cases best : best? scored with
  | some host =>
    rw [← all] at best
    exact ⟨host, rfl, (best?_eq_some_iff bounded fun _ => true).mp best⟩
  | none =>
    rw [← all] at best
    obtain ⟨entry, member⟩ := List.exists_mem_of_ne_nil scored several
    cases (best?_eq_none_iff bounded fun _ => true).mp best entry member

theorem drawn?_leads (several : scored ≠ []) (draw : α) :
    ∃ host limit, Search.drawn? scored draw = some host ∧
      Search.IsThreshold (scored.map (·.2.total)) draw limit ∧
      (Leads scored (fun score => limit ≤ score.total) host ∨
        (∀ entry ∈ scored, ¬limit ≤ entry.2.total) ∧ Leads scored (fun _ => true) host) := by
  have threshold := Search.isThreshold_threshold (List.map_eq_nil_iff.not.mpr several)
    (List.forall_mem_map.mpr fun entry member =>
      Scalar.Linear.self_of_isBounded (bounded entry member)) draw
  unfold Search.drawn?
  generalize Search.threshold (scored.map (·.2.total)) draw = limit at threshold
  dsimp only
  cases above : best? (scored.filter fun entry => limit ≤ entry.2.total) with
  | some host =>
    have leads := (best?_eq_some_iff bounded fun score => limit ≤ score.total).mp above
    exact ⟨host, limit, rfl, threshold, .inl leads⟩
  | none =>
    have below := (best?_eq_none_iff bounded fun score => limit ≤ score.total).mp above
    obtain ⟨host, best, leads⟩ := exists_best? bounded several
    exact ⟨host, limit, best, threshold,
      .inr ⟨fun entry member => of_decide_eq_false (below entry member), leads⟩⟩

/-- Where any host is scored, the phases choose one. -/
theorem settle_phases (rule : DestinationRule α) (several : scored ≠ []) (draw : α) :
    ∃ host, (rule.phases scored).settle draw = some host ∧ rule.Chooses scored draw host := by
  unfold phases
  cases guided : best? (scored.filter fun entry => rule.isGuided entry.2) with
  | some host => exact ⟨host, rfl, .guided ((best?_eq_some_iff bounded _).mp guided)⟩
  | none =>
    have unguided := (best?_eq_none_iff bounded _).mp guided
    cases inside : best? (scored.filter fun entry => rule.isTerritorial entry.2) with
    | some host =>
      exact ⟨host, rfl, .territorial unguided ((best?_eq_some_iff bounded _).mp inside)⟩
    | none =>
      have outside := (best?_eq_none_iff bounded _).mp inside
      obtain ⟨host, limit, drawn, threshold, above | ⟨below, least⟩⟩ :=
        drawn?_leads bounded several draw
      · exact ⟨host, drawn, .above unguided outside threshold above⟩
      · exact ⟨host, drawn, .least unguided outside threshold below least⟩

end

/-- A single candidate, which is taken without a score, is the one that the phases choose. -/
theorem Concludes.chooses {passed : List (Host α)} {search : Search α}
    (concluded : rule.Concludes table vm passed search) (scores : rule.Scores table vm passed scored)
    (bounded : ∀ entry ∈ scored, Scalar.isBounded entry.2.total = true) (draw : α) :
    (search.settle draw = none ↔ passed = []) ∧
      ∀ host, search.settle draw = some host → rule.Chooses scored draw host := by
  cases concluded with
  | nobody => exact ⟨⟨fun _ => rfl, fun _ => rfl⟩, fun _ absent => by cases absent⟩
  | only host =>
    refine ⟨⟨fun absent => (by cases absent), fun empty => (by cases empty)⟩, fun _ same => ?_⟩
    cases same
    have several := scores.ne_nil (List.cons_ne_nil host [])
    obtain ⟨chosen, -, chooses⟩ := settle_phases bounded rule several draw
    have member := chooses.mem
    rw [scores.listed, List.mem_singleton] at member
    exact member ▸ chooses
  | several again =>
    obtain rfl := again.unique scores
    have several := scores.ne_nil (List.cons_ne_nil _ _)
    obtain ⟨chosen, settled, chooses⟩ := settle_phases bounded rule several draw
    rw [settled]
    exact ⟨by simp, fun _ same => Option.some.inj same ▸ chooses⟩

end DestinationRule

/-! Answers of a policy -/

namespace Plan.Policy

open DestinationRule

variable {Draws : Type} {policy : Policy α} {vm : Vm α} {hosts : List (Host α)}
  {excluded : List String}

/-- Where scores are bounded, a search ends with nothing only if no host can take the VM. Otherwise it
ends with the host that the three phases choose among all that can. -/
theorem destination_chosen [Scalar.Linear α]
    (judged : ∀ host ∈ hosts, host.id ∉ excluded → Judged vm host)
    (scores : ∀ host ∈ capable vm hosts excluded, ∃ score,
      policy.destination.score policy.table host vm = .ok score ∧
        Scalar.isBounded score.total = true)
    (draw : Draws → α × Draws) (world : World α Draws) :
    ∃ scored, policy.destination.Scores policy.table vm (capable vm hosts excluded) scored ∧
      ∃ found later,
        (policy.destination? draw vm hosts excluded).run.run world = (.ok found, later) ∧
        (found = none ↔ capable vm hosts excluded = []) ∧
        ∀ host, found = some host →
          policy.destination.Chooses scored (draw world.draws).1 host := by
  obtain ⟨scored, scoring, bounded⟩ := Scores.exists_of scores
  obtain ⟨search, concluded⟩ := Concludes.exists_of scoring
  obtain ⟨later, run⟩ := destination?_of_search
    (search_eq_ok_iff.mpr ⟨_, candidates_eq judged, concluded⟩) draw world
  exact ⟨scored, scoring, _, later, run, concluded.chooses scoring bounded _⟩

end Plan.Policy

namespace DestinationRule.Sample

def policy : Plan.Policy Float where
  table := .reference
  overload := .standard
  eviction := .standard
  destination :=
    { weights := .standard, upperBound := 0.5, lowerBand := 0.4, memoryBound := 0.9, gamma := 1.0
      overload := .standard }
  underload := Plan.Policy.standardUnderload

def vm (id : String) (cores : Int) (load : Float) : Vm Float where
  mips := 2500.0
  cores := cores
  serial := 0
  id := id
  ramMb := 16384.0
  samples := [load]
  migrating := false

def host (id : String) (vms : List (Vm Float)) : Host Float where
  mips := 2500.0
  cores := 8
  id := id
  ramMb := 65536.0
  samples := []
  arriving := []
  power := .xeonE5 Float
  vms := vms

def newcomer : Vm Float := vm "v" 4 0.5

/-- Each host would be busier than the bounds want it. -/
def trio : List (Host Float) :=
  [host "a" [vm "x" 8 0.6], host "b" [vm "y" 8 0.4], host "c" [vm "z" 8 0.5]]

def world : Plan.World Float Unit := ⟨{}, ()⟩

end DestinationRule.Sample

namespace Plan.Policy

open DestinationRule

theorem destination_chosen_trio :
    ∃ scored, Sample.policy.destination.Scores Sample.policy.table Sample.newcomer
        (capable Sample.newcomer Sample.trio ["c"]) scored ∧
      ∃ found later,
        (Sample.policy.destination? (fun _ => (0.75, ())) Sample.newcomer Sample.trio ["c"]).run.run
          Sample.world = (.ok found, later) ∧
        (found = none ↔ capable Sample.newcomer Sample.trio ["c"] = []) ∧
        ∀ host, found = some host → Sample.policy.destination.Chooses scored 0.75 host :=
  destination_chosen
    (fun host member _ => by
      have suitable : ∀ host ∈ Sample.trio,
          (host.isSuitable Sample.newcomer).isOk = true ∧
            (powerAfter host Sample.newcomer).isOk = true := by decide +kernel
      obtain ⟨verdict, judged⟩ := Attempt.ok_of_isOk (suitable host member).1
      exact ⟨verdict, judged, fun _ => Attempt.ok_of_isOk (suitable host member).2⟩)
    (fun host member => by
      have scores : ∀ host ∈ capable Sample.newcomer Sample.trio ["c"],
          (Sample.policy.destination.score Sample.policy.table host
            Sample.newcomer).toOption.any (Scalar.isBounded ·.total) = true := by decide +kernel
      obtain ⟨score, known, bounded⟩ := (Option.any_eq_true _ _).mp (scores host member)
      exact ⟨score, Attempt.ok_of_toOption known, bounded⟩)
    (fun _ => (0.75, ())) Sample.world

example : (((Sample.policy.destination? (fun _ => (0.75, ())) Sample.newcomer Sample.trio
    []).run.run Sample.world).1.toOption.getD none).map (·.id) = some "a" := by
  decide +kernel

end Plan.Policy

end Fleet
