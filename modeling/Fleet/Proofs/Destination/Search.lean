import Fleet.Destination
import Fleet.Proofs.Attempt

/-! The course of a search for a destination.

The candidates are the hosts that can take the VM. A single one is taken without a score; several are
scored, and the phases look at the scores in turn. The last phase waits for a draw.
-/

set_option autoImplicit false

namespace Fleet.DestinationRule

open Attempt

variable {α : Type} [Scalar α]

/-! Hosts that can take the VM -/

/-- It can be told whether the host takes the VM. -/
def Judged (vm : Vm α) (host : Host α) : Prop :=
  ∃ suitable, host.isSuitable vm = .ok suitable ∧
    (suitable = true → ∃ watts, powerAfter host vm = .ok watts)

/-- The host is suitable for the VM, and its power afterwards is not negative. -/
def isCapable (vm : Vm α) (host : Host α) : Bool :=
  match host.isSuitable vm, powerAfter host vm with
  | .ok true, .ok watts => 0.0 ≤ watts
  | _, _ => false

/-- The hosts in order that are not excluded and can take the VM. -/
def capable (vm : Vm α) (hosts : List (Host α)) (excluded : List String) : List (Host α) :=
  hosts.filter fun host => host.id ∉ excluded && isCapable vm host

theorem isCandidate_eq {vm : Vm α} {host : Host α} {excluded : List String}
    (judged : host.id ∉ excluded → Judged vm host) :
    isCandidate vm excluded host = .ok (host.id ∉ excluded && isCapable vm host) := by
  unfold isCandidate isCapable
  by_cases closed : host.id ∈ excluded
  · simp [closed, pure, Except.pure]
  · obtain ⟨suitable, known, powered⟩ := judged closed
    rw [if_neg closed, known]
    cases suitable with
    | false => simp [bind, Except.bind, pure, Except.pure]
    | true =>
      obtain ⟨watts, drawn⟩ := powered rfl
      simp [drawn, closed, bind, Except.bind, pure, Except.pure]

theorem candidates_eq {vm : Vm α} {hosts : List (Host α)} {excluded : List String}
    (judged : ∀ host ∈ hosts, host.id ∉ excluded → Judged vm host) :
    candidates vm hosts excluded = .ok (capable vm hosts excluded) := by
  refine sieve_eq_ok_iff.mpr ⟨fun host member => ⟨_, isCandidate_eq (judged host member)⟩,
    List.filter_congr fun host member => ?_⟩
  rw [isCandidate_eq (judged host member)]
  rfl

/-! Scores -/

structure Scores (rule : DestinationRule α) (table : FlavorTable α) (vm : Vm α)
    (hosts : List (Host α)) (scored : List (Host α × Score α)) : Prop where
  listed : scored.map (·.1) = hosts
  known : ∀ entry ∈ scored, rule.score table entry.1 vm = .ok entry.2

variable {rule : DestinationRule α} {table : FlavorTable α} {vm : Vm α} {hosts : List (Host α)}
  {excluded : List String} {scored : List (Host α × Score α)}

theorem mapM_score_eq_ok_iff :
    (hosts.mapM fun host => do pure (host, (← rule.score table host vm))) = .ok scored ↔
      rule.Scores table vm hosts scored := by
  rw [mapM_made_eq_ok_iff Prod.fst Prod.snd (fun _ _ => ⟨rfl, rfl⟩) fun _ => rfl]
  exact ⟨fun ⟨listed, known⟩ => ⟨listed, known⟩, fun scores => ⟨scores.listed, scores.known⟩⟩

namespace Scores

theorem exists_of (each : ∀ host ∈ hosts, ∃ score, rule.score table host vm = .ok score ∧
    Scalar.isBounded score.total = true) :
    ∃ scored, rule.Scores table vm hosts scored ∧
      ∀ entry ∈ scored, Scalar.isBounded entry.2.total = true := by
  obtain ⟨scored, read⟩ : ∃ scored, (hosts.mapM fun host => do
      pure (host, (← rule.score table host vm))) = .ok scored := by
    refine mapM_ok fun host member => ?_
    obtain ⟨score, known, -⟩ := each host member
    exact ⟨(host, score), by rw [known]; rfl⟩
  have scores := mapM_score_eq_ok_iff.mp read
  refine ⟨scored, scores, fun entry member => ?_⟩
  obtain ⟨score, known, bounded⟩ := each entry.1 (scores.listed ▸ List.mem_map_of_mem member)
  cases (scores.known entry member).symm.trans known
  exact bounded

theorem unique {other : List (Host α × Score α)} (scores : rule.Scores table vm hosts scored)
    (again : rule.Scores table vm hosts other) : scored = other :=
  Except.ok.inj ((mapM_score_eq_ok_iff.mpr scores).symm.trans (mapM_score_eq_ok_iff.mpr again))

theorem ne_nil (scores : rule.Scores table vm hosts scored) (several : hosts ≠ []) :
    scored ≠ [] := fun empty => several (scores.listed ▸ List.map_eq_nil_iff.mpr empty)

theorem filter (scores : rule.Scores table vm hosts scored) (keep : Host α → Bool) :
    rule.Scores table vm (hosts.filter keep) (scored.filter fun entry => keep entry.1) where
  listed := by rw [← scores.listed, List.filter_map]; rfl
  known entry member := scores.known entry (List.mem_filter.mp member).1

end Scores

/-! How a search ends -/

/-- What the scores of several candidates come to. -/
def phases (rule : DestinationRule α) (scored : List (Host α × Score α)) : Search α :=
  match best? (scored.filter fun entry => rule.isGuided entry.2) with
  | some host => .settled (some host)
  | none =>
      match best? (scored.filter fun entry => rule.isTerritorial entry.2) with
      | some host => .settled (some host)
      | none => .contested scored

/-- What a search among the candidates ends with. -/
inductive Concludes (rule : DestinationRule α) (table : FlavorTable α) (vm : Vm α) :
    List (Host α) → Search α → Prop where
  | nobody : Concludes rule table vm [] (.settled none)
  | only (host : Host α) : Concludes rule table vm [host] (.settled (some host))
  | several {first second : Host α} {rest : List (Host α)} {scored : List (Host α × Score α)} :
      rule.Scores table vm (first :: second :: rest) scored →
      Concludes rule table vm (first :: second :: rest) (rule.phases scored)

theorem Concludes.exists_of (scores : rule.Scores table vm hosts scored) :
    ∃ search, rule.Concludes table vm hosts search :=
  match hosts, scores with
  | [], _ => ⟨_, .nobody⟩
  | [host], _ => ⟨_, .only host⟩
  | _ :: _ :: _, scores => ⟨_, .several scores⟩

theorem search_eq_ok_iff {search : Search α} :
    rule.search table vm hosts excluded = .ok search ↔
      ∃ passed, candidates vm hosts excluded = .ok passed ∧
        rule.Concludes table vm passed search := by
  have phased (scored : List (Host α × Score α)) :
      (match best? (scored.filter fun entry => rule.isGuided entry.2) with
        | some host => pure (.settled (some host))
        | none =>
            match best? (scored.filter fun entry => rule.isTerritorial entry.2) with
            | some host => pure (.settled (some host))
            | none => pure (.contested scored)) =
        (.ok (rule.phases scored) : Except (Fault α) (Search α)) := by
    unfold phases
    split
    · rfl
    · split <;> rfl
  constructor
  · intro run
    obtain ⟨passed, sieved, run⟩ := bind_ok run
    refine ⟨passed, sieved, ?_⟩
    match passed, run with
    | [], run =>
      cases run
      exact .nobody
    | [host], run =>
      cases run
      exact .only host
    | first :: second :: rest, run =>
      obtain ⟨scored, read, run⟩ := bind_ok run
      obtain rfl := Except.ok.inj (run.symm.trans (phased scored))
      exact .several (mapM_score_eq_ok_iff.mp read)
  · rintro ⟨passed, sieved, concluded⟩
    unfold DestinationRule.search
    rw [sieved]
    cases concluded with
    | nobody => rfl
    | only host => rfl
    | @several first second rest scored scores =>
      change (((first :: second :: rest).mapM fun host => do
        pure (host, (← rule.score table host vm))) >>= fun scored => _) = _
      rw [mapM_score_eq_ok_iff.mpr scores]
      exact phased scored

end Fleet.DestinationRule
