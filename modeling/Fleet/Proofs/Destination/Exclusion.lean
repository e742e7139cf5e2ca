import Fleet.Proofs.Destination.Choice

/-! Searches from which more hosts are excluded.

A host that a search settles on without a draw stays the answer when others are excluded as well. The
fewer candidates may be scored in another way or not at all.
-/

set_option autoImplicit false

namespace Fleet.DestinationRule

variable {α : Type} [Scalar α] {rule : DestinationRule α} {table : FlavorTable α} {vm : Vm α}
  {hosts passed : List (Host α)} {excluded more : List String}
  {scored : List (Host α × Score α)} {host : Host α}

/-! Fewer candidates -/

theorem isCandidate_excluding (fewer : excluded ⊆ more) :
    isCandidate vm more host =
      if host.id ∈ more then .ok false else isCandidate vm excluded host := by
  unfold isCandidate
  by_cases closed : host.id ∈ more
  · rw [if_pos closed, if_pos closed]
    rfl
  · have opened : host.id ∉ excluded := fun listed => closed (fewer listed)
    rw [if_neg closed, if_neg closed, if_neg opened]

theorem candidates_excluding (fewer : excluded ⊆ more)
    (sieved : candidates vm hosts excluded = .ok passed) :
    candidates vm hosts more = .ok (passed.filter fun host => host.id ∉ more) := by
  obtain ⟨each, rfl⟩ := Attempt.sieve_eq_ok_iff.mp sieved
  apply Attempt.sieve_eq_ok_iff.mpr
  constructor
  · intro host member
    rw [isCandidate_excluding fewer]
    split
    · exact ⟨false, rfl⟩
    · exact each host member
  · rw [List.filter_filter]
    apply List.filter_congr
    intro host _
    rw [isCandidate_excluding fewer]
    by_cases closed : host.id ∈ more <;> simp [closed, Except.toOption]

/-! The phases that leave no choice to a draw -/

variable [Scalar.Linear α]

theorem phases_settles_iff (bounded : ∀ entry ∈ scored, Scalar.isBounded entry.2.total = true) :
    rule.phases scored = .settled (some host) ↔
      Leads scored rule.isGuided host ∨
        (∀ entry ∈ scored, rule.isGuided entry.2 = false) ∧
          Leads scored rule.isTerritorial host := by
  unfold phases
  rw [← best?_eq_some_iff bounded, ← best?_eq_some_iff bounded, ← best?_eq_none_iff bounded]
  cases best? (scored.filter fun entry => rule.isGuided entry.2) with
  | some first => simp
  | none => cases best? (scored.filter fun entry => rule.isTerritorial entry.2) <;> simp

theorem phases_filter (bounded : ∀ entry ∈ scored, Scalar.isBounded entry.2.total = true)
    (settled : rule.phases scored = .settled (some host)) {keep : Host α → Bool}
    (kept : keep host = true) :
    rule.phases (scored.filter fun entry => keep entry.1) = .settled (some host) := by
  have fewer {entry : Host α × Score α} (member : entry ∈ scored.filter fun entry => keep entry.1) :
      entry ∈ scored := (List.mem_filter.mp member).1
  apply (phases_settles_iff fun entry member => bounded entry (fewer member)).mpr
  rcases (phases_settles_iff bounded).mp settled with guided | ⟨unguided, inside⟩
  · exact .inl (guided.filter kept)
  · exact .inr ⟨fun entry member => unguided entry (fewer member), inside.filter kept⟩

omit [Scalar.Linear α] in
theorem Concludes.of_phases (scores : rule.Scores table vm passed scored)
    (settled : rule.phases scored = .settled (some host)) :
    rule.Concludes table vm passed (.settled (some host)) := by
  have answer : (rule.phases scored).settle 0.0 = some host := by
    rw [settled]
    rfl
  have member : host ∈ passed := scores.listed ▸ settle_phases_mem answer
  match passed, scores with
  | [_], _ =>
    obtain rfl := List.mem_singleton.mp member
    exact .only host
  | _ :: _ :: _, scores => exact settled ▸ .several scores

theorem Concludes.filter
    (bounded : 1 < passed.length → ∀ other ∈ passed, ∀ score,
      rule.score table other vm = .ok score → Scalar.isBounded score.total = true)
    (concluded : rule.Concludes table vm passed (.settled (some host))) {keep : Host α → Bool}
    (kept : keep host = true) :
    rule.Concludes table vm (passed.filter keep) (.settled (some host)) := by
  generalize ended : (.settled (some host) : Search α) = search at concluded
  cases concluded with
  | nobody => cases ended
  | only first =>
    cases ended
    rw [List.filter_cons_of_pos kept]
    exact .only host
  | several scores =>
    rw [← ended]
    apply Concludes.of_phases (scores.filter keep)
    apply phases_filter _ ended.symm kept
    intro entry member
    have listed := List.mem_map_of_mem (f := Prod.fst) member
    rw [scores.listed] at listed
    exact bounded (by simp) entry.1 listed entry.2 (scores.known entry member)

end Fleet.DestinationRule

namespace Fleet.Plan.Policy

open DestinationRule

variable {α Draws : Type} [Scalar α] [Scalar.Linear α] {policy : Policy α} {vm : Vm α}
  {hosts : List (Host α)} {excluded more : List String} {host : Host α}

/-- Where a search settles on a host without a draw, and all totals it compares are bounded, excluding
other hosts does not change the answer. -/
theorem destination_stable
    (searched : policy.destination.search policy.table vm hosts excluded =
      .ok (.settled (some host)))
    (bounded : ∀ passed, candidates vm hosts excluded = .ok passed → 1 < passed.length →
      ∀ other ∈ passed, ∀ score, policy.destination.score policy.table other vm = .ok score →
        Scalar.isBounded score.total = true)
    (fewer : excluded ⊆ more) (opened : host.id ∉ more) (draw : Draws → α × Draws)
    (world : World α Draws) :
    (policy.destination? draw vm hosts more).run.run world = (.ok (some host), world) := by
  obtain ⟨passed, sieved, concluded⟩ := search_eq_ok_iff.mp searched
  apply destination?_of_settled
  apply search_eq_ok_iff.mpr
  exact ⟨_, candidates_excluding fewer sieved,
    concluded.filter (bounded passed sieved) (decide_eq_true opened)⟩

end Fleet.Plan.Policy

namespace Fleet.DestinationRule.Sample

/-- The busier a host is, the more memory the newcomer would leave it with in use. -/
def placid : List (Host Float) :=
  [host "a" [vm "x" 8 0.3], host "b" [vm "y" 8 0.2], host "c" [vm "z" 8 0.1]]

def settlesOn (id : String) : Except (Fault Float) (Search Float) → Bool
  | .ok (.settled (some host)) => host.id == id
  | _ => false

theorem exists_of_settlesOn {id : String} {searched : Except (Fault Float) (Search Float)}
    (known : settlesOn id searched = true) :
    ∃ host, host.id = id ∧ searched = .ok (.settled (some host)) := by
  unfold settlesOn at known
  split at known
  · next host => exact ⟨host, beq_iff_eq.mp known, rfl⟩
  · cases known

end Fleet.DestinationRule.Sample

namespace Fleet.Plan.Policy

open DestinationRule

/-- Of two candidates one is excluded, and the other is then taken without a score. -/
theorem destination_stable_placid : ∃ host, host.id = "b" ∧
    Sample.policy.destination.search Sample.policy.table Sample.newcomer Sample.placid ["c"] =
      .ok (.settled (some host)) ∧
    (Sample.policy.destination? (fun _ => (0.75, ())) Sample.newcomer Sample.placid
      ["c", "a"]).run.run Sample.world = (.ok (some host), Sample.world) := by
  have settles : Sample.settlesOn "b" (Sample.policy.destination.search Sample.policy.table
      Sample.newcomer Sample.placid ["c"]) = true := by decide +kernel
  obtain ⟨host, named, searched⟩ := Sample.exists_of_settlesOn settles
  have scores : ∀ other ∈ Sample.placid, (Sample.policy.destination.score Sample.policy.table other
      Sample.newcomer).toOption.all (Scalar.isBounded ·.total) = true := by decide +kernel
  refine ⟨host, named, searched, destination_stable searched ?_ (by simp) (by simp [named]) _ _⟩
  intro passed sieved _ other member score known
  have bounded := scores other (Attempt.sieve_ok sieved other member).1
  rwa [known] at bounded

end Fleet.Plan.Policy
