import Fleet.Proofs.Linear
import Fleet.Proofs.Plan.Inspection

/-! The order in which VMs are handled, where all of their demands compare with themselves: greatest
demand first, and otherwise as they were given.
-/

set_option autoImplicit false

namespace Fleet.Plan

variable {α State Item : Type} [Scalar α]

namespace Order

/-- Stands before the other entry, or beside it: its number is not less. What is not a number stands
behind all others, so that any two entries can be told to stand one way or the other. -/
def precedes (first second : α × Item) : Bool :=
  decide (second.1 ≤ first.1) || !decide (second.1 ≤ second.1)

variable [Scalar.Linear α]

theorem precedes_trans (first second third : α × Item) (here : precedes first second = true)
    (there : precedes second third = true) : precedes first third = true := by
  simp only [precedes, Bool.or_eq_true, decide_eq_true_eq, Bool.not_eq_true',
    decide_eq_false_iff_not] at here there ⊢
  -- a last entry that is a number makes numbers of the two before it
  by_cases number : third.1 ≤ third.1
  · have upper := there.resolve_right (not_not_intro number)
    have lower := here.resolve_right (not_not_intro (Scalar.Linear.self_of_le upper).2)
    exact .inl (Scalar.Linear.le_trans upper lower)
  · exact .inr number

theorem precedes_total (first second : α × Item) :
    (precedes first second || precedes second first) = true := by
  simp only [precedes, Bool.or_eq_true, decide_eq_true_eq, Bool.not_eq_true',
    decide_eq_false_iff_not]
  by_cases firstNumber : first.1 ≤ first.1
  · by_cases secondNumber : second.1 ≤ second.1
    · rcases Scalar.Linear.le_total firstNumber secondNumber with le | le
      · exact .inr (.inl le)
      · exact .inl (.inl le)
    · exact .inl (.inr secondNumber)
  · exact .inr (.inr firstNumber)

section

variable {items : List (α × Item)} (numbers : ∀ entry ∈ items, entry.1 ≤ entry.1)
include numbers

omit [Scalar.Linear α] in
theorem precedes_eq (first : α × Item) {second : α × Item} (member : second ∈ items) :
    precedes first second = decide (second.1 ≤ first.1) := by
  simp [precedes, numbers second member]

omit [Scalar.Linear α] in
theorem descending_eq : descending items = items.mergeSort precedes := by
  have all : items.all (fun entry => entry.1 ≤ entry.1) = true := by simpa using numbers
  have same := List.map_mergeSort (r := fun first second : α × Item => decide (second.1 ≤ first.1))
    (s := precedes) (f := id)
    fun first _ second secondMem => (precedes_eq numbers first secondMem).symm
  rw [descending, if_pos all]
  simpa using same

theorem descending_pairwise :
    (descending items).Pairwise fun first second => second.1 ≤ first.1 := by
  have sorted := List.pairwise_mergeSort precedes_trans precedes_total items
  rw [← descending_eq numbers] at sorted
  refine sorted.imp_of_mem fun _ secondMem stands => ?_
  rw [precedes_eq numbers _ ((descending_perm items).subset secondMem)] at stands
  exact of_decide_eq_true stands

theorem descending_stable {first second : α × Item} (listed : [first, second].Sublist items)
    (notLess : second.1 ≤ first.1) : [first, second].Sublist (descending items) := by
  have stands : precedes first second = true := by simp [precedes, notLess]
  rw [descending_eq numbers]
  exact List.pair_sublist_mergeSort precedes_trans precedes_total stands listed

end

end Order

/-- The greater demand is first, and an item passes an earlier one only if its demand is greater. -/
structure Ranked (vm : Item → Vm α) (items ordered : List Item) : Prop where
  known : ∀ item ∈ items, ∃ load, (vm item).demand = .ok load
  falling : ordered.Pairwise fun first second => ∀ upper lower, (vm first).demand = .ok upper →
    (vm second).demand = .ok lower → lower ≤ upper
  stable : ∀ first second, [first, second].Sublist items → (∀ upper lower,
    (vm first).demand = .ok upper → (vm second).demand = .ok lower → lower ≤ upper) →
    [first, second].Sublist ordered

theorem byDemand_ranks [Scalar.Linear α] {vm : Item → Vm α} {items ordered : List Item}
    {now later : Progress α State}
    (run : (Planner.byDemand vm items : Step α State _).run.run now = (.ok ordered, later)) :
    later = now ∧ ordered.Perm items ∧
      ((∀ item ∈ items, ∀ load, (vm item).demand = .ok load → load ≤ load) →
        Ranked vm items ordered) := by
  obtain ⟨keyed, _, attempt, run⟩ := Step.of_run_bind run
  obtain ⟨read, rfl⟩ := Prod.mk.inj attempt
  cases run
  obtain ⟨rfl, loads⟩ :=
    (Attempt.mapM_made_eq_ok_iff Prod.snd Prod.fst (fun _ _ => ⟨rfl, rfl⟩) fun _ => rfl).mp read
  refine ⟨rfl, (Order.descending_perm keyed).map _, fun numbers => ?_⟩
  have numbers : ∀ entry ∈ keyed, entry.1 ≤ entry.1 := fun entry member =>
    numbers entry.2 (List.mem_map_of_mem member) entry.1 (loads entry member)
  refine ⟨List.forall_mem_map.mpr fun entry member => ⟨_, loads entry member⟩, ?_, ?_⟩
  · refine List.pairwise_map.mpr ((Order.descending_pairwise numbers).imp_of_mem ?_)
    intro first second firstMem secondMem le upper lower firstLoad secondLoad
    have member := (Order.descending_perm keyed).subset
    cases (loads first (member firstMem)).symm.trans firstLoad
    cases (loads second (member secondMem)).symm.trans secondLoad
    exact le
  · intro first second sublist notLess
    obtain ⟨entries, inside, same⟩ := List.sublist_map_iff.mp sublist
    match entries, same with
    | [upper, lower], same =>
      cases same
      have upperLoad := loads upper (inside.subset List.mem_cons_self)
      have lowerLoad := loads lower (inside.subset (List.mem_cons_of_mem _ List.mem_cons_self))
      exact (Order.descending_stable numbers inside (notLess _ _ upperLoad lowerLoad)).map (·.2)

end Fleet.Plan
