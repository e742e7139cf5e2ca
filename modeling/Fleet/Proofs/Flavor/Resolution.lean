import Fleet.Proofs.Flavor
import Fleet.Proofs.Ordered
import Mathlib.Data.List.Nodup

/-! The flavor that a shape resolves to.

A scan passes over flavors that do not agree, remembers the nearest of them and stops at the first one
that agrees. It breaks off where a distance is too large to compute, and it remembers nothing where all
distances lie beyond bounds.
-/

set_option autoImplicit false

namespace Fleet

variable {α : Type} [Scalar α]

namespace Flavor

variable {flavor : Flavor α} {mips cost other : α} {cores : Int}

/-- The cores are those of the flavor, and so is the speed up to one millionth. -/
def Agrees (flavor : Flavor α) (mips : α) (cores : Int) : Prop :=
  Scalar.abs (mips - flavor.mips) ≤ Scalar.max (Scalar.abs flavor.mips) 1.0 * 1e-6 ∧
    cores = flavor.cores

/-- The distance from the flavor: the squared share that the speed is off by, and a quarter of the
squared gap between the cores, provided that this gap has a number next to it. -/
def Costs (flavor : Flavor α) (mips : α) (cores : Int) (cost : α) : Prop :=
  ∃ gap, Scalar.ofInt? ((cores - flavor.cores) ^ 2) = some gap ∧
    cost = Scalar.abs (mips - flavor.mips) / Scalar.max flavor.mips 1.0 *
      (Scalar.abs (mips - flavor.mips) / Scalar.max flavor.mips 1.0) + 0.25 * gap

theorem agreesWith_iff : flavor.agreesWith mips (.whole cores) = true ↔ flavor.Agrees mips cores := by
  simp [agreesWith, Agrees, CoreCount.isCount]

theorem agreesWith_eq_false_iff :
    flavor.agreesWith mips (.whole cores) = false ↔ ¬flavor.Agrees mips cores := by
  rw [← agreesWith_iff, Bool.not_eq_true]

theorem distance_eq_ok_iff :
    flavor.distance mips (.whole cores) = .ok cost ↔ flavor.Costs mips cores cost := by
  unfold distance Costs CoreCount.squaredGap
  dsimp only
  rw [pow_two]
  cases (Scalar.ofInt? ((cores - flavor.cores) * (cores - flavor.cores)) : Option α) with
  | none => simp [bind, Except.bind]
  | some gap => simp [bind, Except.bind, pure, Except.pure, eq_comm]

theorem Costs.unique (first : flavor.Costs mips cores cost) (second : flavor.Costs mips cores other) :
    cost = other := by
  rw [← distance_eq_ok_iff] at first second
  exact Except.ok.inj (first.symm.trans second)

end Flavor

namespace FlavorTable

/-! How a scan ends -/

section

variable {mips : α} {cores : CoreCount α} {best : Option (Flavor α × α)} {flavors rest : List (Flavor α)}
  {scored : List (Flavor α × α)}

def Passed (mips : α) (cores : CoreCount α) (scored : List (Flavor α × α)) : Prop :=
  ∀ entry ∈ scored, entry.1.agreesWith mips cores = false ∧ entry.1.distance mips cores = .ok entry.2

theorem scan_passed (passed : Passed mips cores scored) :
    scan mips cores best (scored.map Prod.fst ++ rest) =
      scan mips cores (scored.foldl (fun best entry => nearer best entry.1 entry.2) best) rest := by
  induction scored generalizing best with
  | nil => rfl
  | cons entry later ih =>
    obtain ⟨⟨disagrees, told⟩, passed⟩ := List.forall_mem_cons.mp passed
    simp [scan, disagrees, told, ih passed]

theorem foldl_nearer (scored : List (Flavor α × α)) :
    scored.foldl (fun best entry => nearer best entry.1 entry.2) none = Scalar.firstLeast scored := by
  unfold Scalar.firstLeast
  congr
  funext best entry
  cases best <;> rfl

/-- A scan ends at a flavor that agrees, at one whose distance cannot be computed, or after the last
flavor, with the nearest one of all. -/
inductive Concludes (mips : α) (cores : CoreCount α) (flavors : List (Flavor α)) :
    Except (Fault α) (Resolution α) → Prop where
  | found {scored : List (Flavor α × α)} {flavor : Flavor α} {after : List (Flavor α)} :
      flavors = scored.map Prod.fst ++ flavor :: after → Passed mips cores scored →
      flavor.agreesWith mips cores = true → Concludes mips cores flavors (.ok (.found flavor))
  | failed {scored : List (Flavor α × α)} {flavor : Flavor α} {after : List (Flavor α)}
      {fault : Fault α} :
      flavors = scored.map Prod.fst ++ flavor :: after → Passed mips cores scored →
      flavor.agreesWith mips cores = false → flavor.distance mips cores = .error fault →
      Concludes mips cores flavors (.error fault)
  | exhausted {scored : List (Flavor α × α)} :
      flavors = scored.map Prod.fst → Passed mips cores scored →
      Concludes mips cores flavors (.ok (.unmatched (Scalar.firstLeast scored)))

theorem exists_passed (mips : α) (cores : CoreCount α) (flavors : List (Flavor α)) :
    ∃ scored rest, flavors = scored.map Prod.fst ++ rest ∧ Passed mips cores scored ∧
      ∀ flavor ∈ rest.head?, flavor.agreesWith mips cores = true ∨
        ∃ fault, flavor.distance mips cores = .error fault := by
  induction flavors with
  | nil => exact ⟨[], [], rfl, by simp [Passed], by simp⟩
  | cons flavor later ih =>
    cases agrees : flavor.agreesWith mips cores with
    | true => exact ⟨[], flavor :: later, rfl, by simp [Passed], by simp [agrees]⟩
    | false =>
      cases told : flavor.distance mips cores with
      | error fault => exact ⟨[], flavor :: later, rfl, by simp [Passed], by simp [told]⟩
      | ok cost =>
        obtain ⟨scored, rest, rfl, passed, stops⟩ := ih
        exact ⟨(flavor, cost) :: scored, rest, rfl,
          List.forall_mem_cons.mpr ⟨⟨agrees, told⟩, passed⟩, stops⟩

theorem scan_concludes (mips : α) (cores : CoreCount α) (flavors : List (Flavor α)) :
    Concludes mips cores flavors (scan mips cores none flavors) := by
  obtain ⟨scored, rest, split, passed, stops⟩ := exists_passed mips cores flavors
  have scanned : scan mips cores none flavors =
      scan mips cores (Scalar.firstLeast scored) rest := by
    rw [split, scan_passed passed, foldl_nearer]
  rw [scanned]
  -- what is left says why the scan stops here
  cases rest with
  | nil => exact .exhausted (split.trans (List.append_nil _)) passed
  | cons flavor after =>
    unfold scan
    cases agrees : flavor.agreesWith mips cores with
    | true => exact .found split passed agrees
    | false =>
      rcases stops flavor rfl with agreed | ⟨fault, failed⟩
      · simp [agrees] at agreed
      · simp only [Bool.false_eq_true, if_false, failed]
        exact .failed split passed agrees failed

theorem classify_concludes (table : FlavorTable α) (mips : α) (cores : CoreCount α) :
    Concludes mips cores table.flavors (table.classify mips cores) :=
  scan_concludes mips cores table.flavors

namespace Passed

variable {cores : Int} {entry : Flavor α × α} (passed : Passed mips (.whole cores) scored)
  (member : entry ∈ scored)
include passed member

theorem disagrees : ¬entry.1.Agrees mips cores :=
  Flavor.agreesWith_eq_false_iff.mp (passed entry member).1

theorem costs : entry.1.Costs mips cores entry.2 :=
  Flavor.distance_eq_ok_iff.mp (passed entry member).2

end Passed

end

/-! First match, else first nearest -/

section

variable {mips : α} {cores : Int} {table : FlavorTable α} {resolution other : Resolution α}

/-- What a shape resolves to: the agreeing flavor of least index; if none agrees, the flavor of least
index among those at the least distance. -/
inductive Resolves (table : FlavorTable α) (mips : α) (cores : Int) : Resolution α → Prop where
  | found {flavor : Flavor α} : flavor ∈ table.flavors → flavor.Agrees mips cores →
      (∀ other ∈ table.flavors, other.Agrees mips cores → flavor.index ≤ other.index) →
      Resolves table mips cores (.found flavor)
  | unmatched {nearest : Flavor α} {distance : α} :
      (∀ flavor ∈ table.flavors, ¬flavor.Agrees mips cores) →
      nearest ∈ table.flavors → nearest.Costs mips cores distance →
      (∀ other ∈ table.flavors, ∀ cost, other.Costs mips cores cost →
        distance ≤ cost ∧ (cost ≤ distance → nearest.index ≤ other.index)) →
      Resolves table mips cores (.unmatched (some (nearest, distance)))

/-- What the readers of a table make of a resolution. -/
def Answers (table : FlavorTable α) (vm : String) (shape : Shape α) : Resolution α → Prop
  | .found flavor =>
      table.require vm shape = .ok flavor ∧
        table.referenceRam? shape.mips (.whole shape.cores) = .ok flavor.ramMb
  | .unmatched none =>
      table.require vm shape = .error .noNearestShape ∧
        table.referenceRam? shape.mips (.whole shape.cores) = .ok none
  | .unmatched (some (nearest, distance)) =>
      table.require vm shape =
          .error (.unknownShape vm shape nearest.index nearest.toShape distance) ∧
        table.referenceRam? shape.mips (.whole shape.cores) = .ok none

theorem answers_of_classify {shape : Shape α}
    (told : table.classify shape.mips (.whole shape.cores) = .ok resolution) (vm : String) :
    table.Answers vm shape resolution := by
  unfold Answers require referenceRam?
  rw [told]
  rcases resolution with flavor | _ | ⟨nearest, distance⟩ <;> exact ⟨rfl, rfl⟩

theorem require_mem {vm : String} {shape : Shape α} {flavor : Flavor α}
    (told : table.require vm shape = .ok flavor) : flavor ∈ table.flavors := by
  have concludes := table.classify_concludes shape.mips (.whole shape.cores)
  unfold require at told
  generalize table.classify shape.mips (.whole shape.cores) = outcome at concludes told
  cases concludes with
  | found split passed agrees =>
    cases told
    simp [split]
  | failed => cases told
  | @exhausted scored =>
    generalize Scalar.firstLeast scored = nearest at told
    cases nearest <;> cases told

section

omit [Scalar α]

theorem rows_pairwise (speeds : List α) (counts : List Int) (ratios : List α) (ram : Option (List α)) :
    (rows speeds counts ratios ram).Pairwise (fun first second => first.index < second.index) := by
  unfold rows
  rw [List.pairwise_map, ← List.pairwise_map (f := Prod.snd) (R := (· < ·)), List.zipIdx_map_snd]
  exact List.pairwise_lt_range'

theorem ofColumns_pairwise {speeds ratios : List α} {counts : List Int} {ram : Option (List α)}
    (built : ofColumns speeds counts ratios ram = .ok table) :
    table.flavors.Pairwise (fun first second => first.index < second.index) := by
  unfold ofColumns at built
  split at built
  · cases built
  · split at built
    · cases built
      exact rows_pairwise speeds counts ratios ram
    · cases built

section

variable {flavors before after : List (Flavor α)} {first second : Flavor α}

theorem eq_of_index
    (numbered : flavors.Pairwise fun first second => first.index < second.index)
    (firstMem : first ∈ flavors) (secondMem : second ∈ flavors)
    (below : first.index ≤ second.index) (above : second.index ≤ first.index) : first = second := by
  have distinct : (flavors.map (·.index)).Nodup :=
    List.pairwise_map.mpr (numbered.imp fun less => Nat.ne_of_lt less)
  exact List.inj_on_of_nodup_map distinct firstMem secondMem (Nat.le_antisymm below above)

theorem index_lt_of_after
    (numbered : (before ++ first :: after).Pairwise fun first second => first.index < second.index)
    (later : second ∈ after) : first.index < second.index :=
  List.rel_of_pairwise_cons (List.pairwise_append.mp numbered).2.1 later

end

end

variable (numbered : table.flavors.Pairwise fun first second => first.index < second.index)
include numbered

theorem Resolves.unique (first : table.Resolves mips cores resolution)
    (second : table.Resolves mips cores other) : resolution = other := by
  cases first with
  | found firstMem agrees least =>
    cases second with
    | found secondMem agrees' least' =>
      rw [eq_of_index numbered firstMem secondMem (least _ secondMem agrees')
        (least' _ firstMem agrees)]
    | unmatched disagree => exact absurd agrees (disagree _ firstMem)
  | unmatched disagree firstMem costs least =>
    cases second with
    | found secondMem agrees => exact absurd agrees (disagree _ secondMem)
    | unmatched disagree' secondMem costs' least' =>
      -- neither is nearer than the other, so neither has the greater number
      obtain ⟨le, first⟩ := least _ secondMem _ costs'
      obtain ⟨ge, second⟩ := least' _ firstMem _ costs
      obtain rfl := eq_of_index numbered firstMem secondMem (first ge) (second le)
      rw [costs.unique costs']

variable {scored : List (Flavor α × α)}

theorem resolves_found {flavor : Flavor α} {after : List (Flavor α)}
    (split : table.flavors = scored.map Prod.fst ++ flavor :: after)
    (passed : Passed mips (.whole cores) scored)
    (agrees : flavor.agreesWith mips (.whole cores) = true) :
    table.Resolves mips cores (.found flavor) := by
  rw [split] at numbered
  apply Resolves.found
  · simp [split]
  · exact Flavor.agreesWith_iff.mp agrees
  · intro other member agreed
    rw [split] at member
    rcases List.mem_append.mp member with earlier | later
    · obtain ⟨entry, entryMem, rfl⟩ := List.mem_map.mp earlier
      exact absurd agreed (passed.disagrees entryMem)
    · rcases List.mem_cons.mp later with rfl | later
      · exact Nat.le_refl _
      · exact Nat.le_of_lt (index_lt_of_after numbered later)

theorem resolves_unmatched [Scalar.Linear α] {nearest : Flavor α} {distance : α}
    (split : table.flavors = scored.map Prod.fst) (passed : Passed mips (.whole cores) scored)
    (first : Scalar.FirstLeast scored (nearest, distance)) (self : distance ≤ distance) :
    table.Resolves mips cores (.unmatched (some (nearest, distance))) := by
  obtain ⟨before, after, rfl, above, notBelow⟩ := first
  have nearestMem : (nearest, distance) ∈ before ++ (nearest, distance) :: after := by simp
  apply Resolves.unmatched
  · rw [split]
    exact List.forall_mem_map.mpr fun entry member => passed.disagrees member
  · exact split ▸ List.mem_map_of_mem nearestMem
  · exact passed.costs nearestMem
  · intro other member cost costs
    rw [split] at member numbered
    obtain ⟨entry, entryMem, rfl⟩ := List.mem_map.mp member
    obtain rfl := (passed.costs entryMem).unique costs
    rw [List.map_append, List.map_cons] at numbered
    rcases List.mem_append.mp entryMem with earlier | later
    · have greater := above entry earlier
      exact ⟨Scalar.le_of_lt greater, fun le => absurd le (Scalar.not_le_of_lt greater)⟩
    · rcases List.mem_cons.mp later with rfl | later
      · exact ⟨self, fun _ => Nat.le_refl _⟩
      · have behind := index_lt_of_after numbered (List.mem_map_of_mem later)
        exact ⟨notBelow entry later, fun _ => Nat.le_of_lt behind⟩

theorem classify_resolves [Scalar.Linear α]
    (bounded : ∀ flavor ∈ table.flavors,
      ∃ cost, flavor.Costs mips cores cost ∧ Scalar.isBounded cost = true) :
    ∃ resolution, table.classify mips (.whole cores) = .ok resolution ∧
      table.Resolves mips cores resolution := by
  have concludes := table.classify_concludes mips (.whole cores)
  generalize table.classify mips (.whole cores) = outcome at concludes
  cases concludes with
  | found split passed agrees => exact ⟨_, rfl, resolves_found numbered split passed agrees⟩
  | @failed scored flavor after fault split passed disagrees failed =>
    obtain ⟨cost, costs, -⟩ := bounded flavor (by simp [split])
    rw [Flavor.distance_eq_ok_iff.mpr costs] at failed
    cases failed
  | @exhausted scored split passed =>
    have sizes : ∀ entry ∈ scored, Scalar.isBounded entry.2 = true := by
      intro entry member
      obtain ⟨cost, costs, small⟩ := bounded entry.1 (split ▸ List.mem_map_of_mem member)
      rwa [costs.unique (passed.costs member)] at small
    cases nearest : Scalar.firstLeast scored with
    | none =>
      rw [Scalar.firstLeast_eq_none_iff sizes] at nearest
      exact absurd (split.trans (congrArg _ nearest)) table.nonempty
    | some entry =>
      have first := (Scalar.firstLeast_eq_some_iff sizes).mp nearest
      have self := Scalar.Linear.self_of_isBounded (sizes entry first.mem)
      exact ⟨_, rfl, resolves_unmatched numbered split passed first self⟩

omit numbered in
/-- A table built from columns resolves a shape in exactly one way where its distances are numbers, and
all that read the table go by it. -/
theorem first_match_or_nearest [Scalar.Linear α] {speeds ratios : List α} {counts : List Int}
    {ram : Option (List α)} (built : ofColumns speeds counts ratios ram = .ok table)
    (bounded : ∀ flavor ∈ table.flavors,
      ∃ cost, flavor.Costs mips cores cost ∧ Scalar.isBounded cost = true) (vm : String) :
    ∃ resolution, (∀ other, table.Resolves mips cores other ↔ other = resolution) ∧
      table.classify mips (.whole cores) = .ok resolution ∧
      table.Answers vm ⟨mips, cores⟩ resolution := by
  have numbered := ofColumns_pairwise built
  obtain ⟨resolution, told, resolves⟩ := classify_resolves numbered bounded
  refine ⟨resolution, fun other => ⟨fun again => again.unique numbered resolves, ?_⟩, told,
    answers_of_classify told vm⟩
  rintro rfl
  exact resolves

end

/-- Two cores are nearer to four than to eight. -/
theorem first_match_or_nearest_two_cores :
    ∃ table : FlavorTable Float,
      ofColumns [2500.0, 2500.0, 1000.0] [8, 4, 4] [1.0, 0.7, 2.0] none = .ok table ∧
      (∀ flavor ∈ table.flavors,
        ∃ cost, flavor.Costs 2500.0 2 cost ∧ Scalar.isBounded cost = true) ∧
      ∃ resolution, (∀ other, table.Resolves 2500.0 2 other ↔ other = resolution) ∧
        table.classify 2500.0 (.whole 2) = .ok resolution ∧
        table.Answers "v" ⟨2500.0, 2⟩ resolution := by
  have bounded : ∀ flavor ∈ rows [2500.0, 2500.0, 1000.0] [8, 4, 4] [1.0, 0.7, 2.0] none,
      ∃ cost, flavor.Costs (2500.0 : Float) 2 cost ∧ Scalar.isBounded cost = true := by
    intro flavor member
    have computed : ∀ flavor ∈ rows [2500.0, 2500.0, 1000.0] [8, 4, 4] [1.0, 0.7, 2.0] none,
        (flavor.distance (2500.0 : Float) (.whole 2)).toOption.any Scalar.isBounded = true := by
      decide +kernel
    obtain ⟨cost, told, small⟩ := (Option.any_eq_true _ _).mp (computed flavor member)
    exact ⟨cost, Flavor.distance_eq_ok_iff.mp (Attempt.ok_of_toOption told), small⟩
  have built : ofColumns [2500.0, 2500.0, 1000.0] [8, 4, 4] [1.0, 0.7, 2.0] none =
      .ok (⟨rows [2500.0, 2500.0, 1000.0] [8, 4, 4] [1.0, 0.7, 2.0] none, by simp [rows]⟩ :
        FlavorTable Float) := rfl
  exact ⟨_, built, bounded, first_match_or_nearest built bounded "v"⟩

example : (reference.require "v" ⟨(2500.0 : Float), 4⟩).toOption.map (·.index) = some 1 := by
  decide +kernel

/-! What a shape without a flavor surfaces as -/

section

variable {table : FlavorTable α} {vm : String} {shape : Shape α}

variable [Scalar.Linear α] [Scalar.Ordered α]

end

end FlavorTable

end Fleet
