import Fleet.Scalar
import Mathlib.Algebra.Order.Ring.Rat
import Mathlib.Data.Prod.Lex
import Mathlib.Order.Compare

/-! Numbers that comparisons put in a line.

What does not compare with itself compares with nothing; all other numbers are ordered linearly.
Binary64 numbers are of this kind, and so are rational ones. A search for the least number finds the
first item that has it.
-/

set_option autoImplicit false

namespace Fleet

class Scalar.Linear (α : Type) [Scalar α] : Prop where
  le_trans {first second third : α} : first ≤ second → second ≤ third → first ≤ third
  le_total {first second : α} : first ≤ first → second ≤ second → first ≤ second ∨ second ≤ first
  self_of_le {first second : α} : first ≤ second → first ≤ first ∧ second ≤ second
  lt_iff {first second : α} : first < second ↔ first ≤ second ∧ ¬second ≤ first
  beq_iff {first second : α} : (first == second) = true ↔ first ≤ second ∧ second ≤ first
  self_of_isBounded {x : α} : isBounded x = true → x ≤ x

/-! Binary64 numbers -/

namespace Number

open Float.Model (UnpackedFloat)

/-- Where a number stands in the line: by kind, then by exponent, then by mantissa. -/
def rank : UnpackedFloat → Option (ℤ ×ₗ ℤ ×ₗ ℤ)
  | .notANumber => none
  | .infinity .negative => some (toLex (-2, toLex (0, 0)))
  | .finite .negative mantissa exponent _ => some (toLex (-1, toLex (-exponent, -mantissa)))
  | .zero _ => some (toLex (0, toLex (0, 0)))
  | .finite .positive mantissa exponent _ => some (toLex (1, toLex (exponent, mantissa)))
  | .infinity .positive => some (toLex (2, toLex (0, 0)))

theorem compare_neg (first second : ℤ) : compare (-first) (-second) = compare second first := by
  simp [compare, compareOfLessAndEq, eq_comm]

theorem compare_natCast (first second : ℕ) :
    compare (first : ℤ) second = compare first second := by
  simp [compare, compareOfLessAndEq]

theorem compare_eq (first second : UnpackedFloat) :
    first.compare second = (rank first).bind fun x => (rank second).map (compare x) := by
  -- numbers of two kinds compare as the kinds do, which are given
  rcases first with (_ | _) | _ | _ | ⟨_ | _, mantissa, exponent, _⟩ <;>
    rcases second with (_ | _) | _ | _ | ⟨_ | _, otherMantissa, otherExponent, _⟩ <;> try rfl
  · change some ((compare exponent otherExponent).then (compare mantissa otherMantissa)).swap =
      some (compare (toLex ((-1 : ℤ), toLex (-exponent, -(mantissa : ℤ))))
        (toLex ((-1 : ℤ), toLex (-otherExponent, -(otherMantissa : ℤ)))))
    simp only [Prod.Lex.compare_def, compareLex, compareOn, ofLex_toLex, compare_neg,
      compare_natCast, Ordering.swap_then, Int.compare_swap, Nat.compare_swap]
    rfl
  · change some ((compare exponent otherExponent).then (compare mantissa otherMantissa)) =
      some (compare (toLex ((1 : ℤ), toLex (exponent, (mantissa : ℤ))))
        (toLex ((1 : ℤ), toLex (otherExponent, (otherMantissa : ℤ)))))
    simp only [Prod.Lex.compare_def, compareLex, compareOn, ofLex_toLex, compare_natCast]
    rfl

def standing (x : Float) : Option (ℤ ×ₗ ℤ ×ₗ ℤ) := rank x.toModel.unpack

theorem le_iff {first second : Float} :
    first ≤ second ↔ ∃ x ∈ standing first, ∃ y ∈ standing second, x ≤ y := by
  have le : first ≤ second ↔
      (first.toModel.unpack.compare second.toModel.unpack).any (·.isLE) = true :=
    decide_eq_true_iff
  rw [le, compare_eq]
  unfold standing
  cases rank first.toModel.unpack <;> cases rank second.toModel.unpack <;>
    simp [← compare_le_iff_le, Ordering.isLE_iff_ne_gt]

theorem lt_iff {first second : Float} :
    first < second ↔ ∃ x ∈ standing first, ∃ y ∈ standing second, x < y := by
  have lt : first < second ↔
      (first.toModel.unpack.compare second.toModel.unpack == some .lt) = true := decide_eq_true_iff
  rw [lt, compare_eq]
  unfold standing
  cases rank first.toModel.unpack <;> cases rank second.toModel.unpack <;>
    simp [← compare_lt_iff_lt]

theorem beq_iff {first second : Float} :
    (first == second) = true ↔ ∃ x ∈ standing first, x ∈ standing second := by
  have beq : (first == second) = true ↔
      (first.toModel.unpack.compare second.toModel.unpack == some .eq) = true := Iff.rfl
  rw [beq, compare_eq]
  unfold standing
  cases rank first.toModel.unpack <;> cases rank second.toModel.unpack <;>
    simp [compare_eq_iff_eq]
  exact eq_comm

end Number

instance : Scalar.Linear Float where
  le_trans := by
    simp only [Number.le_iff]
    rintro first second third ⟨x, hx, y, hy, below⟩ ⟨y', hy', z, hz, above⟩
    obtain rfl := Option.some.inj (hy.symm.trans hy')
    exact ⟨x, hx, z, hz, below.trans above⟩
  le_total := by
    simp only [Number.le_iff]
    rintro first second ⟨x, hx, -⟩ ⟨y, hy, -⟩
    exact (le_total x y).imp (fun le => ⟨x, hx, y, hy, le⟩) fun le => ⟨y, hy, x, hx, le⟩
  self_of_le := by
    simp only [Number.le_iff]
    rintro first second ⟨x, hx, y, hy, -⟩
    exact ⟨⟨x, hx, x, hx, le_rfl⟩, y, hy, y, hy, le_rfl⟩
  lt_iff := by
    simp only [Number.le_iff, Number.lt_iff]
    intro first second
    constructor
    · rintro ⟨x, hx, y, hy, lt⟩
      refine ⟨⟨x, hx, y, hy, lt.le⟩, ?_⟩
      rintro ⟨y', hy', x', hx', le⟩
      obtain rfl := Option.some.inj (hx.symm.trans hx')
      obtain rfl := Option.some.inj (hy.symm.trans hy')
      exact lt.not_ge le
    · rintro ⟨⟨x, hx, y, hy, -⟩, above⟩
      exact ⟨x, hx, y, hy, lt_of_not_ge fun le => above ⟨y, hy, x, hx, le⟩⟩
  beq_iff := by
    simp only [Number.le_iff, Number.beq_iff]
    intro first second
    constructor
    · rintro ⟨x, hx, hy⟩
      exact ⟨⟨x, hx, x, hy, le_rfl⟩, x, hy, x, hx, le_rfl⟩
    · rintro ⟨⟨x, hx, y, hy, below⟩, y', hy', x', hx', above⟩
      obtain rfl := Option.some.inj (hx.symm.trans hx')
      obtain rfl := Option.some.inj (hy.symm.trans hy')
      exact ⟨x, hx, below.antisymm above ▸ hy⟩
  self_of_isBounded := by
    intro x bounded
    obtain ⟨rank, known, -⟩ := Number.lt_iff.mp (of_decide_eq_true bounded)
    exact Number.le_iff.mpr ⟨rank, known, rank, known, le_rfl⟩

instance : Scalar.Linear Rat where
  le_trans := le_trans
  le_total _ _ := le_total _ _
  self_of_le _ := ⟨le_rfl, le_rfl⟩
  lt_iff := lt_iff_le_not_ge
  beq_iff := beq_iff_eq.trans le_antisymm_iff
  self_of_isBounded _ := le_rfl

namespace Scalar

variable {α Item : Type} [Scalar α] [Linear α]

section

open Linear

variable {first second third : α}

theorem le_of_lt (lt : first < second) : first ≤ second := (lt_iff.mp lt).1

theorem not_le_of_lt (lt : first < second) : ¬second ≤ first := (lt_iff.mp lt).2

theorem not_lt_of_le (le : first ≤ second) : ¬second < first := fun lt => not_le_of_lt lt le

theorem lt_of_le_of_lt (le : first ≤ second) (lt : second < third) : first < third :=
  lt_iff.mpr ⟨le_trans le (le_of_lt lt), fun above => (lt_iff.mp lt).2 (le_trans above le)⟩

theorem lt_of_lt_of_le (lt : first < second) (le : second ≤ third) : first < third :=
  lt_iff.mpr ⟨le_trans (le_of_lt lt) le, fun above => (lt_iff.mp lt).2 (le_trans le above)⟩

theorem le_of_not_lt (firstSelf : first ≤ first) (secondSelf : second ≤ second)
    (notLess : ¬second < first) : first ≤ second := by
  rcases le_total firstSelf secondSelf with le | above
  · exact le
  · by_contra notLe
    exact notLess (lt_iff.mpr ⟨above, notLe⟩)

end

/-- The first entry of least number: those before it have greater numbers, those after it no lesser
ones. -/
def FirstLeast (scored : List (Item × α)) (least : Item × α) : Prop :=
  ∃ before after, scored = before ++ least :: after ∧
    (∀ entry ∈ before, least.2 < entry.2) ∧ ∀ entry ∈ after, least.2 ≤ entry.2

namespace FirstLeast

variable {scored : List (Item × α)} {least entry best : Item × α}

omit [Linear α] in
theorem mem (found : FirstLeast scored least) : least ∈ scored := by
  obtain ⟨before, after, rfl, -⟩ := found
  exact List.mem_append_right before List.mem_cons_self

omit [Linear α] in
theorem cons (found : FirstLeast scored least) (greater : least.2 < entry.2) :
    FirstLeast (entry :: scored) least := by
  obtain ⟨before, after, rfl, above, notBelow⟩ := found
  exact ⟨entry :: before, after, rfl, List.forall_mem_cons.mpr ⟨greater, above⟩, notBelow⟩

theorem le_head (found : FirstLeast (best :: scored) least) (self : best.2 ≤ best.2) :
    least.2 ≤ best.2 := by
  obtain ⟨_ | ⟨first, before⟩, after, same, above, _⟩ := found
  · cases same
    exact self
  · cases same
    exact le_of_lt (above _ List.mem_cons_self)

theorem insert (found : FirstLeast (best :: scored) least) (notLess : best.2 ≤ entry.2) :
    FirstLeast (best :: entry :: scored) least := by
  obtain ⟨_ | ⟨first, before⟩, after, same, above, notBelow⟩ := found
  · cases same
    exact ⟨[], entry :: scored, rfl, by simp, List.forall_mem_cons.mpr ⟨notLess, notBelow⟩⟩
  · cases same
    have less : least.2 < best.2 := above best List.mem_cons_self
    refine ⟨best :: entry :: before, after, rfl, List.forall_mem_cons.mpr ⟨less, ?_⟩, notBelow⟩
    exact List.forall_mem_cons.mpr
      ⟨lt_of_lt_of_le less notLess, (List.forall_mem_cons.mp above).2⟩

theorem unique {other : Item × α} (found : FirstLeast scored least)
    (again : FirstLeast scored other) : least = other := by
  obtain ⟨before, after, rfl, above, notBelow⟩ := found
  obtain ⟨ahead, behind, same, aboveOther, notBelowOther⟩ := again
  -- of two such entries the first would be less than the second, and not above it
  rcases List.append_eq_append_iff.mp same with ⟨between, rfl, split⟩ | ⟨between, rfl, split⟩
  · cases between with
    | nil => exact (List.cons.inj split).1
    | cons entry rest =>
      obtain ⟨rfl, rfl⟩ := List.cons.inj split
      exact absurd (aboveOther least (by simp)) (not_lt_of_le (notBelow other (by simp)))
  · cases between with
    | nil => exact (List.cons.inj split).1.symm
    | cons entry rest =>
      obtain ⟨rfl, rfl⟩ := List.cons.inj split
      exact absurd (above other (by simp)) (not_lt_of_le (notBelowOther least (by simp)))

omit [Linear α] in
theorem filter (found : FirstLeast scored least) (keep : Item × α → Bool)
    (kept : keep least = true) : FirstLeast (scored.filter keep) least := by
  obtain ⟨before, after, rfl, above, notBelow⟩ := found
  exact ⟨before.filter keep, after.filter keep, by simp [kept],
    fun entry member => above entry (List.mem_filter.mp member).1,
    fun entry member => notBelow entry (List.mem_filter.mp member).1⟩

end FirstLeast

omit [Linear α] in
theorem firstLeast_cons_cons {best entry : Item × α} {rest : List (Item × α)}
    (bestBounded : isBounded best.2 = true) (entryBounded : isBounded entry.2 = true) :
    firstLeast (best :: entry :: rest) =
      firstLeast ((if entry.2 < best.2 then entry else best) :: rest) := by
  by_cases less : entry.2 < best.2 <;>
    simp [firstLeast, bestBounded, entryBounded, less]

theorem firstLeast_eq {best : Item × α} {rest : List (Item × α)}
    (bounded : ∀ entry ∈ best :: rest, isBounded entry.2 = true) :
    ∃ least, firstLeast (best :: rest) = some least ∧ FirstLeast (best :: rest) least := by
  induction rest generalizing best with
  | nil =>
    have bestBounded := bounded best List.mem_cons_self
    exact ⟨best, by simp [firstLeast, bestBounded], [], [], rfl, by simp, by simp⟩
  | cons entry rest ih =>
    obtain ⟨bestBounded, entryBounded, restBounded⟩ := by
      simpa only [List.forall_mem_cons] using bounded
    have bestSelf := Linear.self_of_isBounded bestBounded
    have entrySelf := Linear.self_of_isBounded entryBounded
    rw [firstLeast_cons_cons bestBounded entryBounded]
    split
    · next less =>
      obtain ⟨least, found, first⟩ := ih (List.forall_mem_cons.mpr ⟨entryBounded, restBounded⟩)
      exact ⟨least, found, first.cons (lt_of_le_of_lt (first.le_head entrySelf) less)⟩
    · next notLess =>
      obtain ⟨least, found, first⟩ := ih (List.forall_mem_cons.mpr ⟨bestBounded, restBounded⟩)
      exact ⟨least, found, first.insert (le_of_not_lt bestSelf entrySelf notLess)⟩

section

variable {scored : List (Item × α)} (bounded : ∀ entry ∈ scored, isBounded entry.2 = true)
include bounded

theorem firstLeast_eq_some_iff {least : Item × α} :
    firstLeast scored = some least ↔ FirstLeast scored least := by
  cases scored with
  | nil => simp [firstLeast, FirstLeast]
  | cons best rest =>
    obtain ⟨entry, found, first⟩ := firstLeast_eq bounded
    rw [found, Option.some_inj]
    exact ⟨fun same => same ▸ first, fun other => first.unique other⟩

theorem firstLeast_eq_none_iff : firstLeast scored = none ↔ scored = [] := by
  cases scored with
  | nil => simp [firstLeast]
  | cons best rest =>
    obtain ⟨entry, found, -⟩ := firstLeast_eq bounded
    simp [found]

end

/-! Least and greatest numbers of a list -/

omit [Linear α] in
theorem foldl_pick {pick : α → α → α} (before : α → α → Prop)
    (trans : ∀ {x y z : α}, before x y → before y z → before x z)
    (picks : ∀ {x y : α}, x ≤ x → y ≤ y →
      (pick x y = x ∨ pick x y = y) ∧ before (pick x y) x ∧ before (pick x y) y)
    {first : α} {rest : List α} (self : ∀ x ∈ first :: rest, x ≤ x) :
    rest.foldl pick first ∈ first :: rest ∧
      ∀ x ∈ first :: rest, before (rest.foldl pick first) x := by
  induction rest generalizing first with
  | nil =>
    have firstSelf := self first List.mem_cons_self
    obtain ⟨same | same, below, -⟩ := picks firstSelf firstSelf <;>
      exact ⟨List.mem_cons_self, by simpa [same] using below⟩
  | cons second rest ih =>
    obtain ⟨firstSelf, secondSelf, restSelf⟩ := by simpa only [List.forall_mem_cons] using self
    obtain ⟨one, belowFirst, belowSecond⟩ := picks firstSelf secondSelf
    have pickedSelf : pick first second ≤ pick first second := by
      rcases one with same | same <;> rw [same] <;> assumption
    obtain ⟨member, below⟩ := ih (List.forall_mem_cons.mpr ⟨pickedSelf, restSelf⟩)
    obtain ⟨belowPicked, belowRest⟩ := List.forall_mem_cons.mp below
    refine ⟨?_, List.forall_mem_cons.mpr ⟨trans belowPicked belowFirst,
      List.forall_mem_cons.mpr ⟨trans belowPicked belowSecond, belowRest⟩⟩⟩
    rcases List.mem_cons.mp member with picked | later
    · rw [List.foldl_cons, picked]
      rcases one with same | same <;> simp [same]
    · exact List.mem_cons_of_mem _ (List.mem_cons_of_mem _ later)

section

variable {first : α} {rest : List α} (self : ∀ x ∈ first :: rest, x ≤ x)
include self

theorem foldl_min_least : rest.foldl min first ∈ first :: rest ∧
    ∀ x ∈ first :: rest, rest.foldl min first ≤ x := by
  refine foldl_pick (· ≤ ·) Linear.le_trans (fun {x y} xSelf ySelf => ?_) self
  unfold min
  split
  · next less => exact ⟨.inr rfl, le_of_lt less, ySelf⟩
  · next notLess => exact ⟨.inl rfl, xSelf, le_of_not_lt xSelf ySelf notLess⟩

theorem foldl_max_greatest : rest.foldl max first ∈ first :: rest ∧
    ∀ x ∈ first :: rest, x ≤ rest.foldl max first := by
  refine foldl_pick (fun greater less => less ≤ greater)
    (fun below above => Linear.le_trans above below) (fun {x y} xSelf ySelf => ?_) self
  unfold max
  split
  · next less => exact ⟨.inr rfl, le_of_lt less, ySelf⟩
  · next notLess => exact ⟨.inl rfl, xSelf, le_of_not_lt ySelf xSelf notLess⟩

end

section

open Linear

variable {first second x : α} {xs : List α}

theorem self_le_max (self : first ≤ first) : first ≤ max first second := by
  unfold max
  split
  · next less => exact le_of_lt less
  · exact self

theorem max_mono (le : first ≤ second) : max first x ≤ max second x := by
  obtain ⟨firstSelf, secondSelf⟩ := self_of_le le
  unfold max
  split
  · next above =>
    have self := (self_of_le (le_of_lt above)).2
    split
    · exact self
    · next notAbove => exact le_of_not_lt self secondSelf notAbove
  · split
    · next above => exact le_trans le (le_of_lt above)
    · exact le

theorem foldl_max_mono (le : first ≤ second) : xs.foldl max first ≤ xs.foldl max second := by
  induction xs generalizing first second with
  | nil => exact le
  | cons x rest ih => exact ih (max_mono le)

theorem self_le_foldl_max (self : first ≤ first) : first ≤ xs.foldl max first := by
  induction xs generalizing first with
  | nil => exact self
  | cons x rest ih =>
    have le : first ≤ max first x := self_le_max self
    exact le_trans le (ih (self_of_le le).2)

end

end Scalar

end Fleet
