import Fleet.Proofs.Linear

/-! Sums of sizes. A part of such a sum is not more than the whole.

Rounding keeps the two laws of addition that this takes, so it is all the same whether the sums are
exact.
-/

set_option autoImplicit false

namespace Fleet.Scalar

variable {α : Type} [Scalar α]

def IsSize (x : α) : Prop := 0.0 ≤ x ∧ isBounded x = true

/-- Adding a size never lowers a sum, and addition is monotone. -/
class Accumulating (α : Type) [Scalar α] : Prop where
  le_add {total x : α} : total ≤ total → IsSize x → total ≤ total + x
  add_le_add {first second x : α} : first ≤ second → IsSize x → first + x ≤ second + x

instance : Accumulating Rat where
  le_add _ size := le_add_of_nonneg_right (le_of_eq_of_le (by decide +kernel) size.1)
  add_le_add le _ := add_le_add_left le _

open Linear Accumulating

variable [Linear α] [Accumulating α] {part whole : List α}

omit [Accumulating α] in
theorem foldl_add_le_foldl {Total Summand : α → Prop}
    (rises : ∀ {total x : α}, Total total → Summand x → total ≤ total + x)
    (monotone : ∀ {first second x : α}, Total first → first ≤ second → Summand x →
      first + x ≤ second + x)
    (upward : ∀ {first second : α}, Total first → first ≤ second → Total second)
    (sub : part.Sublist whole) (summands : ∀ x ∈ whole, Summand x) {first second : α}
    (start : Total first) (le : first ≤ second) :
    part.foldl (· + ·) first ≤ whole.foldl (· + ·) second := by
  -- the part lags behind: what it leaves out only lifts the sum over the whole
  induction sub generalizing first second with
  | slnil => exact le
  | cons x _ ih =>
    obtain ⟨here, later⟩ := List.forall_mem_cons.mp summands
    exact ih later start (le_trans le (rises (upward start le) here))
  | cons_cons x _ ih =>
    obtain ⟨here, later⟩ := List.forall_mem_cons.mp summands
    exact ih later (upward start (rises start here)) (monotone start le here)

theorem foldl_add_le (sub : part.Sublist whole) (sizes : ∀ x ∈ whole, IsSize x) {first second : α}
    (le : first ≤ second) : part.foldl (· + ·) first ≤ whole.foldl (· + ·) second :=
  foldl_add_le_foldl (fun self size => le_add self size) (fun _ le size => add_le_add le size)
    (fun _ le => (self_of_le le).2) sub sizes (self_of_le le).1 le

theorem sum_le_of_sublist (sub : part.Sublist whole) (sizes : ∀ x ∈ whole, IsSize x) {limit : α}
    (bound : sum whole ≤ limit) : sum part ≤ limit := by
  cases whole with
  | nil => rwa [List.sublist_nil.mp sub]
  | cons x rest =>
    have zero : (0.0 : α) ≤ 0.0 := (self_of_le (sizes x List.mem_cons_self).1).1
    exact le_trans (foldl_add_le sub sizes zero) bound

end Fleet.Scalar
