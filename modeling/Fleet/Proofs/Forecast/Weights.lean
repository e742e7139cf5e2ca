import Fleet.Proofs.Forecast
import Fleet.Proofs.Ordered

/-! Weighted means of shares.

The newest sample of a window weighs as much as the window is wide, and the oldest one weighs one. As
long as the weights add up to a number, so does what they weigh, and the mean is a share again.
-/

set_option autoImplicit false

namespace Fleet.Forecast

open Scalar

variable {α : Type} [Scalar α]

def weightsDown (width : Nat) : List α := (List.range' 1 width).reverse.map ofNat

def totalWeight (width : Nat) : α := sum (weightsDown width)

theorem weights_fst (recent : List α) : (weights recent).map Prod.fst = weightsDown recent.length := by
  unfold weights weightsDown
  rw [List.map_map, List.reverse_range', List.map_map]
  apply List.ext_getElem
  · simp
  · simp

theorem foldl_weigh (entries : List (α × α)) (samples total : α) :
    entries.foldl (fun (samples, total) (weight, sample) =>
        (samples + weight * sample, total + weight)) (samples, total) =
      ((entries.map fun entry => entry.1 * entry.2).foldl (· + ·) samples,
        (entries.map Prod.fst).foldl (· + ·) total) := by
  induction entries generalizing samples total with
  | nil => rfl
  | cons entry rest ih => exact ih _ _

theorem weigh_eq (recent : List α) :
    weigh recent =
      (sum ((weights recent).map fun entry => entry.1 * entry.2), totalWeight recent.length) := by
  unfold weigh totalWeight
  rw [foldl_weigh, weights_fst]
  rfl

theorem weightsDown_sublist {width wider : Nat} (le : width ≤ wider) :
    (weightsDown width : List α).Sublist (weightsDown wider) :=
  ((List.range'_sublist_right.mpr le).reverse).map _

section

variable [Linear α] [Ordered α] {width wider : Nat} {recent : List α} {mean : α}

omit [Linear α] in
theorem weightsDown_pos : ∀ weight ∈ (weightsDown width : List α), (0.0 : α) < weight := by
  intro weight member
  obtain ⟨count, range, rfl⟩ := List.mem_map.mp member
  have positive := (List.mem_range'_1.mp (List.mem_reverse.mp range)).1
  exact Ordered.ofNat_pos positive

theorem weightsDown_nonneg : ∀ weight ∈ (weightsDown width : List α), (0.0 : α) ≤ weight :=
  fun weight member => le_of_lt (weightsDown_pos weight member)

theorem isBounded_totalWeight (bounded : isBounded (totalWeight wider : α) = true)
    (le : width ≤ wider) : isBounded (totalWeight width : α) = true :=
  Ordered.isBounded_of_le (sum_le_sum (weightsDown_sublist le) weightsDown_nonneg) bounded

theorem totalWeight_pos (positive : 0 < width) : (0.0 : α) < totalWeight width := by
  have member : ofNat width ∈ (weightsDown width : List α) :=
    List.mem_map_of_mem (List.mem_reverse.mpr (List.mem_range'_1.mpr ⟨positive, by omega⟩))
  exact lt_of_lt_of_le (Ordered.ofNat_pos positive) (le_sum member weightsDown_nonneg)

theorem weighted_nonneg (bounded : isBounded (totalWeight recent.length : α) = true)
    (shares : ∀ sample ∈ recent, IsShare sample) :
    ∀ product ∈ (weights recent).map fun entry => entry.1 * entry.2, (0.0 : α) ≤ product := by
  intro product member
  obtain ⟨⟨weight, sample⟩, entry, rfl⟩ := List.mem_map.mp member
  have weightMem : weight ∈ (weightsDown recent.length : List α) := by
    rw [← weights_fst]
    exact List.mem_map_of_mem entry
  have size : IsSize weight := ⟨weightsDown_nonneg weight weightMem,
    Ordered.isBounded_of_le (le_sum weightMem weightsDown_nonneg) bounded⟩
  obtain ⟨⟨source, age⟩, listed, same⟩ := List.mem_map.mp entry
  cases same
  exact Ordered.mul_nonneg size (shares sample (List.fst_mem_of_mem_zipIdx listed)).isSize

theorem isShare_weightedMean? {newestFirst : List α} {window : Int}
    (bounded : isBounded (totalWeight newestFirst.length : α) = true)
    (shares : ∀ sample ∈ newestFirst, IsShare sample)
    (read : weightedMean? newestFirst window = some mean) : IsShare mean := by
  unfold weightedMean? at read
  split at read
  · cases read
  · next several =>
    rw [weigh_eq] at read
    obtain rfl := Option.some.inj read
    obtain ⟨nonempty, wide⟩ := not_or.mp several
    generalize recentEq : newestFirst.take window.toNat = recent
    have fewer : recent.length ≤ newestFirst.length := by
      rw [← recentEq, List.length_take]
      exact Nat.min_le_right _ _
    have some : 0 < recent.length := by
      rw [← recentEq, List.length_take]
      have length : 0 < newestFirst.length := by
        simpa [List.length_pos_iff] using nonempty
      omega
    have bounded := isBounded_totalWeight bounded fewer
    have recentShares : ∀ sample ∈ recent, IsShare sample := fun sample member =>
      shares sample (List.mem_of_mem_take (recentEq ▸ member))
    have nonneg := sum_nonneg (weighted_nonneg bounded recentShares)
    apply isShare_clampUnit
    exact Ordered.div_le_div (Linear.self_of_le nonneg).2 (totalWeight_pos some) bounded

end

open Number in
theorem isBounded_totalWeight_of_le {count : Nat} (few : count ≤ 2 ^ 500) :
    isBounded (totalWeight count : Float) = true := by
  have small : ∀ weight ∈ (weightsDown count : List Float), Within 0 (2 ^ 500) weight := by
    intro weight member
    obtain ⟨position, range, rfl⟩ := List.mem_map.mp member
    have below : position ≤ 2 ^ 500 := by
      have upper := (List.mem_range'_1.mp (List.mem_reverse.mp range)).2
      omega
    exact within_of_exact stored_zero (stored_two_pow (by decide)) (value?_ofNat position)
      (Nat.cast_nonneg position) (by exact_mod_cast below)
  obtain ⟨total, known, -⟩ := within_sum (by decide) small
  exact isBounded_of_value? known

end Fleet.Forecast
