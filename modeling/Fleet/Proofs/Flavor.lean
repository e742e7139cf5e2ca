import Fleet.Flavor
import Fleet.Proofs.Failing
import Fleet.Proofs.Number.Bounds
import Fleet.Vm

/-! Resolving shapes in binary64: a distance is told unless it gets too large. -/

set_option autoImplicit false

namespace Fleet

open Number

/-! Integers below powers of two -/

theorem le_two_pow {n digits more : Nat} (small : n ≤ 2 ^ digits) (fits : digits ≤ more) :
    n ≤ 2 ^ more :=
  small.trans (Nat.pow_le_pow_right two_pos fits)

theorem natAbs_sub_le {first second : Int} {digits : Nat} (firstSmall : first.natAbs ≤ 2 ^ digits)
    (secondSmall : second.natAbs ≤ 2 ^ digits) : (first - second).natAbs ≤ 2 ^ (digits + 1) := by
  rw [pow_succ]
  omega

theorem natAbs_mul_self_le {n : Int} {digits : Nat} (small : n.natAbs ≤ 2 ^ digits) :
    (n * n).natAbs ≤ 2 ^ (digits + digits) := by
  rw [Int.natAbs_mul, pow_add]
  exact Nat.mul_le_mul small small

theorem natAbs_le_of_limit {n : Int} (small : n.natAbs ≤ 10 ^ 150) : n.natAbs ≤ 2 ^ 510 :=
  small.trans (by decide +kernel)

theorem beyond_limit_of_ofInt? {n : Int} (large : ofInt? n = none) : 10 ^ 150 < n.natAbs := by
  by_contra small
  obtain ⟨x, converted⟩ :=
    exists_ofInt?_of_natAbs (by decide) (natAbs_le_of_limit (not_lt.mp small))
  rw [converted] at large
  cases large

/-! Capacities and distances -/

theorem Shape.capacity_ok {shape : Shape Float} (small : shape.cores.natAbs ≤ 2 ^ 511) :
    ∃ capacity, shape.capacity = .ok capacity := by
  obtain ⟨cores, converted⟩ := exists_ofInt?_of_natAbs (by decide) small
  refine ⟨shape.mips * cores, ?_⟩
  unfold capacity
  rw [show Scalar.ofInt? shape.cores = some cores from converted]

theorem Shape.capacity_failsOnly (shape : Shape Float) :
    FailsOnly (fun fault => fault = .integerTooLarge ∧ 10 ^ 150 < shape.cores.natAbs)
      shape.capacity := by
  intro fault failed
  unfold capacity at failed
  split at failed
  · cases failed
  · next large =>
    cases failed
    exact ⟨rfl, beyond_limit_of_ofInt? large⟩

theorem CoreCount.squaredGap_ok {count cores : Int} (near : (count - cores).natAbs ≤ 2 ^ 511) :
    ∃ square, (whole count : CoreCount Float).squaredGap cores = .ok square := by
  obtain ⟨square, converted⟩ := exists_ofInt?_of_natAbs (by decide) (natAbs_mul_self_le near)
  refine ⟨square, ?_⟩
  unfold squaredGap
  dsimp only
  rw [show Scalar.ofInt? _ = some square from converted]

theorem Flavor.distance_ok {flavor : Flavor Float} {count : Int}
    (near : (count - flavor.cores).natAbs ≤ 2 ^ 511) (mips : Float) :
    ∃ cost, flavor.distance mips (.whole count) = .ok cost := by
  obtain ⟨square, gap⟩ := CoreCount.squaredGap_ok near
  unfold Flavor.distance
  rw [gap]
  exact ⟨_, rfl⟩

inductive CoreCount.TooLarge : CoreCount Float → Fault Float → Prop
  | whole {count : Int} : 10 ^ 150 < count.natAbs → TooLarge (.whole count) .integerTooLarge
  | decimal {count : Float} : count.isFinite = true → 1e150 < count.abs →
      TooLarge (.decimal count) .squareTooLarge

theorem CoreCount.squaredGap_failsOnly (given : CoreCount Float) {cores : Int}
    (few : cores.natAbs ≤ 2 ^ 52) : FailsOnly given.TooLarge (given.squaredGap cores) := by
  cases given with
  | whole count =>
    by_cases small : count.natAbs ≤ 10 ^ 150
    · obtain ⟨square, gap⟩ := squaredGap_ok
        (le_two_pow (natAbs_sub_le (natAbs_le_of_limit small) (le_two_pow few (by decide)))
          (by decide))
      exact .of_ok gap
    · intro fault failed
      unfold squaredGap at failed
      dsimp only at failed
      split at failed
      · cases failed
      · cases failed
        exact .whole (not_le.mp small)
  | decimal count =>
    obtain ⟨exact, converted⟩ := exists_ofInt?_of_natAbs (by decide) few
    intro fault failed
    unfold squaredGap at failed
    dsimp only at failed
    rw [show Scalar.ofInt? cores = some exact from converted] at failed
    dsimp only at failed
    split at failed
    · cases failed
    · next infinite =>
      cases failed
      obtain ⟨finite, beyond⟩ := beyond_limit_of_square? converted few infinite
      exact .decimal finite beyond

theorem within_relative {mips : Float} (small : mips.abs ≤ 1e150) :
    Within 0 (2 ^ 501) (Scalar.abs (mips - 2500.0) / Scalar.max 2500.0 1.0) := by
  have speed : value? (2500.0 : Float) = some 2500 := by decide +kernel
  have most : Scalar.max (2500.0 : Float) 1.0 = 2500.0 := by decide +kernel
  rw [most]
  obtain ⟨q, known, size⟩ := exists_value?_of_abs_le_limit small
  obtain ⟨d, reduced, low, high⟩ := within_sub_two_pow (by decide) known speed size (by
    rw [abs_of_pos (by norm_num)]
    exact le_trans (by norm_num) (pow_le_pow_right₀ one_le_two (by decide : 12 ≤ 500)))
  exact within_div (stored_of_value? value?_zero) (stored_two_pow (by decide : 501 ≤ 1023))
    (value?_abs reduced) speed (by norm_num) (div_nonneg (abs_nonneg d) (by norm_num))
    ((div_le_self (abs_nonneg d) (by norm_num)).trans (abs_le.mpr ⟨low, high⟩))

theorem CoreCount.exists_value?_of_squaredGap {count cores : Int} {square : Float}
    (gap : (whole count : CoreCount Float).squaredGap cores = .ok square) :
    ∃ q, value? square = some q := by
  unfold squaredGap at gap
  dsimp only at gap
  split at gap
  · next converted =>
    cases gap
    exact ⟨_, value?_of_ofInt? converted⟩
  · cases gap

theorem Flavor.isBounded_distance {flavor : Flavor Float} {mips cost : Float} {count : Int}
    (usual : flavor.mips = 2500.0) (small : mips.abs ≤ 1e150)
    (told : flavor.distance mips (.whole count) = .ok cost) : Scalar.isBounded cost = true := by
  obtain ⟨square, gap, same⟩ := Attempt.bind_ok told
  rw [usual] at same
  obtain ⟨s, squareValue⟩ := CoreCount.exists_value?_of_squaredGap gap
  obtain ⟨r, relative, least, most⟩ := within_relative small
  obtain ⟨m, squared, squaredLow, squaredHigh⟩ := within_mul_self (by decide) relative
    ((abs_of_nonneg least).trans_le most)
  obtain ⟨f, quarter, quarterLow, quarterHigh⟩ := within_quarter (by decide : 1022 ≤ 1023)
    squareValue (abs_lt_of_value? squareValue)
  obtain ⟨c, total, -⟩ := within_add_two_pow (by decide) squared quarter
    ((abs_of_nonneg squaredLow).trans_le
      (squaredHigh.trans (pow_le_pow_right₀ one_le_two (by decide))))
    (abs_le.mpr ⟨quarterLow, quarterHigh⟩)
  cases same
  exact isBounded_of_value? total

namespace FlavorTable

variable {α : Type} [Scalar α] {allowed : Fault α → Prop} {mips : α} {cores : CoreCount α}
  {flavors : List (Flavor α)} {best nearest : Option (Flavor α × α)}

theorem scan_failsOnly
    (distances : ∀ flavor ∈ flavors, FailsOnly allowed (flavor.distance mips cores)) :
    FailsOnly allowed (scan mips cores best flavors) := by
  induction flavors generalizing best with
  | nil => exact .ok _
  | cons flavor rest ih =>
    obtain ⟨here, later⟩ := List.forall_mem_cons.mp distances
    unfold scan
    split
    · exact .ok _
    · split
      · next cause failed =>
        intro fault same
        cases same
        exact here cause failed
      · exact ih later

theorem nearer_eq_none {flavor : Flavor α} {cost : α} (none : nearer best flavor cost = none) :
    best = .none ∧ Scalar.isBounded cost = false := by
  unfold nearer at none
  cases best with
  | none => simpa using none
  | some least =>
    dsimp only at none
    split at none <;> simp at none

theorem scan_unmatched (scanned : scan mips cores best flavors = .ok (.unmatched nearest)) :
    (∀ flavor ∈ flavors, flavor.agreesWith mips cores = false) ∧
      (nearest = none → best = none ∧ ∀ flavor ∈ flavors,
        ∃ cost, flavor.distance mips cores = .ok cost ∧ Scalar.isBounded cost = false) := by
  induction flavors generalizing best with
  | nil =>
    cases scanned
    exact ⟨by simp, fun none => ⟨none, by simp⟩⟩
  | cons flavor rest ih =>
    unfold scan at scanned
    split at scanned
    · cases scanned
    · next disagrees =>
      split at scanned
      · cases scanned
      · next cost told =>
        obtain ⟨others, absent⟩ := ih scanned
        refine ⟨List.forall_mem_cons.mpr ⟨Bool.eq_false_iff.mpr disagrees, others⟩, fun none => ?_⟩
        obtain ⟨kept, unbounded⟩ := absent none
        obtain ⟨empty, infinite⟩ := nearer_eq_none kept
        exact ⟨empty, List.forall_mem_cons.mpr ⟨⟨cost, told, infinite⟩, unbounded⟩⟩

theorem require_failsOnly {table : FlavorTable α} {vm : String} {shape : Shape α}
    (distances : ∀ flavor ∈ table.flavors,
      FailsOnly allowed (flavor.distance shape.mips (.whole shape.cores)))
    (unlisted : (∀ flavor ∈ table.flavors,
        flavor.agreesWith shape.mips (.whole shape.cores) = false) →
      (∀ index nearest distance, allowed (.unknownShape vm shape index nearest distance)) ∧
        ((∀ flavor ∈ table.flavors, ∃ cost,
            flavor.distance shape.mips (.whole shape.cores) = .ok cost ∧
              Scalar.isBounded cost = false) → allowed .noNearestShape)) :
    FailsOnly allowed (table.require vm shape) := by
  refine .bind (scan_failsOnly distances) fun resolution scanned => ?_
  match resolution, scanned with
  | .found flavor, _ => exact .pure flavor
  | .unmatched none, scanned =>
    obtain ⟨disagree, unbounded⟩ := scan_unmatched scanned
    intro fault failed
    cases failed
    exact (unlisted disagree).2 (unbounded rfl).2
  | .unmatched (some (flavor, distance)), scanned =>
    intro fault failed
    cases failed
    exact (unlisted (scan_unmatched scanned).1).1 _ _ _

end FlavorTable

theorem FlavorTable.require_ok {table : FlavorTable Float} {shape : Shape Float}
    (near : ∀ flavor ∈ table.flavors, (shape.cores - flavor.cores).natAbs ≤ 2 ^ 511)
    (listed : ∃ flavor ∈ table.flavors, flavor.agreesWith shape.mips (.whole shape.cores) = true)
    (vm : String) : ∃ flavor, table.require vm shape = .ok flavor := by
  refine FailsOnly.exists_ok (require_failsOnly (fun flavor member => ?_) fun disagree => ?_)
  · obtain ⟨cost, told⟩ := Flavor.distance_ok (near flavor member) shape.mips
    exact .of_ok told
  · obtain ⟨flavor, member, agrees⟩ := listed
    exact absurd agrees (Bool.eq_false_iff.mp (disagree flavor member))

end Fleet
