import Fleet.Forecast
import Fleet.Proofs.Failing
import Fleet.Proofs.Number.Bounds
import Fleet.Proofs.Number.Undefined

/-! Windows over histories of binary64 samples.

A window is computed from a volatility, which stays small however long the history is, and from a
parameter. So a window can be computed wherever the parameter itself can be read as an integer.
-/

set_option autoImplicit false

namespace Fleet.Forecast

open Number

def Sampled (history : List Float) : Prop :=
  ∀ sample ∈ history, (0.0 : Float) ≤ sample ∧ sample ≤ 1.0

variable {history : List Float}

theorem Sampled.within (sampled : Sampled history) {sample : Float} (member : sample ∈ history) :
    Within 0 1 sample :=
  within_unit_of_le (sampled sample member).1 (sampled sample member).2

theorem stored_one : Stored 1 := stored_of_value? value?_one

theorem stored_zero : Stored 0 := stored_of_value? value?_zero

theorem within_changes (sampled : Sampled history) : ∀ change ∈ changes history, Within 0 1 change := by
  fun_induction changes history with
  | case1 older newer rest ih =>
    refine List.forall_mem_cons.mpr ⟨?_, ih fun sample member => sampled sample (.tail _ member)⟩
    obtain ⟨p, olderValue, olderLow, olderHigh⟩ := sampled.within (by simp : older ∈ _)
    obtain ⟨q, newerValue, newerLow, newerHigh⟩ := sampled.within (by simp : newer ∈ _)
    obtain ⟨r, known, low, high⟩ := within_sub stored_one.neg stored_one
      newerValue olderValue (by linarith) (by linarith)
    exact ⟨|r|, value?_abs known, abs_nonneg r, abs_le.mpr ⟨low, high⟩⟩
  | case2 => exact fun _ absent => absurd absent List.not_mem_nil

/-- A sum of bounded numbers gets only so far: where the bound is half of the last unit, a summand is
lost. -/
theorem within_sum {digits : ℕ} (fits : digits + 53 ≤ 1023) {xs : List Float}
    (small : ∀ x ∈ xs, Within 0 (2 ^ digits) x) : Within 0 (2 ^ (digits + 53)) (Scalar.sum xs) := by
  suffices running : ∀ total, Within 0 (2 ^ (digits + 53)) total →
      Within 0 (2 ^ (digits + 53)) (xs.foldl (· + ·) total) from
    running 0.0 (within_zero.mono le_rfl (by positivity))
  induction xs with
  | nil => exact fun _ within => within
  | cons x rest ih =>
    obtain ⟨here, later⟩ := List.forall_mem_cons.mp small
    refine fun total within => ih later (total + x) ?_
    obtain ⟨p, totalValue, totalLow, totalHigh⟩ := within
    obtain ⟨q, value, low, high⟩ := here
    refine within_of_inRange? (value?_add totalValue value) stored_zero (stored_two_pow fits)
      (le_nearest stored_zero.representable (by linarith)) ?_
    exact (nearest_mono (by linarith)).trans_eq (nearest_two_pow_add digits)

theorem within_meanChange (sampled : Sampled history) : Within 0 (2 ^ 53) (meanChange history) := by
  unfold meanChange
  split
  · exact within_zero.mono le_rfl (by norm_num)
  · next several =>
    have changes : ∀ change ∈ changes history, Within 0 (2 ^ 0) change := by
      simpa using within_changes sampled
    obtain ⟨p, sum, low, high⟩ := within_sum (by decide) changes
    change Within 0 (2 ^ 53) (_ / Float.ofNat (history.length - 1))
    cases count : value? (Float.ofNat (history.length - 1)) with
    | none =>
      obtain ⟨sign, infinite⟩ := exists_infinity_of_ofNat count
      exact ⟨0, value?_div_of_infinity sum infinite, le_rfl, by norm_num⟩
    | some d =>
      have whole := count
      rw [value?_ofNat, inRange?_eq_some] at whole
      have least : 1 ≤ d := whole.1 ▸ le_nearest stored_one.representable
        (by exact_mod_cast (by omega : 1 ≤ history.length - 1))
      refine within_div stored_zero (stored_two_pow (by decide)) sum count (by linarith)
        (div_nonneg low (by linarith)) ?_
      exact (div_le_self low least).trans high

/-! Windows that volatility widens -/

theorem floor_eq {x : Float} {q : ℚ} (known : value? x = some q) : floor x = .ok ⌊q⌋ := by
  change (Number.floor x).mapError Fault.noInteger = _
  rw [floor_of_value? known]
  rfl

theorem ceil_eq {x : Float} {q : ℚ} (known : value? x = some q) : ceil x = .ok ⌈q⌉ := by
  change (Number.ceil x).mapError Fault.noInteger = _
  rw [ceil_of_value? known]
  rfl

theorem one_le_greatest : 1 ≤ greatest := by
  simpa using abs_le_greatest value?_one

theorem volatilityWindow_ok {gamma : Float} (sampled : 2 ≤ history.length → Sampled history)
    (finite : gamma.isFinite = true) : ∃ window, volatilityWindow history gamma = .ok window := by
  unfold volatilityWindow
  split
  · obtain ⟨g, known⟩ := isFinite_iff.mp finite
    rw [floor_eq known]
    exact ⟨_, rfl⟩
  · next several =>
    have sampled := sampled (Nat.le_of_not_lt several)
    obtain ⟨q, known, -⟩ := within_add_of_isFinite (within_meanChange sampled) finite
    rw [floor_eq known]
    exact ⟨_, rfl⟩

theorem floor_fails {x : Float} (infinite : x.isFinite = false) :
    ∃ cause, (floor x : Except (Fault Float) Int) = .error (.noInteger cause) := by
  have special : ¬∃ q, value? x = some q := mt isFinite_iff.mpr (Bool.eq_false_iff.mp infinite)
  change ∃ cause, (Number.floor x).mapError Fault.noInteger = _
  unfold value? at special
  unfold Number.floor
  cases unpacked : x.toModel.unpack with
  | infinity | notANumber => exact ⟨_, rfl⟩
  | zero | finite =>
    rw [unpacked] at special
    exact absurd ⟨_, rfl⟩ special

theorem floor_le_greatest {x : Float} {whole : Int}
    (read : (floor x : Except (Fault Float) Int) = .ok whole) : (whole : ℚ) ≤ greatest := by
  cases finite : x.isFinite with
  | false =>
    obtain ⟨cause, failed⟩ := floor_fails finite
    rw [failed] at read
    cases read
  | true =>
    obtain ⟨q, known⟩ := isFinite_iff.mp finite
    obtain rfl := Except.ok.inj ((floor_eq known).symm.trans read)
    exact (Int.floor_le q).trans (abs_le.mp (abs_le_greatest known)).2

theorem exists_ofInt?_of_window {gamma : Float} {window : Int}
    (read : volatilityWindow history gamma = .ok window) :
    ∃ x : Float, Scalar.ofInt? window = some x := by
  obtain ⟨whole, small, positive, below⟩ : ∃ whole : Int, (whole : ℚ) ≤ greatest ∧ 1 ≤ window ∧
      (window = 1 ∨ window ≤ whole) := by
    unfold volatilityWindow at read
    split at read
    · obtain ⟨whole, told, same⟩ := Attempt.bind_ok read
      have same : max 1 whole = window := Except.ok.inj same
      exact ⟨whole, floor_le_greatest told, by omega, by omega⟩
    · obtain ⟨whole, told, same⟩ := Attempt.bind_ok read
      have same : max 1 (min whole history.length) = window := Except.ok.inj same
      exact ⟨whole, floor_le_greatest told, by omega, by omega⟩
  have nonneg : (0 : ℚ) ≤ window := by exact_mod_cast (by omega : 0 ≤ window)
  refine exists_ofInt? ((abs_of_nonneg nonneg).trans_le ?_)
  rcases below with rfl | below
  · simpa using one_le_greatest
  · exact (Int.cast_le.mpr below).trans small

theorem volatilityWindow_fails {gamma : Float} (history : List Float)
    (infinite : gamma.isFinite = false) :
    ∃ cause, volatilityWindow history gamma = .error (.noInteger cause) := by
  unfold volatilityWindow
  split
  · obtain ⟨cause, failed⟩ := floor_fails infinite
    exact ⟨cause, by rw [failed]; rfl⟩
  · have sum : (meanChange history + gamma).isFinite = false := by
      refine Bool.eq_false_iff.mpr fun finite => ?_
      obtain ⟨q, known⟩ := isFinite_iff.mp finite
      obtain ⟨-, known⟩ := exists_of_value?_add known
      exact Bool.eq_false_iff.mp infinite (isFinite_iff.mpr known)
    obtain ⟨cause, failed⟩ := floor_fails sum
    exact ⟨cause, by rw [failed]; rfl⟩

/-! Samples that are no numbers -/

theorem isFraction_iff {sample : Float} : Scalar.isFraction sample = true ↔
    ((0.0 : Float) ≤ sample ∧ sample ≤ 1.0) ∨ sample.isNaN = true := by
  have zero : (0.0 : Float) ≤ 0.0 := le_iff_of_value? value?_zero value?_zero |>.mpr le_rfl
  have one : (1.0 : Float) ≤ 1.0 := le_iff_of_value? value?_one value?_one |>.mpr le_rfl
  simp only [Scalar.isFraction, Bool.and_eq_true, Bool.not_eq_true', decide_eq_false_iff_not]
  rw [not_lt_iff zero, not_gt_iff one, ← and_or_right]

theorem sampled_of_fractions (fractions : ∀ sample ∈ history, Scalar.isFraction sample = true)
    (numbers : ∀ sample ∈ history, sample.isNaN = false) : Sampled history :=
  fun sample member => (isFraction_iff.mp (fractions sample member)).resolve_right
    (ne_true_of_eq_false (numbers sample member))

theorem exists_isNaN_changes (several : 2 ≤ history.length)
    (undefined : ∃ sample ∈ history, sample.isNaN = true) :
    ∃ change ∈ changes history, change.isNaN = true := by
  fun_induction changes history with
  | case1 older newer rest ih =>
    obtain ⟨sample, member, none⟩ := undefined
    rcases List.mem_cons.mp member with rfl | later
    · exact ⟨_, List.mem_cons_self, isNaN_abs (isNaN_sub (.inr none))⟩
    · rcases List.mem_cons.mp later with rfl | beyond
      · exact ⟨_, List.mem_cons_self, isNaN_abs (isNaN_sub (.inl none))⟩
      · have more := Nat.succ_le_succ (List.length_pos_of_mem beyond)
        obtain ⟨change, changeMem, undefined⟩ := ih more ⟨sample, later, none⟩
        exact ⟨change, List.mem_cons_of_mem _ changeMem, undefined⟩
  | case2 history other =>
    rcases history with _ | ⟨older, _ | ⟨newer, rest⟩⟩
    · simp at several
    · simp at several
    · exact absurd rfl (other older newer rest)

theorem volatilityWindow_of_isNaN {gamma : Float} (several : 2 ≤ history.length)
    (undefined : ∃ sample ∈ history, sample.isNaN = true) :
    volatilityWindow history gamma = .error (.noInteger .notANumber) := by
  have mean : (meanChange history + gamma).isNaN = true := by
    unfold meanChange
    rw [if_neg (by omega)]
    exact isNaN_add (.inl (isNaN_div (isNaN_sum (.inr (exists_isNaN_changes several undefined)))))
  unfold volatilityWindow
  rw [if_neg (by omega)]
  change (Number.floor _).mapError Fault.noInteger >>= _ = _
  rw [floor_of_isNaN mean]
  rfl

theorem volatilityWindow_failsOnly {gamma : Float}
    (fractions : ∀ sample ∈ history, Scalar.isFraction sample = true)
    (finite : gamma.isFinite = true) :
    FailsOnly (fun fault => fault = .noInteger .notANumber ∧
      ∃ sample ∈ history, sample.isNaN = true) (volatilityWindow history gamma) := by
  by_cases several : 2 ≤ history.length
  · by_cases undefined : ∃ sample ∈ history, sample.isNaN = true
    · rw [volatilityWindow_of_isNaN several undefined]
      intro fault failed
      exact ⟨(Except.error.inj failed).symm, undefined⟩
    · have numbers : ∀ sample ∈ history, sample.isNaN = false := fun sample member =>
        Bool.eq_false_iff.mpr fun none => undefined ⟨sample, member, none⟩
      obtain ⟨window, read⟩ :=
        volatilityWindow_ok (fun _ => sampled_of_fractions fractions numbers) finite
      exact .of_ok read
  · obtain ⟨window, read⟩ := volatilityWindow_ok (absurd · several) finite
    exact .of_ok read

/-! Windows that deviations widen -/

/-- The window before it is adapted. -/
def baseWidth (history : List Float) (base : Int) : Int := max 1 (min base history.length)

/-- The window when it is grown, before it is cut to the length of the history. -/
def grown (history : List Float) (base : Int) (epsilon : Float) : Float :=
  Scalar.ofNat (baseWidth history base).toNat * (1.0 + Scalar.max 0.0 epsilon)

theorem max_zero_nonneg {x : Float} {q : ℚ} (known : value? (Scalar.max 0.0 x) = some q) : 0 ≤ q := by
  unfold Scalar.max at known
  split at known
  · next positive => exact ((lt_iff_of_value? value?_zero known).mp positive).le
  · rw [value?_zero] at known
    exact (Option.some.inj known).le

/-- Where a width can be grown it can also be shrunk by half as much, and is not wider then. -/
theorem within_shrunk {width growth : Float} {s g w : ℚ} (widthValue : value? width = some s)
    (widthLow : 0 ≤ s) (growthValue : value? growth = some g) (growthLow : 0 ≤ g)
    (widest : value? (width * (1.0 + growth)) = some w) :
    Within (-w) w (width * (1.0 - growth * 0.5)) := by
  obtain ⟨-, r, factor⟩ := exists_of_value?_mul widest
  have whole := factor
  rw [value?_add value?_one growthValue, inRange?_eq_some] at whole
  have product := widest
  rw [value?_mul widthValue factor, inRange?_eq_some] at product
  have growthStored := stored_of_value? growthValue
  have factorStored := stored_of_value? factor
  have widestStored := stored_of_value? widest
  have half : value? (0.5 : Float) = some (1 / 2) := by decide +kernel
  obtain ⟨h, halved, halfLow, halfHigh⟩ := within_mul stored_zero growthStored growthValue half
    (by linarith) (by linarith)
  -- the factor to shrink with lies between those to grow with, up or down
  have one : 1 ≤ r := whole.1 ▸ le_nearest stored_one.representable (by linarith)
  have more : g ≤ r := whole.1 ▸ le_nearest growthStored.representable (by linarith)
  obtain ⟨d, shrinking, low, high⟩ := within_sub factorStored.neg factorStored value?_one halved
    (by linarith) (by linarith)
  have inside := abs_le.mp ((abs_mul s d).trans_le
    (mul_le_mul (abs_of_nonneg widthLow).le (abs_le.mpr ⟨low, high⟩) (abs_nonneg d) widthLow))
  apply within_of_inRange? (value?_mul widthValue shrinking) widestStored.neg widestStored
  · rw [← product.1, ← nearest_neg]
    exact nearest_mono inside.1
  · rw [← product.1]
    exact nearest_mono inside.2

theorem nonneg_of_value?_ofNat {n : ℕ} {s : ℚ} (known : value? (Scalar.ofNat n) = some s) :
    0 ≤ s := by
  change value? (Float.ofNat n) = _ at known
  rw [value?_ofNat, inRange?_eq_some] at known
  exact known.1 ▸ nearest_nonneg (Nat.cast_nonneg n)

theorem adaptiveWindow_ok {base : Int} {epsilon : Float} (theta : Float)
    (finite : history ≠ [] → (grown history base epsilon).isFinite = true) :
    ∃ window, adaptiveWindow history base epsilon theta = .ok window := by
  unfold adaptiveWindow
  split
  · exact ⟨_, rfl⟩
  · next some =>
    have widest := finite (by simpa using some)
    obtain ⟨w, grownValue⟩ := isFinite_iff.mp widest
    obtain ⟨⟨s, start⟩, r, factor⟩ := exists_of_value?_mul grownValue
    obtain ⟨-, g, growth⟩ := exists_of_value?_add factor
    obtain ⟨n, narrowest, -⟩ := within_shrunk start (nonneg_of_value?_ofNat start) growth
      (max_zero_nonneg growth) grownValue
    dsimp only
    split
    · have read := ceil_eq grownValue
      unfold grown baseWidth at read
      rw [read]
      exact ⟨_, rfl⟩
    · have read := floor_eq narrowest
      unfold baseWidth at read
      rw [read]
      exact ⟨_, rfl⟩

end Fleet.Forecast
