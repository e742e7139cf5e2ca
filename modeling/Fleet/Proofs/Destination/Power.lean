import Fleet.Destination
import Fleet.Proofs.Power

/-! The power that a host would draw with one more VM can always be read off its curve.

The numbers may be infinite or no numbers at all: a utilization is kept between zero and one before
anything is done with it, and a comparison with what is no number keeps the bound.
-/

set_option autoImplicit false

namespace Fleet

open Number

theorem Host.utilization_within (host : Host Float) {capacity demand : Float}
    (sized : host.capacity = .ok capacity) (loaded : host.demand = .ok demand) :
    ∃ utilization, host.utilization = .ok utilization ∧ Within 0 1 utilization := by
  unfold Host.utilization
  rw [sized, loaded]
  change ∃ utilization, (if capacity ≤ 0.0 then _ else _ : Except (Fault Float) Float) = _ ∧ _
  split
  · exact ⟨0.0, rfl, within_zero.mono le_rfl zero_le_one⟩
  · exact ⟨_, rfl, within_kept _⟩

namespace DestinationRule

variable (host : Host Float) (vm : Vm Float) {capacity demand added : Float}

theorem powerAfter_eq_draw (sized : host.capacity = .ok capacity)
    (loaded : host.demand = .ok demand) (asked : vm.demand = .ok added)
    (powerful : ¬capacity ≤ 0.0) :
    powerAfter host vm =
      host.power.draw (Scalar.min 1.0 (Scalar.max 0.0 ((demand + added) / capacity))) := by
  unfold powerAfter
  rw [sized, loaded, asked]
  exact if_neg powerful

/-- Whatever the numbers are from which it is computed, the utilization of a host is a number between
zero and one, and the power that it would draw with the VM is read off its curve: at a utilization
that passes the check, and at positions that the curve has. -/
theorem powerAfter_reads (sized : host.capacity = .ok capacity) (loaded : host.demand = .ok demand)
    (asked : vm.demand = .ok added) :
    (∃ utilization, host.utilization = .ok utilization ∧ Within 0 1 utilization) ∧
      (∃ watts, powerAfter host vm = .ok watts) ∧
      (¬capacity ≤ 0.0 → ∃ (utilization : Float) (tenths : PowerCurve.Tenths utilization),
        utilization = Scalar.min 1.0 (Scalar.max 0.0 ((demand + added) / capacity)) ∧
        ¬(utilization < 0.0 ∨ 1.0 < utilization) ∧
        powerAfter host vm = host.power.draw utilization ∧
        powerAfter host vm = .ok (tenths.watts host.power)) := by
  have within := within_kept ((demand + added) / capacity)
  obtain ⟨tenths⟩ := PowerCurve.exists_tenths within
  have read := PowerCurve.draw_of_tenths within host.power tenths
  refine ⟨host.utilization_within sized loaded, ?_, fun powerful => ?_⟩
  · by_cases powerless : capacity ≤ 0.0
    · refine ⟨0.0 - 1.0, ?_⟩
      unfold powerAfter
      rw [sized]
      exact if_pos powerless
    · exact ⟨_, (powerAfter_eq_draw host vm sized loaded asked powerless).trans read⟩
  · have drawn := powerAfter_eq_draw host vm sized loaded asked powerful
    exact ⟨_, tenths, rfl, PowerCurve.not_outside within, drawn, drawn.trans read⟩

namespace Sample

/-- A host without bounds, under a load without bounds. -/
def boundless : Host Float where
  mips := 1.0 / 0.0
  cores := 4
  id := "h"
  ramMb := 65536.0
  samples := []
  arriving := []
  power := PowerCurve.xeonE5 Float
  vms :=
    [{ mips := 1.0 / 0.0, cores := 4, serial := 0, id := "v", ramMb := 32768.0, samples := [1.0],
       migrating := false }]

def undemanding : Vm Float where
  mips := 2500.0
  cores := 4
  serial := 1
  id := "w"
  ramMb := 1024.0
  samples := []
  migrating := false

end Sample

/-- The quotient is no number here, and it is read as an idle host. -/
theorem powerAfter_reads_boundless :
    ∃ capacity demand added, Sample.boundless.capacity = .ok capacity ∧
      Sample.boundless.demand = .ok demand ∧ Sample.undemanding.demand = .ok added ∧
      ((demand + added) / capacity).isNaN = true ∧
      (∃ utilization, Sample.boundless.utilization = .ok utilization ∧ Within 0 1 utilization) ∧
      (∃ watts, powerAfter Sample.boundless Sample.undemanding = .ok watts) ∧
      ∃ (utilization : Float) (tenths : PowerCurve.Tenths utilization),
        utilization = Scalar.min 1.0 (Scalar.max 0.0 ((demand + added) / capacity)) ∧
        ¬(utilization < 0.0 ∨ 1.0 < utilization) ∧
        powerAfter Sample.boundless Sample.undemanding =
          Sample.boundless.power.draw utilization ∧
        powerAfter Sample.boundless Sample.undemanding =
          .ok (tenths.watts Sample.boundless.power) := by
  have sized : Sample.boundless.capacity = .ok (1.0 / 0.0) :=
    Attempt.ok_of_toOption (by decide +kernel)
  have loaded : Sample.boundless.demand = .ok (1.0 / 0.0) :=
    Attempt.ok_of_toOption (by decide +kernel)
  have asked : Sample.undemanding.demand = .ok 0.0 := Attempt.ok_of_toOption (by decide +kernel)
  obtain ⟨kept, returned, reads⟩ :=
    powerAfter_reads Sample.boundless Sample.undemanding sized loaded asked
  exact ⟨_, _, _, sized, loaded, asked, by decide +kernel, kept, returned,
    reads (by decide +kernel)⟩

end DestinationRule

end Fleet
