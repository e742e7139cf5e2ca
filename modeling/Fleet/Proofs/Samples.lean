import Fleet.Inventory
import Fleet.Proofs.Forecast
import Fleet.Proofs.Ordered
import Fleet.Proofs.Payload

/-! The samples that VMs and hosts keep.

Samples come with a payload or are recorded later, and pass the same check: one below zero or above one
is refused. What is no number is neither and passes, so a history consists of fractions exactly if every
sample it was offered is a number.
-/

set_option autoImplicit false

namespace Fleet

open Forecast (Sampled)
open Number
open Payload (Fields HostRecord VmRecord)

/-! The check -/

namespace Scalar

variable {sample : Float} {history : List Float}

theorem IsShare.isNaN (share : IsShare sample) : sample.isNaN = false := (number_of_le share.1).2

theorem isFraction_iff : isFraction sample = true ↔ IsShare sample ∨ sample.isNaN = true :=
  Forecast.isFraction_iff

theorem sampled_iff (passed : ∀ sample ∈ history, isFraction sample = true) :
    Sampled history ↔ ∀ sample ∈ history, sample.isNaN = false :=
  ⟨fun sampled sample member => IsShare.isNaN (sampled sample member),
    Forecast.sampled_of_fractions passed⟩

end Scalar

/-! Calls that record samples -/

namespace Vm

variable {α : Type} [Scalar α]

def recorded (vm : Vm α) (sample : α) : Vm α :=
  match vm.record sample with
  | .ok changed => changed
  | .error _ => vm

def recordedAll (vm : Vm α) (samples : List α) : Vm α := samples.foldl recorded vm

theorem record_eq_ok_iff {vm changed : Vm α} {sample : α} :
    vm.record sample = .ok changed ↔
      Scalar.isFraction sample = true ∧ changed = { vm with samples := vm.samples ++ [sample] } := by
  unfold record
  split
  · next passed => simp [passed, eq_comm]
  · next refused => simp [refused]

theorem record_eq_error_iff {vm : Vm α} {sample : α} {fault : Fault α} :
    vm.record sample = .error fault ↔
      Scalar.isFraction sample = false ∧ fault = .sample sample := by
  unfold record
  split
  · next passed => simp [passed]
  · next refused => simp [refused, eq_comm]

theorem recorded_eq (vm : Vm α) (sample : α) :
    vm.recorded sample =
      { vm with samples := vm.samples ++ [sample].filter Scalar.isFraction } := by
  unfold recorded record
  cases passed : Scalar.isFraction sample <;> simp [passed]

theorem recordedAll_eq (vm : Vm α) (samples : List α) :
    vm.recordedAll samples =
      { vm with samples := vm.samples ++ samples.filter Scalar.isFraction } := by
  induction samples generalizing vm with
  | nil => simp [recordedAll]
  | cons sample rest ih =>
    change (vm.recorded sample).recordedAll rest = _
    rw [ih, recorded_eq, List.append_assoc, ← List.filter_append, List.singleton_append]

/-- What calls that record samples do to a VM. -/
structure Recording (vm : Vm Float) (calls : List Float) : Prop where
  /-- The accepted samples follow the initial ones in the order of the calls, and nothing else of the
  VM changes. -/
  history : vm.recordedAll calls =
    { vm with samples := vm.samples ++ calls.filter Scalar.isFraction }
  /-- After any calls, the next one is accepted if its sample is a fraction, or no number. -/
  accepted : ∀ earlier sample, (∃ changed, (vm.recordedAll earlier).record sample = .ok changed) ↔
    Scalar.IsShare sample ∨ sample.isNaN = true
  /-- A call that is refused names the sample and leaves the VM as it was. -/
  refused : ∀ earlier sample fault, (vm.recordedAll earlier).record sample = .error fault →
    fault = .sample sample ∧ vm.recordedAll (earlier ++ [sample]) = vm.recordedAll earlier
  /-- Fractions are all there is in the end, unless some sample was no number. -/
  fractions : (∀ sample ∈ (vm.recordedAll calls).samples, Scalar.IsShare sample) ↔
    ∀ sample ∈ vm.samples ++ calls, sample.isNaN = false

theorem recording {vm : Vm Float} (passed : ∀ sample ∈ vm.samples, Scalar.isFraction sample = true)
    (calls : List Float) : vm.Recording calls where
  history := vm.recordedAll_eq calls
  accepted earlier sample := by
    simp [record_eq_ok_iff, Scalar.isFraction_iff]
  refused earlier sample fault failed := by
    obtain ⟨outside, told⟩ := record_eq_error_iff.mp failed
    refine ⟨told, ?_⟩
    rw [recordedAll_eq, recordedAll_eq, List.filter_append]
    simp [outside]
  fractions := by
    have kept : ∀ sample ∈ vm.samples ++ calls.filter Scalar.isFraction,
        Scalar.isFraction sample = true := by
      intro sample member
      rcases List.mem_append.mp member with initial | later
      · exact passed sample initial
      · exact (List.mem_filter.mp later).2
    rw [recordedAll_eq]
    refine (Scalar.sampled_iff kept).trans ⟨fun numbers sample member => ?_,
      fun numbers sample member => numbers sample ?_⟩
    · -- a sample that is no number would have been kept
      by_contra none
      rw [Bool.not_eq_false] at none
      refine absurd (none.symm.trans (numbers sample ?_)) nofun
      rcases List.mem_append.mp member with initial | later
      · exact List.mem_append_left _ initial
      · exact List.mem_append_right _
          (List.mem_filter.mpr ⟨later, Scalar.isFraction_iff.mpr (.inr none)⟩)
    · rcases List.mem_append.mp member with initial | later
      · exact List.mem_append_left _ initial
      · exact List.mem_append_right _ (List.mem_filter.mp later).1

end Vm

/-! Payloads -/

/-- Of a payload that is accepted as a VM or as a host, and of samples recorded for its VMs later, all
that is kept are fractions and what is no number; the histories grow by the accepted samples alone, in
the order of the calls. -/
theorem histories_fractional_iff (fields : Fields) (serial : Nat) (calls : List Float) :
    (∀ record, VmRecord.read fields = .ok record → (Inventory.vmOf serial record).Recording calls) ∧
      ∀ host, HostRecord.read fields = .ok host →
        ((∀ sample ∈ host.samples, Scalar.IsShare sample) ↔
          ∀ sample ∈ host.samples, sample.isNaN = false) ∧
        ∀ record ∈ host.vms, (Inventory.vmOf serial record).Recording calls := by
  have vm {record : VmRecord} (passed : record.Fractional) :
      (Inventory.vmOf serial record).Recording calls := by
    apply Vm.recording
    exact passed
  constructor
  · intro record read
    exact vm (VmRecord.ofFields_fractional (Payload.Checked.orFault_ok read))
  · intro host read
    have converted := Payload.Checked.orFault_ok read
    exact ⟨Scalar.sampled_iff (HostRecord.ofFields_samples converted), fun record member =>
      vm (HostRecord.ofFields_fractional converted record member)⟩

/-- A history with a text for what is no number: it is accepted, and so is a second such sample. -/
theorem histories_fractional_iff_undefined :
    let fields : Fields := [("vm_id", .text "v"), ("mips", .integer 2500), ("ram_mb", .integer 1024),
      ("utilization_history", .list [.text "nan", .decimal 0.5])]
    ∃ record, VmRecord.read fields = .ok record ∧
      (Inventory.vmOf 0 record).Recording [1.5, 0.25, 0.0 / 0.0] ∧
      ((Inventory.vmOf 0 record).recordedAll [1.5, 0.25, 0.0 / 0.0]).samples =
        [0.0 / 0.0, 0.5, 0.25, 0.0 / 0.0] := by
  intro fields
  have read : VmRecord.read fields =
      .ok ⟨"v", 2500.0, 1, 1024.0, [0.0 / 0.0, 0.5], false, none⟩ := rfl
  have recording := (histories_fractional_iff fields 0 [1.5, 0.25, 0.0 / 0.0]).1 _ read
  refine ⟨_, read, recording, ?_⟩
  rw [recording.history]
  decide +kernel

end Fleet
