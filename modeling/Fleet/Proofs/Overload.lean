import Fleet.Overload
import Fleet.Proofs.Attempt

/-! How a host is judged.

A judgement forecasts all VMs, and goes by these forecasts alone from there on.
-/

set_option autoImplicit false

namespace Fleet.OverloadRule

variable {α : Type} [Scalar α] {rule : OverloadRule α} {table : FlavorTable α} {host : Host α}

/-- The forecasts of all VMs, each beside its VM. -/
def forecasts (rule : OverloadRule α) (vms : List (Vm α)) : Except (Fault α) (List (α × Vm α)) :=
  vms.mapM fun vm => do pure ((← rule.forecast vm), vm)

def judge (rule : OverloadRule α) (table : FlavorTable α) (host : Host α)
    (forecast : List (α × Vm α)) : Except (Fault α) (Verdict α) := do
  let cpu ← predictedCpu host forecast
  if rule.cpuThreshold < cpu then pure ⟨some .cpu, cpu, 0.0⟩
  else
    let memory ← predictedMemory table forecast
    if rule.memoryThreshold * host.ramMb ≤ memory then pure ⟨some .memory, cpu, memory⟩
    else pure ⟨none, cpu, memory⟩

theorem assess_eq (rule : OverloadRule α) (table : FlavorTable α) (host : Host α)
    (extra : List (Vm α)) :
    rule.assess table host extra =
      if (host.vms ++ extra).isEmpty then pure ⟨none, 0.0, 0.0⟩
      else rule.forecasts (host.vms ++ extra) >>= rule.judge table host := rfl

/-- Why a host with these VMs gets a verdict. -/
inductive Judged (rule : OverloadRule α) (table : FlavorTable α) (host : Host α) (vms : List (Vm α)) :
    Verdict α → Prop where
  | idle : vms = [] → Judged rule table host vms ⟨none, 0.0, 0.0⟩
  | cpu {forecast : List (α × Vm α)} {cpu : α} :
      vms ≠ [] → rule.forecasts vms = .ok forecast → predictedCpu host forecast = .ok cpu →
      rule.cpuThreshold < cpu → Judged rule table host vms ⟨some .cpu, cpu, 0.0⟩
  | memory {forecast : List (α × Vm α)} {cpu memory : α} :
      vms ≠ [] → rule.forecasts vms = .ok forecast → predictedCpu host forecast = .ok cpu →
      ¬rule.cpuThreshold < cpu → predictedMemory table forecast = .ok memory →
      rule.memoryThreshold * host.ramMb ≤ memory →
      Judged rule table host vms ⟨some .memory, cpu, memory⟩
  | healthy {forecast : List (α × Vm α)} {cpu memory : α} :
      vms ≠ [] → rule.forecasts vms = .ok forecast → predictedCpu host forecast = .ok cpu →
      ¬rule.cpuThreshold < cpu → predictedMemory table forecast = .ok memory →
      ¬rule.memoryThreshold * host.ramMb ≤ memory →
      Judged rule table host vms ⟨none, cpu, memory⟩

theorem judged_of_assess {vms extra : List (Vm α)} {verdict : Verdict α}
    (assessed : rule.assess table { host with vms } extra = .ok verdict) :
    rule.Judged table host (vms ++ extra) verdict := by
  rw [assess_eq] at assessed
  split at assessed
  · next empty =>
    cases assessed
    exact .idle (List.isEmpty_iff.mp empty)
  · next several =>
    have several := mt List.isEmpty_iff.mpr several
    obtain ⟨forecast, known, assessed⟩ := Attempt.bind_ok assessed
    obtain ⟨cpu, cpuKnown, assessed⟩ := Attempt.bind_ok assessed
    split at assessed
    · next above =>
      cases assessed
      exact .cpu several known cpuKnown above
    · next below =>
      obtain ⟨memory, memoryKnown, assessed⟩ := Attempt.bind_ok assessed
      split at assessed
      · next reached =>
        cases assessed
        exact .memory several known cpuKnown below memoryKnown reached
      · next free =>
        cases assessed
        exact .healthy several known cpuKnown below memoryKnown free

end Fleet.OverloadRule
