import Fleet.Payload.Record

/-! Conversions taken apart where they have found nothing wrong.

Loaded utilization samples are fractions or no numbers.
-/

set_option autoImplicit false

namespace Fleet.Payload

variable {First Second Result : Type}

namespace Checked

theorem bind_good {checked : Checked First} {next : First → Checked Second} {result : Second}
    (read : checked.bind next = .good result) :
    ∃ first, checked = .good first ∧ next first = .good result := by
  cases checked with
  | good first => exact ⟨first, rfl, read⟩
  | bad issues => cases read

theorem seq_good {function : Checked (First → Second)} {argument : Checked First} {result : Second}
    (read : function <*> argument = .good result) :
    ∃ change first, change first = result ∧ argument = .good first ∧ function = .good change := by
  change apply function argument = _ at read
  cases function <;> cases argument <;> cases read
  exact ⟨_, _, rfl, rfl, rfl⟩

theorem map_good {change : First → Second} {argument : Checked First} {result : Second}
    (read : change <$> argument = .good result) :
    ∃ first, change first = result ∧ argument = .good first := by
  obtain ⟨_, first, rfl, converted, same⟩ := seq_good (show Checked.good change <*> argument = _ from read)
  cases same
  exact ⟨first, rfl, converted⟩

theorem within_good {step : String} {checked : Checked Result} {result : Result}
    (read : checked.within step = .good result) : checked = .good result := by
  cases checked with
  | good _ => exact read
  | bad issues => cases read

theorem orFault_ok {Fault : Type} {checked : Checked Result} {fault : List Issue → Fault}
    {result : Result} (read : checked.orFault fault = .ok result) : checked = .good result := by
  cases checked with
  | good _ => exact congrArg _ (Except.ok.inj read)
  | bad issues => cases read

end Checked

theorem Fields.optional_good {fields : Fields} {name : String} {standard result : Result}
    {convert : Value → Checked Result}
    (read : fields.optional name standard convert = .good result) :
    result = standard ∨ ∃ value, convert value = .good result := by
  unfold Fields.optional at read
  split at read
  · cases read
    exact .inl rfl
  · exact .inr ⟨_, Checked.within_good read⟩

namespace Value

theorem convertItems_good {convert : Value → Checked Result} {position : Nat} {items : List Value}
    {results : List Result} (read : convertItems convert position items = .good results) :
    ∀ result ∈ results, ∃ item, convert item = .good result := by
  induction items generalizing position results with
  | nil =>
    cases read
    exact fun _ absent => absurd absent List.not_mem_nil
  | cons item rest ih =>
    obtain ⟨_, others, rfl, later, read⟩ := Checked.seq_good read
    obtain ⟨first, rfl, here⟩ := Checked.map_good read
    exact List.forall_mem_cons.mpr ⟨⟨item, Checked.within_good here⟩, ih later⟩

theorem toList_good {convert : Value → Checked Result} {value : Value} {results : List Result}
    (read : toList convert value = .good results) :
    ∀ result ∈ results, ∃ item, convert item = .good result := by
  cases value with
  | list items => exact convertItems_good read
  | _ => cases read

theorem toSamples_good {value : Value} {samples : List Float}
    (read : toSamples value = .good samples) :
    ∀ sample ∈ samples, Scalar.isFraction sample = true := by
  obtain ⟨numbers, -, read⟩ := Checked.bind_good read
  split at read
  · next none =>
    cases read
    simpa using none
  · cases read

end Value

theorem Fields.optional_samples {fields : Fields} {name : String} {samples : List Float}
    (read : fields.optional name [] Value.toSamples = .good samples) :
    ∀ sample ∈ samples, Scalar.isFraction sample = true := by
  rcases optional_good read with rfl | ⟨value, converted⟩
  · exact fun _ absent => absurd absent List.not_mem_nil
  · exact Value.toSamples_good converted

namespace VmRecord

variable {fields : Fields} {record : VmRecord}

structure Converted (fields : Fields) (record : VmRecord) : Prop where
  id : fields.required "vm_id" Value.toText = .good record.id
  mips : fields.required "mips" Value.toNumber = .good record.mips
  cores : fields.optional "pes" 1 Value.toInteger = .good record.cores
  ramMb : fields.required "ram_mb" Value.toNumber = .good record.ramMb
  samples : fields.optional "utilization_history" [] Value.toSamples = .good record.samples
  migrating : fields.optional "in_migration" false Value.toBoolean = .good record.migrating
  home : fields.optional "host_id" none (Value.toOptional Value.toText) = .good record.home

theorem ofFields_converted (read : ofFields fields = .good record) : Converted fields record := by
  obtain ⟨_, home, rfl, homeRead, read⟩ := Checked.seq_good read
  obtain ⟨_, migrating, rfl, migratingRead, read⟩ := Checked.seq_good read
  obtain ⟨_, samples, rfl, samplesRead, read⟩ := Checked.seq_good read
  obtain ⟨_, ram, rfl, ramRead, read⟩ := Checked.seq_good read
  obtain ⟨_, cores, rfl, coresRead, read⟩ := Checked.seq_good read
  obtain ⟨_, mips, rfl, mipsRead, read⟩ := Checked.seq_good read
  obtain ⟨id, rfl, idRead⟩ := Checked.map_good read
  exact ⟨idRead, mipsRead, coresRead, ramRead, samplesRead, migratingRead, homeRead⟩

def Fractional (record : VmRecord) : Prop :=
  ∀ sample ∈ record.samples, Scalar.isFraction sample = true

theorem ofFields_fractional (read : ofFields fields = .good record) : record.Fractional :=
  Fields.optional_samples (ofFields_converted read).samples

theorem ofValue_fractional {value : Value} (read : ofValue value = .good record) :
    record.Fractional := by
  cases value with
  | object fields => exact ofFields_fractional read
  | _ => cases read

end VmRecord

namespace HostRecord

variable {fields : Fields} {record : HostRecord}

structure Converted (fields : Fields) (record : HostRecord) : Prop where
  id : fields.required "host_id" Value.toText = .good record.id
  mips : fields.required "mips" Value.toNumber = .good record.mips
  cores : fields.optional "pes" 1 Value.toInteger = .good record.cores
  ramMb : fields.required "ram_mb" Value.toNumber = .good record.ramMb
  vms : fields.optional "vms" [] (Value.toList VmRecord.ofValue) = .good record.vms
  samples : fields.optional "utilization_history" [] Value.toSamples = .good record.samples
  arriving : fields.optional "vms_migrating_in" [] Value.toIdSet = .good record.arriving

theorem ofFields_converted (read : ofFields fields = .good record) : Converted fields record := by
  obtain ⟨_, arriving, rfl, arrivingRead, read⟩ := Checked.seq_good read
  obtain ⟨_, samples, rfl, samplesRead, read⟩ := Checked.seq_good read
  obtain ⟨_, vms, rfl, vmsRead, read⟩ := Checked.seq_good read
  obtain ⟨_, ram, rfl, ramRead, read⟩ := Checked.seq_good read
  obtain ⟨_, cores, rfl, coresRead, read⟩ := Checked.seq_good read
  obtain ⟨_, mips, rfl, mipsRead, read⟩ := Checked.seq_good read
  obtain ⟨id, rfl, idRead⟩ := Checked.map_good read
  exact ⟨idRead, mipsRead, coresRead, ramRead, vmsRead, samplesRead, arrivingRead⟩

theorem ofFields_samples (read : ofFields fields = .good record) :
    ∀ sample ∈ record.samples, Scalar.isFraction sample = true :=
  Fields.optional_samples (ofFields_converted read).samples

theorem ofFields_fractional (read : ofFields fields = .good record) :
    ∀ vm ∈ record.vms, vm.Fractional := by
  rcases Fields.optional_good (ofFields_converted read).vms with none | ⟨value, converted⟩
  · simp [none]
  · intro vm member
    obtain ⟨item, read⟩ := Value.toList_good converted vm member
    exact VmRecord.ofValue_fractional read

end HostRecord

end Fleet.Payload
