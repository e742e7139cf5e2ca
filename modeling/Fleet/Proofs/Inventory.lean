import Fleet.Inventory
import Fleet.Proofs.Failing
import Fleet.Proofs.Payload
import Fleet.Proofs.Settled

/-! Loaded inventories: where the VMs of a cluster come from, and why loading can fail. -/

set_option autoImplicit false

namespace Fleet

/-- A VM described without a RAM size. -/
def Payload.Fields.LacksRam (fields : Payload.Fields) : Prop :=
  fields.lookup "ram_mb" = none ∨ fields.lookup "ram_mb" = some .null

/-- What can be subtracted from a number; a text cannot, whatever it says. -/
def Payload.Value.IsNumber : Payload.Value → Prop
  | .integer _ | .decimal _ | .boolean _ => True
  | _ => False

namespace Inventory

open Payload (Entry Fields HostRecord Value VmRecord)

variable {hosts : List (PowerCurve Float × HostRecord)} {vms : List VmRecord} {vm : Vm Float}

theorem exists_of_numbered {first : Nat} {records : List VmRecord}
    (member : vm ∈ numbered first records) :
    ∃ serial, ∃ record ∈ records, vm = vmOf serial record := by
  obtain ⟨position, inside, rfl⟩ := List.mem_mapIdx.mp member
  exact ⟨_, _, List.getElem_mem inside, rfl⟩

theorem exists_of_hostsOf {first : Nat} {host : Host Float} (member : host ∈ hostsOf first hosts)
    (resident : vm ∈ host.vms) : ∃ serial, ∃ record ∈ nestedVms hosts, vm = vmOf serial record := by
  induction hosts generalizing first with
  | nil => cases member
  | cons entry rest ih =>
    rcases List.mem_cons.mp member with rfl | later
    · obtain ⟨serial, record, recordMem, same⟩ := exists_of_numbered resident
      exact ⟨serial, record, List.mem_append_left _ recordMem, same⟩
    · obtain ⟨serial, record, recordMem, same⟩ := ih later
      exact ⟨serial, record, List.mem_append_right _ recordMem, same⟩

theorem exists_record (resident : vm ∈ (assemble hosts vms).residents) :
    ∃ serial, ∃ record ∈ nestedVms hosts ++ vms, vm = vmOf serial record := by
  obtain ⟨host, member, resident⟩ := List.mem_flatMap.mp resident
  unfold assemble at member
  rw [Cluster.hosts_ofHosts] at member
  obtain ⟨plain, plainMem, rfl⟩ := List.mem_map.mp (Keyed.mem_of_mem_ofList member)
  rcases List.mem_append.mp resident with nested | loose
  · obtain ⟨serial, record, recordMem, same⟩ := exists_of_hostsOf plainMem nested
    exact ⟨serial, record, List.mem_append_left _ recordMem, same⟩
  · obtain ⟨⟨attached, described⟩, paired, rfl⟩ := List.mem_map.mp loose
    have numberedMem := (List.of_mem_zip (List.mem_filter.mp paired).1).1
    obtain ⟨serial, record, recordMem, same⟩ := exists_of_numbered numberedMem
    exact ⟨serial, record, List.mem_append_right _ recordMem, same⟩

theorem readHost_fractional {value : Value} {entry : PowerCurve Float × HostRecord}
    (read : readHost value = .ok entry) : ∀ vm ∈ entry.2.vms, vm.Fractional := by
  obtain ⟨described, -, read⟩ := Attempt.bind_ok read
  obtain ⟨power, -, read⟩ := Attempt.bind_ok read
  obtain ⟨fields, -, read⟩ := Attempt.bind_ok read
  obtain ⟨record, converted, read⟩ := Attempt.bind_ok read
  cases read
  exact HostRecord.ofFields_fractional (Payload.Checked.orFault_ok converted)

theorem readVm_fractional {table : FlavorTable Float} {value : Value} {record : VmRecord}
    (read : readVm table value = .ok record) : record.Fractional := by
  obtain ⟨described, -, read⟩ := Attempt.bind_ok read
  obtain ⟨sized, -, read⟩ := Attempt.bind_ok read
  obtain ⟨fields, -, converted⟩ := Attempt.bind_ok read
  exact VmRecord.ofFields_fractional (Payload.Checked.orFault_ok converted)

/-- What the two parts of an inventory describe. -/
structure Described (table : FlavorTable Float) (hosts vms : Value)
    (entries : List (PowerCurve Float × HostRecord)) (records : List VmRecord) : Prop where
  hosts : ∃ items, hosts.iterate = .ok items ∧ items.mapM readHost = .ok entries
  vms : ∃ items, vms.iterate = .ok items ∧ items.mapM (readVm table) = .ok records

theorem load_eq_ok_iff {table : FlavorTable Float} {hosts vms : Value} {cluster : Cluster Float} :
    load table hosts vms = .ok cluster ↔
      ∃ entries records, Described table hosts vms entries records ∧
        cluster = assemble entries records := by
  constructor
  · intro loaded
    obtain ⟨hostItems, hostsListed, loaded⟩ := Attempt.bind_ok loaded
    obtain ⟨entries, hostsRead, loaded⟩ := Attempt.bind_ok loaded
    obtain ⟨vmItems, vmsListed, loaded⟩ := Attempt.bind_ok loaded
    obtain ⟨records, vmsRead, loaded⟩ := Attempt.bind_ok loaded
    cases loaded
    exact ⟨entries, records, ⟨⟨hostItems, hostsListed, hostsRead⟩, vmItems, vmsListed, vmsRead⟩, rfl⟩
  · rintro ⟨entries, records, ⟨⟨hostItems, hostsListed, hostsRead⟩, vmItems, vmsListed, vmsRead⟩, rfl⟩
    simp [load, hostsListed, hostsRead, vmsListed, vmsRead, bind, Except.bind, pure, Except.pure]

theorem load_fractional {table : FlavorTable Float} {hosts vms : Value} {cluster : Cluster Float}
    (loaded : load table hosts vms = .ok cluster) :
    ∀ vm ∈ cluster.residents, ∀ sample ∈ vm.samples, Scalar.isFraction sample = true := by
  obtain ⟨entries, records, ⟨⟨_, -, hostsRead⟩, _, -, vmsRead⟩, rfl⟩ := load_eq_ok_iff.mp loaded
  intro vm resident
  obtain ⟨serial, record, member, rfl⟩ := exists_record resident
  change record.Fractional
  rcases List.mem_append.mp member with nested | loose
  · obtain ⟨entry, entryMem, inside⟩ := List.mem_flatMap.mp nested
    obtain ⟨value, -, read⟩ := Attempt.mapM_mem hostsRead entry entryMem
    exact readHost_fractional read record inside
  · obtain ⟨value, -, read⟩ := Attempt.mapM_mem vmsRead record loose
    exact readVm_fractional read

theorem load_unread {table : FlavorTable Float} {hosts vms : List Value} {fault : Fault Float}
    (hostsRead : ∀ host ∈ hosts, ∃ entry, readHost host = .ok entry)
    (unread : vms.mapM (readVm table) = .error fault) :
    load table (.list hosts) (.list vms) = .error fault := by
  obtain ⟨entries, read⟩ := Attempt.mapM_ok hostsRead
  change (hosts.mapM readHost >>= fun entries => vms.mapM (readVm table) >>= fun records =>
    pure (assemble entries records)) = _
  rw [read]
  change vms.mapM (readVm table) >>= _ = _
  rw [unread]
  rfl

/-! Filled in RAM sizes -/

theorem withRam_unsized {entry : Entry} (unsized : entry.fields.LacksRam) (table : FlavorTable Float) :
    withRam table entry = (do
      let mips ← statedMips (entry.fields.lookup "mips")
      let cores ← statedCores (entry.fields.lookup "pes")
      let ram ← table.referenceRam? mips cores
      pure { entry with fields := entry.fields.set "ram_mb" (ram.elim .null .decimal) }) := by
  unfold withRam
  rcases unsized with missing | missing <;> rw [missing]

theorem withRam_sized {entry : Entry} (sized : ¬entry.fields.LacksRam) (table : FlavorTable Float) :
    withRam table entry = .ok entry := by
  unfold withRam
  split
  · next missing => exact absurd (.inl missing) sized
  · next missing => exact absurd (.inr missing) sized
  · rfl

theorem misnamed_withRam {table : FlavorTable Float} {entry sized : Entry}
    (filled : withRam table entry = .ok sized) : sized.misnamed = entry.misnamed := by
  by_cases unsized : entry.fields.LacksRam
  · rw [withRam_unsized unsized] at filled
    obtain ⟨mips, -, filled⟩ := Attempt.bind_ok filled
    obtain ⟨cores, -, filled⟩ := Attempt.bind_ok filled
    obtain ⟨ram, -, filled⟩ := Attempt.bind_ok filled
    cases filled
    rfl
  · rw [withRam_sized unsized] at filled
    cases filled
    rfl

end Inventory

end Fleet
