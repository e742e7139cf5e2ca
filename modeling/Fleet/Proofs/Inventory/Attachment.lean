import Fleet.Proofs.Inventory.Residence
import Fleet.Proofs.Service.Runs
import Fleet.Proofs.Unnumbered.Engine

/-! Which host the VMs of an inventory are attached to.

Hosts get the VMs that name them, in the order of the inventory. A VM that names none of the hosts is
left out: the cluster is the one that is loaded without it, and so is every cycle over the cluster.
-/

set_option autoImplicit false

namespace Fleet

open Payload (HostRecord Value VmRecord)

/-! Clusters in the form of inventories -/

def Vm.described (home : Option String) (vm : Vm Float) : VmRecord where
  id := vm.id
  mips := vm.mips
  cores := vm.cores
  ramMb := vm.ramMb
  samples := vm.samples
  migrating := vm.migrating
  home := home

/-- The hosts in order, in the form in which an inventory describes them, each with its VMs and these
with the host they are labelled with. -/
def Cluster.described (cluster : Cluster Float) : List (PowerCurve Float × HostRecord) :=
  cluster.hosts.map fun host => (host.power, {
    id := host.id
    mips := host.mips
    cores := host.cores
    ramMb := host.ramMb
    vms := host.vms.map fun vm => vm.described (cluster.occupancy.home vm.key)
    samples := host.samples
    arriving := host.arriving })

namespace Inventory

variable {entries : List (PowerCurve Float × HostRecord)} {records others : List VmRecord}

/-! Attached VMs -/

def numberedOn (records : List VmRecord) (host : String) : List (VmRecord × Nat) :=
  records.zipIdx.filter (·.1.home == some host)

def attachedVms (records : List VmRecord) (host : String) : List (Vm Float) :=
  (numberedOn records host).map fun (record, serial) => vmOf serial record

def attachedHost (records : List VmRecord) (entry : PowerCurve Float × HostRecord) : Host Float :=
  hostOf entry.1 entry.2 (attachedVms records entry.2.id)

theorem zip_numbered (first : Nat) (records : List VmRecord) :
    (numbered first records).zip records =
      (records.zipIdx first).map fun (record, serial) => (vmOf serial record, record) := by
  induction records generalizing first with
  | nil => rfl
  | cons record rest ih =>
    rw [numbered_cons, List.zip_cons_cons, List.zipIdx_cons, List.map_cons, ih]

theorem map_numberedOn (records : List VmRecord) (host : String) :
    (numberedOn records host).map Prod.fst = records.filter (·.home == some host) := by
  unfold numberedOn
  conv_rhs => rw [← List.zipIdx_map_fst 0 records, List.filter_map]
  rfl

theorem described_attachedVms (records : List VmRecord) (host : String) :
    (attachedVms records host).map (Vm.described (some host)) =
      records.filter (·.home == some host) := by
  rw [← map_numberedOn]
  unfold attachedVms
  rw [List.map_map]
  refine List.map_congr_left fun pair member => ?_
  obtain ⟨record, serial⟩ := pair
  have home : record.home = some host := beq_iff_eq.mp (List.mem_filter.mp member).2
  change ({ record with home := some host } : VmRecord) = record
  rw [← home]

theorem unnumbered_attachedVms (records : List VmRecord) (host : String) :
    (attachedVms records host).map Vm.unnumbered =
      (records.filter (·.home == some host)).map (vmOf 0) := by
  rw [← map_numberedOn]
  unfold attachedVms
  rw [List.map_map, List.map_map]
  rfl

theorem hostsOf_bare (first : Nat) (bare : ∀ entry ∈ entries, entry.2.vms = []) :
    hostsOf first entries = entries.map fun entry => hostOf entry.1 entry.2 [] := by
  induction entries generalizing first with
  | nil => rfl
  | cons entry rest ih =>
    obtain ⟨power, record⟩ := entry
    obtain ⟨here, later⟩ := List.forall_mem_cons.mp bare
    rw [hostsOf, here, ih _ later]
    rfl

theorem nestedVms_bare (bare : ∀ entry ∈ entries, entry.2.vms = []) : nestedVms entries = [] :=
  List.flatMap_eq_nil_iff.mpr bare

theorem attach_bare (entry : PowerCurve Float × HostRecord) (records : List VmRecord) :
    attach (hostOf entry.1 entry.2 []) ((numbered 0 records).zip records) =
      attachedHost records entry := by
  unfold attach attachedHost attachedVms numberedOn
  rw [zip_numbered, List.filter_map, List.map_map]
  rfl

section

variable (bare : ∀ entry ∈ entries, entry.2.vms = [])
  (apart : (entries.map (·.2.id)).Nodup)
include bare

theorem assemble_bare (records : List VmRecord) : ∃ labels,
    assemble entries records = Cluster.ofHosts (entries.map (attachedHost records)) labels := by
  refine ⟨fun key => records[key.2]?.bind (·.home), ?_⟩
  unfold assemble
  rw [nestedVms_bare bare, hostsOf_bare 0 bare]
  dsimp only [List.length_nil, List.nil_append]
  rw [List.map_map]
  congr 1
  exact List.map_congr_left fun entry _ => attach_bare entry records

include apart

theorem hosts_assemble_bare (records : List VmRecord) :
    (assemble entries records).hosts = entries.map (attachedHost records) := by
  obtain ⟨labels, built⟩ := assemble_bare bare records
  have distinct : ((entries.map (attachedHost records)).map (·.id)).Nodup := by
    rwa [List.map_map]
  rw [built, Cluster.hosts_ofHosts, Keyed.ofList_eq_self distinct]

omit bare in
theorem nodup_keys (records : List VmRecord) :
    (((entries.map (attachedHost records)).flatMap (·.vms)).map Vm.key).Nodup := by
  let numbers := (entries.map (·.2.id)).flatMap (numberedOn records)
  have vms : (entries.map (attachedHost records)).flatMap (·.vms) =
      numbers.map fun (record, serial) => vmOf serial record := by
    simp only [numbers, List.flatMap_map, List.map_flatMap]
    rfl
  have serials : (records.zipIdx.map Prod.snd).Nodup := by
    rw [List.zipIdx_map_snd]
    exact List.nodup_range'
  -- a VM names one host, so no number is there twice
  have once : numbers.Nodup := Keyed.nodup_selected serials.of_map apart fun pair => pair.1.home
  have inside : ∀ pair ∈ numbers, pair ∈ records.zipIdx := by
    intro pair member
    obtain ⟨host, -, here⟩ := List.mem_flatMap.mp member
    exact List.mem_of_mem_filter here
  have different : (numbers.map Prod.snd).Nodup :=
    once.map_on fun first firstMem second secondMem same =>
      List.inj_on_of_nodup_map serials (inside first firstMem) (inside second secondMem) same
  rw [vms, List.map_map]
  refine .of_map Prod.snd ?_
  rwa [List.map_map]

theorem home_assemble_bare (records : List VmRecord) {entry : PowerCurve Float × HostRecord}
    (member : entry ∈ entries) {vm : Vm Float} (attached : vm ∈ attachedVms records entry.2.id) :
    (assemble entries records).occupancy.home vm.key = some entry.2.id := by
  obtain ⟨labels, built⟩ := assemble_bare bare records
  rw [built]
  exact Cluster.home_labelled _ (nodup_keys apart records)
    (List.mem_map_of_mem (f := attachedHost records) member) attached

def attachedRecord (records : List VmRecord) (entry : PowerCurve Float × HostRecord) :
    PowerCurve Float × HostRecord :=
  (entry.1, { entry.2 with vms := records.filter (·.home == some entry.2.id) })

theorem described_assemble_bare (records : List VmRecord) :
    (assemble entries records).described = entries.map (attachedRecord records) := by
  unfold Cluster.described
  rw [hosts_assemble_bare bare apart, List.map_map]
  refine List.map_congr_left fun entry member => ?_
  have vms : (attachedVms records entry.2.id).map
      (fun vm => vm.described ((assemble entries records).occupancy.home vm.key)) =
      records.filter (·.home == some entry.2.id) := by
    rw [← described_attachedVms]
    exact List.map_congr_left fun vm attached => by
      rw [home_assemble_bare bare apart records member attached]
  unfold attachedRecord
  rw [← vms]
  rfl

theorem residents_assemble_bare (records : List VmRecord) (id : String) :
    (assemble entries records).occupancy.residents id =
      ((entries.find? (·.2.id == id)).map fun entry => attachedVms records entry.2.id).getD [] := by
  obtain ⟨labels, built⟩ := assemble_bare bare records
  have distinct : ((entries.map (attachedHost records)).map (·.id)).Nodup := by
    rwa [List.map_map]
  rw [built]
  unfold Cluster.ofHosts
  dsimp only
  rw [Cluster.residents_labelled, Keyed.ofList_eq_self distinct]
  dsimp only
  rw [List.find?_map, Option.map_map]
  rfl

theorem assemble_unnumbered (same : ∀ entry ∈ entries,
      others.filter (·.home == some entry.2.id) = records.filter (·.home == some entry.2.id)) :
    (assemble entries others).Unnumbered (assemble entries records).unnumbered where
  machines := by
    change (assemble entries records).machines = (assemble entries others).machines
    rw [← Cluster.machines_hosts, ← Cluster.machines_hosts, hosts_assemble_bare bare apart,
      hosts_assemble_bare bare apart, List.map_map, List.map_map]
    rfl
  residents id := by
    change ((assemble entries records).occupancy.residents id).map Vm.unnumbered = _
    rw [residents_assemble_bare bare apart, residents_assemble_bare bare apart]
    cases found : entries.find? (·.2.id == id) with
    | none => rfl
    | some entry =>
      simp only [Option.map_some, Option.getD_some, unnumbered_attachedVms,
        same entry (List.mem_of_find?_eq_some found)]

end

/-! VMs that name no host -/

variable {table : FlavorTable Float} {hosts : List String} {items otherItems : List Value}

def isAttached (hosts : List String) (record : VmRecord) : Bool :=
  record.home.any (hosts.contains ·)

/-- The VM can be read and names none of the hosts. -/
def isStray (table : FlavorTable Float) (hosts : List String) (value : Value) : Bool :=
  (readVm table value).toOption.any (!isAttached hosts ·)

/-- The two lists are the same but for VMs that name none of the hosts. -/
def SameButStrays (table : FlavorTable Float) (hosts : List String) (items others : List Value) : Prop :=
  others.filter (!isStray table hosts ·) = items.filter (!isStray table hosts ·)

theorem isAttached_of_read {value : Value} {record : VmRecord} (read : readVm table value = .ok record) :
    isAttached hosts record = !isStray table hosts value := by
  simp [isStray, read, Except.toOption]

theorem SameButStrays.read (same : SameButStrays table hosts items otherItems)
    (read : items.mapM (readVm table) = .ok records) :
    ∃ others, otherItems.mapM (readVm table) = .ok others ∧
      others.filter (isAttached hosts) = records.filter (isAttached hosts) := by
  have agree (value : Value) (record : VmRecord) (read : readVm table value = .ok record) :
      isAttached hosts record = !isStray table hosts value := isAttached_of_read read
  have kept := Attempt.mapM_filter agree read
  -- a stray can be read by definition, and all else is in the list that was read
  have each : ∀ value ∈ otherItems, ∃ record, readVm table value = .ok record := by
    intro value member
    cases stray : isStray table hosts value with
    | true =>
      obtain ⟨record, known, -⟩ := (Option.any_eq_true _ _).mp stray
      exact ⟨record, Attempt.ok_of_toOption known⟩
    | false =>
      have inside : value ∈ items.filter (!isStray table hosts ·) :=
        same ▸ List.mem_filter.mpr ⟨member, by simp [stray]⟩
      exact Attempt.mapM_each kept value inside
  obtain ⟨others, readOther⟩ := Attempt.mapM_ok each
  refine ⟨others, readOther, ?_⟩
  have keptOther := Attempt.mapM_filter agree readOther
  rw [same, kept] at keptOther
  exact (Except.ok.inj keptOther).symm

theorem filter_attached {host : String} (known : host ∈ hosts) (records : List VmRecord) :
    (records.filter (isAttached hosts)).filter (·.home == some host) =
      records.filter (·.home == some host) := by
  rw [List.filter_filter]
  refine List.filter_congr fun record _ => ?_
  cases home : record.home == some host with
  | false => rfl
  | true => simp [isAttached, beq_iff_eq.mp home, known]

/-- A VM that names no host is on none of the hosts. -/
theorem notMem_residents (bare : ∀ entry ∈ entries, entry.2.vms = [])
    (apart : (entries.map (·.2.id)).Nodup) (distinct : (records.map (·.id)).Nodup)
    {record : VmRecord} (member : record ∈ records)
    (stray : isAttached (entries.map (·.2.id)) record = false) :
    record.id ∉ (assemble entries records).residents.map (·.id) := by
  rw [ids_residents]
  unfold residentIds idsOn
  rw [Keyed.ofList_eq_self apart]
  intro present
  obtain ⟨entry, entryMem, present⟩ := List.mem_flatMap.mp present
  rw [bare entry entryMem, List.map_nil, List.nil_append] at present
  obtain ⟨other, otherMem, same⟩ := List.mem_map.mp present
  obtain ⟨inside, home⟩ := List.mem_filter.mp otherMem
  -- ids are different, so the VM found is the one that names no host
  obtain rfl := List.inj_on_of_nodup_map distinct inside member same
  have known : entry.2.id ∈ entries.map (·.2.id) := List.mem_map_of_mem entryMem
  simp [isAttached, beq_iff_eq.mp home, known] at stray

end Inventory

namespace Service

theorem runCycle_congr {hosts vms others : Value} {cluster other common : Cluster Float}
    (loaded : Inventory.load table hosts vms = .ok cluster)
    (loadedOther : Inventory.load table hosts others = .ok other) (same : cluster.Unnumbered common)
    (sameOther : other.Unnumbered common) (service : Service) (entropy : Draw.Source)
    (tick : Option Value) :
    service.runCycle entropy hosts others tick = service.runCycle entropy hosts vms tick := by
  unfold runCycle
  dsimp only
  rw [prepare_loaded loaded, prepare_loaded loadedOther, engine_nextTick, engine_nextTick]
  rcases (service.nextTick tick).1.settings.policy table with fault | policy
  · rfl
  · rcases Payload.readTick (service.nextTick tick).2 with fault | time
    · rfl
    · have numberless {cluster : Cluster Float} (same : cluster.Unnumbered common) :
          (service.engine entropy cluster).Unnumbered (service.engine entropy common) :=
        ⟨same, rfl, rfl, rfl, rfl⟩
      obtain ⟨results, reports, worlds⟩ := Plan.Engine.plan_congr
        (policy.advisors_unnumbered Draw.Source.next) (numberless same) (numberless sameOther)
        policy.underload time
      simp only [bind, Except.bind, pure, Except.pure]
      generalize (service.engine entropy cluster).plan _ _ time = planned at results reports worlds ⊢
      generalize (service.engine entropy other).plan _ _ time = plannedOther at results reports worlds ⊢
      obtain ⟨result, after⟩ := planned
      obtain ⟨resultOther, afterOther⟩ := plannedOther
      dsimp only at results reports worlds ⊢
      rw [results, reports, worlds]

end Service

namespace Inventory

/-- In an inventory of different VMs and of different hosts without VMs inside them, each host gets the VMs
that name it, in their order, and they are labelled with it; a VM that names none of the hosts is nowhere.
With more or fewer VMs of this last kind, the cluster is the same, and a cycle ends with the same answer,
the same report and the same records. -/
theorem load_attaches {table : FlavorTable Float} {hosts : Value} {items : List Value}
    {entries : List (PowerCurve Float × HostRecord)} {records : List VmRecord}
    (described : Described table hosts (.list items) entries records)
    (apart : (entries.map (·.2.id)).Nodup) (bare : ∀ entry ∈ entries, entry.2.vms = [])
    (distinct : (records.map (·.id)).Nodup) :
    ∃ cluster, load table hosts (.list items) = .ok cluster ∧
      cluster.described = entries.map (attachedRecord records) ∧
      (∀ record ∈ records, isAttached (entries.map (·.2.id)) record = false →
        record.id ∉ cluster.residents.map (·.id)) ∧
      ∀ others, SameButStrays table (entries.map (·.2.id)) items others →
        ∃ other, load table hosts (.list others) = .ok other ∧
          other.described = cluster.described ∧
          (table = Service.table →
            ∀ (service : Service) (entropy : Draw.Source) (tick : Option Value),
              service.runCycle entropy hosts (.list others) tick =
                service.runCycle entropy hosts (.list items) tick) := by
  have loaded : load table hosts (.list items) = .ok (assemble entries records) :=
    load_eq_ok_iff.mpr ⟨entries, records, described, rfl⟩
  refine ⟨assemble entries records, loaded, described_assemble_bare bare apart records,
    fun record member stray => notMem_residents bare apart distinct member stray,
    fun otherItems same => ?_⟩
  obtain ⟨hostsRead, _, listed, read⟩ := described
  cases listed
  obtain ⟨others, readOther, attached⟩ := same.read read
  have loadedOther : load table hosts (.list otherItems) = .ok (assemble entries others) :=
    load_eq_ok_iff.mpr ⟨entries, others, ⟨hostsRead, _, rfl, readOther⟩, rfl⟩
  have alike : ∀ entry ∈ entries,
      others.filter (·.home == some entry.2.id) = records.filter (·.home == some entry.2.id) := by
    intro entry member
    have known : entry.2.id ∈ entries.map (·.2.id) := List.mem_map_of_mem member
    rw [← filter_attached known, attached, filter_attached known]
  refine ⟨assemble entries others, loadedOther, ?_, ?_⟩
  · rw [described_assemble_bare bare apart, described_assemble_bare bare apart]
    refine List.map_congr_left fun entry member => ?_
    rw [attachedRecord, attachedRecord, alike entry member]
  · rintro rfl service entropy tick
    exact Service.runCycle_congr loaded loadedOther
      (assemble_unnumbered bare apart fun _ _ => rfl) (assemble_unnumbered bare apart alike)
      service entropy tick

/-- One VM names the first host and one the second; a VM that names a third host is exchanged for one
that names none. -/
theorem load_attaches_exchanged :
    let vm (id : String) (home : List (String × Value)) : Value :=
      .object (home ++ [("vm_id", .text id), ("mips", .integer 2500), ("pes", .integer 4),
        ("ram_mb", .integer 1024)])
    let host (id : String) : Value :=
      .object [("host_id", .text id), ("mips", .integer 2500), ("pes", .integer 16),
        ("ram_mb", .integer 65536)]
    let hosts : Value := .list [host "a", host "b"]
    let items := [vm "x" [("host_id", .text "b")], vm "y" [("host_id", .text "c")],
      vm "z" [("host_id", .text "a")]]
    let others := [vm "x" [("host_id", .text "b")], vm "z" [("host_id", .text "a")], vm "w" []]
    ∃ entries records, Described Service.table hosts (.list items) entries records ∧
      (entries.map (·.2.id)).Nodup ∧ (∀ entry ∈ entries, entry.2.vms = []) ∧
      (records.map (·.id)).Nodup ∧
      SameButStrays Service.table (entries.map (·.2.id)) items others ∧
      ∃ cluster, load Service.table hosts (.list items) = .ok cluster ∧
        cluster.described.map (fun entry => (entry.2.id, entry.2.vms.map (·.id))) =
          [("a", ["z"]), ("b", ["x"])] ∧
        ∃ other, load Service.table hosts (.list others) = .ok other ∧
          other.described = cluster.described ∧
          ∀ (service : Service) (entropy : Draw.Source) (tick : Option Value),
            service.runCycle entropy hosts (.list others) tick =
              service.runCycle entropy hosts (.list items) tick := by
  intro vm host hosts items others
  have read : Described Service.table hosts (.list items)
      [(PowerCurve.xeonE5 Float, ⟨"a", 2500.0, 16, 65536.0, [], [], []⟩),
        (PowerCurve.xeonE5 Float, ⟨"b", 2500.0, 16, 65536.0, [], [], []⟩)]
      [⟨"x", 2500.0, 4, 1024.0, [], false, some "b"⟩, ⟨"y", 2500.0, 4, 1024.0, [], false, some "c"⟩,
        ⟨"z", 2500.0, 4, 1024.0, [], false, some "a"⟩] :=
    ⟨⟨_, rfl, rfl⟩, _, rfl, rfl⟩
  have apart : (["a", "b"] : List String).Nodup := by decide
  have distinct : (["x", "y", "z"] : List String).Nodup := by decide
  have same : SameButStrays Service.table ["a", "b"] items others := rfl
  obtain ⟨cluster, loaded, attached, -, exchanged⟩ := load_attaches read apart (by simp) distinct
  obtain ⟨other, loadedOther, unchanged, cycles⟩ := exchanged others same
  refine ⟨_, _, read, apart, by simp, distinct, same, cluster, loaded, ?_, other, loadedOther,
    unchanged, cycles rfl⟩
  rw [attached]
  decide

end Inventory

end Fleet
