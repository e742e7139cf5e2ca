import Fleet.Proofs.Flavor.Resolution
import Fleet.Proofs.Inventory

/-! The RAM size of a VM that is described without one.

The size is looked up by the speed and the cores as they are stated, and the VM is built from what they
are converted to. Both name the same shape wherever the stated ones can be calculated with; where they
cannot, loading breaks off before anything is validated.
-/

set_option autoImplicit false

namespace Fleet

/-! Stated and converted numbers -/

namespace Number

theorem equalsInt_unique {x : Float} {first second : Int} (isFirst : equalsInt x first = true)
    (isSecond : equalsInt x second = true) : first = second := by
  unfold equalsInt at isFirst isSecond
  cases unpacked : x.toModel.unpack with
  | zero =>
    rw [unpacked] at isFirst isSecond
    exact (beq_iff_eq.mp isFirst).trans (beq_iff_eq.mp isSecond).symm
  | finite sign mantissa exponent =>
    rw [unpacked] at isFirst isSecond
    dsimp only at isFirst isSecond
    by_cases whole : 0 ≤ exponent
    · rw [if_pos whole, beq_iff_eq] at isFirst isSecond
      exact isFirst.symm.trans isSecond
    · rw [if_neg whole, beq_iff_eq] at isFirst isSecond
      have positive : (power 2 (-exponent) : Int) ≠ 0 :=
        Int.natCast_ne_zero.mpr (power_pos Nat.two_pos _).ne'
      exact Int.eq_of_mul_eq_mul_right positive (isFirst.symm.trans isSecond)
  | _ =>
    rw [unpacked] at isFirst
    cases isFirst

end Number

open Payload (Fields Value VmRecord)

theorem Payload.Value.equalsInt_of_wholeDecimal {value : Float} {whole : Int}
    (converted : Value.wholeDecimal value = .good whole) (other : Int) :
    Number.equalsInt value other = (whole == other) := by
  unfold Value.wholeDecimal at converted
  split at converted
  · cases converted
  · split at converted
    · cases converted
    · next exact =>
      split at converted
      · cases converted
        rw [Bool.not_eq_true, Bool.not_eq_false'] at exact
        by_cases same : Number.equalsInt value other = true
        · simp [same, Number.equalsInt_unique exact same]
        · have apart : whole ≠ other := by
            rintro rfl
            exact same exact
          simp [Bool.not_eq_true _ ▸ same, apart]
      · cases converted

/-! Fields with one of them set -/

namespace Payload.Fields

variable {Result : Type} {name other : String}

theorem lookup_set_self (fields : Fields) (name : String) (value : Value) :
    (fields.set name value).lookup name = some value := by
  unfold set
  split
  · next present =>
    induction fields with
    | nil => cases present
    | cons field rest ih =>
      by_cases here : field.1 = name
      · simp [here]
      · have apart : (name == field.1) = false := beq_eq_false_iff_ne.mpr (Ne.symm here)
        rw [List.lookup_cons, apart] at present
        rw [List.map_cons, if_neg here, List.lookup_cons, apart]
        exact ih present
  · next absent =>
    rw [List.lookup_append, Option.not_isSome_iff_eq_none.mp absent]
    simp

theorem lookup_set_of_ne (fields : Fields) (apart : other ≠ name) (value : Value) :
    (fields.set name value).lookup other = fields.lookup other := by
  have skipped : (other == name) = false := beq_eq_false_iff_ne.mpr apart
  unfold set
  split
  · clear * - skipped
    induction fields with
    | nil => rfl
    | cons field rest ih =>
      obtain ⟨label, content⟩ := field
      rw [List.map_cons]
      split
      · next here =>
        obtain rfl : label = name := here
        rw [List.lookup_cons, List.lookup_cons, skipped]
        exact ih
      · rw [List.lookup_cons, List.lookup_cons, ih]
  · rw [List.lookup_append, List.lookup_cons, skipped, List.lookup_nil, Option.or_none]

theorem required_set_of_ne (fields : Fields) (apart : other ≠ name) (value : Value)
    (convert : Value → Checked Result) :
    (fields.set name value).required other convert = fields.required other convert := by
  unfold required
  rw [lookup_set_of_ne fields apart]

theorem optional_set_of_ne (fields : Fields) (apart : other ≠ name) (value : Value)
    (standard : Result) (convert : Value → Checked Result) :
    (fields.set name value).optional other standard convert =
      fields.optional other standard convert := by
  unfold optional
  rw [lookup_set_of_ne fields apart]

theorem required_set_self (fields : Fields) (name : String) (value : Value)
    (convert : Value → Checked Result) :
    (fields.set name value).required name convert = (convert value).within name := by
  unfold required
  rw [lookup_set_self]

end Payload.Fields

/-! Shapes that agree with the same flavors -/

namespace FlavorTable

variable {α : Type} [Scalar α] {table : FlavorTable α} {mips : α} {cores other : CoreCount α}
  {fault : Fault α} {ram : Option α}

def ramOf? (table : FlavorTable α) (shape : Shape α) : Option α :=
  (table.flavors.find? (·.agreesWith shape.mips (.whole shape.cores))).bind (·.ramMb)

/-- The distance from a flavor lies beyond all numbers, and neither that flavor nor one before it
agrees. -/
def BreaksOff (table : FlavorTable α) (mips : α) (cores : CoreCount α) (fault : Fault α) : Prop :=
  ∃ scored flavor after, table.flavors = scored.map Prod.fst ++ flavor :: after ∧
    Passed mips cores scored ∧ flavor.agreesWith mips cores = false ∧
    flavor.distance mips cores = .error fault

theorem classify_eq_error_iff :
    table.classify mips cores = .error fault ↔ table.BreaksOff mips cores fault := by
  constructor
  · intro failed
    have concludes := table.classify_concludes mips cores
    rw [failed] at concludes
    cases concludes with
    | failed split passed disagrees told => exact ⟨_, _, _, split, passed, disagrees, told⟩
  · rintro ⟨scored, flavor, after, split, passed, disagrees, told⟩
    unfold classify
    rw [split, scan_passed passed]
    unfold scan
    rw [if_neg (by simp [disagrees]), told]

theorem referenceRam?_eq_error_iff :
    table.referenceRam? mips cores = .error fault ↔ table.BreaksOff mips cores fault := by
  rw [← classify_eq_error_iff]
  unfold referenceRam?
  rcases table.classify mips cores with failure | flavor | nearest <;>
    simp [bind, Except.bind, pure, Except.pure]

theorem Passed.find? {scored : List (Flavor α × α)} (passed : Passed mips cores scored) :
    (scored.map Prod.fst).find? (·.agreesWith mips cores) = none := by
  rw [List.find?_eq_none]
  exact List.forall_mem_map.mpr fun entry member => by simp [(passed entry member).1]

theorem referenceRam?_ok (told : table.referenceRam? mips cores = .ok ram) :
    ram = (table.flavors.find? (·.agreesWith mips cores)).bind (·.ramMb) := by
  obtain ⟨resolution, scanned, told⟩ := Attempt.bind_ok told
  have concludes := table.classify_concludes mips cores
  rw [scanned] at concludes
  cases concludes with
  | found split passed agrees =>
    cases told
    simp [split, passed.find?, agrees]
  | exhausted split passed =>
    cases told
    rw [split, passed.find?]
    rfl

theorem kind_distance {flavor : Flavor α} (failed : flavor.distance mips cores = .error fault) :
    fault.kind = .overflow := by
  rcases Attempt.bind_eq_error_iff.mp failed with failed | ⟨gap, -, failed⟩
  · unfold CoreCount.squaredGap at failed
    split at failed <;> split at failed
    · cases failed
    · cases failed
      rfl
    · cases failed
      rfl
    · split at failed <;> cases failed
      rfl
  · cases failed

theorem agreesWith_congr (same : ∀ count, cores.isCount count = other.isCount count) (flavor : Flavor α)
    (mips : α) : flavor.agreesWith mips cores = flavor.agreesWith mips other := by
  unfold Flavor.agreesWith
  rw [same]

end FlavorTable

namespace Inventory

variable {table : FlavorTable Float} {fields : Fields} {fault : Fault Float} {mips shown : Float}
  {cores : Int} {given : CoreCount Float} {stated : Option Value} {ram : Option Float}

/-! Stated shapes against converted ones -/

/-- The speed and the cores are in a form that is accepted; one core is meant where none are given. -/
def Converts (fields : Fields) (mips : Float) (cores : Int) : Prop :=
  fields.required "mips" Value.toNumber = .good mips ∧
    fields.optional "pes" 1 Value.toInteger = .good cores

theorem statedMips_converted (read : statedMips (fields.lookup "mips") = .ok shown)
    (converted : fields.required "mips" Value.toNumber = .good mips) : shown = mips := by
  replace converted := Payload.Checked.within_good converted
  cases found : fields.lookup "mips" with
  | none => simp [found, Payload.Checked.fail] at converted
  | some value =>
    rw [found] at read converted
    cases value with
    | integer number =>
      change (Number.ofInt? number).elim _ _ = _ at read
      change (Number.ofInt? number).elim _ _ = _ at converted
      cases near : Number.ofInt? number with
      | none => simp [near] at read
      | some nearest =>
        rw [near] at read converted
        cases read
        cases converted
        rfl
    | decimal _ | boolean _ =>
      cases read
      cases converted
      rfl
    | null | text _ | list _ | object _ => cases read

theorem statedCores_converted (read : statedCores (fields.lookup "pes") = .ok given)
    (converted : fields.optional "pes" 1 Value.toInteger = .good cores) (count : Int) :
    given.isCount count = (CoreCount.whole cores : CoreCount Float).isCount count := by
  unfold Payload.Fields.optional at converted
  cases found : fields.lookup "pes" with
  | none =>
    rw [found] at read converted
    cases read
    cases converted
    rfl
  | some value =>
    rw [found] at read converted
    replace converted := Payload.Checked.within_good converted
    cases value with
    | integer _ | boolean _ =>
      cases read
      cases converted
      rfl
    | decimal number =>
      cases read
      exact Value.equalsInt_of_wholeDecimal converted count
    | null | text _ | list _ | object _ => cases read

theorem statedMips_eq_error_iff :
    statedMips stated = .error fault ↔
      (∃ value, stated = some value ∧ ¬value.IsNumber ∧ fault = .wrongType) ∨
      ∃ number, stated = some (.integer number) ∧ Number.ofInt? number = none ∧
        fault = .integerTooLarge := by
  cases stated with
  | none => simp [statedMips]
  | some value =>
    cases value with
    | integer number =>
      cases near : Number.ofInt? number <;> simp [statedMips, near, Value.IsNumber, eq_comm]
    | _ => simp [statedMips, Value.IsNumber, eq_comm]

theorem statedCores_eq_error_iff :
    statedCores stated = .error fault ↔
      ∃ value, stated = some value ∧ ¬value.IsNumber ∧ fault = .wrongType := by
  cases stated with
  | none => simp [statedCores]
  | some value => cases value <;> simp [statedCores, Value.IsNumber, eq_comm]

/-! What is filled in -/

def statedRam (table : FlavorTable Float) (fields : Fields) : Except (Fault Float) (Option Float) := do
  let mips ← statedMips (fields.lookup "mips")
  let cores ← statedCores (fields.lookup "pes")
  table.referenceRam? mips cores

/-- What ends loading before the VM is validated: a speed or a number of cores that is no number, a
speed beyond all numbers, or a gap between the cores beyond all numbers. -/
inductive Unread (table : FlavorTable Float) (fields : Fields) : Fault Float → Prop
  | speed {value : Value} : fields.lookup "mips" = some value → ¬value.IsNumber →
      Unread table fields .wrongType
  | largeSpeed {number : Int} : fields.lookup "mips" = some (.integer number) →
      Number.ofInt? number = none → Unread table fields .integerTooLarge
  | cores {mips : Float} {value : Value} : statedMips (fields.lookup "mips") = .ok mips →
      fields.lookup "pes" = some value → ¬value.IsNumber → Unread table fields .wrongType
  | gap {mips : Float} {cores : CoreCount Float} {fault : Fault Float} :
      statedMips (fields.lookup "mips") = .ok mips →
      statedCores (fields.lookup "pes") = .ok cores → table.BreaksOff mips cores fault →
      Unread table fields fault

theorem statedRam_eq_error_iff : statedRam table fields = .error fault ↔ Unread table fields fault := by
  unfold statedRam
  simp only [Attempt.bind_eq_error_iff, statedMips_eq_error_iff, statedCores_eq_error_iff,
    FlavorTable.referenceRam?_eq_error_iff]
  constructor
  · rintro ((⟨value, found, none, rfl⟩ | ⟨number, found, large, rfl⟩) |
      ⟨mips, speed, ⟨value, found, none, rfl⟩ | ⟨cores, count, breaks⟩⟩)
    · exact .speed found none
    · exact .largeSpeed found large
    · exact .cores speed found none
    · exact .gap speed count breaks
  · intro unread
    cases unread with
    | speed found none => exact .inl (.inl ⟨_, found, none, rfl⟩)
    | largeSpeed found large => exact .inl (.inr ⟨_, found, large, rfl⟩)
    | cores speed found none => exact .inr ⟨_, speed, .inl ⟨_, found, none, rfl⟩⟩
    | gap speed count breaks => exact .inr ⟨_, speed, .inr ⟨_, count, breaks⟩⟩

theorem statedRam_converted (filled : statedRam table fields = .ok ram)
    (converts : Converts fields mips cores) : ram = table.ramOf? ⟨mips, cores⟩ := by
  obtain ⟨shown, speed, filled⟩ := Attempt.bind_ok filled
  obtain ⟨given, count, told⟩ := Attempt.bind_ok filled
  obtain rfl := statedMips_converted speed converts.1
  have agree := FlavorTable.agreesWith_congr (statedCores_converted count converts.2)
  simp only [FlavorTable.referenceRam?_ok told, FlavorTable.ramOf?, agree]

theorem readVm_unsized (lacks : fields.LacksRam) (table : FlavorTable Float) :
    readVm table (.object fields) =
      statedRam table fields >>= fun ram =>
        VmRecord.read (fields.set "ram_mb" (ram.elim .null .decimal)) := by
  change withRam table { fields } >>= _ = _
  rw [withRam_unsized lacks]
  unfold statedRam
  simp only [bind_assoc, pure_bind]
  rfl

variable {record : VmRecord}

theorem converts_of_read {value : Value} (read : VmRecord.read (fields.set "ram_mb" value) = .ok record) :
    Converts fields record.mips record.cores ∧ value.toNumber = .good record.ramMb := by
  have converted := VmRecord.ofFields_converted (Payload.Checked.orFault_ok read)
  have speed := converted.mips
  have count := converted.cores
  have size := converted.ramMb
  rw [Payload.Fields.required_set_of_ne _ (by decide)] at speed
  rw [Payload.Fields.optional_set_of_ne _ (by decide)] at count
  rw [Payload.Fields.required_set_self] at size
  exact ⟨⟨speed, count⟩, Payload.Checked.within_good size⟩

theorem read_cases (fields : Fields) :
    (∃ record, VmRecord.read fields = .ok record) ∨
      ∃ issues, VmRecord.read fields = .error (.invalid "VM" issues) := by
  unfold VmRecord.read
  cases VmRecord.ofFields fields with
  | good record => exact .inl ⟨record, rfl⟩
  | bad issues => exact .inr ⟨issues, rfl⟩

/-- What should come of a VM without a RAM size: it has that of the flavor its converted shape resolves
to, and is invalid if there is none, or no shape. -/
inductive Promised (table : FlavorTable Float) (fields : Fields) :
    Except (Fault Float) VmRecord → Prop
  | sized {mips ram : Float} {cores : Int} : Converts fields mips cores →
      table.ramOf? ⟨mips, cores⟩ = some ram →
      Promised table fields (VmRecord.read (fields.set "ram_mb" (.decimal ram)))
  | unsized {mips : Float} {cores : Int} {issues : List Payload.Issue} :
      Converts fields mips cores → table.ramOf? ⟨mips, cores⟩ = none →
      Promised table fields (.error (.invalid "VM" issues))
  | unconverted {issues : List Payload.Issue} : (∀ mips cores, ¬Converts fields mips cores) →
      Promised table fields (.error (.invalid "VM" issues))

theorem promised_of_filled (lacks : fields.LacksRam) (filled : statedRam table fields = .ok ram) :
    Promised table fields (readVm table (.object fields)) := by
  rw [readVm_unsized lacks, filled]
  change Promised table fields (VmRecord.read _)
  by_cases converts : ∃ mips cores, Converts fields mips cores
  · obtain ⟨mips, cores, converts⟩ := converts
    have size := statedRam_converted filled converts
    cases ram with
    | some ram => exact .sized converts size.symm
    | none =>
      rcases read_cases (fields.set "ram_mb" .null) with ⟨record, read⟩ | ⟨issues, invalid⟩
      · cases (converts_of_read read).2
      · exact invalid ▸ .unsized converts size.symm
  · rcases read_cases (fields.set "ram_mb" (ram.elim .null .decimal)) with
      ⟨record, read⟩ | ⟨issues, invalid⟩
    · exact absurd ⟨_, _, (converts_of_read read).1⟩ converts
    · exact invalid ▸ .unconverted fun mips cores some => converts ⟨mips, cores, some⟩

theorem Promised.invalid_of_error {outcome : Except (Fault Float) VmRecord}
    (promised : Promised table fields outcome) (failed : outcome = .error fault) :
    fault.kind = .validation := by
  cases promised with
  | sized =>
    rcases read_cases (fields.set "ram_mb" _) with ⟨record, read⟩ | ⟨issues, invalid⟩
    · cases read.symm.trans failed
    · cases invalid.symm.trans failed
      rfl
  | unsized | unconverted =>
    cases failed
    rfl

theorem Unread.kind (unread : Unread table fields fault) :
    fault.kind = .type ∨ fault.kind = .overflow := by
  cases unread with
  | speed | cores => exact .inl rfl
  | largeSpeed => exact .inr rfl
  | gap _ _ breaks =>
    obtain ⟨_, _, _, _, _, _, told⟩ := breaks
    exact .inr (FlavorTable.kind_distance told)

theorem readVm_unread (lacks : fields.LacksRam) (unread : Unread table fields fault) :
    readVm table (.object fields) = .error fault := by
  rw [readVm_unsized lacks, statedRam_eq_error_iff.mpr unread]
  rfl

theorem readVm_sized (lacks : fields.LacksRam) (read : readVm table (.object fields) = .ok record) :
    Converts fields record.mips record.cores ∧
      table.ramOf? ⟨record.mips, record.cores⟩ = some record.ramMb := by
  rw [readVm_unsized lacks] at read
  obtain ⟨ram, filled, read⟩ := Attempt.bind_ok read
  obtain ⟨converts, size⟩ := converts_of_read read
  refine ⟨converts, (statedRam_converted filled converts).symm.trans ?_⟩
  cases ram <;> cases size
  rfl

theorem load_next {hosts value : Value} {earlier later : List Value} {records : List VmRecord}
    {entries : List (PowerCurve Float × Payload.HostRecord)}
    (described : Described table hosts (.list earlier) entries records) :
    load table hosts (.list (earlier ++ value :: later)) =
      readVm table value >>= fun record => later.mapM (readVm table) >>= fun rest =>
        pure (assemble entries (records ++ record :: rest)) := by
  obtain ⟨⟨hostItems, hostsListed, hostsRead⟩, items, listed, read⟩ := described
  cases listed
  change hosts.iterate >>= (fun items => items.mapM readHost >>= fun entries =>
    (earlier ++ value :: later).mapM (readVm table) >>= fun records => pure (assemble entries records)) = _
  rw [hostsListed]
  change hostItems.mapM readHost >>= _ = _
  rw [hostsRead, List.mapM_append, List.mapM_cons, read]
  change (readVm table value >>= _) >>= _ >>= _ = _
  simp only [bind_assoc, pure_bind]

/-- A VM without a RAM size gets what its converted shape calls for, or is invalid, exactly if the stated
shape can be calculated with. Otherwise loading ends in a fault of another kind. -/
theorem ram_of_converted_iff (table : FlavorTable Float) {fields : Fields} (lacks : fields.LacksRam) :
    (Promised table fields (readVm table (.object fields)) ↔ ∀ fault, ¬Unread table fields fault) ∧
    (∀ fault, Unread table fields fault → readVm table (.object fields) = .error fault ∧
      (fault.kind = .type ∨ fault.kind = .overflow)) ∧
    (∀ record, readVm table (.object fields) = .ok record →
      Converts fields record.mips record.cores ∧
        table.ramOf? ⟨record.mips, record.cores⟩ = some record.ramMb) ∧
    ∀ hosts earlier later entries records, Described table hosts (.list earlier) entries records →
      load table hosts (.list (earlier ++ .object fields :: later)) =
        readVm table (.object fields) >>= fun record => later.mapM (readVm table) >>= fun rest =>
          pure (assemble entries (records ++ record :: rest)) := by
  refine ⟨⟨fun promised fault unread => ?_, fun calculable => ?_⟩,
    fun fault unread => ⟨readVm_unread lacks unread, unread.kind⟩,
    fun record => readVm_sized lacks, fun _ _ _ _ _ => load_next⟩
  · have invalid := promised.invalid_of_error (readVm_unread lacks unread)
    rcases unread.kind with other | other <;> simp [other] at invalid
  · cases filled : statedRam table fields with
    | ok ram => exact promised_of_filled lacks filled
    | error fault => exact absurd (statedRam_eq_error_iff.mp filled) (calculable fault)

/-- A speed given as a text is accepted as the speed of a flavor with a RAM size, but it cannot be looked
up. -/
theorem ram_of_converted_iff_text :
    let fields : Fields := [("vm_id", .text "v"), ("mips", .text "2500"), ("pes", .integer 4),
      ("host_id", .text "h")]
    fields.LacksRam ∧
      (Promised .reference fields (readVm .reference (.object fields)) ↔
        ∀ fault, ¬Unread .reference fields fault) ∧
      (readVm .reference (.object fields) = .error .wrongType) ∧
      Converts fields 2500.0 4 ∧
      FlavorTable.ramOf? .reference ⟨(2500.0 : Float), 4⟩ = some 32768.0 := by
  intro fields
  have lacks : fields.LacksRam := .inl rfl
  obtain ⟨promised, unread, -⟩ := ram_of_converted_iff .reference lacks
  have characters : Text.hasHalf "2500" = false := by decide +kernel
  have written : Number.readDecimal? "2500" = some 2500.0 := by decide +kernel
  have speed : (Value.text "2500").toNumber = .good 2500.0 := by
    simp [Value.toNumber, Value.readText, characters, written]
  have converts : Converts fields 2500.0 4 := ⟨congrArg (Payload.Checked.within "mips") speed, rfl⟩
  exact ⟨lacks, promised, (unread .wrongType (.speed rfl id)).1, converts, by decide +kernel⟩

end Inventory

end Fleet
