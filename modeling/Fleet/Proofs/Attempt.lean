import Fleet.Sieve

/-! Computations that may fail, taken apart where they have succeeded. -/

set_option autoImplicit false

namespace Fleet.Attempt

variable {Failure Item Result Produced : Type}

theorem bind_ok {value : Except Failure Produced} {next : Produced → Except Failure Result}
    {result : Result} (run : value >>= next = .ok result) :
    ∃ produced, value = .ok produced ∧ next produced = .ok result := by
  cases value with
  | error failure => cases run
  | ok produced => exact ⟨produced, rfl, run⟩

theorem bind_eq_error_iff {value : Except Failure Produced} {next : Produced → Except Failure Result}
    {failure : Failure} :
    value >>= next = .error failure ↔
      value = .error failure ∨ ∃ produced, value = .ok produced ∧ next produced = .error failure := by
  cases value <;> simp [bind, Except.bind]

theorem ok_of_toOption {value : Except Failure Result} {result : Result}
    (known : value.toOption = some result) : value = .ok result := by
  cases value with
  | error failure => cases known
  | ok found => exact congrArg _ (Option.some.inj known)

theorem ok_of_isOk {value : Except Failure Result} (succeeded : value.isOk = true) :
    ∃ result, value = .ok result := by
  cases value with
  | error _ => cases succeeded
  | ok result => exact ⟨result, rfl⟩

theorem error_of_isOk {value : Except Failure Result} (failed : value.isOk = false) :
    ∃ failure, value = .error failure := by
  cases value with
  | error failure => exact ⟨failure, rfl⟩
  | ok _ => cases failed

theorem run_bind {State : Type} (first : ExceptT Failure (StateM State) Produced)
    (next : Produced → ExceptT Failure (StateM State) Result) (state : State) :
    (first >>= next).run.run state =
      match first.run.run state with
      | (.ok produced, later) => (next produced).run.run later
      | (.error failure, later) => (.error failure, later) := by
  simp only [ExceptT.run_bind, StateT.run_bind]
  rcases first.run.run state with ⟨_ | _, _⟩ <;> rfl

theorem mapM_project {read : Item → Except Failure Result} {project : Result → Item}
    (faithful : ∀ item result, read item = .ok result → project result = item) {items : List Item}
    {results : List Result} (run : items.mapM read = .ok results) :
    results.map project = items := by
  induction items generalizing results with
  | nil =>
    cases run
    rfl
  | cons item rest ih =>
    rw [List.mapM_cons] at run
    obtain ⟨result, first, run⟩ := bind_ok run
    obtain ⟨later, others, run⟩ := bind_ok run
    cases run
    rw [List.map_cons, faithful item result first, ih others]

theorem mapM_mem {read : Item → Except Failure Result} {items : List Item} {results : List Result}
    (run : items.mapM read = .ok results) :
    ∀ result ∈ results, ∃ item ∈ items, read item = .ok result := by
  induction items generalizing results with
  | nil =>
    cases run
    exact fun _ absent => absurd absent List.not_mem_nil
  | cons item rest ih =>
    rw [List.mapM_cons] at run
    obtain ⟨result, first, run⟩ := bind_ok run
    obtain ⟨later, others, run⟩ := bind_ok run
    cases run
    refine List.forall_mem_cons.mpr ⟨⟨item, List.mem_cons_self, first⟩, fun other otherMem => ?_⟩
    obtain ⟨source, sourceMem, read⟩ := ih others other otherMem
    exact ⟨source, List.mem_cons_of_mem item sourceMem, read⟩

theorem mapM_each {read : Item → Except Failure Result} {items : List Item} {results : List Result}
    (run : items.mapM read = .ok results) : ∀ item ∈ items, ∃ result, read item = .ok result := by
  induction items generalizing results with
  | nil => exact fun _ absent => absurd absent List.not_mem_nil
  | cons item rest ih =>
    rw [List.mapM_cons] at run
    obtain ⟨result, first, run⟩ := bind_ok run
    obtain ⟨later, others, -⟩ := bind_ok run
    exact List.forall_mem_cons.mpr ⟨⟨result, first⟩, ih others⟩

theorem mapM_ok {read : Item → Except Failure Result} {items : List Item}
    (each : ∀ item ∈ items, ∃ result, read item = .ok result) :
    ∃ results, items.mapM read = .ok results := by
  induction items with
  | nil => exact ⟨[], rfl⟩
  | cons item rest ih =>
    obtain ⟨⟨result, first⟩, others⟩ := List.forall_mem_cons.mp each
    obtain ⟨later, read⟩ := ih others
    exact ⟨result :: later, by rw [List.mapM_cons, first, read]; rfl⟩

/-- Where a result is made of an item and what is read for it, and tells both, the results are those of
the items in order, each with what was read. -/
theorem mapM_made_eq_ok_iff {read : Item → Except Failure Produced}
    {make : Item → Produced → Result} (item : Result → Item) (produced : Result → Produced)
    (made : ∀ first second, item (make first second) = first ∧ produced (make first second) = second)
    (told : ∀ result, make (item result) (produced result) = result) {items : List Item}
    {results : List Result} :
    (items.mapM fun first => do pure (make first (← read first))) = .ok results ↔
      results.map item = items ∧ ∀ result ∈ results, read (item result) = .ok (produced result) := by
  constructor
  · intro run
    have listed : results.map item = items := by
      apply mapM_project _ run
      intro first result known
      obtain ⟨second, -, same⟩ := bind_ok known
      cases same
      exact (made first second).1
    refine ⟨listed, fun result member => ?_⟩
    obtain ⟨first, -, known⟩ := mapM_mem run result member
    obtain ⟨second, there, same⟩ := bind_ok known
    cases same
    rw [(made first second).1, (made first second).2, there]
  · rintro ⟨rfl, known⟩
    induction results with
    | nil => rfl
    | cons result rest ih =>
      obtain ⟨here, later⟩ := List.forall_mem_cons.mp known
      rw [List.map_cons, List.mapM_cons, here, ih later]
      simp [told, bind, Except.bind, pure, Except.pure]

theorem mapM_sublist {read : Item → Except Failure Result} {items others : List Item}
    {results : List Result} (sub : others.Sublist items) (run : items.mapM read = .ok results) :
    ∃ found, others.mapM read = .ok found ∧ found.Sublist results := by
  induction sub generalizing results with
  | slnil => exact ⟨results, run, .refl _⟩
  | cons item _ ih =>
    rw [List.mapM_cons] at run
    obtain ⟨result, -, run⟩ := bind_ok run
    obtain ⟨later, others, run⟩ := bind_ok run
    cases run
    obtain ⟨found, fewer, sub⟩ := ih others
    exact ⟨found, fewer, sub.cons result⟩
  | cons_cons item _ ih =>
    rw [List.mapM_cons] at run
    obtain ⟨result, first, run⟩ := bind_ok run
    obtain ⟨later, others, run⟩ := bind_ok run
    cases run
    obtain ⟨found, fewer, sub⟩ := ih others
    refine ⟨result :: found, ?_, sub.cons_cons result⟩
    rw [List.mapM_cons, first, fewer]
    rfl

theorem map_mapM {Other : Type} (change : Result → Other) (read : Item → Except Failure Result)
    (items : List Item) :
    (items.mapM read).map (List.map change) = items.mapM fun item => (read item).map change := by
  induction items with
  | nil => rfl
  | cons item rest ih =>
    rw [List.mapM_cons, List.mapM_cons, ← ih]
    cases read item with
    | error failure => rfl
    | ok result => cases rest.mapM read <;> rfl

theorem mapM_filter {read : Item → Except Failure Result} {keep : Item → Bool} {kept : Result → Bool}
    (agree : ∀ item result, read item = .ok result → kept result = keep item) {items : List Item}
    {results : List Result} (run : items.mapM read = .ok results) :
    (items.filter keep).mapM read = .ok (results.filter kept) := by
  induction items generalizing results with
  | nil =>
    cases run
    rfl
  | cons item rest ih =>
    rw [List.mapM_cons] at run
    obtain ⟨result, first, run⟩ := bind_ok run
    obtain ⟨later, others, run⟩ := bind_ok run
    cases run
    rw [List.filter_cons, List.filter_cons, agree item result first]
    split
    · rw [List.mapM_cons, first, ih others]
      rfl
    · exact ih others

theorem mapM_map {Other Changed : Type} {other : Item → Other} {read : Item → Except Failure Result}
    {readOther : Other → Except Failure Changed} {change : Result → Changed}
    (same : ∀ item, readOther (other item) = (read item).map change) (items : List Item) :
    (items.map other).mapM readOther = (items.mapM read).map (List.map change) := by
  rw [map_mapM, List.mapM_map]
  exact congrArg (items.mapM ·) (funext same)

theorem sieve_map {Other : Type} {other : Item → Other} {test : Item → Except Failure Bool}
    {testOther : Other → Except Failure Bool} (same : ∀ item, testOther (other item) = test item)
    (items : List Item) : sieve testOther (items.map other) = (sieve test items).map (List.map other) := by
  induction items with
  | nil => rfl
  | cons item rest ih =>
    rw [List.map_cons, sieve, sieve, same, ih]
    rcases test item with failure | passed
    · rfl
    · cases sieve test rest <;> cases passed <;> rfl

/-- Shares that are added up one after the other are read first and then added up. -/
theorem foldlM_add [Add Result] (share : Item → Except Failure Result) (items : List Item)
    (start : Result) :
    (items.foldlM (fun total item => do pure (total + (← share item))) start) =
      (do pure ((← items.mapM share).foldl (· + ·) start)) := by
  induction items generalizing start with
  | nil => rfl
  | cons item rest ih =>
    simp only [List.foldlM_cons, List.mapM_cons, List.foldl_cons, bind_assoc, pure_bind, ih]

theorem mapM_error {read : Item → Except Failure Result} {earlier later : List Item} {item : Item}
    {failure : Failure} (each : ∀ item ∈ earlier, ∃ result, read item = .ok result)
    (failed : read item = .error failure) :
    (earlier ++ item :: later).mapM read = .error failure := by
  obtain ⟨results, before⟩ := mapM_ok each
  rw [List.mapM_append, before, List.mapM_cons, failed]
  rfl

theorem sieve_eq_ok_iff {test : Item → Except Failure Bool} {items passed : List Item} :
    sieve test items = .ok passed ↔
      (∀ item ∈ items, ∃ verdict, test item = .ok verdict) ∧
        passed = items.filter fun item => (test item).toOption.getD false := by
  induction items generalizing passed with
  | nil => simp [pure, Except.pure, eq_comm]
  | cons item rest ih =>
    constructor
    · intro run
      obtain ⟨verdict, tested, run⟩ := bind_ok run
      obtain ⟨others, sieved, run⟩ := bind_ok run
      obtain ⟨each, rfl⟩ := ih.mp sieved
      cases run
      refine ⟨List.forall_mem_cons.mpr ⟨⟨verdict, tested⟩, each⟩, ?_⟩
      cases verdict <;> simp [tested, Except.toOption]
    · rintro ⟨each, rfl⟩
      obtain ⟨⟨verdict, tested⟩, each⟩ := List.forall_mem_cons.mp each
      change test item >>= _ = _
      rw [tested]
      change sieve test rest >>= _ = _
      rw [ih.mpr ⟨each, rfl⟩]
      cases verdict <;> simp [tested, Except.toOption, bind, Except.bind, pure, Except.pure]

theorem sieve_ok {test : Item → Except Failure Bool} {items passed : List Item}
    (run : sieve test items = .ok passed) :
    ∀ item ∈ passed, item ∈ items ∧ test item = .ok true := by
  obtain ⟨each, rfl⟩ := sieve_eq_ok_iff.mp run
  intro item member
  obtain ⟨present, passes⟩ := List.mem_filter.mp member
  obtain ⟨verdict, tested⟩ := each item present
  rw [tested] at passes
  exact ⟨present, tested.trans (congrArg _ passes)⟩

end Fleet.Attempt
