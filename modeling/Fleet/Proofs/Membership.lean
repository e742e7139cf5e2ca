import Fleet.Membership
import Fleet.Proofs.Settled
import Mathlib.Data.List.Flatten

/-! What a list of moves makes of a membership, in closed form.

If no VM moves twice, every host loses the VMs that moved and gains, at the end, those that moved
to it in the order of the moves. No such list of moves is refused, wherever the moves lead to.
-/

set_option autoImplicit false

namespace Fleet.Membership

/-- Rows have different hosts, and no VM occurs twice. -/
structure Orderly (membership : Membership) : Prop where
  hosts : (membership.rows.map (·.1)).Nodup
  vms : (membership.rows.flatMap (·.2)).Nodup

/-- The membership after the moves: the VMs that stayed, and behind them those that came. -/
def moved (membership : Membership) (moves : List Move) : Membership :=
  ⟨membership.rows.map fun row => (row.1,
    row.2.filter (· ∉ moves.map (·.vm)) ++
      (moves.filter (·.destination = row.1)).map (·.vm))⟩

theorem hosts_moved (membership : Membership) (moves : List Move) :
    (membership.moved moves).rows.map (·.1) = membership.rows.map (·.1) := by
  simp [moved]

theorem lookup_cons_of_ne {host : String} {row : String × List String} (different : host ≠ row.1)
    (rest : List (String × List String)) : (row :: rest).lookup host = rest.lookup host := by
  rw [List.lookup_cons, beq_false_of_ne different]

theorem vmsOf_eq {membership : Membership} (hosts : (membership.rows.map (·.1)).Nodup)
    {row : String × List String} (member : row ∈ membership.rows) :
    membership.vmsOf row.1 = row.2 := by
  unfold vmsOf
  generalize membership.rows = rows at member hosts
  induction rows with
  | nil => cases member
  | cons first rest ih =>
    rw [List.map_cons, List.nodup_cons] at hosts
    rcases List.mem_cons.mp member with rfl | later
    · rw [List.lookup_cons_self]
      rfl
    · have different : row.1 ≠ first.1 := fun same =>
        hosts.1 (same ▸ List.mem_map_of_mem later)
      rw [lookup_cons_of_ne different]
      exact ih later hosts.2

theorem mem_vmsOf_iff {membership : Membership} (hosts : (membership.rows.map (·.1)).Nodup)
    {host vm : String} :
    vm ∈ membership.vmsOf host ↔ ∃ row ∈ membership.rows, row.1 = host ∧ vm ∈ row.2 := by
  constructor
  · intro inside
    unfold vmsOf at inside
    cases found : membership.rows.lookup host with
    | none =>
      rw [found] at inside
      cases inside
    | some vms =>
      rw [found] at inside
      obtain ⟨before, after, split, -⟩ := List.lookup_eq_some_iff.mp found
      exact ⟨(host, vms), split ▸ List.mem_append_right _ List.mem_cons_self, rfl, inside⟩
  · rintro ⟨row, member, rfl, inside⟩
    exact (vmsOf_eq hosts member).symm ▸ inside

theorem rows_eq {membership : Membership} (hosts : (membership.rows.map (·.1)).Nodup) :
    membership.rows = (membership.rows.map (·.1)).map fun host => (host, membership.vmsOf host) := by
  rw [List.map_map]
  conv_lhs => rw [← List.map_id membership.rows]
  exact List.map_congr_left fun row member => Prod.ext rfl (vmsOf_eq hosts member).symm

theorem eq_of_vmsOf {first second : Membership} (hosts : (first.rows.map (·.1)).Nodup)
    (same : second.rows.map (·.1) = first.rows.map (·.1))
    (vms : ∀ host ∈ first.rows.map (·.1), second.vmsOf host = first.vmsOf host) :
    second = first := by
  have rows : second.rows = first.rows := by
    rw [rows_eq hosts, rows_eq (same ▸ hosts), same]
    exact List.map_congr_left fun host member => Prod.ext rfl (vms host member)
  exact congrArg Membership.mk rows

/-! One row changed -/

theorem lookup_changed (rows : List (String × List String)) (host other : String)
    (change : List String → List String) :
    (rows.map fun row => if row.1 = host then (row.1, change row.2) else row).lookup other =
      if other = host then (rows.lookup other).map change else rows.lookup other := by
  induction rows with
  | nil => simp
  | cons row rest ih =>
    by_cases asked : other = row.1
    · obtain ⟨_, vms⟩ := row
      subst asked
      by_cases here : other = host <;> simp [here]
    · rw [List.map_cons, lookup_cons_of_ne (by split <;> exact asked), lookup_cons_of_ne asked, ih]

section

variable (membership : Membership) (host vm other : String)

theorem hosts_remove :
    (membership.remove host vm).rows.map (·.1) = membership.rows.map (·.1) := by
  rw [remove, List.map_map]
  refine List.map_congr_left fun row _ => ?_
  by_cases here : row.1 = host <;> simp [here]

theorem vmsOf_remove : (membership.remove host vm).vmsOf other =
    if other = host then (membership.vmsOf other).erase vm else membership.vmsOf other := by
  unfold vmsOf remove
  rw [lookup_changed membership.rows host other (·.erase vm)]
  split
  · cases membership.rows.lookup other <;> rfl
  · rfl

theorem hosts_add : (membership.add host vm).rows.map (·.1) =
    Keyed.put id host (membership.rows.map (·.1)) := by
  have put := Keyed.map_put id host (membership.rows.map (·.1))
  simp only [List.map_id, id_eq] at put
  rw [put]
  unfold add
  by_cases known : host ∈ membership.rows.map (·.1)
  · have present : membership.rows.any (·.1 == host) := by simpa using known
    rw [if_pos present, if_pos known, List.map_map]
    refine List.map_congr_left fun row _ => ?_
    by_cases here : row.1 = host <;> simp [here]
  · have absent : ¬membership.rows.any (·.1 == host) := by simpa using known
    rw [if_neg absent, if_neg known, List.map_append]
    rfl

theorem vmsOf_add : (membership.add host vm).vmsOf other =
    membership.vmsOf other ++ if other = host then [vm] else [] := by
  unfold vmsOf add
  by_cases present : membership.rows.any (·.1 == host)
  · rw [if_pos present, lookup_changed membership.rows host other (· ++ [vm])]
    split
    · next asked =>
      obtain ⟨row, member, same⟩ := List.any_eq_true.mp present
      obtain ⟨vms, found⟩ := Option.isSome_iff_exists.mp
        (List.lookup_isSome_iff.mpr ⟨row, member, BEq.symm same⟩)
      rw [asked, found]
      rfl
    · rw [List.append_nil]
  · rw [if_neg present, List.lookup_append]
    split
    · next asked =>
      have absent : membership.rows.lookup host = none :=
        List.lookup_eq_none_iff.mpr fun row member => bne_iff_ne.mpr fun same =>
          present (List.any_eq_true.mpr ⟨row, member, beq_iff_eq.mpr same.symm⟩)
      rw [asked, absent, List.lookup_cons_self]
      rfl
    · next asked => rw [lookup_cons_of_ne asked, List.lookup_nil, Option.or_none, List.append_nil]

end

/-- What moves make of a membership. New hosts come behind the old ones in the order in which they are
first named. A host keeps the VMs that did not move, in their order, and behind them stand those that
moved to it, in the order of the moves. -/
structure Relocated (before : Membership) (moves : List Move) (after : Membership) : Prop where
  hosts : after.rows.map (·.1) =
    Keyed.ofList id (before.rows.map (·.1) ++ moves.map (·.destination))
  vmsOf : ∀ host, after.vmsOf host =
    (before.vmsOf host).filter (· ∉ moves.map (·.vm)) ++
      (moves.filter (·.destination = host)).map (·.vm)

namespace Orderly

variable {α : Type} {membership : Membership} (orderly : membership.Orderly)
include orderly

theorem hostOf_eq_iff {row : String × List String} (member : row ∈ membership.rows) {vm : String} :
    membership.hostOf vm = some row.1 ↔ vm ∈ row.2 := by
  unfold hostOf
  rw [Option.map_eq_some_iff]
  constructor
  · rintro ⟨found, first, same⟩
    obtain rfl := List.inj_on_of_nodup_map orderly.hosts (List.mem_of_find?_eq_some first) member same
    simpa using List.find?_some first
  · intro inside
    obtain ⟨found, first⟩ : ∃ found, membership.rows.find? (·.2.contains vm) = some found :=
      Option.isSome_iff_exists.mp (List.find?_isSome.mpr ⟨row, member, by simpa using inside⟩)
    have there : vm ∈ found.2 := by simpa using List.find?_some first
    have same := Keyed.part_eq orderly.vms (List.mem_of_find?_eq_some first) member there inside
    exact ⟨found, first, congrArg Prod.fst same⟩

theorem hostOf_eq_some_iff {host vm : String} :
    membership.hostOf vm = some host ↔ vm ∈ membership.vmsOf host := by
  rw [mem_vmsOf_iff orderly.hosts]
  constructor
  · intro found
    obtain ⟨row, first, rfl⟩ := Option.map_eq_some_iff.mp found
    exact ⟨row, List.mem_of_find?_eq_some first, rfl, by simpa using List.find?_some first⟩
  · rintro ⟨row, member, rfl, inside⟩
    exact (orderly.hostOf_eq_iff member).mpr inside

theorem nodup_vmsOf (host : String) : (membership.vmsOf host).Nodup := by
  unfold vmsOf
  cases found : membership.rows.lookup host with
  | none => exact .nil
  | some vms =>
    obtain ⟨before, after, split, -⟩ := List.lookup_eq_some_iff.mp found
    have member : (host, vms) ∈ membership.rows :=
      split ▸ List.mem_append_right _ List.mem_cons_self
    exact (List.nodup_flatMap.mp orderly.vms).1 _ member

theorem vmsOf_moved {moves : List Move} {row : String × List String}
    (member : row ∈ membership.rows) : (membership.moved moves).vmsOf row.1 =
      row.2.filter (· ∉ moves.map (·.vm)) ++
        (moves.filter (·.destination = row.1)).map (·.vm) :=
  vmsOf_eq (hosts_moved membership moves ▸ orderly.hosts) (List.mem_map_of_mem member)

theorem relocated_nil : Relocated membership [] membership where
  hosts := (Keyed.ofList_append_of_subset orderly.hosts (by simp)).symm
  vmsOf host := by simp

/-- One more VM moves, wherever the membership has it and whether or not it has it at all. -/
theorem apply_relocated {moves : List Move} {move : Move} {now : Membership}
    (relocated : Relocated membership moves now) (fresh : move.vm ∉ moves.map (·.vm)) :
    ∃ next, (membership.apply now move : Except (Fault α) Membership) = .ok next ∧
      Relocated membership (moves ++ [move]) next := by
  have stays (host : String) : (membership.vmsOf host).filter (· ∉ (moves ++ [move]).map (·.vm)) =
      ((membership.vmsOf host).filter (· ∉ moves.map (·.vm))).erase move.vm := by
    rw [((orderly.nodup_vmsOf host).filter _).erase_eq_filter, List.filter_filter]
    exact List.filter_congr fun vm _ => Bool.eq_iff_iff.mpr (by simp [and_comm])
  have arrives (host : String) : ((moves ++ [move]).filter (·.destination = host)).map (·.vm) =
      (moves.filter (·.destination = host)).map (·.vm) ++
        if host = move.destination then [move.vm] else [] := by
    by_cases here : host = move.destination
    · simp [here]
    · simp [here, Ne.symm here]
  -- the VM is added to what is left when it has been taken away
  have placed {left : Membership} (hosts : left.rows.map (·.1) = now.rows.map (·.1))
      (taken : ∀ host, left.vmsOf host =
        ((membership.vmsOf host).filter (· ∉ moves.map (·.vm))).erase move.vm ++
          (moves.filter (·.destination = host)).map (·.vm)) :
      Relocated membership (moves ++ [move]) (left.add move.destination move.vm) := by
    refine ⟨?_, fun host => ?_⟩
    · rw [hosts_add, hosts, relocated.hosts, List.map_append, ← List.append_assoc]
      exact (Keyed.ofList_concat id _ move.destination).symm
    · rw [vmsOf_add, taken, stays, arrives, List.append_assoc]
  unfold apply
  cases found : membership.hostOf move.vm with
  | none =>
    refine ⟨_, rfl, placed rfl fun host => ?_⟩
    have absent : move.vm ∉ membership.vmsOf host := fun inside => by
      cases found.symm.trans (orderly.hostOf_eq_some_iff.mpr inside)
    rw [relocated.vmsOf, List.erase_of_not_mem fun inside => absent (List.mem_filter.mp inside).1]
  | some source =>
    have still : move.vm ∈ (membership.vmsOf source).filter (· ∉ moves.map (·.vm)) :=
      List.mem_filter.mpr ⟨orderly.hostOf_eq_some_iff.mp found, decide_eq_true fresh⟩
    have present : (now.vmsOf source).contains move.vm := by
      rw [relocated.vmsOf, List.contains_iff_mem]
      exact List.mem_append_left _ still
    dsimp only
    rw [if_pos present]
    refine ⟨_, rfl, placed (hosts_remove now source move.vm) fun host => ?_⟩
    rw [vmsOf_remove, relocated.vmsOf]
    split
    · next here =>
      subst here
      rw [List.erase_append_left _ still]
    · next elsewhere =>
      have absent : move.vm ∉ membership.vmsOf host := fun inside =>
        elsewhere (Option.some.inj ((orderly.hostOf_eq_some_iff.mpr inside).symm.trans found))
      rw [List.erase_of_not_mem fun inside => absent (List.mem_filter.mp inside).1]

theorem after_relocated {moves : List Move} (once : (moves.map (·.vm)).Nodup) :
    ∃ target, (membership.after moves : Except (Fault α) Membership) = .ok target ∧
      Relocated membership moves target := by
  suffices general : ∀ earlier now, Relocated membership earlier now →
      ((earlier ++ moves).map (·.vm)).Nodup →
        ∃ target, (moves.foldlM membership.apply now : Except (Fault α) Membership) = .ok target ∧
          Relocated membership (earlier ++ moves) target from
    general [] membership orderly.relocated_nil once
  -- the moves carried out so far are those at the front
  clear once
  induction moves with
  | nil => exact fun earlier now relocated _ => ⟨now, rfl, by rwa [List.append_nil]⟩
  | cons move rest ih =>
    intro earlier now relocated once
    have fresh : move.vm ∉ earlier.map (·.vm) := by
      rw [List.map_append, List.map_cons, List.nodup_middle, List.nodup_cons] at once
      exact fun there => once.1 (List.mem_append_left _ there)
    obtain ⟨next, applied, relocated⟩ := orderly.apply_relocated (α := α) relocated fresh
    rw [List.foldlM_cons, applied, List.append_cons]
    exact ih _ next relocated (by rwa [← List.append_cons])

theorem after_eq {moves : List Move} (once : (moves.map (·.vm)).Nodup)
    (known : ∀ move ∈ moves, move.destination ∈ membership.rows.map (·.1)) :
    (membership.after moves : Except (Fault α) Membership) = .ok (membership.moved moves) := by
  obtain ⟨target, reached, relocated⟩ := orderly.after_relocated (α := α) once
  rw [reached]
  refine congrArg _ (eq_of_vmsOf (hosts_moved membership moves ▸ orderly.hosts) ?_ fun host inside => ?_)
  · rw [relocated.hosts, hosts_moved]
    exact Keyed.ofList_append_of_subset orderly.hosts (List.forall_mem_map.mpr known)
  · rw [hosts_moved] at inside
    obtain ⟨row, member, rfl⟩ := List.mem_map.mp inside
    rw [relocated.vmsOf, orderly.vmsOf_moved member, vmsOf_eq orderly.hosts member]

end Orderly

/-! The membership of a cluster -/

variable {α : Type} {cluster : Cluster α} {moves : List Move}

theorem hosts_capture (cluster : Cluster α) :
    (capture cluster).rows.map (·.1) = cluster.machines.map (·.id) := by
  simp [capture, Cluster.hosts, Occupancy.host]

theorem mem_capture {machine : Machine α} (member : machine ∈ cluster.machines) :
    (machine.id, ((cluster.occupancy.residents machine.id).map (·.id)).filter
      (· ∉ machine.arriving)) ∈ (capture cluster).rows :=
  List.mem_map.mpr ⟨cluster.occupancy.host machine, List.mem_map_of_mem member, rfl⟩

variable (distinct : cluster.DistinctVms)
include distinct

theorem orderly_capture : (capture cluster).Orderly where
  hosts := hosts_capture cluster ▸ cluster.distinct
  vms := by
    unfold capture
    rw [List.flatMap_map]
    unfold Cluster.DistinctVms Cluster.residents at distinct
    rw [List.map_flatMap] at distinct
    exact distinct.sublist (.flatMap_right _ fun host _ => List.filter_sublist)

theorem after_capture (once : (moves.map (·.vm)).Nodup)
    (known : ∀ move ∈ moves, ∃ machine ∈ cluster.machines, machine.id = move.destination) :
    ((capture cluster).after moves : Except (Fault α) Membership) =
      .ok ((capture cluster).moved moves) := by
  refine (orderly_capture distinct).after_eq once fun move moveMem => ?_
  obtain ⟨machine, member, destination⟩ := known move moveMem
  rw [hosts_capture, ← destination]
  exact List.mem_map_of_mem member

variable {machine : Machine α} (member : machine ∈ cluster.machines)
include member

theorem mem_vmsOf_moved {id : String} : id ∈ ((capture cluster).moved moves).vmsOf machine.id ↔
    (id ∈ (cluster.occupancy.residents machine.id).map (·.id) ∧ id ∉ machine.arriving ∧
      id ∉ moves.map (·.vm)) ∨
    ∃ move ∈ moves, move.destination = machine.id ∧ move.vm = id := by
  rw [(orderly_capture distinct).vmsOf_moved (mem_capture member), List.mem_append]
  simp [and_assoc, and_comm]

theorem nodup_vmsOf_moved (once : (moves.map (·.vm)).Nodup) :
    (((capture cluster).moved moves).vmsOf machine.id).Nodup := by
  rw [(orderly_capture distinct).vmsOf_moved (mem_capture member)]
  refine List.Nodup.append (((distinct.nodup_ids member).filter _).filter _)
    (once.sublist (List.filter_sublist.map _)) fun id stayed came => ?_
  have unmoved : id ∉ moves.map (·.vm) := by simpa using (List.mem_filter.mp stayed).2
  exact unmoved ((List.filter_sublist.map _).subset came)

end Fleet.Membership
