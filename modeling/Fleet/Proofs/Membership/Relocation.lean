import Fleet.Proofs.Membership

/-! Where every VM is after a list of moves.

The source that a move names plays no part: a VM is taken from where the membership has it, be that the
destination or no host at all. Only moves of one VM depend on each other, so the moves of different VMs
may be carried out in any order.
-/

set_option autoImplicit false

namespace Fleet.Membership

variable {α : Type} {before after other : Membership} {moves others : List Move}

/-- The VM is on the host, once, and on no other. -/
def Places (membership : Membership) (host vm : String) : Prop :=
  vm ∈ membership.vmsOf host ∧ (membership.rows.flatMap (·.2)).count vm = 1

theorem Orderly.places (orderly : before.Orderly) {host vm : String}
    (inside : vm ∈ before.vmsOf host) : before.Places host vm := by
  obtain ⟨row, member, -, there⟩ := (mem_vmsOf_iff orderly.hosts).mp inside
  exact ⟨inside, List.count_eq_one_of_mem orderly.vms (List.mem_flatMap.mpr ⟨row, member, there⟩)⟩

theorem Orderly.eq_of_mem (orderly : before.Orderly) {first second vm : String}
    (onFirst : vm ∈ before.vmsOf first) (onSecond : vm ∈ before.vmsOf second) : first = second :=
  Option.some.inj ((orderly.hostOf_eq_some_iff.mpr onFirst).symm.trans
    (orderly.hostOf_eq_some_iff.mpr onSecond))

namespace Relocated

variable (relocated : Relocated before moves after)
include relocated

theorem mem_vmsOf_iff {host vm : String} : vm ∈ after.vmsOf host ↔
    (vm ∈ before.vmsOf host ∧ vm ∉ moves.map (·.vm)) ∨
      ∃ move ∈ moves, move.destination = host ∧ move.vm = vm := by
  rw [relocated.vmsOf]
  simp [and_assoc]

theorem mem_destination {move : Move} (member : move ∈ moves) :
    move.vm ∈ after.vmsOf move.destination :=
  relocated.mem_vmsOf_iff.mpr (.inr ⟨move, member, rfl, rfl⟩)

theorem nodup_hosts : (after.rows.map (·.1)).Nodup := by
  rw [relocated.hosts]
  simpa using Keyed.nodup_ofList id (before.rows.map (·.1) ++ moves.map (·.destination))

theorem orderly (start : before.Orderly) (once : (moves.map (·.vm)).Nodup) : after.Orderly where
  hosts := relocated.nodup_hosts
  vms := by
    rw [rows_eq relocated.nodup_hosts, List.flatMap_map]
    refine List.nodup_flatMap.mpr
      ⟨fun host _ => ?_, relocated.nodup_hosts.imp fun apart vm here there => ?_⟩
    · rw [relocated.vmsOf]
      refine List.Nodup.append ((start.nodup_vmsOf host).filter _)
        (once.sublist (List.filter_sublist.map _)) fun vm stayed came => ?_
      have unmoved : vm ∉ moves.map (·.vm) := by simpa using (List.mem_filter.mp stayed).2
      exact unmoved ((List.filter_sublist.map _).subset came)
    · rcases relocated.mem_vmsOf_iff.mp here with ⟨here, unmoved⟩ | ⟨move, member, rfl, rfl⟩ <;>
        rcases relocated.mem_vmsOf_iff.mp there with ⟨there, still⟩ | ⟨second, secondMem, rfl, same⟩
      · exact apart (start.eq_of_mem here there)
      · exact unmoved (same ▸ List.mem_map_of_mem secondMem)
      · exact still (List.mem_map_of_mem member)
      · exact apart (congrArg _ (List.inj_on_of_nodup_map once member secondMem same.symm))

theorem mem_vmsOf_iff_of_perm (second : Relocated before others other) (perm : others.Perm moves)
    {host vm : String} : vm ∈ other.vmsOf host ↔ vm ∈ after.vmsOf host := by
  rw [relocated.mem_vmsOf_iff, second.mem_vmsOf_iff]
  simp only [(perm.map _).mem_iff, perm.mem_iff]

end Relocated

/-- Moves of different VMs are never refused, whatever sources and destinations they name. Each VM that
moves is then at its destination and nowhere else, each other one where it was. On every host those that
stayed keep their order, and behind them stand those that came, in the order of the moves. Whatever is
asked of the membership afterwards is answered as before, and in another order the same moves put the
same VMs on every host. -/
theorem after_faithful {membership : Membership} (orderly : membership.Orderly) {moves : List Move}
    (once : (moves.map (·.vm)).Nodup) :
    ∃ target, (membership.after moves : Except (Fault α) Membership) = .ok target ∧
      (∀ move ∈ moves, target.Places move.destination move.vm) ∧
      (∀ host, ∀ vm ∈ membership.vmsOf host, vm ∉ moves.map (·.vm) → target.Places host vm) ∧
      Relocated membership moves target ∧
      (∀ {Answer : Type} (question : Membership → Except (Fault α) Answer),
        (do let _ ← (membership.after moves : Except (Fault α) Membership); question membership) =
          question membership) ∧
      ∀ others : List Move, others.Perm moves → ∃ other,
        (membership.after others : Except (Fault α) Membership) = .ok other ∧
          ∀ host vm, vm ∈ other.vmsOf host ↔ vm ∈ target.vmsOf host := by
  obtain ⟨target, reached, relocated⟩ := orderly.after_relocated (α := α) once
  have kept := relocated.orderly orderly once
  refine ⟨target, reached, fun move member => kept.places (relocated.mem_destination member),
    fun host vm inside unmoved => kept.places (relocated.mem_vmsOf_iff.mpr (.inl ⟨inside, unmoved⟩)),
    relocated, fun question => ?_, fun others perm => ?_⟩
  · rw [reached]
    rfl
  · obtain ⟨other, reachedOther, second⟩ :=
      orderly.after_relocated (α := α) ((perm.map Move.vm).nodup_iff.mpr once)
    exact ⟨other, reachedOther, fun _ _ => relocated.mem_vmsOf_iff_of_perm second perm⟩

/-- A VM moves to the host it is on, one to a host that is not known, and one that is not known to a host
that is. -/
theorem after_faithful_scattered :
    let membership : Membership := ⟨[("a", ["x", "y", "z"]), ("b", ["u"])]⟩
    let moves : List Move := [⟨"x", "b", "a"⟩, ⟨"y", "a", "far"⟩, ⟨"w", "nowhere", "b"⟩]
    let target : Membership := ⟨[("a", ["z", "x"]), ("b", ["u", "w"]), ("far", ["y"])]⟩
    membership.Orderly ∧ (moves.map (·.vm)).Nodup ∧
      (membership.after moves : Except (Fault Rat) Membership) = .ok target ∧
      (∀ move ∈ moves, target.Places move.destination move.vm) ∧ target.Places "a" "z" ∧
      ∃ other, (membership.after moves.reverse : Except (Fault Rat) Membership) = .ok other ∧
        ∀ host vm, vm ∈ other.vmsOf host ↔ vm ∈ target.vmsOf host := by
  intro membership moves target
  have orderly : membership.Orderly := ⟨by decide, by decide⟩
  have once : (moves.map (·.vm)).Nodup := by decide
  obtain ⟨_, reached, moved, stayed, -, -, permuted⟩ := after_faithful (α := Rat) orderly once
  have known : (membership.after moves : Except (Fault Rat) Membership) = .ok target := rfl
  obtain rfl := Except.ok.inj (known.symm.trans reached)
  exact ⟨orderly, once, known, moved, stayed "a" "z" (by decide) (by decide),
    permuted moves.reverse (List.reverse_perm moves)⟩

end Fleet.Membership
