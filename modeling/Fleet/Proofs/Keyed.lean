import Fleet.Keyed
import Mathlib.Data.List.Nodup
import Mathlib.Data.List.Pairwise

/-! Lists in which no key occurs twice. -/

set_option autoImplicit false

namespace Fleet

namespace Keyed

variable {Item Key : Type} [DecidableEq Key] {key : Item → Key}

theorem mem_of_mem_put {item other : Item} {items : List Item}
    (member : other ∈ put key item items) :
    other = item ∨ other ∈ items := by
  induction items with
  | nil => exact .inl (List.mem_singleton.mp member)
  | cons first rest ih =>
    unfold put at member
    split at member
    · rcases List.mem_cons.mp member with same | later
      · exact .inl same
      · exact .inr (List.mem_cons_of_mem first later)
    · rcases List.mem_cons.mp member with rfl | later
      · exact .inr List.mem_cons_self
      · exact (ih later).imp_right (List.mem_cons_of_mem first)

theorem mem_of_mem_ofList {other : Item} {items : List Item} (member : other ∈ ofList key items) :
    other ∈ items := by
  suffices general : ∀ kept : List Item,
      other ∈ items.foldl (fun kept item => put key item kept) kept →
        other ∈ kept ∨ other ∈ items from
    (general [] member).resolve_left List.not_mem_nil
  clear member
  induction items with
  | nil => exact fun _ member => .inl member
  | cons item rest ih =>
    intro kept member
    rcases ih _ member with early | later
    · rcases mem_of_mem_put early with rfl | old
      · exact .inr List.mem_cons_self
      · exact .inl old
    · exact .inr (List.mem_cons_of_mem item later)

theorem put_of_notMem {item : Item} {kept : List Item} (fresh : key item ∉ kept.map key) :
    put key item kept = kept ++ [item] := by
  induction kept with
  | nil => rfl
  | cons other rest ih =>
    simp only [List.map_cons, List.mem_cons, not_or] at fresh
    rw [put, if_neg (Ne.symm fresh.1), ih fresh.2, List.cons_append]

theorem ofList_eq_self {items : List Item} (distinct : (items.map key).Nodup) :
    ofList key items = items := by
  suffices general : ∀ kept : List Item, ((kept ++ items).map key).Nodup →
      items.foldl (fun kept item => put key item kept) kept = kept ++ items from
    general [] (by simpa using distinct)
  clear distinct
  -- the items kept so far are those at the front
  induction items with
  | nil => simp
  | cons item rest ih =>
    intro kept distinct
    have fresh : key item ∉ kept.map key := by
      rw [List.map_append, List.map_cons, List.nodup_middle, List.nodup_cons] at distinct
      exact fun member => distinct.1 (List.mem_append_left _ member)
    rw [List.foldl_cons, put_of_notMem fresh]
    simpa using ih (kept ++ [item]) (by simpa using distinct)

theorem ofList_concat (key : Item → Key) (items : List Item) (item : Item) :
    ofList key (items ++ [item]) = put key item (ofList key items) := List.foldl_append

theorem ofList_append_of_subset {keys more : List Key} (distinct : keys.Nodup)
    (known : ∀ key ∈ more, key ∈ keys) : ofList id (keys ++ more) = keys := by
  have kept : ofList id keys = keys := ofList_eq_self (by rwa [List.map_id])
  unfold ofList at kept ⊢
  rw [List.foldl_append, kept]
  induction more with
  | nil => rfl
  | cons key rest ih =>
    obtain ⟨here, later⟩ := List.forall_mem_cons.mp known
    have put := map_put id key keys
    rw [List.map_id, List.map_id, id_eq, if_pos here] at put
    rw [List.foldl_cons, put]
    exact ih later

theorem ofList_map {Other OtherKey : Type} [DecidableEq OtherKey] {otherKey : Other → OtherKey}
    {other : Item → Other}
    (same : ∀ first second, otherKey (other first) = otherKey (other second) ↔
      key first = key second) (items : List Item) :
    ofList otherKey (items.map other) = (ofList key items).map other := by
  have put (item : Item) (kept : List Item) :
      put otherKey (other item) (kept.map other) = (put key item kept).map other := by
    induction kept with
    | nil => rfl
    | cons first rest ih =>
      simp only [List.map_cons, Keyed.put, same]
      split
      · rfl
      · rw [ih, List.map_cons]
  suffices general : ∀ kept : List Item,
      (items.map other).foldl (fun kept item => Keyed.put otherKey item kept) (kept.map other) =
        (items.foldl (fun kept item => Keyed.put key item kept) kept).map other from general []
  induction items with
  | nil => exact fun _ => rfl
  | cons item rest ih =>
    intro kept
    rw [List.map_cons, List.foldl_cons, List.foldl_cons, put, ih]

theorem find_eq {items : List Item} (distinct : (items.map key).Nodup) {item : Item}
    (member : item ∈ items) : items.find? (key · == key item) = some item := by
  induction items with
  | nil => cases member
  | cons first rest ih =>
    rw [List.map_cons, List.nodup_cons] at distinct
    rcases List.mem_cons.mp member with rfl | later
    · simp
    · have different : key first ≠ key item := fun same =>
        distinct.1 (same ▸ List.mem_map_of_mem later)
      rw [List.find?_cons_of_neg (by simpa using different)]
      exact ih distinct.2 later

theorem filter_flatMap_eq {Part : Type} {partKey : Part → Key} {items : Part → List Item}
    {parts : List Part} (distinct : (parts.map partKey).Nodup) {part : Part} (member : part ∈ parts)
    {test : Item → Bool} (tested : ∀ other ∈ parts, ∀ item ∈ items other,
      test item = decide (partKey other = partKey part)) :
    (parts.flatMap items).filter test = items part := by
  induction parts with
  | nil => cases member
  | cons first rest ih =>
    rw [List.map_cons, List.nodup_cons] at distinct
    obtain ⟨head, others⟩ := List.forall_mem_cons.mp tested
    rw [List.flatMap_cons, List.filter_append]
    rcases List.mem_cons.mp member with rfl | later
    · have all : (items part).filter test = items part :=
        List.filter_eq_self.mpr fun item inside => by simp [head item inside]
      have none : (rest.flatMap items).filter test = [] := by
        refine List.filter_eq_nil_iff.mpr fun item itemMem => ?_
        obtain ⟨other, otherMem, inside⟩ := List.mem_flatMap.mp itemMem
        have different : partKey other ≠ partKey part := fun same =>
          distinct.1 (same ▸ List.mem_map_of_mem otherMem)
        simp [others other otherMem item inside, different]
      rw [all, none, List.append_nil]
    · have different : partKey first ≠ partKey part := fun same =>
        distinct.1 (same ▸ List.mem_map_of_mem later)
      have none : (items first).filter test = [] :=
        List.filter_eq_nil_iff.mpr fun item inside => by simp [head item inside, different]
      rw [none, List.nil_append]
      exact ih distinct.2 later others

theorem perm_cons_filter {items : List Item} (distinct : (items.map key).Nodup) {item : Item}
    (member : item ∈ items) : items.Perm (item :: items.filter (key · != key item)) := by
  induction items with
  | nil => cases member
  | cons first rest ih =>
    rw [List.map_cons, List.nodup_cons] at distinct
    rcases List.mem_cons.mp member with rfl | later
    · have others : rest.filter (key · != key item) = rest := by
        refine List.filter_eq_self.mpr fun other otherMem => bne_iff_ne.mpr fun same => ?_
        exact distinct.1 (same ▸ List.mem_map_of_mem otherMem)
      simp [others]
    · have different : key first ≠ key item := fun same =>
        distinct.1 (same ▸ List.mem_map_of_mem later)
      rw [List.filter_cons_of_pos (by simpa using different)]
      exact ((ih distinct.2 later).cons first).trans (.swap item first _)

theorem part_eq {Part : Type} {parts : List Part} {items : Part → List Item}
    (once : (parts.flatMap items).Nodup) {first second : Part} (firstMem : first ∈ parts)
    (secondMem : second ∈ parts) {item : Item} (inFirst : item ∈ items first)
    (inSecond : item ∈ items second) : first = second := by
  by_contra different
  have symmetric : Std.Symm (Function.onFun List.Disjoint items) :=
    ⟨fun _ _ apart => List.disjoint_symm apart⟩
  exact (List.nodup_flatMap.mp once).2.forall firstMem secondMem different inFirst inSecond

theorem nodup_selected {items : List Item} (once : items.Nodup) {keys : List Key}
    (distinct : keys.Nodup) (key? : Item → Option Key) :
    (keys.flatMap fun key => items.filter (key? · == some key)).Nodup := by
  refine List.nodup_flatMap.mpr ⟨fun _ _ => once.filter _, distinct.imp fun different => ?_⟩
  intro item here there
  have first := (List.mem_filter.mp here).2
  have second := (List.mem_filter.mp there).2
  rw [beq_iff_eq] at first second
  exact different (Option.some.inj (first.symm.trans second))

end Keyed

end Fleet
