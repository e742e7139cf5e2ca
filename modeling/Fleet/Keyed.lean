/-! Lists of keyed items in which a later item takes the place of an earlier one with its key. -/

set_option autoImplicit false

namespace Fleet.Keyed

variable {Item Key : Type} [DecidableEq Key]

/-- The list with the item in place of the first one that has its key, or else at the end. -/
def put (key : Item → Key) (item : Item) : List Item → List Item
  | [] => [item]
  | other :: rest => if key other = key item then item :: rest else other :: put key item rest

def ofList (key : Item → Key) (items : List Item) : List Item :=
  items.foldl (fun kept item => put key item kept) []

theorem map_put (key : Item → Key) (item : Item) (items : List Item) :
    (put key item items).map key =
      if key item ∈ items.map key then items.map key else items.map key ++ [key item] := by
  induction items with
  | nil => simp [put]
  | cons other rest ih =>
    by_cases same : key other = key item
    · simp [put, same]
    · have different : key item ≠ key other := fun h => same h.symm
      by_cases later : key item ∈ rest.map key <;> simp_all [put]

theorem nodup_put {key : Item → Key} {items : List Item} (item : Item)
    (distinct : (items.map key).Nodup) : ((put key item items).map key).Nodup := by
  rw [map_put]
  split
  · exact distinct
  · next absent =>
    rw [List.nodup_append]
    refine ⟨distinct, by simp, ?_⟩
    intro old oldMem new newMem same
    rw [List.mem_singleton] at newMem
    exact absent (newMem ▸ same ▸ oldMem)

theorem nodup_ofList (key : Item → Key) (items : List Item) : ((ofList key items).map key).Nodup := by
  suffices general : ∀ kept : List Item, (kept.map key).Nodup →
      ((items.foldl (fun kept item => put key item kept) kept).map key).Nodup from
    general [] (by simp)
  induction items with
  | nil => exact fun _ distinct => distinct
  | cons item rest ih => exact fun kept distinct => ih _ (nodup_put item distinct)

end Fleet.Keyed
