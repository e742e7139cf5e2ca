/-! The metrics recorded for hosts, in the order of recording. -/

set_option autoImplicit false

namespace Fleet

structure Metric (α : Type) where
  timestamp : α
  utilization : α
  threshold : α
  deriving Repr

structure Timeline (α : Type) where
  entries : List (String × Metric α) := []

namespace Timeline

variable {α : Type}

def append (timeline : Timeline α) (host : String) (metric : Metric α) : Timeline α :=
  ⟨timeline.entries ++ [(host, metric)]⟩

def records (timeline : Timeline α) (host : String) : List (Metric α) :=
  timeline.entries.filterMap fun (id, metric) => if id = host then some metric else none

def hostIds (timeline : Timeline α) : List String := (timeline.entries.map (·.1)).eraseDups

def times (timeline : Timeline α) (host : String) : List α :=
  (timeline.records host).map (·.timestamp)

def size (timeline : Timeline α) : Nat := timeline.entries.length

theorem records_append (timeline : Timeline α) (host other : String) (metric : Metric α) :
    (timeline.append host metric).records other =
      timeline.records other ++ if host = other then [metric] else [] := by
  by_cases same : host = other <;> simp [append, records, same]

end Timeline

end Fleet
