import Fleet.Cluster

/-! Which VMs are on which host, as ids, and what a list of moves makes of it. -/

set_option autoImplicit false

namespace Fleet

structure Move where
  vm : String
  source : String
  destination : String
  deriving DecidableEq, Repr

structure Membership where
  rows : List (String × List String)
  deriving DecidableEq, Repr

namespace Membership

variable {α : Type}

/-- The residents of every host, without those still migrating in. -/
def capture (cluster : Cluster α) : Membership :=
  ⟨cluster.hosts.map fun host => (host.id, host.vmIds.filter (· ∉ host.arriving))⟩

def vmsOf (membership : Membership) (host : String) : List String :=
  (membership.rows.lookup host).getD []

def hostOf (membership : Membership) (vm : String) : Option String :=
  (membership.rows.find? fun row => row.2.contains vm).map (·.1)

def remove (membership : Membership) (host vm : String) : Membership :=
  ⟨membership.rows.map fun row => if row.1 = host then (row.1, row.2.erase vm) else row⟩

/-- Adds the VM at the end of a row, which becomes the last one if it is new. -/
def add (membership : Membership) (host vm : String) : Membership :=
  if membership.rows.any (·.1 == host) then
    ⟨membership.rows.map fun row => if row.1 = host then (row.1, row.2 ++ [vm]) else row⟩
  else ⟨membership.rows ++ [(host, [vm])]⟩

/-- Carries out one move. The VM is taken from the host that has it in `before`; it is a fault if
that host has lost it already. -/
def apply (before current : Membership) (move : Move) : Except (Fault α) Membership :=
  match before.hostOf move.vm with
  | none => .ok (current.add move.destination move.vm)
  | some source =>
      if (current.vmsOf source).contains move.vm then
        .ok ((current.remove source move.vm).add move.destination move.vm)
      else .error .notMember

def after (membership : Membership) (moves : List Move) : Except (Fault α) Membership :=
  moves.foldlM membership.apply membership

@[simp] theorem after_nil (membership : Membership) :
    (membership.after [] : Except (Fault α) Membership) = .ok membership := rfl

end Membership

end Fleet
