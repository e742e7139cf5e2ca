import Fleet.Forecast

/-! Reference VM shapes, each with a ratio of memory to CPU utilization and possibly a RAM size.

A shape resolves to the first flavor that agrees with it up to rounding of its speed; failing that,
the first flavor at the least distance is told, for diagnosis only.
-/

set_option autoImplicit false

namespace Fleet

structure Flavor (α : Type) extends Shape α where
  index : Nat
  memoryRatio : α
  ramMb : Option α

inductive CoreCount (α : Type) where
  | whole (count : Int)
  | decimal (count : α)

structure FlavorTable (α : Type) where
  flavors : List (Flavor α)
  nonempty : flavors ≠ []

/-- The flavor of a shape, or the nearest flavor with its distance if any distance is a number. -/
inductive Resolution (α : Type) where
  | found (flavor : Flavor α)
  | unmatched (nearest : Option (Flavor α × α))

namespace CoreCount

variable {α : Type} [Scalar α]

def isCount (given : CoreCount α) (cores : Int) : Bool :=
  match given with
  | whole count => count == cores
  | decimal count => Scalar.equalsInt count cores

/-- The squared difference; whole counts are subtracted and squared before they are rounded. -/
def squaredGap (given : CoreCount α) (cores : Int) : Except (Fault α) α :=
  match given with
  | whole count =>
      match Scalar.ofInt? ((count - cores) * (count - cores)) with
      | some square => .ok square
      | none => .error .integerTooLarge
  | decimal count =>
      match (Scalar.ofInt? cores : Option α) with
      | none => .error .integerTooLarge
      | some exact =>
          match Scalar.square? (count - exact) with
          | some square => .ok square
          | none => .error .squareTooLarge

end CoreCount

namespace Flavor

variable {α : Type} [Scalar α]

/-- The ratio to scale with; one stands in for a ratio that is not positive. -/
def effectiveRatio (flavor : Flavor α) : α :=
  if 0.0 < flavor.memoryRatio then flavor.memoryRatio else 1.0

def agreesWith (flavor : Flavor α) (mips : α) (cores : CoreCount α) : Bool :=
  Scalar.abs (mips - flavor.mips) ≤ Scalar.max (Scalar.abs flavor.mips) 1.0 * 1e-6 &&
    cores.isCount flavor.cores

def distance (flavor : Flavor α) (mips : α) (cores : CoreCount α) : Except (Fault α) α := do
  let relative := Scalar.abs (mips - flavor.mips) / Scalar.max flavor.mips 1.0
  pure (relative * relative + 0.25 * (← cores.squaredGap flavor.cores))

end Flavor

namespace FlavorTable

variable {α : Type}

/-- The flavors whose properties stand in one row of the columns, numbered from zero. -/
def rows (mips : List α) (cores : List Int) (ratios : List α) (ram : Option (List α)) :
    List (Flavor α) :=
  ((mips.zip cores).zip ratios).zipIdx.map fun (((mips, cores), ratio), index) =>
    { mips, cores, index, memoryRatio := ratio, ramMb := ram.bind (·[index]?) }

theorem length_rows (mips : List α) (cores : List Int) (ratios : List α) (ram : Option (List α))
    (sameCores : cores.length = mips.length) (sameRatios : ratios.length = mips.length) :
    (rows mips cores ratios ram).length = mips.length := by
  simp [rows, sameCores, sameRatios]

def ofColumns (mips : List α) (cores : List Int) (ratios : List α) (ram : Option (List α)) :
    Except (Fault α) (FlavorTable α) :=
  if empty : mips = [] then .error .noFlavors
  else if inStep : (cores.length = mips.length ∧ ratios.length = mips.length) ∧
      ram.all (·.length == mips.length) then
    .ok {
      flavors := rows mips cores ratios ram
      nonempty := by
        rw [← List.length_pos_iff, length_rows mips cores ratios ram inStep.1.1 inStep.1.2]
        exact List.length_pos_iff.mpr empty }
  else .error (.flavorColumns mips.length cores.length ratios.length (ram.map List.length))

def size (table : FlavorTable α) : Nat := table.flavors.length

variable [Scalar α]

/-- Keeps the earlier flavor unless the later one is strictly nearer. -/
def nearer (best : Option (Flavor α × α)) (flavor : Flavor α) (cost : α) : Option (Flavor α × α) :=
  match best with
  | none => if Scalar.isBounded cost then some (flavor, cost) else none
  | some (_, least) => if cost < least then some (flavor, cost) else best

def scan (mips : α) (cores : CoreCount α) :
    Option (Flavor α × α) → List (Flavor α) → Except (Fault α) (Resolution α)
  | best, [] => .ok (.unmatched best)
  | best, flavor :: rest =>
      if flavor.agreesWith mips cores then .ok (.found flavor)
      else
        match flavor.distance mips cores with
        | .error fault => .error fault
        | .ok cost => scan mips cores (nearer best flavor cost) rest

def classify (table : FlavorTable α) (mips : α) (cores : CoreCount α) :
    Except (Fault α) (Resolution α) :=
  scan mips cores none table.flavors

def require (table : FlavorTable α) (vm : String) (shape : Shape α) : Except (Fault α) (Flavor α) := do
  match ← table.classify shape.mips (.whole shape.cores) with
  | .found flavor => pure flavor
  | .unmatched none => throw .noNearestShape
  | .unmatched (some (flavor, distance)) =>
      throw (.unknownShape vm shape flavor.index flavor.toShape distance)

def referenceRam? (table : FlavorTable α) (mips : α) (cores : CoreCount α) :
    Except (Fault α) (Option α) := do
  match ← table.classify mips cores with
  | .found flavor => pure flavor.ramMb
  | .unmatched _ => pure none

/-- The ratio of the flavor at a position; one where there is no such flavor. -/
def ratio (table : FlavorTable α) (position : Option Int) : α :=
  match position with
  | none => 1.0
  | some index =>
      if index < 0 then 1.0
      else (table.flavors[index.toNat]?).elim 1.0 Flavor.effectiveRatio

def memoryFraction (table : FlavorTable α) (cpu : α) (position : Option Int) : α :=
  Forecast.memoryFraction cpu (table.ratio position)

def reference : FlavorTable α where
  flavors :=
    [⟨⟨2500.0, 8⟩, 0, 1.0, some 65536.0⟩,
     ⟨⟨2500.0, 4⟩, 1, 0.7, some 32768.0⟩,
     ⟨⟨2500.0, 4⟩, 2, 2.0, some 32768.0⟩,
     ⟨⟨2500.0, 4⟩, 3, 1.8, some 65536.0⟩,
     ⟨⟨2500.0, 64⟩, 4, 0.8, some 524288.0⟩]
  nonempty := by simp

end FlavorTable

def Flavor.memoryFraction {α : Type} [Scalar α] (flavor : Flavor α) (cpu : α) : α :=
  Forecast.memoryFraction cpu flavor.effectiveRatio

end Fleet
