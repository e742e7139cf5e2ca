import Fleet.Payload.Issue
import Fleet.Scalar
import Fleet.Text.Quoted

/-! Why an operation was refused or broke off.

A fault records its cause together with the numbers involved. Its kind is what callers distinguish,
and its text is written only where the numbers are binary64.
-/

set_option autoImplicit false

namespace Fleet

structure Shape (α : Type) where
  mips : α
  cores : Int
  deriving Repr

inductive Kind where
  | configuration
  | capacity
  | value
  | overflow
  | key
  | index
  | type
  | attribute
  | validation
  | scheme
  | external
  deriving DecidableEq, Repr

inductive Parameter (α : Type) where
  | epsilon
  | baseWindow
  | theta
  | cpuThreshold
  | memoryThreshold
  | weights (given : List α)
  | weightSum (total : α)
  | upperBound
  | cpuBand (lower upper : α)
  | bandOrder (lower upper : α)
  | memoryBound
  | underloadThreshold

inductive Refusal (α : Type) where
  | alreadyResident
  | doesNotFit (allocated requested capacity : α) (inner outer : Shape α)
  | notRestored

inductive Fault (α : Type) where
  /-- A window or table position was computed from a number without integer neighbours. -/
  | noInteger (cause : Number.NoInteger)
  | integerTooLarge
  | squareTooLarge
  | sample (value : α)
  | utilization (value : α)
  | powerSamples (name : String) (count : Nat)
  | powerPosition (position : Int)
  | noFlavors
  | flavorColumns (mips cores ratios : Nat) (ram : Option Nat)
  /-- No reference type has the shape of the VM; the nearest one and its distance are told. -/
  | unknownShape (vm : String) (shape : Shape α) (index : Nat) (nearest : Shape α) (distance : α)
  | noNearestShape
  | parameter (rejected : Parameter α)
  | settings (issues : List Payload.Issue)
  | invalid (model : String) (issues : List Payload.Issue)
  | wrongType
  /-- A host cannot take a VM it is asked to hold, possibly while recovering from another fault. -/
  | refused (host vm : String) (reason : Refusal α) (during : Option (Fault α))
  | notMember
  | unknown (id : String)
  /-- Nothing can be sent to the URL. -/
  | unreachable (url : String)
  | unreadableNumber (text : String)
  /-- Something in the place of a name and a value has another number of items. -/
  | pairLength (position length : Nat)
  | external (text : String)

namespace Fault

variable {α : Type}

def kind : Fault α → Kind
  | noInteger .infinite | integerTooLarge | squareTooLarge => .overflow
  | noInteger .notANumber | sample _ | utilization _ | powerSamples .. | notMember
  | unreadableNumber _ | pairLength .. => .value
  | powerPosition _ => .index
  | noFlavors | flavorColumns .. | unknownShape .. | parameter _ | settings _ => .configuration
  | noNearestShape => .attribute
  | invalid .. => .validation
  | wrongType => .type
  | refused .. => .capacity
  | unknown _ => .key
  | unreachable _ => .scheme
  | external _ => .external

def causeKind : Fault α → Option Kind
  | settings _ => some .validation
  | refused _ _ _ during => during.map kind
  | _ => none

end Fault

def Parameter.message : Parameter Float → String
  | .epsilon => "epsilon must be >= 0"
  | .baseWindow => "base_window must be >= 1"
  | .theta => "theta must be >= 0"
  | .cpuThreshold => "cpu_threshold must be in (0, 1]"
  | .memoryThreshold => "mem_threshold_frac must be in (0, 1]"
  | .weights given => "fitness needs five non-negative weights, got " ++ Number.listText given
  | .weightSum total => s!"fitness weights must sum to 1, got {Number.fixedText 6 total}"
  | .upperBound => "upper_bound must be in (0, 1]"
  | .cpuBand lower upper => s!"invalid CPU band [{Number.text lower}, {Number.text upper}]"
  | .bandOrder lower upper =>
      s!"lower_band {Number.text lower} must not exceed upper_bound {Number.text upper}"
  | .memoryBound => "memory_bound must be > 0"
  | .underloadThreshold => "underload_threshold must be in (0, 1]"

def Refusal.message : Refusal Float → String
  | .alreadyResident => "already resident"
  | .doesNotFit allocated requested capacity inner outer =>
      s!"ram {Number.fixedText 0 allocated}+{Number.fixedText 0 requested}/" ++
        s!"{Number.fixedText 0 capacity} MB, shape {inner.cores}x{Number.fixedText 0 inner.mips} " ++
        s!"on {outer.cores}x{Number.fixedText 0 outer.mips}"
  | .notRestored => "restoration failed"

def Fault.message : Fault Float → Option String
  | .noInteger .infinite => some "cannot convert float infinity to integer"
  | .noInteger .notANumber => some "cannot convert float NaN to integer"
  | .integerTooLarge => some "int too large to convert to float"
  | .squareTooLarge => some "(34, 'Numerical result out of range')"
  | .sample value => some (Payload.sampleText value)
  | .utilization value => some s!"utilization must be within [0, 1], got {Number.text value}"
  | .powerSamples name count => some s!"power table for {name} needs 11 samples, got {count}"
  | .powerPosition _ => some "tuple index out of range"
  | .noFlavors => some "type catalog is empty"
  | .flavorColumns mips cores ratios ram =>
      some (s!"type catalog out of sync: mips={mips} pes={cores} ratios={ratios}" ++
        match ram with
        | none => ""
        | some count => s!" ram={count}")
  | .unknownShape vm shape index nearest distance =>
      some <| s!"unable to determine type for vm {vm} (mips={Number.fixedText 3 shape.mips}, " ++
        s!"pes={shape.cores}); nearest type={index} (mips={Number.fixedText 3 nearest.mips}, " ++
        s!"pes={nearest.cores}, distance={Number.fixedText 4 distance})"
  | .parameter rejected => some rejected.message
  | .settings _ => some "invalid settings"
  | .refused host vm reason _ => some s!"host {host} cannot accept vm {vm}: {reason.message}"
  | .notMember => some "list.remove(x): x not in list"
  | .unreachable url => some ("No connection adapters were found for " ++ Text.quoted url)
  | .unreadableNumber text => some ("could not convert string to float: " ++ Text.quoted text)
  | .pairLength position length =>
      some (s!"dictionary update sequence element #{position} has length {length}; " ++
        "2 is required")
  | .external text => some text
  | .noNearestShape | .invalid .. | .wrongType | .unknown _ => none

end Fleet
