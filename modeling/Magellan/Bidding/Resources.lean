import Mathlib.Algebra.Order.Field.Rat
import Mathlib.Tactic.Linarith
import Magellan.Bidding.Models

/-!
# Resources of a node

Demand and what is left of it on a node. A quantity `none` of a ledger is infinite.
-/

namespace Magellan.Bidding

structure ResourceVector where
  cpuCores : Rat := 0
  memoryMb : Nat := 0
  gpuCount : Nat := 0
  deriving DecidableEq

namespace ResourceVector

def ofRequest (request : TaskResourceRequest) : ResourceVector where
  cpuCores := request.cpuCores
  memoryMb := request.memoryMb
  gpuCount := request.gpuCount

def add (x y : ResourceVector) : ResourceVector where
  cpuCores := x.cpuCores + y.cpuCores
  memoryMb := x.memoryMb + y.memoryMb
  gpuCount := x.gpuCount + y.gpuCount

end ResourceVector

def sumRequests (requests : List TaskResourceRequest) : ResourceVector :=
  requests.foldl (fun total request => total.add (.ofRequest request)) {}

structure ResourceLedger where
  cpuCores : Option Rat
  memoryMb : Option Rat
  gpuCount : Option Rat
  acceleratorTypes : List String

namespace ResourceLedger

/-- What is left of a limit. -/
def left (limit : Option Rat) (used : Rat) : Option Rat := limit.map fun limit => max 0 (limit - used)

def exceeds (demand : Rat) (available : Option Rat) : Bool := available.any (· < demand)

def fromCapacity (capacity : NodeResourceCapacity) (used : ResourceVector) : ResourceLedger where
  cpuCores := left capacity.cpuCores used.cpuCores
  memoryMb := left (capacity.memoryMb.map (↑)) used.memoryMb
  gpuCount := left (capacity.gpuCount.map (↑)) used.gpuCount
  acceleratorTypes := capacity.acceleratorTypes

/-- The reason why a request does not fit; `none` if it does. -/
def incompatible (l : ResourceLedger) (request : TaskResourceRequest) : Option String :=
  if 0 < request.gpuCount ∧ l.gpuCount.any (· ≤ 0) then
    some "Destination has no available GPU capacity"
  else if 0 < request.gpuCount ∧ l.acceleratorTypes ≠ [] ∧
      request.acceleratorType.any (· ∉ l.acceleratorTypes) then
    some ("Destination does not provide accelerator type " ++ request.acceleratorType.getD "")
  else if exceeds request.cpuCores l.cpuCores then some "Insufficient unreserved CPU cores"
  else if exceeds request.memoryMb l.memoryMb then some "Insufficient unreserved memory"
  else if exceeds request.gpuCount l.gpuCount then some "Insufficient unreserved GPU capacity"
  else none

def consume (l : ResourceLedger) (request : TaskResourceRequest) : ResourceLedger where
  cpuCores := left l.cpuCores request.cpuCores
  memoryMb := left l.memoryMb request.memoryMb
  gpuCount := left l.gpuCount request.gpuCount
  acceleratorTypes := l.acceleratorTypes

end ResourceLedger

/-- The largest share that a request takes of a limited resource; `none` stands for an infinite one. -/
def dominantResourceShare (request : TaskResourceRequest) (capacity : NodeResourceCapacity) :
    Option Rat :=
  let cpu := capacity.cpuCores.map fun limit => request.cpuCores / limit
  let memory := if 0 < request.memoryMb then
    capacity.memoryMb.map fun limit => (request.memoryMb : Rat) / limit else none
  let gpu := if 0 < request.gpuCount then
    capacity.gpuCount.map fun limit => (request.gpuCount : Rat) / limit else none
  if 0 < request.gpuCount ∧ capacity.gpuCount = some 0 then none
  else
    match (cpu.toList ++ memory.toList ++ gpu.toList).max? with
    | some share => some share
    | none => some (max request.cpuCores 1)

theorem sumRequests_eq (requests : List TaskResourceRequest) : sumRequests requests =
    ⟨(requests.map (·.cpuCores)).sum, (requests.map (·.memoryMb)).sum,
      (requests.map (·.gpuCount)).sum⟩ := by
  have fold (total : ResourceVector) :
      requests.foldl (fun total request => total.add (.ofRequest request)) total =
        ⟨total.cpuCores + (requests.map (·.cpuCores)).sum,
          total.memoryMb + (requests.map (·.memoryMb)).sum,
          total.gpuCount + (requests.map (·.gpuCount)).sum⟩ := by
    induction requests generalizing total with
    | nil => simp
    | cons request requests ih =>
        rw [List.foldl_cons, ih]
        simp [ResourceVector.add, ResourceVector.ofRequest, add_assoc]
  unfold sumRequests
  simpa using fold {}

theorem sumRequests_append (first second : List TaskResourceRequest) :
    sumRequests (first ++ second) = (sumRequests first).add (sumRequests second) := by
  simp [sumRequests_eq, ResourceVector.add]

theorem ResourceLedger.fits_of_compatible {l : ResourceLedger} {request : TaskResourceRequest}
    (h : l.incompatible request = none) :
    exceeds request.cpuCores l.cpuCores = false ∧ exceeds request.memoryMb l.memoryMb = false ∧
      exceeds request.gpuCount l.gpuCount = false := by
  unfold incompatible at h
  split_ifs at h
  simp_all

/-! ## What a ledger keeps -/

section

variable {limit available : Option Rat} {used accepted demand : Rat}

/-- What is left of a limit when the demand accepted so far is taken from it as well, and that this
demand does not go beyond it. -/
structure Tracks (limit : Option Rat) (used accepted : Rat) (available : Option Rat) : Prop where
  available : available = ResourceLedger.left limit (used + accepted)
  within : ∀ l ∈ limit, 0 < accepted → used + accepted ≤ l

theorem Tracks.start (limit : Option Rat) (used : Rat) :
    Tracks limit used 0 (ResourceLedger.left limit used) :=
  ⟨by rw [add_zero], fun _ _ positive => absurd positive (lt_irrefl 0)⟩

theorem Tracks.consume (h : Tracks limit used accepted available) (positive : 0 ≤ demand)
    (fits : ResourceLedger.exceeds demand available = false) :
    Tracks limit used (accepted + demand) (ResourceLedger.left available demand) := by
  obtain ⟨rfl, within⟩ := h
  cases limit with
  | none => exact ⟨rfl, by simp⟩
  | some l =>
      have fits : demand ≤ max 0 (l - (used + accepted)) := by
        rw [ResourceLedger.left, Option.map_some, ResourceLedger.exceeds, Option.any_some,
          decide_eq_false_iff_not] at fits
        exact not_lt.mp fits
      constructor
      · simp only [ResourceLedger.left, Option.map_some, Option.some.injEq]
        rcases le_total 0 (l - (used + accepted)) with left | none_
        · rw [max_eq_right left, sub_sub, add_assoc]
        · rw [max_eq_left none_] at fits ⊢
          rw [max_eq_left, max_eq_left] <;> linarith
      · intro l' same
        cases same
        intro some_
        rcases positive.eq_or_lt with zero | more
        · rw [← zero, add_zero] at some_ ⊢
          exact within l rfl some_
        · have room : 0 < l - (used + accepted) := by
            by_contra full
            rw [max_eq_left (not_lt.mp full)] at fits
            exact absurd more (not_lt.mpr fits)
          rw [max_eq_right room.le] at fits
          linarith

end

end Magellan.Bidding
