import Mathlib.Tactic.NormNum
import Magellan.Bidding.Store

/-!
# Bids

The full bid record, the resources that a bid asks for and the policy of an auction. The lease part
of the record is the one that the migrations use. Of the candidate action only its score is kept, and
of the task context what ranking and admission read.
-/

namespace Magellan

def BidStatus.ofValue (value : String) : Option BidStatus :=
  [.pending, .accepted, .activating, .consumed, .rejected, .cancelled, .expired].find?
    (·.value = value)

def BidStatus.IsFinal (status : BidStatus) : Prop :=
  status = .rejected ∨ status = .consumed ∨ status = .cancelled ∨ status = .expired

end Magellan

namespace Magellan.Bidding

inductive AuctionStrategy where
  | lowestScore
  | shortestRemaining
  | longestRemaining
  | creditFair
  | highestRegret
  | priorityDeadline
  | resourceEfficiency
  deriving DecidableEq

def AuctionStrategy.value : AuctionStrategy → String
  | .lowestScore => "lowest_score"
  | .shortestRemaining => "shortest_remaining"
  | .longestRemaining => "longest_remaining"
  | .creditFair => "credit_fair"
  | .highestRegret => "highest_regret"
  | .priorityDeadline => "priority_deadline"
  | .resourceEfficiency => "resource_efficiency"

def AuctionStrategy.ofValue (value : String) : Option AuctionStrategy :=
  [.lowestScore, .shortestRemaining, .longestRemaining, .creditFair, .highestRegret,
    .priorityDeadline, .resourceEfficiency].find? (·.value = value)

def AuctionStrategy.ofOptional : Option String → Option (Option AuctionStrategy)
  | none => some none
  | some value => (ofValue value).map some

structure TaskResourceRequest where
  cpuCores : Rat := 1
  memoryMb : Nat := 0
  gpuCount : Nat := 0
  acceleratorType : Option String := none
  cpuCores_pos : 0 < cpuCores := by norm_num
  deriving DecidableEq

def defaultRequest : TaskResourceRequest := {}

/-- A limit `none` is not enforced. -/
structure NodeResourceCapacity where
  cpuCores : Option Rat := none
  memoryMb : Option Nat := none
  gpuCount : Option Nat := none
  acceleratorTypes : List String := []
  cpuCores_pos : ∀ limit ∈ cpuCores, 0 < limit := by simp
  memoryMb_pos : ∀ limit ∈ memoryMb, 0 < limit := by simp

structure TaskCompatibilityRequirements where
  architectures : List String := []
  operatingSystems : List String := []
  minimumCpuCores : Option Rat := none
  minimumMemoryMb : Option Nat := none
  minimumGpuCount : Option Nat := none
  acceleratorTypes : List String := []
  requiredCommands : List String := []
  requiredRuntimes : List (String × String) := []
  requiredFeatures : List String := []
  deriving DecidableEq

/-- The task is compatible when there is no reason against it. -/
structure CompatibilityResult where
  reasons : List String := []
  deriving DecidableEq

def CompatibilityResult.compatible (c : CompatibilityResult) : Bool := c.reasons.isEmpty

structure TaskBidContext where
  priority : Nat := 0
  deadlineAtUtc : Option Timestamp := none
  estimatedRemainingSeconds : Option Rat := none
  resourceRequest : TaskResourceRequest := {}
  opportunityLoss : Rat := 0
  compatibility : TaskCompatibilityRequirements := {}
  deriving DecidableEq

structure BidRequest where
  bidId : BidId
  epochId : String
  taskId : TaskId
  taskContext : Option TaskBidContext := none
  sourceNodeId : NodeId
  destinationNodeId : NodeId
  candidateScore : Rat
  submittedAtUtc : Timestamp
  deriving DecidableEq

/-- A value of `auction_metrics`. -/
inductive MetricValue where
  | number (x : Rat)
  | infinite
  | null
  deriving DecidableEq

structure BidRecord extends lease : Magellan.BidRecord where
  epochId : String
  taskContext : Option TaskBidContext := none
  candidateScore : Rat
  submittedAtUtc : Timestamp
  auctionStrategy : Option AuctionStrategy := none
  auctionRank : Option Int := none
  auctionCreditBefore : Rat := 0
  auctionCreditAfter : Rat := 0
  resourceFit : Option Bool := none
  compatibilityFit : Option Bool := none
  compatibilityReasons : List String := []
  auctionMetrics : List (String × MetricValue) := []
  deriving DecidableEq

/-- `BidRecord(**request.model_dump(), status=PENDING, received_at_utc=now)` -/
def BidRecord.ofRequest (r : BidRequest) (receivedAtUtc : Timestamp) : BidRecord where
  bidId := r.bidId
  taskId := r.taskId
  sourceNodeId := r.sourceNodeId
  destinationNodeId := r.destinationNodeId
  status := .pending
  receivedAtUtc := receivedAtUtc
  epochId := r.epochId
  taskContext := r.taskContext
  candidateScore := r.candidateScore
  submittedAtUtc := r.submittedAtUtc

structure AuctionPolicy where
  strategy : AuctionStrategy := .lowestScore
  creditIncrement : Rat := 1
  creditMax : Rat := 100
  acceptedCreditDecay : Rat := 0
  deadlineUrgencyWindowSeconds : Rat := 3600
  resourceEfficiencyFloor : Rat := 1 / 100
  creditIncrement_pos : 0 < creditIncrement := by norm_num
  creditMax_pos : 0 < creditMax := by norm_num
  acceptedCreditDecay_bounds : 0 ≤ acceptedCreditDecay ∧ acceptedCreditDecay ≤ 1 := by norm_num
  deadlineUrgencyWindowSeconds_pos : 0 < deadlineUrgencyWindowSeconds := by norm_num
  resourceEfficiencyFloor_pos : 0 < resourceEfficiencyFloor := by norm_num

def defaultPolicy : AuctionPolicy := {}

end Magellan.Bidding
