import Magellan.Bidding.BidStore
import Magellan.Bidding.Ranking
import Magellan.State.PersistentRegistry

/-!
# The arbiter

One pass of the destination's auction. Whatever the order of the bids, what a pass admits fits into
the slots and the resources that are neither owned nor reserved.
-/

namespace Magellan

/-- A task of the registry, with the request of its definition. -/
structure TaskEntry where
  state : TaskRuntimeState
  resourceRequest : Bidding.TaskResourceRequest

def TaskStatus.holdsCapacity : TaskStatus → Bool
  | .running | .paused | .migrating | .recovering | .failed => true
  | _ => false

namespace Registry

def capacityEntries (entries : List TaskEntry) (nodeId : NodeId) : List TaskEntry :=
  entries.filter fun entry =>
    entry.state.ownerNodeId = nodeId ∧ entry.state.status.holdsCapacity

def countOwned (entries : List TaskEntry) (nodeId : NodeId) : Nat :=
  (capacityEntries entries nodeId).length

def ownedResourceRequests (entries : List TaskEntry) (nodeId : NodeId) :
    List Bidding.TaskResourceRequest :=
  (capacityEntries entries nodeId).map (·.resourceRequest)

end Registry

end Magellan

namespace Magellan.Bidding

open Registry BidStore

structure BidArbiter where
  localNodeId : NodeId
  capacity : Option Nat
  bidWindow : Nat
  nodeResources : NodeResourceCapacity := {}
  auctionPolicy : AuctionPolicy := {}
  /-- `check_compatibility` with the capabilities of the node. -/
  checkCompatibility : TaskCompatibilityRequirements → CompatibilityResult

def BidRecord.resourceRequest (r : BidRecord) : TaskResourceRequest :=
  (r.taskContext.map (·.resourceRequest)).getD defaultRequest

/-- What the loop of a pass carries: what is left, and the bids that it has accepted and those that
lost to other demand. -/
structure Admission where
  availableSlots : Option Nat
  ledger : ResourceLedger
  accepted : List BidRecord := []
  competitionRejected : List BidRecord := []

structure Verdict where
  status : BidStatus
  reason : String
  resourceFit : Bool
  earnsCredit : Bool
  compatibility : CompatibilityResult

/-- The loop variables after a verdict. -/
def Admission.record (x : Admission) (bid : BidRecord) (v : Verdict) : Admission :=
  if v.status = .accepted then
    { x with
      availableSlots := x.availableSlots.map (· - 1)
      ledger := x.ledger.consume bid.resourceRequest
      accepted := x.accepted ++ [bid] }
  else if v.earnsCredit then
    { x with competitionRejected := x.competitionRejected ++ [bid] }
  else x

/-- The times a pass reads: its own, and the clock at each read of the store. -/
structure Clock where
  now : Timestamp
  pending : Timestamp
  reservations : Timestamp
  printed : List Timestamp

/-- A pass that came to a decision. -/
structure Auction where
  reservations : List BidRecord
  ranked : List RankedBid
  admission : Admission

structure Pass where
  progressed : Bool
  store : BidStore
  auction : Option Auction := none

namespace BidArbiter

def strategy (a : BidArbiter) : AuctionStrategy := a.auctionPolicy.strategy

def fullLedger (a : BidArbiter) : ResourceLedger := .fromCapacity a.nodeResources {}

/-- What is left next to the owned tasks and the reservations. -/
def availableResources (a : BidArbiter) (registry : List TaskEntry)
    (reservations : List BidRecord) : Admission where
  availableSlots := a.capacity.map fun capacity =>
    capacity - countOwned registry a.localNodeId - reservations.length
  ledger := .fromCapacity a.nodeResources (sumRequests
    (ownedResourceRequests registry a.localNodeId ++ reservations.map (·.resourceRequest)))

def verdict (a : BidArbiter) (x : Admission) (bid : BidRecord) : Verdict :=
  let request := bid.resourceRequest
  let infeasible := a.fullLedger.incompatible request
  let compatibility :=
    a.checkCompatibility ((bid.taskContext.map (·.compatibility)).getD {})
  let rejected (reason : String) (resourceFit earnsCredit : Bool) : Verdict :=
    ⟨.rejected, reason, resourceFit, earnsCredit, compatibility⟩
  if bid.taskId ∈ x.accepted.map (·.taskId) then
    rejected "Duplicate bid for a task already selected in this auction window"
      infeasible.isNone false
  else if ¬ compatibility.compatible then
    rejected ("; ".intercalate compatibility.reasons) infeasible.isNone false
  else
    match infeasible with
    | some reason => rejected reason false false
    | none =>
        if x.availableSlots = some 0 then
          rejected "Destination task slots are already owned or reserved" true true
        else
          match x.ledger.incompatible request with
          | some reason => rejected reason false true
          | none =>
              ⟨.accepted, s!"Selected by {a.strategy.value} task auction; " ++
                "destination resources are reserved", true, false, compatibility⟩

def metrics (request : TaskResourceRequest) (item : RankedBid) : List (String × MetricValue) :=
  item.metrics ++ [
    ("requested_cpu_cores", .number request.cpuCores),
    ("requested_memory_mb", .number request.memoryMb),
    ("requested_gpu_count", .number request.gpuCount)]

/-- What the arbiter reports to the store with a verdict. -/
def details (a : BidArbiter) (credits : Dict TaskId Rat) (rank : Nat) (item : RankedBid)
    (v : Verdict) : AuctionDetails where
  auctionStrategy := some a.strategy
  auctionRank := some rank
  auctionCreditBefore := credits.getD item.bid.taskId 0
  resourceFit := some v.resourceFit
  compatibilityFit := some v.compatibility.compatible
  compatibilityReasons := v.compatibility.reasons
  auctionMetrics := metrics item.bid.resourceRequest item

def decideBid (a : BidArbiter) (now : Timestamp) (credits : Dict TaskId Rat) (rank : Nat)
    (item : RankedBid) (x : Admission) (s : BidStore) : Admission × BidStore :=
  let v := a.verdict x item.bid
  (x.record item.bid v,
    (s.decide item.bid.bidId v.status v.reason now (a.details credits rank item v)).2)

/-- The decisions on the ranked bids, the next rank being `rank`. -/
def decideAll (a : BidArbiter) (now : Timestamp) (credits : Dict TaskId Rat) :
    Nat → List RankedBid → Admission → BidStore → Admission × BidStore
  | _, [], x, s => (x, s)
  | rank, item :: items, x, s =>
      let (x, s) := a.decideBid now credits rank item x s
      a.decideAll now credits (rank + 1) items x s

/-- The bids that came within a window of the first one, once the window has passed. -/
def windowBids (a : BidArbiter) (now : Timestamp) (pending : List BidRecord) :
    Option (List BidRecord) :=
  match pending with
  | [] => none
  | first :: _ =>
      let windowEnd := first.receivedAtUtc + a.bidWindow
      if now < windowEnd then none else some (pending.filter (·.receivedAtUtc ≤ windowEnd))

/-- The part of a pass in which it decides on the bids of a window. -/
def decideWindow (a : BidArbiter) (registry : List TaskEntry) (clock : Clock)
    (bids : List BidRecord) (s : BidStore) : Auction × BidStore :=
  let credits := s.credits
  let ranked := rankBids bids a.strategy credits a.nodeResources a.auctionPolicy clock.now
  let (reservations, s) := s.activeReservations clock.reservations
  let (x, s) := a.decideAll clock.now credits 1 ranked
    (a.availableResources registry reservations) s
  let s := s.applyCreditOutcomes (x.accepted.map (·.bidId)) (x.competitionRejected.map (·.bidId))
    a.auctionPolicy.creditIncrement a.auctionPolicy.creditMax a.auctionPolicy.acceptedCreditDecay
  -- the decided bids are read again to be printed
  (⟨reservations, ranked, x⟩, clock.printed.foldl (fun s now => (s.expireLocked now).2) s)

def runOnce (a : BidArbiter) (registry : List TaskEntry) (clock : Clock) (s : BidStore) : Pass :=
  let (expired, s) := s.expireReservations clock.now
  let (pending, s) := s.pendingRecords clock.pending
  match a.windowBids clock.now pending with
  | none => { progressed := expired ≠ [], store := s }
  | some bids =>
      let (auction, s) := a.decideWindow registry clock bids s
      { progressed := true, store := s, auction := some auction }

@[simp] theorem decideAll_cons (a : BidArbiter) (now : Timestamp) (credits : Dict TaskId Rat)
    (rank : Nat) (item : RankedBid) (items : List RankedBid) (x : Admission) (s : BidStore) :
    a.decideAll now credits rank (item :: items) x s =
      a.decideAll now credits (rank + 1) items (a.decideBid now credits rank item x s).1
        (a.decideBid now credits rank item x s).2 := rfl

/-- The store when a pass has read the pending bids. -/
def opened (clock : Clock) (s : BidStore) : BidStore :=
  ((s.expireReservations clock.now).2.pendingRecords clock.pending).2

theorem runOnce_decides {a : BidArbiter} {registry : List TaskEntry} {clock : Clock} {s : BidStore}
    {auction : Auction} (h : (a.runOnce registry clock s).auction = some auction) :
    ∃ bids, a.windowBids clock.now
        ((s.expireReservations clock.now).2.pendingRecords clock.pending).1 = some bids ∧
      a.decideWindow registry clock bids (opened clock s) =
        (auction, (a.runOnce registry clock s).store) := by
  unfold runOnce at h ⊢
  dsimp only at h ⊢
  cases window : a.windowBids clock.now
      ((s.expireReservations clock.now).2.pendingRecords clock.pending).1 with
  | none =>
      rw [window] at h
      cases h
  | some bids =>
      rw [window] at h
      cases h
      exact ⟨bids, rfl, rfl⟩

end BidArbiter

end Magellan.Bidding
