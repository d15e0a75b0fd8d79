import Mathlib.Data.List.Sort
import Mathlib.Data.Prod.Lex
import Mathlib.Data.String.Basic
import Mathlib.Order.WithBot
import Magellan.Data.Dict
import Magellan.Bidding.Resources

/-!
# The order of an auction

Each strategy ranks the bids by a value of its own, then by score, arrival and id.
-/

namespace Magellan.Bidding

/-- The value of the strategy, the score, the time of arrival and the id of the bid. -/
abbrev SortKey := WithTop Rat ×ₗ Rat ×ₗ Timestamp ×ₗ BidId

structure RankedBid where
  bid : BidRecord
  sortKey : SortKey
  metrics : List (String × MetricValue)

def MetricValue.ofOption : Option Rat → MetricValue
  | none => .null
  | some x => .number x

/-- The urgency of a deadline, and the seconds that completion leaves before it. -/
def deadlineMetrics (bid : BidRecord) (now : Timestamp) (policy : AuctionPolicy) :
    Rat × Option Rat :=
  match bid.taskContext.bind (·.deadlineAtUtc) with
  | none => (0, none)
  | some deadline =>
      let remaining := (bid.taskContext.bind (·.estimatedRemainingSeconds)).getD 0
      let wallSlack := ((deadline : Rat) - now) / 1000000
      let completionSlack := wallSlack - remaining
      (max 0 (min 2 (1 - completionSlack / policy.deadlineUrgencyWindowSeconds)),
        some completionSlack)

/-- The value of a migration for each unit of the resource that it uses most. -/
def resourceEfficiency (migrationValue : Rat) (dominantShare : Option Rat) (floor : Rat) : Rat :=
  match dominantShare with
  | none => 0
  | some share => migrationValue / max share floor

def rankBid (strategy : AuctionStrategy) (credits : Dict TaskId Rat)
    (nodeResources : NodeResourceCapacity) (policy : AuctionPolicy) (now : Timestamp)
    (bid : BidRecord) : RankedBid :=
  let remaining := bid.taskContext.bind (·.estimatedRemainingSeconds)
  let credit := credits.getD bid.taskId 0
  let opportunityLoss := (bid.taskContext.map (·.opportunityLoss)).getD 0
  let priority := (bid.taskContext.map (·.priority)).getD 0
  let (urgency, deadlineSlack) := deadlineMetrics bid now policy
  let dominantShare := match bid.taskContext with
    | some context => dominantResourceShare context.resourceRequest nodeResources
    | none => some 1
  let migrationValue := max opportunityLoss (max 0 (1 - bid.candidateScore))
  let efficiency := resourceEfficiency migrationValue dominantShare policy.resourceEfficiencyFloor
  let urgencyValue := urgency + (priority : Rat) / 100
  let value : WithTop Rat := match strategy with
    | .lowestScore => ((bid.candidateScore : Rat) : WithTop Rat)
    | .shortestRemaining => remaining
    | .longestRemaining => ((-(remaining.getD (-1)) : Rat) : WithTop Rat)
    | .creditFair => ((-credit : Rat) : WithTop Rat)
    | .highestRegret => ((-opportunityLoss : Rat) : WithTop Rat)
    | .priorityDeadline => ((-urgencyValue : Rat) : WithTop Rat)
    | .resourceEfficiency => ((-efficiency : Rat) : WithTop Rat)
  { bid := bid
    -- the key of the lowest score has the score once; twice is the same order
    sortKey := toLex (value, toLex (bid.candidateScore, toLex (bid.receivedAtUtc, bid.bidId)))
    metrics := [
      ("candidate_score", .number bid.candidateScore),
      ("estimated_remaining_seconds", .ofOption remaining),
      ("credit", .number credit),
      ("opportunity_loss", .number opportunityLoss),
      ("priority", .number priority),
      ("deadline_completion_slack_seconds", .ofOption deadlineSlack),
      ("deadline_urgency", .number urgency),
      ("dominant_resource_share", dominantShare.elim .infinite .number),
      ("resource_efficiency", .number efficiency)] }

def rankBids (bids : List BidRecord) (strategy : AuctionStrategy) (credits : Dict TaskId Rat)
    (nodeResources : NodeResourceCapacity) (policy : AuctionPolicy) (now : Timestamp) :
    List RankedBid :=
  (bids.map (rankBid strategy credits nodeResources policy now)).insertionSort
    fun x y => x.sortKey ≤ y.sortKey

section

variable {bids : List BidRecord} {strategy : AuctionStrategy} {credits : Dict TaskId Rat}
  {nodeResources : NodeResourceCapacity} {policy : AuctionPolicy} {now : Timestamp}

theorem rankBids_perm : ((rankBids bids strategy credits nodeResources policy now).map
    (·.bid)).Perm bids := by
  have perm := (List.perm_insertionSort (fun x y : RankedBid => x.sortKey ≤ y.sortKey)
    (bids.map (rankBid strategy credits nodeResources policy now))).map (·.bid)
  rw [List.map_map] at perm
  exact perm.trans (List.Perm.of_eq (List.map_id bids))

end

end Magellan.Bidding
