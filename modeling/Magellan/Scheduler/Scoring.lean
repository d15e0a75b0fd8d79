import Magellan.Data.Ranked
import Magellan.Policy.Models
import Magellan.Scheduler.Estimates

/-!
# The choice of an action

The estimates of a task's actions, their scores and the action that is selected.
-/

namespace Magellan.Planning

/-! ## Estimates -/

section BuildRawActions

variable (math : MathModule) (carbonStore : CarbonStore) (graph : ClusterGraph)
  (policy : ScoringPolicy) (task : TaskProfile) (source : NodeConfig) (now : Instant)

def pauseEstimates : List Rat → Except Exn (List RawActionEstimate)
  | [] => .ok []
  | idleSeconds :: rest => do
    let pauseEstimate ← estimatePause math carbonStore policy.carbonForecast task source now
      policy.horizonSeconds policy.pause idleSeconds
    let others ← pauseEstimates rest
    return pauseEstimate.toList ++ others

/-- The migration goes over the task's cost cap. -/
def TaskProfile.overCap (task : TaskProfile) (migrationEstimate : RawActionEstimate) : Bool :=
  task.costCapUsd.any fun cap => cap < task.accumulatedCostUsd + migrationEstimate.costUsd

/-- The estimates of the destinations that are compatible, without those over the cost cap. Where
static data is listed by destination, a destination that is not listed needs none. -/
def migrationEstimates (staticDataBytesByDestination : Option (NodeId → Option Nat))
    (compatibleDestinationIds : Option (List NodeId)) :
    List NodeConfig → Except Exn (List RawActionEstimate)
  | [] => .ok []
  | destination :: rest =>
    if compatibleDestinationIds.any fun compatible => destination.id ∉ compatible then
      migrationEstimates staticDataBytesByDestination compatibleDestinationIds rest
    else do
      let edge ← graph.edge math source.id destination.id
      let migrationEstimate ← estimateMigrate math carbonStore policy.carbonForecast task source
        destination edge now policy.horizonSeconds policy.pause policy.migration
        (staticDataBytesByDestination.map fun listed => (listed destination.id).getD 0)
      let others ← migrationEstimates staticDataBytesByDestination compatibleDestinationIds rest
      return if task.overCap migrationEstimate then others else migrationEstimate :: others

end BuildRawActions

def buildRawActions (math : MathModule) (task : TaskProfile) (cluster : ClusterConfig)
    (policy : ScoringPolicy) (graph : ClusterGraph) (carbonStore : CarbonStore) (now : Instant)
    (staticDataBytesByDestination : Option (NodeId → Option Nat))
    (compatibleDestinationIds : Option (List NodeId)) : Except Exn (List RawActionEstimate) := do
  let source ← cluster.getNode task.currentNodeId
  let continueEstimate ← estimateContinue math carbonStore policy.carbonForecast task source now
    policy.horizonSeconds
  let pauses ← pauseEstimates math carbonStore policy task source now policy.pause.idleCandidates
  let migrations ← migrationEstimates math carbonStore graph policy task source now
    staticDataBytesByDestination compatibleDestinationIds (graph.peers source.id)
  return continueEstimate :: (pauses ++ migrations)

/-! ## Scores -/

structure ScoredAction extends RawActionEstimate where
  normalizedTime : Rat
  normalizedCarbon : Rat
  normalizedCost : Rat
  score : Rat
  deriving DecidableEq

def ScoredAction.validated (scored : ScoredAction) : Except Exn ScoredAction := do
  requireNonneg "ScoredAction" [("time_seconds", scored.timeSeconds),
    ("carbon_grams", scored.carbonGrams), ("cost_usd", scored.costUsd),
    ("normalized_time", scored.normalizedTime), ("normalized_time", 1 - scored.normalizedTime),
    ("normalized_carbon", scored.normalizedCarbon),
    ("normalized_carbon", 1 - scored.normalizedCarbon), ("normalized_cost", scored.normalizedCost),
    ("normalized_cost", 1 - scored.normalizedCost), ("score", scored.score)]
  return scored

/-- Where a value stands between the bounds. -/
def position (least greatest value : Rat) : Rat := (value - least) / (greatest - least)

def minmaxNormalize (values : List Rat) : List Rat :=
  if maximum values = minimum values then values.map fun _ => 0
  else values.map (position (minimum values) (maximum values))

def normalizeWithBounds (values : List Rat) (least greatest : Rat) : List Rat :=
  if greatest ≤ least then values.map fun _ => 0
  else values.map fun value => max 0 (min 1 (position least greatest value))

structure NormalizedMetrics where
  times : List Rat
  carbons : List Rat
  costs : List Rat
  alpha : Rat
  beta : Rat
  gamma : Rat

def normalizeMetrics (estimates : List RawActionEstimate) (policy : ScoringPolicy) :
    Option AdaptiveDecisionContext → NormalizedMetrics
  | none =>
    let (alpha, beta, gamma) := policy.weights.normalized
    { times := minmaxNormalize (estimates.map (·.timeSeconds))
      carbons := minmaxNormalize (estimates.map (·.carbonGrams))
      costs := minmaxNormalize (estimates.map (·.costUsd))
      alpha, beta, gamma }
  | some context =>
    let bounds := context.normalizationBounds
    let weights := context.effectiveWeights
    { times := normalizeWithBounds (estimates.map (·.timeSeconds)) bounds.timeMin bounds.timeMax
      carbons := normalizeWithBounds (estimates.map (·.carbonGrams)) bounds.carbonMin bounds.carbonMax
      costs := normalizeWithBounds (estimates.map (·.costUsd)) bounds.costMin bounds.costMax
      alpha := weights.time
      beta := weights.carbon
      gamma := weights.cost }

def scoreEach (alpha beta gamma : Rat) :
    List RawActionEstimate → List Rat → List Rat → List Rat → Except Exn (List ScoredAction)
  | estimate :: estimates, time :: times, carbon :: carbons, cost :: costs => do
    let scored ← ScoredAction.validated { estimate with
      normalizedTime := time
      normalizedCarbon := carbon
      normalizedCost := cost
      score := alpha * time + beta * carbon + gamma * cost }
    let others ← scoreEach alpha beta gamma estimates times carbons costs
    return scored :: others
  | _, _, _, _ => .ok []

def scoreActions (estimates : List RawActionEstimate) (policy : ScoringPolicy)
    (adaptiveContext : Option AdaptiveDecisionContext) : Except Exn (List ScoredAction) :=
  if estimates = [] then .error (valueError "Cannot score an empty action list")
  else do
    let m := normalizeMetrics estimates policy adaptiveContext
    let scored ← scoreEach m.alpha m.beta m.gamma estimates m.times m.carbons m.costs
    return rankBy (·.score) scored

/-! ## The selection -/

structure DecisionResult where
  selected : ScoredAction
  rankedActions : List ScoredAction
  reason : String

def ActionType.isLocal : ActionType → Bool
  | .continue_ | .pause => true
  | .migrate => false

/-- The last of them was less than the gap ago. -/
def withinGap (now : Instant) (last : Option Instant) (gapSeconds : Rat) : Bool :=
  last.any fun last => now - last < gapSeconds

def relativeImprovement (bestLocal bestOverall : ScoredAction) : Rat :=
  (bestLocal.score - bestOverall.score) / max bestLocal.score (1 / 1000000000000)

def bestLocal (rankedActions : List ScoredAction) : Option ScoredAction :=
  (rankedActions.filter (·.action.isLocal)).argmin (·.score)

def chooseAction (task : TaskProfile) (rankedActions : List ScoredAction) (policy : ScoringPolicy)
    (now : Instant) : Except Exn DecisionResult :=
  match rankedActions with
  | [] => .error (valueError "No ranked actions were supplied")
  | bestOverall :: _ =>
    match bestLocal rankedActions with
    | none => .error (valueError "At least one local action must exist")
    | some bestLocal =>
      match bestOverall.action with
      | .pause =>
        match rankedActions.find? (·.action = .continue_) with
        | none => .error ⟨.stopIteration, ""⟩
        | some continueAction =>
          if withinGap now task.lastPauseAt policy.pause.minPauseGapSeconds then
            .ok ⟨continueAction, rankedActions,
              "Pause has the lowest score, but the minimum pause gap has not elapsed"⟩
          else
            .ok ⟨bestOverall, rankedActions,
              s!"Pause for {bestOverall.idleSeconds.getD 0} seconds has the lowest score"⟩
      | .continue_ => .ok ⟨bestOverall, rankedActions, "Continue has the lowest score"⟩
      | .migrate =>
        if withinGap now task.lastMigrationAt policy.migration.minMigrationGapSeconds then
          .ok ⟨bestLocal, rankedActions,
            "Migration has the lowest score, but the minimum migration gap has not elapsed"⟩
        else if relativeImprovement bestLocal bestOverall <
            policy.migration.requiredImprovementFraction then
          .ok ⟨bestLocal, rankedActions,
            "Migration improvement is below the required hysteresis threshold"⟩
        else
          .ok ⟨bestOverall, rankedActions,
            "Migration has the lowest score and passes migration gap and improvement checks"⟩

end Magellan.Planning
