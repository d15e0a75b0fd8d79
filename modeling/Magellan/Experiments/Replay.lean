import Magellan.Data.Budget
import Magellan.Experiments.Comparison
import Magellan.Scheduler.Evaluation

/-!
# The causal replay

A workload is run along a trace as the scheduler would run it, deciding after each step from what is
known then, until the work is done or the decisions are used up.
-/

namespace Magellan.Planning

inductive ComparisonPolicy where
  | bostonStatic
  | franceStatic
  | bestStatic
  | bestAtDispatch
  | temporalOnly
  | magellanCausal
  deriving DecidableEq

def ComparisonPolicy.value : ComparisonPolicy → String
  | .bostonStatic => "boston_static"
  | .franceStatic => "france_static"
  | .bestStatic => "best_static"
  | .bestAtDispatch => "best_at_dispatch"
  | .temporalOnly => "temporal_only"
  | .magellanCausal => "magellan_causal"

/-- What a replay notes of a step. -/
structure ReplayDetails where
  decision : DecisionResult
  pauseOverheadSeconds : Option Rat := none

abbrev PolicyStep := ReplayStep ReplayDetails

/-- What `replay_causal_policy` is called with. -/
structure ReplayArguments where
  math : MathModule
  label : ComparisonPolicy
  cluster : ClusterConfig
  policy : ScoringPolicy
  workload : ComparisonWorkload
  carbonStore : CarbonStore
  graph : ClusterGraph
  start : Instant
  maxDecisions : Nat := 10000
  assumeStaticPrestaged : Bool := true

structure ReplayState where
  currentTime : Instant
  currentNodeId : NodeId
  remaining : Rat
  accumulatedCarbon : Rat := 0
  accumulatedCost : Rat := 0
  computeSeconds : Rat := 0
  pausedIdleSeconds : Rat := 0
  pauseOverheadSeconds : Rat := 0
  migrationSeconds : Rat := 0
  migrations : Nat := 0
  pauses : Nat := 0
  lastMigrationAt : Option Instant := none
  lastPauseAt : Option Instant := none
  ownerPath : List NodeId
  steps : List PolicyStep := []
  prestaged : List NodeId
  policyStore : AdaptivePolicyStore := .empty

/-- `_pause_metrics`: the charges, the idle time and the overhead. -/
def pauseMetrics (node : NodeConfig) (policy : ScoringPolicy) (carbonStore : CarbonStore)
    (start : Instant) (idleSeconds powerKw : Rat) : Except Exn (SegmentMetrics × Rat × Rat) := do
  let pause ← activeOverheadSegment carbonStore start node policy.pause.pauseSeconds powerKw
  let resumeStart := start + (policy.pause.pauseSeconds + idleSeconds)
  let resume ← activeOverheadSegment carbonStore resumeStart node policy.pause.resumeSeconds powerKw
  let elapsed := policy.pause.pauseSeconds + idleSeconds + policy.pause.resumeSeconds
  return (⟨elapsed, pause.carbonGrams + resume.carbonGrams, 0⟩, idleSeconds,
    policy.pause.pauseSeconds + policy.pause.resumeSeconds)

def TaskProfile.validated (task : TaskProfile) : Except Exn TaskProfile := do
  requireNonneg "TaskProfile" [("estimated_remaining_seconds", task.estimatedRemainingSeconds.getD 0),
    ("accumulated_cost_usd", task.accumulatedCostUsd)]
  return task

namespace ReplayArguments

variable (a : ReplayArguments)

def allNodeIds : List NodeId := a.cluster.nodes.map (·.id)

def initial : ReplayState where
  currentTime := a.start
  currentNodeId := a.workload.startNodeId
  remaining := a.workload.durationSeconds
  ownerPath := [a.workload.startNodeId]
  prestaged := if a.assumeStaticPrestaged then a.allNodeIds else [a.workload.startNodeId]

def service : AdaptivePolicyService := ⟨a.policy.adaptive, weightsFromConfig a.policy.weights⟩

def taskProfile (s : ReplayState) : TaskProfile where
  taskId := s!"replay-{a.label.value}-{a.workload.name}"
  currentNodeId := s.currentNodeId
  powerKw := a.workload.powerKw
  checkpointBytes := a.workload.checkpointBytes
  dataBytes := a.workload.staticDataBytes
  prestagedNodeIds := s.prestaged
  estimatedRemainingSeconds := some s.remaining
  accumulatedCostUsd := s.accumulatedCost
  costCapUsd := a.workload.costCapUsd
  lastMigrationAt := s.lastMigrationAt
  lastPauseAt := s.lastPauseAt

def compatible (s : ReplayState) : List NodeId :=
  if a.label = .temporalOnly then [] else a.allNodeIds.filter (· ≠ s.currentNodeId)

def staticBytes (s : ReplayState) (nodeId : NodeId) : Nat :=
  if nodeId ∈ s.prestaged then 0 else a.workload.staticDataBytes

def staticData (s : ReplayState) (nodeId : NodeId) : Option Nat :=
  if nodeId ∈ a.compatible s then some (a.staticBytes s nodeId) else none

def evaluate (s : ReplayState) : Except Exn (DecisionResult × AdaptivePolicyStore) := do
  let task ← (a.taskProfile s).validated
  evaluateTask a.math (some a.service) s.policyStore a.policy task s.currentTime 0 a.cluster a.graph
    a.carbonStore (some (a.staticData s)) (some (a.compatible s))

/-! ## The steps -/

section Steps

variable (index : Nat) (s : ReplayState) (node : NodeConfig) (decision : DecisionResult)

def goOn : Except Exn ReplayState := do
  let seconds := min (a.cluster.epochSeconds : Rat) s.remaining
  let metrics ← computeSegment a.carbonStore s.currentTime node seconds a.workload.powerKw
  let remaining := max 0 (s.remaining - seconds)
  let step ← ReplayStep.validated {
    index
    action := .continue_
    sourceNodeId := s.currentNodeId
    startedAt := s.currentTime
    finishedAt := s.currentTime + seconds
    elapsedSeconds := seconds
    computeSeconds := seconds
    carbonGrams := metrics.carbonGrams
    costUsd := metrics.costUsd
    remainingSecondsAfter := remaining
    reason := decision.reason
    details := { decision } }
  return { s with
    currentTime := s.currentTime + seconds
    remaining
    computeSeconds := s.computeSeconds + seconds
    accumulatedCarbon := s.accumulatedCarbon + metrics.carbonGrams
    accumulatedCost := s.accumulatedCost + metrics.costUsd
    steps := s.steps ++ [step] }

def pauseFirst : Except Exn ReplayState := do
  let idleSeconds := decision.selected.idleSeconds.getD 0
  let (metrics, idle, overhead) ← pauseMetrics node a.policy a.carbonStore s.currentTime idleSeconds
    a.workload.powerKw
  let step ← ReplayStep.validated {
    index
    action := .pause
    sourceNodeId := s.currentNodeId
    startedAt := s.currentTime
    finishedAt := s.currentTime + metrics.elapsedSeconds
    elapsedSeconds := metrics.elapsedSeconds
    idleSeconds := idle
    carbonGrams := metrics.carbonGrams
    costUsd := 0
    remainingSecondsAfter := s.remaining
    reason := decision.reason
    details := { decision, pauseOverheadSeconds := some overhead } }
  return { s with
    currentTime := s.currentTime + metrics.elapsedSeconds
    pausedIdleSeconds := s.pausedIdleSeconds + idle
    pauseOverheadSeconds := s.pauseOverheadSeconds + overhead
    accumulatedCarbon := s.accumulatedCarbon + metrics.carbonGrams
    lastPauseAt := some s.currentTime
    pauses := s.pauses + 1
    steps := s.steps ++ [step] }

def migrateTo (destinationId : NodeId) : Except Exn ReplayState := do
  let destination ← a.cluster.getNode destinationId
  let edge ← a.graph.edge a.math s.currentNodeId destinationId
  let metrics ← realizedMigration a.carbonStore s.currentTime node destination edge a.policy
    a.workload.powerKw a.workload.checkpointBytes (a.staticBytes s destinationId)
  let step ← ReplayStep.validated {
    index
    action := .migrate
    sourceNodeId := node.id
    destinationNodeId := some destinationId
    startedAt := s.currentTime
    finishedAt := s.currentTime + metrics.elapsedSeconds
    elapsedSeconds := metrics.elapsedSeconds
    migrationSeconds := metrics.elapsedSeconds
    carbonGrams := metrics.carbonGrams
    costUsd := metrics.costUsd
    remainingSecondsAfter := s.remaining
    reason := decision.reason
    details := { decision } }
  return { s with
    currentTime := s.currentTime + metrics.elapsedSeconds
    migrationSeconds := s.migrationSeconds + metrics.elapsedSeconds
    accumulatedCarbon := s.accumulatedCarbon + metrics.carbonGrams
    accumulatedCost := s.accumulatedCost + metrics.costUsd
    migrations := s.migrations + 1
    lastMigrationAt := some s.currentTime
    currentNodeId := destinationId
    prestaged := destinationId :: s.prestaged
    ownerPath := s.ownerPath ++ [destinationId]
    steps := s.steps ++ [step] }

end Steps

/-- One decision and what follows from it. -/
def step (index : Nat) (s : ReplayState) : Except Exn ReplayState := do
  let (decision, policyStore) ← a.evaluate s
  let s := { s with policyStore }
  let node ← a.cluster.getNode s.currentNodeId
  match decision.selected.action with
  | .continue_ => a.goOn index s node decision
  | .pause => a.pauseFirst index s node decision
  | .migrate =>
    match decision.selected.destinationNodeId with
    | none => .error (runtimeError "Causal replay selected migration without destination")
    | some destinationId => a.migrateTo index s node decision destinationId

/-- The work is done. -/
def isDone (s : ReplayState) : Bool := s.remaining ≤ 1 / 1000000000

def exhausted : Exn :=
  runtimeError s!"Causal replay exceeded {a.maxDecisions} decisions without completing"

def outcome (s : ReplayState) : PolicyOutcome ReplayDetails where
  policy := a.label.value
  startNodeId := a.workload.startNodeId
  finalNodeId := s.currentNodeId
  selectedInitialNodeId := some a.workload.startNodeId
  completed := isDone s
  makespanSeconds := s.currentTime - a.start
  computeSeconds := s.computeSeconds
  pausedIdleSeconds := s.pausedIdleSeconds
  pauseOverheadSeconds := s.pauseOverheadSeconds
  migrationSeconds := s.migrationSeconds
  carbonGrams := s.accumulatedCarbon
  costUsd := s.accumulatedCost
  migrations := s.migrations
  pauses := s.pauses
  decisionCount := s.steps.length
  ownerPath := s.ownerPath
  steps := s.steps

def replayCausalPolicy : Except Exn (PolicyOutcome ReplayDetails) :=
  if a.label ≠ .temporalOnly ∧ a.label ≠ .magellanCausal then
    .error (valueError s!"Unsupported causal replay policy: {a.label.value}")
  else do
    let _ ← a.cluster.getNode a.workload.startNodeId
    let s ← Budget.loop isDone a.step a.exhausted a.maxDecisions 1 a.initial
    (a.outcome s).validated

end ReplayArguments

end Magellan.Planning
