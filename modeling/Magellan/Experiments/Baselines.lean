import Magellan.Experiments.Oracle
import Magellan.Experiments.Replay

/-!
# The suite of baselines

Four placements that stay on one node, two causal replays and the oracle, with their objectives.
-/

namespace Magellan.Planning

/-- Of an outcome's steps only those of a replay have details. -/
abbrev SuiteOutcome := PolicyOutcome (Option ReplayDetails)

def PolicyOutcome.withDetails {Details Details' : Type} (f : Details → Details')
    (outcome : PolicyOutcome Details) : PolicyOutcome Details' :=
  { outcome with steps := outcome.steps.map fun step => { step with details := f step.details } }

def staticOutcome (label : String) (node : NodeConfig) (workload : ComparisonWorkload)
    (carbonStore : CarbonStore) (start : Instant) : Except Exn SuiteOutcome := do
  let segment ← computeSegment carbonStore start node workload.durationSeconds workload.powerKw
  let step ← ReplayStep.validated {
    index := 1
    action := .continue_
    sourceNodeId := node.id
    startedAt := start
    finishedAt := start + workload.durationSeconds
    elapsedSeconds := workload.durationSeconds
    computeSeconds := workload.durationSeconds
    carbonGrams := segment.carbonGrams
    costUsd := segment.costUsd
    remainingSecondsAfter := 0
    reason := "Static placement; no later scheduling decisions"
    details := none }
  PolicyOutcome.validated {
    policy := label
    startNodeId := node.id
    finalNodeId := node.id
    selectedInitialNodeId := some node.id
    completed := true
    makespanSeconds := workload.durationSeconds
    computeSeconds := workload.durationSeconds
    pausedIdleSeconds := 0
    pauseOverheadSeconds := 0
    migrationSeconds := 0
    carbonGrams := segment.carbonGrams
    costUsd := segment.costUsd
    migrations := 0
    pauses := 0
    decisionCount := 0
    ownerPath := [node.id]
    steps := [step] }

/-- `_static_candidates`. -/
def staticCandidates (cluster : ClusterConfig) (workload : ComparisonWorkload)
    (carbonStore : CarbonStore) (start : Instant) : Except Exn (List SuiteOutcome) :=
  cluster.nodes.mapM fun node => staticOutcome "static_candidate" node workload carbonStore start

def PolicyOutcome.rawEstimate {Details : Type} (item : PolicyOutcome Details) : RawActionEstimate where
  action := .continue_
  sourceNodeId := item.finalNodeId
  timeSeconds := item.makespanSeconds
  carbonGrams := item.carbonGrams
  costUsd := item.costUsd
  carbonConfidence := 0

/-- `ranked[0]`. -/
def firstRanked : List ScoredAction → Except Exn ScoredAction
  | [] => .error ⟨.indexError, "list index out of range"⟩
  | first :: _ => .ok first

/-- `_choose_weighted_static`: the outcome whose node is first in the ranking. -/
def chooseWeightedStatic (outcomes : List SuiteOutcome) (policy : ScoringPolicy) :
    Except Exn SuiteOutcome := do
  let raw ← outcomes.mapM fun item => item.rawEstimate.validated
  let ranked ← scoreActions raw policy none
  let first ← firstRanked ranked
  match outcomes.find? (·.finalNodeId = first.sourceNodeId) with
  | none => .error ⟨.stopIteration, ""⟩
  | some selected => return selected

def bestStaticOutcome (cluster : ClusterConfig) (policy : ScoringPolicy) (workload : ComparisonWorkload)
    (carbonStore : CarbonStore) (start : Instant) : Except Exn SuiteOutcome := do
  let candidates ← staticCandidates cluster workload carbonStore start
  let selected ← chooseWeightedStatic candidates policy
  return { selected with policy := ComparisonPolicy.bestStatic.value }

/-- The task that is dispatched, as if it were on the node. -/
def dispatchProfile (workload : ComparisonWorkload) (node : NodeConfig) : TaskProfile where
  taskId := s!"dispatch-{workload.name}"
  currentNodeId := node.id
  powerKw := workload.powerKw
  checkpointBytes := workload.checkpointBytes
  dataBytes := workload.staticDataBytes
  estimatedRemainingSeconds := some workload.durationSeconds
  costCapUsd := workload.costCapUsd

def bestAtDispatchOutcome (math : MathModule) (cluster : ClusterConfig) (policy : ScoringPolicy)
    (workload : ComparisonWorkload) (carbonStore : CarbonStore) (start : Instant) :
    Except Exn SuiteOutcome := do
  let estimates ← cluster.nodes.mapM fun node => do
    let task ← (dispatchProfile workload node).validated
    estimateContinue math carbonStore policy.carbonForecast task node start policy.horizonSeconds
  let ranked ← scoreActions estimates policy none
  let first ← firstRanked ranked
  let selectedNode ← cluster.getNode first.sourceNodeId
  staticOutcome ComparisonPolicy.bestAtDispatch.value selectedNode workload carbonStore start

def comparisonReferenceScales (outcomes : List SuiteOutcome) : Except Exn ReferenceScales :=
  if outcomes = [] then .error (valueError "At least one outcome is required")
  else .ok {
    timeSeconds := max (maximum (outcomes.map (·.makespanSeconds))) tiny
    carbonGrams := max (maximum (outcomes.map (·.carbonGrams))) tiny
    costUsd := max (maximum (outcomes.map (·.costUsd))) tiny }

def globalObjective (outcome : SuiteOutcome) (policy : ScoringPolicy) (scales : ReferenceScales) : Rat :=
  let (alpha, beta, gamma) := policy.weights.normalized
  alpha * outcome.makespanSeconds / scales.timeSeconds +
    beta * outcome.carbonGrams / scales.carbonGrams + gamma * outcome.costUsd / scales.costUsd

/-- What `run_baseline_suite` is called with. -/
structure SuiteArguments where
  math : MathModule
  cluster : ClusterConfig
  policy : ScoringPolicy
  carbonStore : CarbonStore
  workload : ComparisonWorkload
  start : Instant
  oracleQuantumSeconds : Rat := 900
  oracleMaxElapsedMultiplier : Rat := 3

structure BaselineSuite where
  outcomes : List SuiteOutcome
  referenceScales : ReferenceScales
  globalObjectiveValues : Dict String Rat

namespace SuiteArguments

variable (s : SuiteArguments)

def graph : ClusterGraph := { cluster := s.cluster }

/-- A fixed placement on a node that has a name. -/
def fixed (label : ComparisonPolicy) (nodeId : NodeId) : Except Exn SuiteOutcome := do
  let node ← s.cluster.getNode nodeId
  staticOutcome label.value node s.workload s.carbonStore s.start

def replay (label : ComparisonPolicy) : Except Exn SuiteOutcome := do
  let outcome ← ReplayArguments.replayCausalPolicy {
    math := s.math
    label
    cluster := s.cluster
    policy := s.policy
    workload := s.workload
    carbonStore := s.carbonStore
    graph := s.graph
    start := s.start }
  return outcome.withDetails some

/-- The outcomes before the oracle. -/
def preOracle : Except Exn (List SuiteOutcome) := do
  let boston ← s.fixed .bostonStatic "boston"
  let france ← s.fixed .franceStatic "france"
  let bestStatic ← bestStaticOutcome s.cluster s.policy s.workload s.carbonStore s.start
  let bestDispatch ← bestAtDispatchOutcome s.math s.cluster s.policy s.workload s.carbonStore s.start
  let temporal ← s.replay .temporalOnly
  let magellan ← s.replay .magellanCausal
  return [boston, france, bestStatic, bestDispatch, temporal, magellan]

def oracleArguments (scales : ReferenceScales) : OracleArguments where
  math := s.math
  cluster := s.cluster
  policy := s.policy
  workload := s.workload
  carbonStore := s.carbonStore
  graph := s.graph
  start := s.start
  reference := scales
  quantumSeconds := s.oracleQuantumSeconds
  maxElapsedMultiplier := s.oracleMaxElapsedMultiplier

def report (preOracle : List SuiteOutcome) (scales : ReferenceScales) (oracle : PolicyOutcome Unit) :
    BaselineSuite :=
  let outcomes := preOracle ++ [oracle.withDetails fun _ => none]
  { outcomes
    referenceScales := scales
    globalObjectiveValues :=
      .ofList (outcomes.map fun item => (item.policy, globalObjective item s.policy scales)) }

/-- With `fuel` for the oracle. -/
def runBaselineSuite (fuel : Nat) : Option (Except Exn BaselineSuite) :=
  match (do
    let preOracle ← s.preOracle
    let scales ← comparisonReferenceScales preOracle
    return (preOracle, scales)) with
  | .error e => some (.error e)
  | .ok (preOracle, scales) =>
    (clairvoyantOracle (s.oracleArguments scales) fuel).map fun oracle =>
      oracle.map (s.report preOracle scales)

end SuiteArguments

end Magellan.Planning
