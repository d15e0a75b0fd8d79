import Magellan.Data.BestFirst
import Magellan.Experiments.Comparison

/-!
# The clairvoyant oracle

A discretized reference schedule that knows the whole trace. A schedule is a way through states of
elapsed steps, finished work steps and a node, by going on, waiting and migrating.
-/

namespace Magellan.Planning

structure OracleState where
  elapsedSteps : Nat
  completedWorkSteps : Nat
  nodeId : NodeId
  deriving DecidableEq

inductive OracleAction where
  | continue_
  | wait
  | migrate (destinationNodeId : NodeId)
  deriving DecidableEq

def OracleAction.destinationNodeId : OracleAction → Option NodeId
  | .migrate destination => some destination
  | _ => none

def OracleAction.stepAction : OracleAction → StepAction
  | .continue_ => .continue_
  | .wait => .wait
  | .migrate _ => .migrate

structure OracleEdge where
  action : OracleAction
  sourceNodeId : NodeId
  elapsedSteps : Nat
  elapsedSeconds : Rat
  computeSeconds : Rat
  idleSeconds : Rat
  migrationSeconds : Rat
  carbonGrams : Rat
  costUsd : Rat
  deriving DecidableEq

/-- Times, carbon and cost, against which the objective is normalized. -/
structure ReferenceScales where
  timeSeconds : Rat
  carbonGrams : Rat
  costUsd : Rat

/-- `_incremental_objective`. -/
def incrementalObjective (policy : ScoringPolicy) (reference : ReferenceScales) (edge : OracleEdge) :
    Rat :=
  let (alpha, beta, gamma) := policy.weights.normalized
  alpha * edge.elapsedSeconds / max reference.timeSeconds tiny +
    beta * edge.carbonGrams / max reference.carbonGrams tiny +
    gamma * edge.costUsd / max reference.costUsd tiny

/-- The charges that have been computed, by what they depend on. -/
structure OracleCaches where
  compute : Dict (Nat × NodeId × Rat) SegmentMetrics := .empty
  migration : Dict (Nat × NodeId × NodeId) SegmentMetrics := .empty

def cached {κ α : Type} [DecidableEq κ] (cache : Dict κ α) (key : κ) (compute : Except Exn α) :
    Except Exn (α × Dict κ α) :=
  match cache.get? key with
  | some value => .ok (value, cache)
  | none => do
    let value ← compute
    return (value, cache.set key value)

/-- What `clairvoyant_oracle` is called with. -/
structure OracleArguments where
  math : MathModule
  cluster : ClusterConfig
  policy : ScoringPolicy
  workload : ComparisonWorkload
  carbonStore : CarbonStore
  graph : ClusterGraph
  start : Instant
  reference : ReferenceScales
  quantumSeconds : Rat := 900
  maxElapsedMultiplier : Rat := 3
  assumeStaticPrestaged : Bool := true

namespace OracleArguments

variable (a : OracleArguments)

def workSteps : Nat := ⌈a.workload.durationSeconds / a.quantumSeconds⌉.toNat

def maxElapsedSteps : Nat :=
  ⌈a.workload.durationSeconds * a.maxElapsedMultiplier / a.quantumSeconds⌉.toNat

def initial : OracleState := ⟨0, 0, a.workload.startNodeId⟩

def at_ (elapsedSteps : Nat) : Instant := a.start + elapsedSteps * a.quantumSeconds

def computeSeconds (state : OracleState) : Rat :=
  min a.quantumSeconds
    (max 0 (a.workload.durationSeconds - state.completedWorkSteps * a.quantumSeconds))

/-- Going on for a step, with its charges. -/
def continueCandidate (state : OracleState) (metrics : SegmentMetrics) : OracleState × OracleEdge :=
  (⟨state.elapsedSteps + 1, state.completedWorkSteps + 1, state.nodeId⟩,
    { action := .continue_
      sourceNodeId := state.nodeId
      elapsedSteps := 1
      elapsedSeconds := a.computeSeconds state
      computeSeconds := a.computeSeconds state
      idleSeconds := 0
      migrationSeconds := 0
      carbonGrams := metrics.carbonGrams
      costUsd := metrics.costUsd })

/-- Waiting for a step is free. -/
def waitCandidate (state : OracleState) : OracleState × OracleEdge :=
  (⟨state.elapsedSteps + 1, state.completedWorkSteps, state.nodeId⟩,
    { action := .wait
      sourceNodeId := state.nodeId
      elapsedSteps := 1
      elapsedSeconds := a.quantumSeconds
      computeSeconds := 0
      idleSeconds := a.quantumSeconds
      migrationSeconds := 0
      carbonGrams := 0
      costUsd := 0 })

/-- A migration takes whole steps. -/
def migrateCandidate (state : OracleState) (destinationNodeId : NodeId) (migration : SegmentMetrics) :
    OracleState × OracleEdge :=
  let migrationSteps := ceilSteps migration.elapsedSeconds a.quantumSeconds
  (⟨state.elapsedSteps + migrationSteps, state.completedWorkSteps, destinationNodeId⟩,
    { action := .migrate destinationNodeId
      sourceNodeId := state.nodeId
      elapsedSteps := migrationSteps
      elapsedSeconds := migrationSteps * a.quantumSeconds
      computeSeconds := 0
      idleSeconds := 0
      migrationSeconds := migration.elapsedSeconds
      carbonGrams := migration.carbonGrams
      costUsd := migration.costUsd })

def migration (elapsedSteps : Nat) (source destination : NodeConfig) (edge : EdgeMetrics) :
    Except Exn SegmentMetrics :=
  realizedMigration a.carbonStore (a.at_ elapsedSteps) source destination edge a.policy
    a.workload.powerKw a.workload.checkpointBytes
    (if a.assumeStaticPrestaged then 0 else a.workload.staticDataBytes)

/-- The loop over the destinations. -/
def migrateCandidates (state : OracleState) (source : NodeConfig) :
    List NodeConfig → OracleCaches → Except Exn (List (OracleState × OracleEdge) × OracleCaches)
  | [], caches => .ok ([], caches)
  | destination :: rest, caches => do
    let edge ← a.graph.edge a.math state.nodeId destination.id
    let (migration, cache) ← cached caches.migration
      (state.elapsedSteps, state.nodeId, destination.id)
      (a.migration state.elapsedSteps source destination edge)
    let (candidates, caches) ←
      migrateCandidates state source rest { caches with migration := cache }
    return (a.migrateCandidate state destination.id migration :: candidates, caches)

/-- The candidates of a state, without those beyond the horizon. -/
def expand (state : OracleState) (caches : OracleCaches) :
    Except Exn (List (OracleState × OracleEdge) × OracleCaches) :=
  if a.maxElapsedSteps ≤ state.elapsedSteps then .ok ([], caches)
  else do
    let source ← a.cluster.getNode state.nodeId
    let seconds := a.computeSeconds state
    let (metrics, cache) ← cached caches.compute (state.elapsedSteps, state.nodeId, seconds)
      (computeSegment a.carbonStore (a.at_ state.elapsedSteps) source seconds a.workload.powerKw)
    let (migrations, caches) ← a.migrateCandidates state source (a.graph.peers state.nodeId)
      { caches with compute := cache }
    let candidates := a.continueCandidate state metrics :: a.waitCandidate state :: migrations
    return (candidates.filter (·.1.elapsedSteps ≤ a.maxElapsedSteps), caches)

/-- The search, whose metrics are times, carbon and cost. -/
def problem : BestFirst.Problem OracleState OracleEdge Rat (Rat × Rat × Rat) OracleCaches Exn where
  start := a.initial
  goal := fun state => a.workSteps ≤ state.completedWorkSteps
  expand := a.expand
  weight := incrementalObjective a.policy a.reference
  measure := fun edge => (edge.elapsedSeconds, edge.carbonGrams, edge.costUsd)
  tolerance := tiny

/-- What is added up along the reconstructed path. -/
structure PathTotals where
  steps : List (ReplayStep Unit)
  ownerPath : List NodeId
  stepStart : Instant
  computeSecondsTotal : Rat
  idleSecondsTotal : Rat
  migrationSecondsTotal : Rat
  migrations : Nat
  pauses : Nat
  completedWork : Rat
  currentNodeId : NodeId
  carbonTotal : Rat
  costTotal : Rat

def noTotals : PathTotals where
  steps := []
  ownerPath := [a.workload.startNodeId]
  stepStart := a.start
  computeSecondsTotal := 0
  idleSecondsTotal := 0
  migrationSecondsTotal := 0
  migrations := 0
  pauses := 0
  completedWork := 0
  currentNodeId := a.workload.startNodeId
  carbonTotal := 0
  costTotal := 0

/-- The step that is reported for an edge. -/
def reportedStep (totals : PathTotals) (edge : OracleEdge) : ReplayStep Unit where
  index := totals.steps.length + 1
  action := edge.action.stepAction
  sourceNodeId := edge.sourceNodeId
  destinationNodeId := edge.action.destinationNodeId
  startedAt := totals.stepStart
  finishedAt := totals.stepStart + edge.elapsedSeconds
  elapsedSeconds := edge.elapsedSeconds
  computeSeconds := edge.computeSeconds
  idleSeconds := edge.idleSeconds
  migrationSeconds := edge.migrationSeconds
  carbonGrams := edge.carbonGrams
  costUsd := edge.costUsd
  remainingSecondsAfter :=
    max 0 (a.workload.durationSeconds - (totals.completedWork + edge.computeSeconds))
  reason := "Clairvoyant shortest-path oracle"
  details := ()

def follow (totals : PathTotals) (edge : OracleEdge) : Except Exn PathTotals := do
  let step ← (a.reportedStep totals edge).validated
  let destination := edge.action.destinationNodeId
  return {
    steps := totals.steps ++ [step]
    ownerPath := totals.ownerPath ++ destination.toList
    stepStart := totals.stepStart + edge.elapsedSeconds
    computeSecondsTotal := totals.computeSecondsTotal + edge.computeSeconds
    idleSecondsTotal := totals.idleSecondsTotal + edge.idleSeconds
    migrationSecondsTotal := totals.migrationSecondsTotal + edge.migrationSeconds
    migrations := totals.migrations + if edge.action.stepAction = .migrate then 1 else 0
    pauses := totals.pauses + if edge.action.stepAction = .wait then 1 else 0
    completedWork := totals.completedWork + edge.computeSeconds
    currentNodeId := destination.getD totals.currentNodeId
    carbonTotal := totals.carbonTotal + edge.carbonGrams
    costTotal := totals.costTotal + edge.costUsd }

/-- The outcome of the path to the terminal state. -/
def outcome (terminal : OracleState)
    (f : BestFirst.Frontier OracleState OracleEdge Rat (Rat × Rat × Rat) OracleCaches)
    (pathEdges : List OracleEdge) : Except Exn (PolicyOutcome Unit) := do
  let totals ← pathEdges.foldlM a.follow a.noTotals
  let (makespan, _, _) := f.metrics.getD terminal 0
  PolicyOutcome.validated {
    policy := "clairvoyant_oracle"
    startNodeId := a.workload.startNodeId
    finalNodeId := totals.currentNodeId
    selectedInitialNodeId := some a.workload.startNodeId
    completed := true
    makespanSeconds := makespan
    computeSeconds := totals.computeSecondsTotal
    pausedIdleSeconds := totals.idleSecondsTotal
    pauseOverheadSeconds := 0
    migrationSeconds := totals.migrationSecondsTotal
    carbonGrams := totals.carbonTotal
    costUsd := totals.costTotal
    migrations := totals.migrations
    pauses := totals.pauses
    decisionCount := totals.steps.length
    ownerPath := totals.ownerPath
    steps := totals.steps
    objectiveValue := f.distances.get? terminal }

end OracleArguments

def horizonError : Exn :=
  runtimeError ("Oracle could not complete workload inside max elapsed horizon; " ++
    "increase max_elapsed_multiplier")

/-- With `fuel` for the turns of its two loops. -/
def clairvoyantOracle (a : OracleArguments) (fuel : Nat) : Option (Except Exn (PolicyOutcome Unit)) :=
  if a.quantumSeconds ≤ 0 then some (.error (valueError "quantum_seconds must be positive"))
  else if a.maxElapsedMultiplier < 1 then
    some (.error (valueError "max_elapsed_multiplier must be >= 1"))
  else
    match a.cluster.getNode a.workload.startNodeId with
    | .error e => some (.error e)
    | .ok _ =>
      match a.problem.run fuel (a.problem.init {}) with
      | none => none
      | some (.error e) => some (.error e)
      | some (.ok (none, _)) => some (.error horizonError)
      | some (.ok (some terminal, f)) =>
        (a.problem.trace f fuel terminal).map (a.outcome terminal f)

end Magellan.Planning
