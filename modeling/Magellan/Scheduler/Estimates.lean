import Magellan.Carbon.Forecast
import Magellan.Graph.Topology

/-!
# Estimates of the actions

What it takes to go on with a task, to pause it first or to migrate it first. Of an estimate's
details those are kept that the scores, the reasons and the experiments read.
-/

namespace Magellan.Planning

def secondsToHours (seconds : Rat) : Rat := seconds / 3600

def bytesToGb (sizeBytes : Nat) : Rat := sizeBytes / 1000000000

def transferSeconds (sizeBytes : Nat) (bandwidthMbps latencyMs : Rat) : Except Exn Rat :=
  if bandwidthMbps ≤ 0 then .error (valueError "bandwidth_mbps must be positive")
  else .ok ((sizeBytes * 8 : Nat) / (bandwidthMbps * 1000000) + latencyMs / 1000)

inductive ActionType where
  | continue_
  | pause
  | migrate
  deriving DecidableEq

structure TaskProfile where
  taskId : TaskId
  currentNodeId : NodeId
  powerKw : Rat
  checkpointBytes : Nat
  dataBytes : Nat := 0
  prestagedNodeIds : List NodeId := []
  estimatedRemainingSeconds : Option Rat := none
  accumulatedCostUsd : Rat := 0
  costCapUsd : Option Rat := none
  lastMigrationAt : Option Instant := none
  lastPauseAt : Option Instant := none
  deadlineAt : Option Instant := none

structure RawActionEstimate where
  action : ActionType
  sourceNodeId : NodeId
  destinationNodeId : Option NodeId := none
  timeSeconds : Rat
  carbonGrams : Rat
  costUsd : Rat
  carbonConfidence : Rat
  /-- Only a pause has it. -/
  idleSeconds : Option Rat := none
  /-- Only a migration has it. -/
  predictedDowntimeSeconds : Option Rat := none
  deriving DecidableEq

def RawActionEstimate.validated (estimate : RawActionEstimate) : Except Exn RawActionEstimate := do
  requireNonneg "RawActionEstimate" [("time_seconds", estimate.timeSeconds),
    ("carbon_grams", estimate.carbonGrams), ("cost_usd", estimate.costUsd)]
  return estimate

section Estimates

variable (math : MathModule) (carbonStore : CarbonStore) (forecastPolicy : CarbonForecastPolicy)

def computeSeconds (task : TaskProfile) (horizonSeconds : Rat) : Rat :=
  match task.estimatedRemainingSeconds with
  | some remaining => min horizonSeconds remaining
  | none => horizonSeconds

def estimateContinue (task : TaskProfile) (node : NodeConfig) (at_ : Instant) (horizonSeconds : Rat) :
    Except Exn RawActionEstimate := do
  let seconds := computeSeconds task horizonSeconds
  let forecast ← forecastOrAverage math carbonStore forecastPolicy
    { nodeId := node.id, observedAt := at_, forecastStart := at_, durationSeconds := seconds }
  let effectivePowerKw := task.powerKw * node.pue
  RawActionEstimate.validated {
    action := .continue_
    sourceNodeId := node.id
    timeSeconds := seconds
    carbonGrams := effectivePowerKw * secondsToHours seconds * forecast.averageGPerKwh
    costUsd := node.computePriceUsdPerHour * secondsToHours seconds
    carbonConfidence := forecast.confidence }

def estimatePause (task : TaskProfile) (node : NodeConfig) (at_ : Instant) (horizonSeconds : Rat)
    (pausePolicy : PausePolicy) (idleSeconds : Rat) : Except Exn (Option RawActionEstimate) := do
  let seconds := computeSeconds task horizonSeconds
  if idleSeconds < 0 then .error (valueError "idle_seconds must be non-negative")
  else if pausePolicy.maxPauseWindowSeconds < idleSeconds + seconds then return none
  else
    let pauseForecast ← forecastOrAverage math carbonStore forecastPolicy
      { nodeId := node.id, observedAt := at_, forecastStart := at_,
        durationSeconds := pausePolicy.pauseSeconds }
    let resumeStart := at_ + (pausePolicy.pauseSeconds + idleSeconds)
    let resumeForecast ← forecastOrAverage math carbonStore forecastPolicy
      { nodeId := node.id, observedAt := at_, forecastStart := resumeStart,
        durationSeconds := pausePolicy.resumeSeconds }
    let computeStart := resumeStart + pausePolicy.resumeSeconds
    let computeForecast ← forecastOrAverage math carbonStore forecastPolicy
      { nodeId := node.id, observedAt := at_, forecastStart := computeStart,
        durationSeconds := seconds }
    let effectivePowerKw := task.powerKw * node.pue
    let pauseCarbonGrams := effectivePowerKw * secondsToHours pausePolicy.pauseSeconds *
      pauseForecast.averageGPerKwh
    let resumeCarbonGrams := effectivePowerKw * secondsToHours pausePolicy.resumeSeconds *
      resumeForecast.averageGPerKwh
    let computeCarbonGrams := effectivePowerKw * secondsToHours seconds *
      computeForecast.averageGPerKwh
    let estimate ← RawActionEstimate.validated {
      action := .pause
      sourceNodeId := node.id
      timeSeconds := pausePolicy.pauseSeconds + idleSeconds + pausePolicy.resumeSeconds + seconds
      carbonGrams := pauseCarbonGrams + resumeCarbonGrams + computeCarbonGrams
      costUsd := node.computePriceUsdPerHour * secondsToHours seconds
      carbonConfidence :=
        min (min pauseForecast.confidence resumeForecast.confidence) computeForecast.confidence
      idleSeconds := some idleSeconds }
    return some estimate

/-- The time for the bytes, by the model that the telemetry supports. -/
def transferDurationSeconds (edge : EdgeMetrics) (totalTransferBytes : Nat) : Except Exn Rat :=
  match edge.transferSteadyBandwidthMbps with
  | some steady =>
    if edge.transferModelSource = "measured_migration_transport_affine_ema" then
      .ok (edge.transferFixedSeconds + totalTransferBytes * 8 / (steady * 1000000))
    else byBandwidth
  | none => byBandwidth
where
  byBandwidth : Except Exn Rat :=
    if edge.bandwidthSource ∈ ["measured_transfer_ema", "measured_migration_transport_ema"] then
      .ok (totalTransferBytes * 8 / (edge.bandwidthMbps * 1000000))
    else transferSeconds totalTransferBytes edge.bandwidthMbps edge.latencyMs

def estimateMigrate (task : TaskProfile) (source destination : NodeConfig) (edge : EdgeMetrics)
    (at_ : Instant) (horizonSeconds : Rat) (pausePolicy : PausePolicy)
    (migrationPolicy : MigrationPolicy) (staticDataBytesOverride : Option Nat) :
    Except Exn RawActionEstimate := do
  let seconds := computeSeconds task horizonSeconds
  let staticDataBytes := staticDataBytesOverride.getD
    (if destination.id ∈ task.prestagedNodeIds then 0 else task.dataBytes)
  let totalTransferBytes := task.checkpointBytes + staticDataBytes
  let transferDuration ← transferDurationSeconds edge totalTransferBytes
  let checkpointSeconds := edge.checkpointSeconds.getD pausePolicy.pauseSeconds
  let restoreSeconds := edge.restoreSeconds.getD pausePolicy.resumeSeconds
  let overheadSeconds := max 0 edge.migrationOverheadSeconds
  let restoreStart := at_ + (checkpointSeconds + transferDuration + overheadSeconds)
  let arrivalTime := restoreStart + restoreSeconds
  let sourceCheckpointForecast ← forecastOrAverage math carbonStore forecastPolicy
    { nodeId := source.id, observedAt := at_, forecastStart := at_,
      durationSeconds := checkpointSeconds }
  let destinationRestoreForecast ← forecastOrAverage math carbonStore forecastPolicy
    { nodeId := destination.id, observedAt := at_, forecastStart := restoreStart,
      durationSeconds := restoreSeconds }
  let destinationComputeForecast ← forecastOrAverage math carbonStore forecastPolicy
    { nodeId := destination.id, observedAt := at_, forecastStart := arrivalTime,
      durationSeconds := seconds }
  let sourceCheckpointCarbonGrams := task.powerKw * source.pue * secondsToHours checkpointSeconds *
    sourceCheckpointForecast.averageGPerKwh
  let destinationRestoreCarbonGrams := task.powerKw * destination.pue *
    secondsToHours restoreSeconds * destinationRestoreForecast.averageGPerKwh
  let destinationComputeCarbonGrams := task.powerKw * destination.pue * secondsToHours seconds *
    destinationComputeForecast.averageGPerKwh
  let transferSizeGb := bytesToGb totalTransferBytes
  let networkEnergyKwh := transferSizeGb * (migrationPolicy.networkEnergyKwhPerGbBase +
    migrationPolicy.networkEnergyKwhPerGbKm * edge.distanceKm)
  let meanNetworkIntensity := (sourceCheckpointForecast.averageGPerKwh +
    destinationRestoreForecast.averageGPerKwh) / 2
  let computeCostUsd := destination.computePriceUsdPerHour * secondsToHours seconds
  RawActionEstimate.validated {
    action := .migrate
    sourceNodeId := source.id
    destinationNodeId := some destination.id
    timeSeconds := checkpointSeconds + transferDuration + restoreSeconds + overheadSeconds + seconds
    carbonGrams := sourceCheckpointCarbonGrams + destinationRestoreCarbonGrams +
      destinationComputeCarbonGrams + networkEnergyKwh * meanNetworkIntensity
    costUsd := computeCostUsd + transferSizeGb * source.egressPriceUsdPerGb
    carbonConfidence := min (min sourceCheckpointForecast.confidence
      destinationRestoreForecast.confidence) destinationComputeForecast.confidence
    predictedDowntimeSeconds :=
      some (checkpointSeconds + transferDuration + restoreSeconds + overheadSeconds) }

end Estimates

/-! ## Estimates read no later sample -/

section Congr

variable {math : MathModule} {carbonStore carbonStore' : CarbonStore} {until_ at_ : Instant}
  {policy : CarbonForecastPolicy}

theorem estimateContinue_congr (agree : carbonStore.AgreeUpTo until_ carbonStore')
    (enabled : policy.enabled = true) (before : at_ ≤ until_) (task : TaskProfile)
    (node : NodeConfig) (horizonSeconds : Rat) :
    estimateContinue math carbonStore' policy task node at_ horizonSeconds =
      estimateContinue math carbonStore policy task node at_ horizonSeconds := by
  unfold estimateContinue
  simp only [forecastOrAverage_congr agree enabled before]

theorem estimatePause_congr (agree : carbonStore.AgreeUpTo until_ carbonStore')
    (enabled : policy.enabled = true) (before : at_ ≤ until_) (task : TaskProfile)
    (node : NodeConfig) (horizonSeconds : Rat) (pausePolicy : PausePolicy) (idleSeconds : Rat) :
    estimatePause math carbonStore' policy task node at_ horizonSeconds pausePolicy idleSeconds =
      estimatePause math carbonStore policy task node at_ horizonSeconds pausePolicy idleSeconds := by
  unfold estimatePause
  simp only [forecastOrAverage_congr agree enabled before]

theorem estimateMigrate_congr (agree : carbonStore.AgreeUpTo until_ carbonStore')
    (enabled : policy.enabled = true) (before : at_ ≤ until_) (task : TaskProfile)
    (source destination : NodeConfig) (edge : EdgeMetrics) (horizonSeconds : Rat)
    (pausePolicy : PausePolicy) (migrationPolicy : MigrationPolicy)
    (staticDataBytesOverride : Option Nat) :
    estimateMigrate math carbonStore' policy task source destination edge at_ horizonSeconds
        pausePolicy migrationPolicy staticDataBytesOverride =
      estimateMigrate math carbonStore policy task source destination edge at_ horizonSeconds
        pausePolicy migrationPolicy staticDataBytesOverride := by
  unfold estimateMigrate
  simp only [forecastOrAverage_congr agree enabled before]

end Congr

end Magellan.Planning
