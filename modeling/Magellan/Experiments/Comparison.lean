import Magellan.Scheduler.Estimates

/-!
# Charges of a replay

What a segment of a workload or a migration has taken when its trace is known, and the records that
an experiment makes of it.
-/

namespace Magellan.Planning

/-- The tolerance `1e-12` of the experiments. -/
def tiny : Rat := 1 / 1000000000000

theorem tiny_pos : 0 < tiny := by norm_num [tiny]

structure ComparisonWorkload where
  name : String := "comparison-workload"
  durationSeconds : Rat
  powerKw : Rat
  checkpointBytes : Nat := 0
  staticDataBytes : Nat := 0
  startNodeId : NodeId := "boston"
  costCapUsd : Option Rat := none
  duration_pos : 0 < durationSeconds := by norm_num
  power_pos : 0 < powerKw := by norm_num
  costCap_pos : ∀ cap ∈ costCapUsd, 0 < cap := by simp

inductive StepAction where
  | continue_
  | pause
  | wait
  | migrate
  deriving DecidableEq

/-- A step of a replay, with what the kind of replay notes beside it. -/
structure ReplayStep (Details : Type) where
  index : Nat
  action : StepAction
  sourceNodeId : NodeId
  destinationNodeId : Option NodeId := none
  startedAt : Instant
  finishedAt : Instant
  elapsedSeconds : Rat
  computeSeconds : Rat := 0
  idleSeconds : Rat := 0
  migrationSeconds : Rat := 0
  carbonGrams : Rat := 0
  costUsd : Rat := 0
  remainingSecondsAfter : Rat
  reason : String
  details : Details

def ReplayStep.validated {Details : Type} (step : ReplayStep Details) :
    Except Exn (ReplayStep Details) := do
  requireNonneg "ReplayStep" [("elapsed_seconds", step.elapsedSeconds),
    ("compute_seconds", step.computeSeconds), ("idle_seconds", step.idleSeconds),
    ("migration_seconds", step.migrationSeconds), ("carbon_grams", step.carbonGrams),
    ("cost_usd", step.costUsd), ("remaining_seconds_after", step.remainingSecondsAfter)]
  return step

structure PolicyOutcome (Details : Type) where
  policy : String
  startNodeId : NodeId
  finalNodeId : NodeId
  selectedInitialNodeId : Option NodeId
  completed : Bool
  makespanSeconds : Rat
  computeSeconds : Rat
  pausedIdleSeconds : Rat
  pauseOverheadSeconds : Rat
  migrationSeconds : Rat
  carbonGrams : Rat
  costUsd : Rat
  migrations : Nat
  pauses : Nat
  decisionCount : Nat
  ownerPath : List NodeId
  steps : List (ReplayStep Details)
  /-- `metadata["objective_value"]`, which only the oracle has. -/
  objectiveValue : Option Rat := none

def PolicyOutcome.validated {Details : Type} (outcome : PolicyOutcome Details) :
    Except Exn (PolicyOutcome Details) := do
  requireNonneg "PolicyOutcome" [("makespan_seconds", outcome.makespanSeconds),
    ("compute_seconds", outcome.computeSeconds), ("paused_idle_seconds", outcome.pausedIdleSeconds),
    ("pause_overhead_seconds", outcome.pauseOverheadSeconds),
    ("migration_seconds", outcome.migrationSeconds), ("carbon_grams", outcome.carbonGrams),
    ("cost_usd", outcome.costUsd)]
  return outcome

/-! ## Charges -/

structure SegmentMetrics where
  elapsedSeconds : Rat
  carbonGrams : Rat
  costUsd : Rat

section Charges

variable (carbonStore : CarbonStore) (start : Instant)

def activeSegment (node : NodeConfig) (pricePerHour seconds powerKw : Rat) :
    Except Exn SegmentMetrics :=
  if seconds ≤ 0 then .ok ⟨0, 0, 0⟩
  else do
    let intensity ← carbonStore.average node.id start seconds
    return ⟨seconds, powerKw * node.pue * secondsToHours seconds * intensity,
      pricePerHour * secondsToHours seconds⟩

/-- `_compute_segment`. -/
def computeSegment (node : NodeConfig) (seconds powerKw : Rat) : Except Exn SegmentMetrics :=
  activeSegment carbonStore start node node.computePriceUsdPerHour seconds powerKw

/-- `_active_overhead_segment`: pausing and resuming cost no money. -/
def activeOverheadSegment (node : NodeConfig) (seconds powerKw : Rat) : Except Exn SegmentMetrics :=
  activeSegment carbonStore start node 0 seconds powerKw

def realizedMigration (source destination : NodeConfig) (edge : EdgeMetrics) (policy : ScoringPolicy)
    (powerKw : Rat) (checkpointBytes staticDataBytes : Nat) : Except Exn SegmentMetrics := do
  let totalTransferBytes := checkpointBytes + staticDataBytes
  let transferDuration ← transferSeconds totalTransferBytes edge.bandwidthMbps edge.latencyMs
  let checkpointSeconds := edge.checkpointSeconds.getD policy.pause.pauseSeconds
  let restoreSeconds := edge.restoreSeconds.getD policy.pause.resumeSeconds
  let checkpointIntensity ← carbonStore.average source.id start checkpointSeconds
  let restoreStart := start + (checkpointSeconds + transferDuration)
  let restoreIntensity ← carbonStore.average destination.id restoreStart restoreSeconds
  let sourceCarbon := powerKw * source.pue * secondsToHours checkpointSeconds * checkpointIntensity
  let destinationCarbon :=
    powerKw * destination.pue * secondsToHours restoreSeconds * restoreIntensity
  let transferSizeGb := bytesToGb totalTransferBytes
  let networkEnergyKwh := transferSizeGb * (policy.migration.networkEnergyKwhPerGbBase +
    policy.migration.networkEnergyKwhPerGbKm * edge.distanceKm)
  let meanNetworkIntensity := (checkpointIntensity + restoreIntensity) / 2
  return {
    elapsedSeconds := checkpointSeconds + transferDuration + restoreSeconds
    carbonGrams := sourceCarbon + destinationCarbon + networkEnergyKwh * meanNetworkIntensity
    costUsd := transferSizeGb * source.egressPriceUsdPerGb }

end Charges

def ceilSteps (seconds quantumSeconds : Rat) : Nat := max 1 ⌈seconds / quantumSeconds - tiny⌉.toNat

theorem ceilSteps_pos (seconds quantumSeconds : Rat) : 0 < ceilSteps seconds quantumSeconds :=
  lt_of_lt_of_le Nat.zero_lt_one (le_max_left _ _)

/-! ## Charges are non-negative -/

structure SegmentMetrics.Nonneg (metrics : SegmentMetrics) : Prop where
  elapsed : 0 ≤ metrics.elapsedSeconds
  carbon : 0 ≤ metrics.carbonGrams
  cost : 0 ≤ metrics.costUsd

theorem secondsToHours_nonneg {seconds : Rat} (nonneg : 0 ≤ seconds) : 0 ≤ secondsToHours seconds :=
  div_nonneg nonneg (by norm_num)

theorem bytesToGb_nonneg (sizeBytes : Nat) : 0 ≤ bytesToGb sizeBytes :=
  div_nonneg (Nat.cast_nonneg _) (by norm_num)

theorem transferSeconds_nonneg {sizeBytes : Nat} {bandwidthMbps latencyMs seconds : Rat}
    (latency : 0 ≤ latencyMs) (found : transferSeconds sizeBytes bandwidthMbps latencyMs = .ok seconds) :
    0 ≤ seconds := by
  unfold transferSeconds at found
  split_ifs at found with bandwidth
  cases found
  have positive := not_le.mp bandwidth
  apply add_nonneg
  · exact div_nonneg (Nat.cast_nonneg _) (mul_nonneg positive.le (by norm_num))
  · exact div_nonneg latency (by norm_num)

section Nonneg

variable {carbonStore : CarbonStore} {start : Instant}

theorem phase_nonneg {powerKw seconds intensity : Rat} (node : NodeConfig) (power : 0 ≤ powerKw)
    (duration : 0 ≤ seconds) (nonneg : 0 ≤ intensity) :
    0 ≤ powerKw * node.pue * secondsToHours seconds * intensity := by
  have pue : 0 ≤ node.pue := zero_le_one.trans node.pue_ge
  have hours := secondsToHours_nonneg duration
  positivity

theorem activeSegment_nonneg (nonneg : carbonStore.Nonneg) {node : NodeConfig}
    {pricePerHour seconds powerKw : Rat} (price : 0 ≤ pricePerHour) (power : 0 ≤ powerKw)
    {metrics : SegmentMetrics}
    (found : activeSegment carbonStore start node pricePerHour seconds powerKw = .ok metrics) :
    metrics.Nonneg := by
  unfold activeSegment at found
  split_ifs at found with none
  · cases found
    exact ⟨le_rfl, le_rfl, le_rfl⟩
  · have duration := (not_le.mp none).le
    cases read : carbonStore.average node.id start seconds with
    | error e => simp [read, bind, Except.bind] at found
    | ok intensity =>
        simp only [read, bind, Except.bind, pure, Except.pure] at found
        cases found
        exact ⟨duration, phase_nonneg node power duration (CarbonStore.average_nonneg nonneg read),
          mul_nonneg price (secondsToHours_nonneg duration)⟩

theorem computeSegment_nonneg (nonneg : carbonStore.Nonneg) {node : NodeConfig} {seconds powerKw : Rat}
    (power : 0 ≤ powerKw) {metrics : SegmentMetrics}
    (found : computeSegment carbonStore start node seconds powerKw = .ok metrics) : metrics.Nonneg :=
  activeSegment_nonneg nonneg node.computePrice_nonneg power found

theorem realizedMigration_nonneg (nonneg : carbonStore.Nonneg) {source destination : NodeConfig}
    {edge : EdgeMetrics} (inRange : edge.InRange) {policy : ScoringPolicy} {powerKw : Rat}
    (power : 0 ≤ powerKw) {checkpointBytes staticDataBytes : Nat} {metrics : SegmentMetrics}
    (found : realizedMigration carbonStore start source destination edge policy powerKw
      checkpointBytes staticDataBytes = .ok metrics) : metrics.Nonneg := by
  unfold realizedMigration at found
  have checkpoint : 0 ≤ edge.checkpointSeconds.getD policy.pause.pauseSeconds := by
    cases measured : edge.checkpointSeconds with
    | none => exact policy.pause.pause_nonneg
    | some seconds => exact inRange.checkpoint_nonneg seconds measured
  have restore : 0 ≤ edge.restoreSeconds.getD policy.pause.resumeSeconds := by
    cases measured : edge.restoreSeconds with
    | none => exact policy.pause.resume_nonneg
    | some seconds => exact inRange.restore_nonneg seconds measured
  set checkpointSeconds := edge.checkpointSeconds.getD policy.pause.pauseSeconds
  set restoreSeconds := edge.restoreSeconds.getD policy.pause.resumeSeconds
  cases transferred : transferSeconds (checkpointBytes + staticDataBytes) edge.bandwidthMbps
      edge.latencyMs with
  | error e => simp [transferred, bind, Except.bind] at found
  | ok transfer =>
  cases read : carbonStore.average source.id start checkpointSeconds with
  | error e => simp [transferred, read, bind, Except.bind] at found
  | ok checkpointIntensity =>
  cases read' : carbonStore.average destination.id (start + (checkpointSeconds + transfer))
      restoreSeconds with
  | error e => simp [transferred, read, read', bind, Except.bind] at found
  | ok restoreIntensity =>
  simp only [transferred, read, read', bind, Except.bind, pure, Except.pure] at found
  cases found
  have first := CarbonStore.average_nonneg nonneg read
  have second := CarbonStore.average_nonneg nonneg read'
  have size := bytesToGb_nonneg (checkpointBytes + staticDataBytes)
  have network : 0 ≤ policy.migration.networkEnergyKwhPerGbBase +
      policy.migration.networkEnergyKwhPerGbKm * edge.distanceKm :=
    add_nonneg policy.migration.networkEnergyBase_nonneg
      (mul_nonneg policy.migration.networkEnergyKm_nonneg inRange.distance_nonneg)
  refine ⟨?_, ?_, mul_nonneg size source.egressPrice_nonneg⟩
  · exact add_nonneg (add_nonneg checkpoint (transferSeconds_nonneg inRange.latency_nonneg transferred))
      restore
  · apply add_nonneg
    · exact add_nonneg (phase_nonneg source power checkpoint first)
        (phase_nonneg destination power restore second)
    · positivity

end Nonneg

end Magellan.Planning
