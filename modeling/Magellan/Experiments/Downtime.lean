import Magellan.Experiments.Comparison
import Magellan.Scheduler.Selection

/-!
# Predicted and charged downtimes

A replay charges a migration by the bandwidth and the latency of its edge. The estimate of a migration
has a transfer model for each kind of measurement, and an overhead.
-/

namespace Magellan.Planning

/-- The time for the bytes by the bandwidth alone. -/
def bandwidthSeconds (sizeBytes : Nat) (bandwidthMbps : Rat) : Rat :=
  sizeBytes * 8 / (bandwidthMbps * 1000000)

namespace EdgeMetrics

variable (edge : EdgeMetrics)

def overheadSeconds : Rat := max 0 edge.migrationOverheadSeconds

/-- What a transfer is estimated to take where no model of the transport has been measured. -/
def EqualByBandwidth : Prop :=
  if edge.bandwidthSource ∈ ["measured_transfer_ema", "measured_migration_transport_ema"] then
    edge.overheadSeconds = edge.latencyMs / 1000
  else edge.overheadSeconds = 0

/-- For these bytes the transfer model and the overhead of the edge come to its bandwidth and latency. -/
def ChargedAsPredicted (totalTransferBytes : Nat) : Prop :=
  match edge.transferSteadyBandwidthMbps with
  | some steady =>
    if edge.transferModelSource = "measured_migration_transport_affine_ema" then
      edge.transferFixedSeconds + bandwidthSeconds totalTransferBytes steady + edge.overheadSeconds =
        bandwidthSeconds totalTransferBytes edge.bandwidthMbps + edge.latencyMs / 1000
    else edge.EqualByBandwidth
  | none => edge.EqualByBandwidth

variable {edge} {totalTransferBytes : Nat} {predicted charged : Rat}

theorem transferSeconds_ok {bandwidthMbps latencyMs seconds : Rat}
    (h : transferSeconds totalTransferBytes bandwidthMbps latencyMs = .ok seconds) :
    seconds = bandwidthSeconds totalTransferBytes bandwidthMbps + latencyMs / 1000 := by
  unfold transferSeconds at h
  split_ifs at h
  cases h
  rw [bandwidthSeconds, Nat.cast_mul, Nat.cast_ofNat]

theorem equalByBandwidth_iff
    (predicted_ok : transferDurationSeconds.byBandwidth edge totalTransferBytes = .ok predicted)
    (charged_ok : transferSeconds totalTransferBytes edge.bandwidthMbps edge.latencyMs = .ok charged) :
    predicted + edge.overheadSeconds = charged ↔ edge.EqualByBandwidth := by
  have charge := transferSeconds_ok charged_ok
  unfold transferDurationSeconds.byBandwidth at predicted_ok
  unfold EqualByBandwidth
  split_ifs at predicted_ok ⊢ with measured
  · cases predicted_ok
    rw [charge]
    exact add_right_inj _
  · rw [predicted_ok] at charged_ok
    cases charged_ok
    exact add_eq_left

theorem chargedAsPredicted_iff
    (predicted_ok : transferDurationSeconds edge totalTransferBytes = .ok predicted)
    (charged_ok : transferSeconds totalTransferBytes edge.bandwidthMbps edge.latencyMs = .ok charged) :
    predicted + edge.overheadSeconds = charged ↔ edge.ChargedAsPredicted totalTransferBytes := by
  unfold transferDurationSeconds at predicted_ok
  unfold ChargedAsPredicted
  cases steady : edge.transferSteadyBandwidthMbps with
  | none =>
      rw [steady] at predicted_ok
      exact equalByBandwidth_iff predicted_ok charged_ok
  | some bandwidth =>
      rw [steady] at predicted_ok
      by_cases affine : edge.transferModelSource = "measured_migration_transport_affine_ema"
      · simp only [if_pos affine] at predicted_ok ⊢
        cases predicted_ok
        rw [transferSeconds_ok charged_ok]
        rfl
      · simp only [if_neg affine] at predicted_ok ⊢
        exact equalByBandwidth_iff predicted_ok charged_ok

end EdgeMetrics

/-! ## Both functions -/

section

variable {math : MathModule} {carbonStore carbonStore' : CarbonStore} {forecastPolicy : CarbonForecastPolicy}
  {task : TaskProfile} {source destination : NodeConfig} {edge : EdgeMetrics} {at_ start : Instant}
  {horizonSeconds powerKw : Rat} {policy : ScoringPolicy} {staticDataBytesOverride : Option Nat}
  {checkpointBytes staticDataBytes : Nat} {estimate : RawActionEstimate} {metrics : SegmentMetrics}

theorem estimateMigrate_downtime
    (h : estimateMigrate math carbonStore forecastPolicy task source destination edge at_
      horizonSeconds policy.pause policy.migration staticDataBytesOverride = .ok estimate) :
    ∃ transfer, transferDurationSeconds edge (task.checkpointBytes + staticDataBytesOverride.getD
        (if destination.id ∈ task.prestagedNodeIds then 0 else task.dataBytes)) = .ok transfer ∧
      estimate.predictedDowntimeSeconds = some (edge.checkpointSeconds.getD policy.pause.pauseSeconds +
        transfer + edge.restoreSeconds.getD policy.pause.resumeSeconds + edge.overheadSeconds) := by
  unfold estimateMigrate RawActionEstimate.validated at h
  obtain ⟨transfer, transferred, h⟩ := Except.bind_eq_ok.mp h
  obtain ⟨checkpointForecast, -, h⟩ := Except.bind_eq_ok.mp h
  obtain ⟨restoreForecast, -, h⟩ := Except.bind_eq_ok.mp h
  obtain ⟨computeForecast, -, h⟩ := Except.bind_eq_ok.mp h
  obtain ⟨u, -, h⟩ := Except.bind_eq_ok.mp h
  cases h
  exact ⟨transfer, transferred, rfl⟩

theorem realizedMigration_elapsed
    (h : realizedMigration carbonStore start source destination edge policy powerKw checkpointBytes
      staticDataBytes = .ok metrics) :
    ∃ transfer, transferSeconds (checkpointBytes + staticDataBytes) edge.bandwidthMbps
        edge.latencyMs = .ok transfer ∧
      metrics.elapsedSeconds = edge.checkpointSeconds.getD policy.pause.pauseSeconds + transfer +
        edge.restoreSeconds.getD policy.pause.resumeSeconds := by
  unfold realizedMigration at h
  obtain ⟨transfer, transferred, h⟩ := Except.bind_eq_ok.mp h
  obtain ⟨checkpointIntensity, -, h⟩ := Except.bind_eq_ok.mp h
  obtain ⟨restoreIntensity, -, h⟩ := Except.bind_eq_ok.mp h
  cases h
  exact ⟨transfer, transferred, rfl⟩

theorem edge_of_unmeasured {graph : ClusterGraph} {sourceNodeId destinationNodeId : NodeId}
    (found : graph.edge math sourceNodeId destinationNodeId = .ok edge)
    (unmeasured : graph.telemetryStore = none) (totalTransferBytes : Nat) :
    edge.ChargedAsPredicted totalTransferBytes := by
  unfold ClusterGraph.edge at found
  obtain ⟨source, -, found⟩ := Except.bind_eq_ok.mp found
  obtain ⟨destination, -, found⟩ := Except.bind_eq_ok.mp found
  simp only [unmeasured] at found
  cases found
  exact max_self 0

/-- The downtime that is charged for a migration is the one that was predicted just where the transfer
model and the overhead of its edge come to its bandwidth and latency, which they do without telemetry. -/
theorem downtime_charged_as_predicted_iff {graph : ClusterGraph}
    {sourceNodeId destinationNodeId : NodeId}
    (found : graph.edge math sourceNodeId destinationNodeId = .ok edge)
    (sameBytes : staticDataBytesOverride.getD
      (if destination.id ∈ task.prestagedNodeIds then 0 else task.dataBytes) = staticDataBytes)
    (estimated : estimateMigrate math carbonStore forecastPolicy task source destination edge at_
      horizonSeconds policy.pause policy.migration staticDataBytesOverride = .ok estimate)
    (realized : realizedMigration carbonStore' start source destination edge policy powerKw
      task.checkpointBytes staticDataBytes = .ok metrics) :
    (estimate.predictedDowntimeSeconds = some metrics.elapsedSeconds ↔
        edge.ChargedAsPredicted (task.checkpointBytes + staticDataBytes)) ∧
      (graph.telemetryStore = none →
        estimate.predictedDowntimeSeconds = some metrics.elapsedSeconds) := by
  obtain ⟨predicted, predicted_ok, downtime⟩ := estimateMigrate_downtime estimated
  obtain ⟨charged, charged_ok, elapsed⟩ := realizedMigration_elapsed realized
  rw [sameBytes] at predicted_ok
  have exact_ : estimate.predictedDowntimeSeconds = some metrics.elapsedSeconds ↔
      edge.ChargedAsPredicted (task.checkpointBytes + staticDataBytes) := by
    rw [← EdgeMetrics.chargedAsPredicted_iff predicted_ok charged_ok, downtime, elapsed,
      Option.some_inj]
    constructor <;> intro same <;> linarith
  exact ⟨exact_, fun unmeasured => exact_.mpr (edge_of_unmeasured found unmeasured _)⟩

end

/-! ## A measured edge -/

/-- A transport that starts in two seconds, and a migration that takes two more beside its phases. -/
def affineTelemetry : TelemetryStore where
  edgeView _ _ _ _ := {
    effectiveBandwidthMbps := 100
    effectiveLatencyMs := 50
    bandwidthSource := "measured_migration_transport_ema"
    effectiveTransferFixedSeconds := 2
    effectiveTransferSteadyBandwidthMbps := some 100
    transferModelSource := "measured_migration_transport_affine_ema"
    bandwidth_pos := hundred_pos
    latency_nonneg := fifty_nonneg
    transferFixed_nonneg := two_nonneg
    transferSteady_pos := fun _ same => Option.some.inj same ▸ hundred_pos }
  calibrationView _ _ := {
    fresh := true
    checkpointSecondsEma := some 1
    transferSecondsEma := some 1
    restoreSecondsEma := some 1
    totalDowntimeSecondsEma := some 5
    checkpoint_nonneg := fun _ same => Option.some.inj same ▸ zero_le_one
    restore_nonneg := fun _ same => Option.some.inj same ▸ zero_le_one }

/-- The predicted and the charged downtime of a migration from Boston to France. -/
def downtimes (graph : ClusterGraph) : Except Exn (Option Rat × Rat) := do
  let source ← graph.cluster.getNode "boston"
  let destination ← graph.cluster.getNode "france"
  let edge ← graph.edge sampleMath "boston" "france"
  let estimate ← estimateMigrate sampleMath pairStore carbonPolicy.carbonForecast (restlessTask 0)
    source destination edge 600 900 carbonPolicy.pause carbonPolicy.migration none
  let metrics ← realizedMigration pairStore 600 source destination edge carbonPolicy 1 1000 0
  return (estimate.predictedDowntimeSeconds, metrics.elapsedSeconds)

theorem downtime_charged_as_predicted_sample :
    ∃ predicted charged, downtimes { cluster := pairCluster } = .ok (predicted, charged) ∧
      predicted = some charged := by
  have isOk : (downtimes { cluster := pairCluster }).isOk = true := by decide +kernel
  cases both : downtimes { cluster := pairCluster } with
  | error e => simp [both, Except.isOk, Except.toBool] at isOk
  | ok result =>
      obtain ⟨predicted, charged⟩ := result
      obtain ⟨source, -, both⟩ := Except.bind_eq_ok.mp both
      obtain ⟨destination, -, both⟩ := Except.bind_eq_ok.mp both
      obtain ⟨edge, found, both⟩ := Except.bind_eq_ok.mp both
      obtain ⟨estimate, estimated, both⟩ := Except.bind_eq_ok.mp both
      obtain ⟨metrics, realized, both⟩ := Except.bind_eq_ok.mp both
      cases both
      have noData : (none : Option Nat).getD
          (if destination.id ∈ (restlessTask 0).prestagedNodeIds then 0
            else (restlessTask 0).dataBytes) = 0 := by
        simp [restlessTask]
      exact ⟨_, _, rfl,
        (downtime_charged_as_predicted_iff found noData estimated realized).2 rfl⟩

/-- With measurements 6.00008 seconds are predicted and 2.05008 charged. -/
theorem measured_downtime_not_charged :
    ∃ predicted charged,
      downtimes { cluster := pairCluster, telemetryStore := some affineTelemetry } =
        .ok (some predicted, charged) ∧ charged < predicted := by
  have value : (downtimes { cluster := pairCluster, telemetryStore := some affineTelemetry }).toOption =
      some (some (75001 / 12500), 25626 / 12500) := by decide +kernel
  cases both : downtimes { cluster := pairCluster, telemetryStore := some affineTelemetry } with
  | error e => simp [both, Except.toOption] at value
  | ok result =>
      rw [both] at value
      rw [Option.some.inj value]
      exact ⟨_, _, rfl, by norm_num⟩

end Magellan.Planning
