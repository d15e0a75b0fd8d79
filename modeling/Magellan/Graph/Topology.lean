import Mathlib.Tactic.Positivity
import Magellan.Config.Models

/-!
# The network of a cluster

The edges between the nodes, as configured or as the telemetry shows them. What the telemetry store
shows does not change while a run lasts.
-/

namespace Magellan.Planning

def haversineDistanceKm (math : MathModule) (latitude1 longitude1 latitude2 longitude2 : Rat) : Rat :=
  let earthRadiusKm := 6371
  let lat1 := math.radians latitude1
  let lon1 := math.radians longitude1
  let lat2 := math.radians latitude2
  let lon2 := math.radians longitude2
  let deltaLat := lat2 - lat1
  let deltaLon := lon2 - lon1
  let value := math.sin (deltaLat / 2) ^ 2 +
    math.cos lat1 * math.cos lat2 * math.sin (deltaLon / 2) ^ 2
  2 * earthRadiusKm * math.asin (math.sqrt value)

theorem haversineDistanceKm_nonneg (math : MathModule) (latitude1 longitude1 latitude2 longitude2 : Rat) :
    0 ≤ haversineDistanceKm math latitude1 longitude1 latitude2 longitude2 :=
  mul_nonneg (by norm_num) (math.asin_nonneg _ (math.sqrt_nonneg _))

/-! ## Telemetry -/

structure EdgeTelemetryView where
  effectiveBandwidthMbps : Rat
  effectiveLatencyMs : Rat
  bandwidthSource : String
  effectiveTransferFixedSeconds : Rat := 0
  effectiveTransferSteadyBandwidthMbps : Option Rat := none
  transferModelSource : String
  bandwidth_pos : 0 < effectiveBandwidthMbps := by norm_num
  latency_nonneg : 0 ≤ effectiveLatencyMs := by norm_num
  transferFixed_nonneg : 0 ≤ effectiveTransferFixedSeconds := by norm_num
  transferSteady_pos : ∀ value ∈ effectiveTransferSteadyBandwidthMbps, 0 < value := by simp

structure MigrationCalibrationView where
  fresh : Bool
  checkpointSecondsEma : Option Rat := none
  transferSecondsEma : Option Rat := none
  restoreSecondsEma : Option Rat := none
  totalDowntimeSecondsEma : Option Rat := none
  checkpoint_nonneg : ∀ value ∈ checkpointSecondsEma, 0 ≤ value := by simp
  restore_nonneg : ∀ value ∈ restoreSecondsEma, 0 ≤ value := by simp

structure TelemetryStore where
  /-- By the two nodes and the configured bandwidth and latency of the edge. -/
  edgeView : NodeId → NodeId → Rat → Rat → EdgeTelemetryView
  calibrationView : NodeId → NodeId → MigrationCalibrationView

/-! ## Edges -/

structure EdgeMetrics where
  distanceKm : Rat
  bandwidthMbps : Rat
  latencyMs : Rat
  bandwidthSource : String := "configured_fallback"
  checkpointSeconds : Option Rat := none
  restoreSeconds : Option Rat := none
  migrationOverheadSeconds : Rat := 0
  transferFixedSeconds : Rat := 0
  transferSteadyBandwidthMbps : Option Rat := none
  transferModelSource : String := "unavailable"

structure ClusterGraph where
  cluster : ClusterConfig
  telemetryStore : Option TelemetryStore := none

/-- What a migration has taken beside its phases. -/
def MigrationCalibrationView.overheadSeconds (calibration : MigrationCalibrationView) : Rat :=
  match calibration.totalDowntimeSecondsEma, calibration.checkpointSecondsEma,
    calibration.transferSecondsEma, calibration.restoreSecondsEma with
  | some downtime, some checkpoint, some transfer, some restore =>
    max 0 (downtime - checkpoint - transfer - restore)
  | _, _, _, _ => 0

/-- The measurements of an edge, in place of what is configured. -/
def EdgeMetrics.measured (view : EdgeTelemetryView) (calibration : MigrationCalibrationView)
    (edge : EdgeMetrics) : EdgeMetrics :=
  let edge := { edge with
    bandwidthMbps := view.effectiveBandwidthMbps
    latencyMs := view.effectiveLatencyMs
    bandwidthSource := view.bandwidthSource
    transferFixedSeconds := view.effectiveTransferFixedSeconds
    transferSteadyBandwidthMbps := view.effectiveTransferSteadyBandwidthMbps
    transferModelSource := view.transferModelSource }
  if calibration.fresh then
    { edge with
      checkpointSeconds := calibration.checkpointSecondsEma
      restoreSeconds := calibration.restoreSecondsEma
      migrationOverheadSeconds := calibration.overheadSeconds }
  else edge

namespace ClusterGraph

variable (math : MathModule) (graph : ClusterGraph)

def peers (nodeId : NodeId) : List NodeConfig := graph.cluster.nodes.filter (·.id ≠ nodeId)

def edge (sourceNodeId destinationNodeId : NodeId) : Except Exn EdgeMetrics := do
  let source ← graph.cluster.getNode sourceNodeId
  let destination ← graph.cluster.getNode destinationNodeId
  let override := graph.cluster.getEdgeOverride sourceNodeId destinationNodeId
  let configuredBandwidth :=
    (override.map (·.bandwidthMbps)).getD graph.cluster.defaultBandwidthMbps
  let configuredLatency := (override.map (·.latencyMs)).getD graph.cluster.defaultLatencyMs
  let configured : EdgeMetrics := {
    distanceKm := haversineDistanceKm math source.latitude source.longitude
      destination.latitude destination.longitude
    bandwidthMbps := configuredBandwidth
    latencyMs := configuredLatency }
  match graph.telemetryStore with
  | none => return configured
  | some store =>
    return configured.measured
      (store.edgeView sourceNodeId destinationNodeId configuredBandwidth configuredLatency)
      (store.calibrationView sourceNodeId destinationNodeId)

end ClusterGraph

/-! ## The numbers of an edge are in range -/

structure EdgeMetrics.InRange (edge : EdgeMetrics) : Prop where
  distance_nonneg : 0 ≤ edge.distanceKm
  bandwidth_pos : 0 < edge.bandwidthMbps
  latency_nonneg : 0 ≤ edge.latencyMs
  checkpoint_nonneg : ∀ value ∈ edge.checkpointSeconds, 0 ≤ value
  restore_nonneg : ∀ value ∈ edge.restoreSeconds, 0 ≤ value

theorem EdgeMetrics.InRange.measured {edge : EdgeMetrics} (inRange : edge.InRange)
    (view : EdgeTelemetryView) (calibration : MigrationCalibrationView) :
    (edge.measured view calibration).InRange := by
  unfold EdgeMetrics.measured
  split
  · exact ⟨inRange.distance_nonneg, view.bandwidth_pos, view.latency_nonneg,
      calibration.checkpoint_nonneg, calibration.restore_nonneg⟩
  · exact ⟨inRange.distance_nonneg, view.bandwidth_pos, view.latency_nonneg,
      inRange.checkpoint_nonneg, inRange.restore_nonneg⟩

namespace ClusterGraph

variable {math : MathModule} {graph : ClusterGraph} {sourceNodeId destinationNodeId : NodeId}

theorem configured_inRange (graph : ClusterGraph) (sourceNodeId destinationNodeId : NodeId) :
    0 < ((graph.cluster.getEdgeOverride sourceNodeId destinationNodeId).map
        (·.bandwidthMbps)).getD graph.cluster.defaultBandwidthMbps ∧
      0 ≤ ((graph.cluster.getEdgeOverride sourceNodeId destinationNodeId).map
        (·.latencyMs)).getD graph.cluster.defaultLatencyMs := by
  cases graph.cluster.getEdgeOverride sourceNodeId destinationNodeId with
  | none => exact ⟨graph.cluster.defaultBandwidth_pos, graph.cluster.defaultLatency_nonneg⟩
  | some override => exact ⟨override.bandwidth_pos, override.latency_nonneg⟩

theorem edge_inRange {edge : EdgeMetrics}
    (found : graph.edge math sourceNodeId destinationNodeId = .ok edge) : edge.InRange := by
  unfold ClusterGraph.edge at found
  cases source : graph.cluster.getNode sourceNodeId with
  | error e => simp [source, bind, Except.bind] at found
  | ok sourceNode =>
      cases destination : graph.cluster.getNode destinationNodeId with
      | error e => simp [source, destination, bind, Except.bind] at found
      | ok destinationNode =>
          simp only [source, destination, bind, Except.bind, pure, Except.pure] at found
          obtain ⟨bandwidth, latency⟩ := configured_inRange graph sourceNodeId
            destinationNodeId
          split at found
          · cases found
            exact ⟨haversineDistanceKm_nonneg .., bandwidth, latency, by simp, by simp⟩
          · cases found
            apply EdgeMetrics.InRange.measured
            exact ⟨haversineDistanceKm_nonneg .., bandwidth, latency, by simp, by simp⟩

end ClusterGraph

end Magellan.Planning
