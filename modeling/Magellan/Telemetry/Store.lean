import Magellan.Telemetry.Models
import Magellan.Data.ExponentialAverage

/-!
# The telemetry store

The document in memory, the file it is written to after every change, and the views that the
scheduler reads. Numbers are exact.
-/

namespace Magellan.Telemetry

/-! ## Times -/

def ageSeconds (value : Option Timestamp) (now : Timestamp) : Option Rat :=
  value.map fun value => max 0 (((now : Rat) - value) / 1000000)

def freshness (value : Option Timestamp) (staleAfterSeconds : Rat) (now : Timestamp) :
    TelemetryFreshness :=
  match ageSeconds value now with
  | none => .unavailable
  | some age => if staleAfterSeconds < age then .stale else .fresh

/-! ## Averages and fits -/

def ema (previous : Option Rat) (observed alpha : Rat) : Rat :=
  match previous with
  | none => observed
  | some previous => alpha * observed + (1 - alpha) * previous

theorem ema_eq (previous : Option Rat) (observed alpha : Rat) :
    ema previous observed alpha = ExponentialAverage.step alpha observed previous := by
  cases previous <;> rfl

/-- The rate of so many bytes in so much time. -/
def mbps (bytes : Int) (seconds : Rat) : Rat := bytes * 8 / seconds / 1000000

/-- The time that a payload takes at a rate. -/
def payloadSeconds (bytes : Int) (bandwidthMbps : Rat) : Rat := bytes * 8 / (bandwidthMbps * 1000000)

def nanosecond : Rat := 1 / 1000000000

def fitTransferModel (smallBytes : Int) (smallSeconds : Rat) (largeBytes : Int)
    (largeSeconds : Rat) : Except Error (Rat × Rat) :=
  if smallBytes ≤ 0 ∨ largeBytes ≤ smallBytes then
    .error (.valueError "Transfer-model samples need two increasing payload sizes")
  else if smallSeconds ≤ 0 ∨ largeSeconds ≤ 0 then
    .error (.valueError "Transfer-model sample durations must be positive")
  else
    let deltaSeconds := largeSeconds - smallSeconds
    let deltaBytes := largeBytes - smallBytes
    if deltaSeconds ≤ nanosecond then
      -- jitter can make the larger sample appear no slower
      .ok (0, mbps largeBytes largeSeconds)
    else
      let steadyBandwidthMbps := mbps deltaBytes deltaSeconds
      .ok (max 0 (smallSeconds - payloadSeconds smallBytes steadyBandwidthMbps), steadyBandwidthMbps)

/-! ## What an observation changes in a record -/

namespace EdgeTelemetryRecord

variable (alpha : Rat) (sampledAtUtc : Timestamp) (r : EdgeTelemetryRecord)

/-- What every successful sample of an edge notes. -/
def succeeded : EdgeTelemetryRecord :=
  { r with
    lastSuccessAtUtc := some sampledAtUtc
    consecutiveFailures := 0
    lastError := none }

def observeLatency (latencyMs : Rat) : EdgeTelemetryRecord :=
  { r with
    latencyMsEma := some (ema r.latencyMsEma (max 0 latencyMs) alpha)
    latencySampleCount := r.latencySampleCount + 1
    lastLatencySampleAtUtc := some sampledAtUtc }.succeeded sampledAtUtc

def observeBandwidth (bandwidthMbps : Rat) (samples : Nat) (sampleSource : String) :
    EdgeTelemetryRecord :=
  { r with
    bandwidthMbpsEma := some (ema r.bandwidthMbpsEma bandwidthMbps alpha)
    bandwidthSampleCount := r.bandwidthSampleCount + samples
    lastBandwidthSampleSource := some sampleSource
    lastBandwidthSampleAtUtc := some sampledAtUtc }

/-- The steady rate that a migration shows, where a model of the transport exists. -/
def refinement (transferBytes : Int) (durationSeconds : Rat) (sampleSource : String) : Option Rat :=
  match r.transferFixedSecondsEma, r.transferSteadyBandwidthMbpsEma with
  | some fixed, some _ =>
      if sampleSource = "migration_transfer" ∧ nanosecond < durationSeconds - fixed then
        some (mbps transferBytes (durationSeconds - fixed))
      else none
  | _, _ => none

def refine (observed : Option Rat) : EdgeTelemetryRecord :=
  match observed with
  | none => r
  | some observedSteadyBandwidth =>
      { r with
        transferSteadyBandwidthMbpsEma :=
          some (ema r.transferSteadyBandwidthMbpsEma observedSteadyBandwidth alpha)
        transferModelSampleCount := r.transferModelSampleCount + 1
        lastTransferModelSource := some "migration_observation_refined"
        lastTransferModelSampleAtUtc := r.lastBandwidthSampleAtUtc }

def observeTransfer (transferBytes : Int) (durationSeconds : Rat) (sampleSource : String) :
    EdgeTelemetryRecord :=
  let r := r.observeBandwidth alpha sampledAtUtc (mbps transferBytes durationSeconds) 1 sampleSource
  (r.refine alpha (r.refinement transferBytes durationSeconds sampleSource)).succeeded sampledAtUtc

/-- The two samples of a model of the transport. -/
structure ModelSamples where
  smallBytes : Int
  smallSeconds : Rat
  largeBytes : Int
  largeSeconds : Rat

def observeModel (fixedSeconds steadyBandwidthMbps : Rat) (samples : ModelSamples)
    (sampleSource : String) : EdgeTelemetryRecord :=
  { r with
    transferFixedSecondsEma := some (ema r.transferFixedSecondsEma fixedSeconds alpha)
    transferSteadyBandwidthMbpsEma :=
      some (ema r.transferSteadyBandwidthMbpsEma steadyBandwidthMbps alpha)
    transferModelSampleCount := r.transferModelSampleCount + 1
    lastTransferModelSource := some sampleSource
    lastTransferModelSmallBytes := some samples.smallBytes
    lastTransferModelSmallSeconds := some samples.smallSeconds
    lastTransferModelLargeBytes := some samples.largeBytes
    lastTransferModelLargeSeconds := some samples.largeSeconds
    lastTransferModelSampleAtUtc := some sampledAtUtc }

def observeTransferModel (bandwidthMbps fixedSeconds steadyBandwidthMbps : Rat)
    (samples : ModelSamples) (sampleSource : String) : EdgeTelemetryRecord :=
  let r := r.observeBandwidth alpha sampledAtUtc bandwidthMbps 2 sampleSource
  (r.observeModel alpha sampledAtUtc fixedSeconds steadyBandwidthMbps samples sampleSource).succeeded
    sampledAtUtc

def observeFailure (error : String) : EdgeTelemetryRecord :=
  { r with
    lastFailureAtUtc := some sampledAtUtc
    consecutiveFailures := r.consecutiveFailures + 1
    lastError := some error }

end EdgeTelemetryRecord

/-- The phases of a migration, as measured. -/
structure PhaseSeconds where
  checkpoint : Rat
  transfer : Rat
  restore : Rat
  activation : Rat
  totalDowntime : Rat

def MigrationCalibrationRecord.observe (alpha : Rat) (sampledAtUtc : Timestamp)
    (seconds : PhaseSeconds) (transferBytes : Int) (r : MigrationCalibrationRecord) :
    MigrationCalibrationRecord :=
  { r with
    checkpointSecondsEma := some (ema r.checkpointSecondsEma (max 0 seconds.checkpoint) alpha)
    transferSecondsEma := some (ema r.transferSecondsEma (max 0 seconds.transfer) alpha)
    restoreSecondsEma := some (ema r.restoreSecondsEma (max 0 seconds.restore) alpha)
    activationSecondsEma := some (ema r.activationSecondsEma (max 0 seconds.activation) alpha)
    totalDowntimeSecondsEma := some (ema r.totalDowntimeSecondsEma (max 0 seconds.totalDowntime) alpha)
    lastTransferBytes := some (max 0 transferBytes)
    sampleCount := r.sampleCount + 1
    lastSampleAtUtc := some sampledAtUtc }

/-! ## The store -/

/-- The text of a document. What is written is read back; the checks come after that. -/
structure Codec (Text : Type) where
  dumps : TelemetryDocument → Text
  /-- The document in a text, if it is one. -/
  parse : Text → Option TelemetryDocument
  parse_dumps : ∀ d, parse (dumps d) = some d

structure TelemetryStore (Text : Type) where
  document : TelemetryDocument
  file : Option Text

def edgeKey (sourceNodeId destinationNodeId : NodeId) : String :=
  sourceNodeId ++ "->" ++ destinationNodeId

section

variable {Text : Type} (codec : Codec Text) (alpha : Rat) (now : Timestamp)

def load (file : Option Text) : TelemetryDocument :=
  match file.bind codec.parse with
  | none => { updatedAtUtc := now }
  | some document => if document.errors = [] then document else { updatedAtUtc := now }

namespace TelemetryStore

/-- `TelemetryStore(..)` on the same file. -/
def reload (s : TelemetryStore Text) : TelemetryStore Text :=
  { s with document := load codec now s.file }

def persist (document : TelemetryDocument) : TelemetryStore Text :=
  let document := { document with updatedAtUtc := now }
  ⟨document, some (codec.dumps document)⟩

variable (sourceNodeId destinationNodeId : NodeId) (sampledAtUtc : Timestamp) (s : TelemetryStore Text)

/-- The record of the edge, or a new one. -/
def edgeOrNew : Except Error EdgeTelemetryRecord :=
  match s.document.edgeRecords.get? (edgeKey sourceNodeId destinationNodeId) with
  | some record => .ok record
  | none =>
      EdgeTelemetryRecord.validated
        { sourceNodeId := sourceNodeId, destinationNodeId := destinationNodeId }

def calibrationOrNew : Except Error MigrationCalibrationRecord :=
  match s.document.migrationCalibrations.get? (edgeKey sourceNodeId destinationNodeId) with
  | some record => .ok record
  | none =>
      MigrationCalibrationRecord.validated
        { sourceNodeId := sourceNodeId, destinationNodeId := destinationNodeId }

/-- What the recorders of edges share: the record is looked up, changed, put back and written. -/
def updateEdge (change : EdgeTelemetryRecord → EdgeTelemetryRecord) :
    Except Error (TelemetryStore Text × EdgeTelemetryRecord) := do
  let record ← s.edgeOrNew sourceNodeId destinationNodeId
  let record := change record
  return (persist codec now { s.document with
    edgeRecords := s.document.edgeRecords.set (edgeKey sourceNodeId destinationNodeId) record }, record)

def recordLatency (latencyMs : Rat) : Except Error (TelemetryStore Text × EdgeTelemetryRecord) :=
  s.updateEdge codec now sourceNodeId destinationNodeId fun r =>
    r.observeLatency alpha sampledAtUtc latencyMs

def recordTransfer (transferBytes : Int) (durationSeconds : Rat) (sampleSource : String) :
    Except Error (TelemetryStore Text × EdgeTelemetryRecord) :=
  if transferBytes ≤ 0 ∨ durationSeconds ≤ 0 then
    .error (.valueError "A bandwidth sample needs positive bytes and duration")
  else
    s.updateEdge codec now sourceNodeId destinationNodeId fun r =>
      r.observeTransfer alpha sampledAtUtc transferBytes durationSeconds sampleSource

def recordTransferModelPair (smallBytes : Int) (smallSeconds : Rat) (largeBytes : Int)
    (largeSeconds : Rat) (sampleSource : String) :
    Except Error (TelemetryStore Text × EdgeTelemetryRecord) := do
  let (fixedSeconds, steadyBandwidthMbps) ←
    fitTransferModel smallBytes smallSeconds largeBytes largeSeconds
  s.updateEdge codec now sourceNodeId destinationNodeId fun r =>
    r.observeTransferModel alpha sampledAtUtc (mbps largeBytes largeSeconds) fixedSeconds
      steadyBandwidthMbps ⟨smallBytes, smallSeconds, largeBytes, largeSeconds⟩ sampleSource

def recordTransferModelStream (smallBytes : Int) (smallSeconds : Rat) (streamBytes : Int)
    (streamSeconds : Rat) (sampleSource : String) :
    Except Error (TelemetryStore Text × EdgeTelemetryRecord) :=
  if smallBytes ≤ 0 ∨ smallSeconds ≤ 0 then
    .error (.valueError "Small rsync sample must be positive")
  else if streamBytes ≤ 0 ∨ streamSeconds ≤ 0 then
    .error (.valueError "SSH stream sample must be positive")
  else
    let steadyBandwidthMbps := mbps streamBytes streamSeconds
    let fixedSeconds := max 0 (smallSeconds - payloadSeconds smallBytes steadyBandwidthMbps)
    s.updateEdge codec now sourceNodeId destinationNodeId fun r =>
      r.observeTransferModel alpha sampledAtUtc steadyBandwidthMbps fixedSeconds
        steadyBandwidthMbps ⟨smallBytes, smallSeconds, streamBytes, streamSeconds⟩ sampleSource

def recordEdgeFailure (error : String) : Except Error (TelemetryStore Text × EdgeTelemetryRecord) :=
  s.updateEdge codec now sourceNodeId destinationNodeId fun r => r.observeFailure sampledAtUtc error

def recordMigrationCalibration (seconds : PhaseSeconds) (transferBytes : Int) :
    Except Error (TelemetryStore Text × MigrationCalibrationRecord) := do
  let record ← s.calibrationOrNew sourceNodeId destinationNodeId
  let record := record.observe alpha sampledAtUtc seconds transferBytes
  return (persist codec now { s.document with
    migrationCalibrations :=
      s.document.migrationCalibrations.set (edgeKey sourceNodeId destinationNodeId) record }, record)

/-! ## Views -/

def edgeView (configuredBandwidthMbps configuredLatencyMs staleAfterSeconds : Rat) :
    Except Error { v : EdgeTelemetryView // v.InRange } := do
  let record ← s.edgeOrNew sourceNodeId destinationNodeId
  let latencyFreshness := freshness record.lastLatencySampleAtUtc staleAfterSeconds now
  let bandwidthFreshness := freshness record.lastBandwidthSampleAtUtc staleAfterSeconds now
  let transferModelFreshness := freshness record.lastTransferModelSampleAtUtc staleAfterSeconds now
  let useLatency := latencyFreshness = .fresh ∧ record.latencyMsEma ≠ none
  let useBandwidth := bandwidthFreshness = .fresh ∧ record.bandwidthMbpsEma ≠ none
  let useTransferModel := transferModelFreshness = .fresh ∧ record.transferFixedSecondsEma ≠ none ∧
    record.transferSteadyBandwidthMbpsEma ≠ none
  EdgeTelemetryView.validated { record with
    configuredLatencyMs
    configuredBandwidthMbps
    effectiveLatencyMs :=
      if useLatency then record.latencyMsEma.getD 0 else configuredLatencyMs
    effectiveBandwidthMbps :=
      if useBandwidth then record.bandwidthMbpsEma.getD 0 else configuredBandwidthMbps
    latencySource := if useLatency then "measured_http_rtt" else "configured_fallback"
    bandwidthSource :=
      if useBandwidth then "measured_migration_transport_ema" else "configured_fallback"
    effectiveTransferFixedSeconds :=
      if useTransferModel then record.transferFixedSecondsEma.getD 0 else 0
    effectiveTransferSteadyBandwidthMbps :=
      if useTransferModel then record.transferSteadyBandwidthMbpsEma else none
    transferModelSource :=
      if useTransferModel then "measured_migration_transport_affine_ema" else "unavailable"
    latencyFreshness
    bandwidthFreshness
    transferModelFreshness
    latencyAgeSeconds := ageSeconds record.lastLatencySampleAtUtc now
    bandwidthAgeSeconds := ageSeconds record.lastBandwidthSampleAtUtc now
    transferModelAgeSeconds := ageSeconds record.lastTransferModelSampleAtUtc now }

def calibrationView (staleAfterSeconds : Rat) :
    Except Error { v : MigrationCalibrationView // v.InRange } := do
  let record ← s.calibrationOrNew sourceNodeId destinationNodeId
  MigrationCalibrationView.validated { record with
    freshness := freshness record.lastSampleAtUtc staleAfterSeconds now
    ageSeconds := ageSeconds record.lastSampleAtUtc now }

/-- What `ClusterGraph.edge` makes of an edge as it is configured. -/
def edgeMetrics (edgeStaleAfterSeconds calibrationStaleAfterSeconds : Rat)
    (configured : Planning.EdgeMetrics) : Except Error Planning.EdgeMetrics := do
  let view ← s.edgeView now sourceNodeId destinationNodeId configured.bandwidthMbps
    configured.latencyMs edgeStaleAfterSeconds
  let calibration ← s.calibrationView now sourceNodeId destinationNodeId calibrationStaleAfterSeconds
  return configured.measured view.property.toPlanning calibration.property.toPlanning

end TelemetryStore

end

end Magellan.Telemetry
