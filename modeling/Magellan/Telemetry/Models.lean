import Magellan.Data.Dict
import Magellan.Graph.Topology

/-!
# The records of the telemetry store

The models of edges and calibrations, and what pydantic checks when one is built or read. Assigning
to a field checks nothing.
-/

namespace Magellan.Telemetry

inductive TelemetryFreshness where
  | fresh
  | stale
  | unavailable
  deriving DecidableEq

/-! ## Checks -/

inductive Constraint where
  | minLengthOne
  | atLeastZero
  | aboveZero
  deriving DecidableEq

/-- A field and what it fails. -/
abbrev FieldError := String × Constraint

inductive Error where
  | valueError (message : String)
  | validationError (errors : List FieldError)
  deriving DecidableEq

def checkField (field : String) (c : Constraint) (holds : Prop) [Decidable holds] :
    List FieldError :=
  if holds then [] else [(field, c)]

def minLengthOne (field : String) (value : String) : List FieldError :=
  checkField field .minLengthOne (value ≠ "")

/-- `ge=0` of a field that may be absent. -/
def atLeastZero (field : String) (value : Option Rat) : List FieldError :=
  checkField field .atLeastZero (∀ x ∈ value, 0 ≤ x)

def aboveZero (field : String) (value : Option Rat) : List FieldError :=
  checkField field .aboveZero (∀ x ∈ value, 0 < x)

def countAtLeastZero (field : String) (value : Option Int) : List FieldError :=
  checkField field .atLeastZero (∀ x ∈ value, 0 ≤ x)

def countAboveZero (field : String) (value : Option Int) : List FieldError :=
  checkField field .aboveZero (∀ x ∈ value, 0 < x)

theorem checkField_eq_nil {field : String} {c : Constraint} {holds : Prop} [Decidable holds] :
    checkField field c holds = [] ↔ holds := by
  unfold checkField
  split <;> simp [*]

/-! ## Edges -/

structure EdgeTelemetryRecord where
  sourceNodeId : NodeId
  destinationNodeId : NodeId
  latencyMsEma : Option Rat := none
  bandwidthMbpsEma : Option Rat := none
  transferFixedSecondsEma : Option Rat := none
  transferSteadyBandwidthMbpsEma : Option Rat := none
  latencySampleCount : Int := 0
  bandwidthSampleCount : Int := 0
  transferModelSampleCount : Int := 0
  lastBandwidthSampleSource : Option String := none
  lastTransferModelSource : Option String := none
  lastTransferModelSmallBytes : Option Int := none
  lastTransferModelSmallSeconds : Option Rat := none
  lastTransferModelLargeBytes : Option Int := none
  lastTransferModelLargeSeconds : Option Rat := none
  lastLatencySampleAtUtc : Option Timestamp := none
  lastBandwidthSampleAtUtc : Option Timestamp := none
  lastTransferModelSampleAtUtc : Option Timestamp := none
  lastSuccessAtUtc : Option Timestamp := none
  lastFailureAtUtc : Option Timestamp := none
  consecutiveFailures : Int := 0
  lastError : Option String := none
  deriving DecidableEq

namespace EdgeTelemetryRecord

variable (r : EdgeTelemetryRecord)

def errors : List FieldError :=
  minLengthOne "source_node_id" r.sourceNodeId ++
  minLengthOne "destination_node_id" r.destinationNodeId ++
  atLeastZero "latency_ms_ema" r.latencyMsEma ++
  aboveZero "bandwidth_mbps_ema" r.bandwidthMbpsEma ++
  atLeastZero "transfer_fixed_seconds_ema" r.transferFixedSecondsEma ++
  aboveZero "transfer_steady_bandwidth_mbps_ema" r.transferSteadyBandwidthMbpsEma ++
  countAtLeastZero "latency_sample_count" r.latencySampleCount ++
  countAtLeastZero "bandwidth_sample_count" r.bandwidthSampleCount ++
  countAtLeastZero "transfer_model_sample_count" r.transferModelSampleCount ++
  countAboveZero "last_transfer_model_small_bytes" r.lastTransferModelSmallBytes ++
  aboveZero "last_transfer_model_small_seconds" r.lastTransferModelSmallSeconds ++
  countAboveZero "last_transfer_model_large_bytes" r.lastTransferModelLargeBytes ++
  aboveZero "last_transfer_model_large_seconds" r.lastTransferModelLargeSeconds ++
  countAtLeastZero "consecutive_failures" r.consecutiveFailures

structure InRange : Prop where
  source : r.sourceNodeId ≠ ""
  destination : r.destinationNodeId ≠ ""
  latency : ∀ x ∈ r.latencyMsEma, 0 ≤ x
  bandwidth : ∀ x ∈ r.bandwidthMbpsEma, 0 < x
  transferFixed : ∀ x ∈ r.transferFixedSecondsEma, 0 ≤ x
  transferSteady : ∀ x ∈ r.transferSteadyBandwidthMbpsEma, 0 < x
  latencyCount : 0 ≤ r.latencySampleCount
  bandwidthCount : 0 ≤ r.bandwidthSampleCount
  transferModelCount : 0 ≤ r.transferModelSampleCount
  smallBytes : ∀ n ∈ r.lastTransferModelSmallBytes, 0 < n
  smallSeconds : ∀ x ∈ r.lastTransferModelSmallSeconds, 0 < x
  largeBytes : ∀ n ∈ r.lastTransferModelLargeBytes, 0 < n
  largeSeconds : ∀ x ∈ r.lastTransferModelLargeSeconds, 0 < x
  failures : 0 ≤ r.consecutiveFailures

theorem errors_eq_nil : r.errors = [] ↔ r.InRange := by
  simp only [errors, minLengthOne, atLeastZero, aboveZero, countAtLeastZero, countAboveZero,
    List.append_eq_nil_iff, checkField_eq_nil, Option.mem_some_iff, forall_eq', and_assoc]
  constructor
  · rintro ⟨h₁, h₂, h₃, h₄, h₅, h₆, h₇, h₈, h₉, h₁₀, h₁₁, h₁₂, h₁₃, h₁₄⟩
    exact ⟨h₁, h₂, h₃, h₄, h₅, h₆, h₇, h₈, h₉, h₁₀, h₁₁, h₁₂, h₁₃, h₁₄⟩
  · rintro ⟨h₁, h₂, h₃, h₄, h₅, h₆, h₇, h₈, h₉, h₁₀, h₁₁, h₁₂, h₁₃, h₁₄⟩
    exact ⟨h₁, h₂, h₃, h₄, h₅, h₆, h₇, h₈, h₉, h₁₀, h₁₁, h₁₂, h₁₃, h₁₄⟩

/-- `EdgeTelemetryRecord(..)`. -/
def validated : Except Error EdgeTelemetryRecord :=
  if r.errors = [] then .ok r else .error (.validationError r.errors)

end EdgeTelemetryRecord

structure EdgeTelemetryView extends EdgeTelemetryRecord where
  configuredLatencyMs : Rat
  configuredBandwidthMbps : Rat
  effectiveLatencyMs : Rat
  effectiveBandwidthMbps : Rat
  latencySource : String
  bandwidthSource : String
  effectiveTransferFixedSeconds : Rat := 0
  effectiveTransferSteadyBandwidthMbps : Option Rat := none
  transferModelSource : String
  latencyFreshness : TelemetryFreshness
  bandwidthFreshness : TelemetryFreshness
  transferModelFreshness : TelemetryFreshness
  latencyAgeSeconds : Option Rat := none
  bandwidthAgeSeconds : Option Rat := none
  transferModelAgeSeconds : Option Rat := none

namespace EdgeTelemetryView

variable (v : EdgeTelemetryView)

def errors : List FieldError :=
  v.toEdgeTelemetryRecord.errors ++
  atLeastZero "configured_latency_ms" v.configuredLatencyMs ++
  aboveZero "configured_bandwidth_mbps" v.configuredBandwidthMbps ++
  atLeastZero "effective_latency_ms" v.effectiveLatencyMs ++
  aboveZero "effective_bandwidth_mbps" v.effectiveBandwidthMbps ++
  atLeastZero "effective_transfer_fixed_seconds" v.effectiveTransferFixedSeconds ++
  aboveZero "effective_transfer_steady_bandwidth_mbps" v.effectiveTransferSteadyBandwidthMbps ++
  atLeastZero "latency_age_seconds" v.latencyAgeSeconds ++
  atLeastZero "bandwidth_age_seconds" v.bandwidthAgeSeconds ++
  atLeastZero "transfer_model_age_seconds" v.transferModelAgeSeconds

structure InRange : Prop where
  record : v.toEdgeTelemetryRecord.InRange
  configuredLatency : 0 ≤ v.configuredLatencyMs
  configuredBandwidth : 0 < v.configuredBandwidthMbps
  latency : 0 ≤ v.effectiveLatencyMs
  bandwidth : 0 < v.effectiveBandwidthMbps
  transferFixed : 0 ≤ v.effectiveTransferFixedSeconds
  transferSteady : ∀ x ∈ v.effectiveTransferSteadyBandwidthMbps, 0 < x
  latencyAge : ∀ x ∈ v.latencyAgeSeconds, 0 ≤ x
  bandwidthAge : ∀ x ∈ v.bandwidthAgeSeconds, 0 ≤ x
  transferModelAge : ∀ x ∈ v.transferModelAgeSeconds, 0 ≤ x

theorem errors_eq_nil : v.errors = [] ↔ v.InRange := by
  simp only [errors, atLeastZero, aboveZero, List.append_eq_nil_iff, checkField_eq_nil,
    EdgeTelemetryRecord.errors_eq_nil, Option.mem_some_iff, forall_eq', and_assoc]
  constructor
  · rintro ⟨h₁, h₂, h₃, h₄, h₅, h₆, h₇, h₈, h₉, h₁₀⟩
    exact ⟨h₁, h₂, h₃, h₄, h₅, h₆, h₇, h₈, h₉, h₁₀⟩
  · rintro ⟨h₁, h₂, h₃, h₄, h₅, h₆, h₇, h₈, h₉, h₁₀⟩
    exact ⟨h₁, h₂, h₃, h₄, h₅, h₆, h₇, h₈, h₉, h₁₀⟩

/-- `EdgeTelemetryView(..)`. -/
def validated : Except Error { v : EdgeTelemetryView // v.InRange } :=
  if inRange : v.errors = [] then .ok ⟨v, v.errors_eq_nil.mp inRange⟩
  else .error (.validationError v.errors)

variable {v} in
/-- The view as the graph reads it. -/
def InRange.toPlanning (inRange : v.InRange) : Planning.EdgeTelemetryView where
  effectiveBandwidthMbps := v.effectiveBandwidthMbps
  effectiveLatencyMs := v.effectiveLatencyMs
  bandwidthSource := v.bandwidthSource
  effectiveTransferFixedSeconds := v.effectiveTransferFixedSeconds
  effectiveTransferSteadyBandwidthMbps := v.effectiveTransferSteadyBandwidthMbps
  transferModelSource := v.transferModelSource
  bandwidth_pos := inRange.bandwidth
  latency_nonneg := inRange.latency
  transferFixed_nonneg := inRange.transferFixed
  transferSteady_pos := inRange.transferSteady

end EdgeTelemetryView

/-! ## Calibrations -/

structure MigrationCalibrationRecord where
  sourceNodeId : NodeId
  destinationNodeId : NodeId
  checkpointSecondsEma : Option Rat := none
  transferSecondsEma : Option Rat := none
  restoreSecondsEma : Option Rat := none
  activationSecondsEma : Option Rat := none
  totalDowntimeSecondsEma : Option Rat := none
  lastTransferBytes : Option Int := none
  sampleCount : Int := 0
  lastSampleAtUtc : Option Timestamp := none
  deriving DecidableEq

namespace MigrationCalibrationRecord

variable (r : MigrationCalibrationRecord)

def errors : List FieldError :=
  minLengthOne "source_node_id" r.sourceNodeId ++
  minLengthOne "destination_node_id" r.destinationNodeId ++
  atLeastZero "checkpoint_seconds_ema" r.checkpointSecondsEma ++
  atLeastZero "transfer_seconds_ema" r.transferSecondsEma ++
  atLeastZero "restore_seconds_ema" r.restoreSecondsEma ++
  atLeastZero "activation_seconds_ema" r.activationSecondsEma ++
  atLeastZero "total_downtime_seconds_ema" r.totalDowntimeSecondsEma ++
  countAtLeastZero "last_transfer_bytes" r.lastTransferBytes ++
  countAtLeastZero "sample_count" r.sampleCount

structure InRange : Prop where
  source : r.sourceNodeId ≠ ""
  destination : r.destinationNodeId ≠ ""
  checkpoint : ∀ x ∈ r.checkpointSecondsEma, 0 ≤ x
  transfer : ∀ x ∈ r.transferSecondsEma, 0 ≤ x
  restore : ∀ x ∈ r.restoreSecondsEma, 0 ≤ x
  activation : ∀ x ∈ r.activationSecondsEma, 0 ≤ x
  totalDowntime : ∀ x ∈ r.totalDowntimeSecondsEma, 0 ≤ x
  transferBytes : ∀ n ∈ r.lastTransferBytes, 0 ≤ n
  count : 0 ≤ r.sampleCount

theorem errors_eq_nil : r.errors = [] ↔ r.InRange := by
  simp only [errors, minLengthOne, atLeastZero, countAtLeastZero, List.append_eq_nil_iff,
    checkField_eq_nil, Option.mem_some_iff, forall_eq', and_assoc]
  constructor
  · rintro ⟨h₁, h₂, h₃, h₄, h₅, h₆, h₇, h₈, h₉⟩
    exact ⟨h₁, h₂, h₃, h₄, h₅, h₆, h₇, h₈, h₉⟩
  · rintro ⟨h₁, h₂, h₃, h₄, h₅, h₆, h₇, h₈, h₉⟩
    exact ⟨h₁, h₂, h₃, h₄, h₅, h₆, h₇, h₈, h₉⟩

/-- `MigrationCalibrationRecord(..)`. -/
def validated : Except Error MigrationCalibrationRecord :=
  if r.errors = [] then .ok r else .error (.validationError r.errors)

end MigrationCalibrationRecord

structure MigrationCalibrationView extends MigrationCalibrationRecord where
  freshness : TelemetryFreshness
  ageSeconds : Option Rat := none

namespace MigrationCalibrationView

variable (v : MigrationCalibrationView)

def errors : List FieldError :=
  v.toMigrationCalibrationRecord.errors ++ atLeastZero "age_seconds" v.ageSeconds

structure InRange : Prop where
  record : v.toMigrationCalibrationRecord.InRange
  age : ∀ x ∈ v.ageSeconds, 0 ≤ x

theorem errors_eq_nil : v.errors = [] ↔ v.InRange := by
  simp only [errors, atLeastZero, List.append_eq_nil_iff, checkField_eq_nil,
    MigrationCalibrationRecord.errors_eq_nil]
  exact ⟨fun h => ⟨h.1, h.2⟩, fun h => ⟨h.1, h.2⟩⟩

/-- `MigrationCalibrationView(..)`. -/
def validated : Except Error { v : MigrationCalibrationView // v.InRange } :=
  if inRange : v.errors = [] then .ok ⟨v, v.errors_eq_nil.mp inRange⟩
  else .error (.validationError v.errors)

variable {v} in
/-- The view as the graph reads it. -/
def InRange.toPlanning (inRange : v.InRange) : Planning.MigrationCalibrationView where
  fresh := v.freshness = .fresh
  checkpointSecondsEma := v.checkpointSecondsEma
  transferSecondsEma := v.transferSecondsEma
  restoreSecondsEma := v.restoreSecondsEma
  totalDowntimeSecondsEma := v.totalDowntimeSecondsEma
  checkpoint_nonneg := inRange.record.checkpoint
  restore_nonneg := inRange.record.restore

end MigrationCalibrationView

/-! ## The document -/

/-- The records of the tasks are left out: nothing here reads or writes them. -/
structure TelemetryDocument where
  formatVersion : Int := 1
  edgeRecords : Dict String EdgeTelemetryRecord := .empty
  migrationCalibrations : Dict String MigrationCalibrationRecord := .empty
  updatedAtUtc : Timestamp

namespace TelemetryDocument

variable (d : TelemetryDocument)

def errors : List FieldError :=
  d.edgeRecords.values.flatMap EdgeTelemetryRecord.errors ++
    d.migrationCalibrations.values.flatMap MigrationCalibrationRecord.errors

structure InRange : Prop where
  edges : ∀ key r, d.edgeRecords.get? key = some r → r.InRange
  calibrations : ∀ key r, d.migrationCalibrations.get? key = some r → r.InRange

theorem errors_eq_nil : d.errors = [] ↔ d.InRange := by
  simp only [errors, List.append_eq_nil_iff, List.flatMap_eq_nil_iff, Dict.mem_values_iff,
    forall_exists_index, EdgeTelemetryRecord.errors_eq_nil, MigrationCalibrationRecord.errors_eq_nil]
  constructor
  · rintro ⟨edges, calibrations⟩
    exact ⟨fun key r is => edges r key is, fun key r is => calibrations r key is⟩
  · rintro ⟨edges, calibrations⟩
    exact ⟨fun r key is => edges key r is, fun r key is => calibrations key r is⟩

end TelemetryDocument

end Magellan.Telemetry
