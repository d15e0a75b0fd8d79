import Magellan.Data.Fallible
import Magellan.Scheduler.Estimates
import Magellan.Telemetry.Store

/-!
# Averages stay inside their observations

Each average of the store is the exponential average of the values that it has been fed, whatever the
order of the calls and however often the file is read again.
-/

namespace Magellan.Telemetry

/-! ## Calls and the values that they feed -/

inductive EdgeQuantity where
  | latency
  | bandwidth
  | transferFixed
  | transferSteady
  deriving DecidableEq

inductive Phase where
  | checkpoint
  | transfer
  | restore
  | activation
  | totalDowntime
  deriving DecidableEq

/-- The averages that are kept for an edge. -/
inductive Quantity where
  | edge (q : EdgeQuantity)
  | phase (p : Phase)
  deriving DecidableEq

def EdgeTelemetryRecord.average (r : EdgeTelemetryRecord) : EdgeQuantity → Option Rat
  | .latency => r.latencyMsEma
  | .bandwidth => r.bandwidthMbpsEma
  | .transferFixed => r.transferFixedSecondsEma
  | .transferSteady => r.transferSteadyBandwidthMbpsEma

def MigrationCalibrationRecord.average (r : MigrationCalibrationRecord) : Phase → Option Rat
  | .checkpoint => r.checkpointSecondsEma
  | .transfer => r.transferSecondsEma
  | .restore => r.restoreSecondsEma
  | .activation => r.activationSecondsEma
  | .totalDowntime => r.totalDowntimeSecondsEma

def PhaseSeconds.of (seconds : PhaseSeconds) : Phase → Rat
  | .checkpoint => seconds.checkpoint
  | .transfer => seconds.transfer
  | .restore => seconds.restore
  | .activation => seconds.activation
  | .totalDowntime => seconds.totalDowntime

def TelemetryDocument.average (d : TelemetryDocument) (key : String) : Quantity → Option Rat
  | .edge q => (d.edgeRecords.get? key).bind (·.average q)
  | .phase p => (d.migrationCalibrations.get? key).bind (·.average p)

inductive Observation where
  | latency (latencyMs : Rat)
  | transfer (transferBytes : Int) (durationSeconds : Rat) (sampleSource : String)
  | transferModelPair (smallBytes : Int) (smallSeconds : Rat) (largeBytes : Int) (largeSeconds : Rat)
      (sampleSource : String)
  | transferModelStream (smallBytes : Int) (smallSeconds : Rat) (streamBytes : Int)
      (streamSeconds : Rat) (sampleSource : String)
  | edgeFailure (error : String)
  | migrationCalibration (seconds : PhaseSeconds) (transferBytes : Int)

/-- A call of a recorder, with the times that it reads. -/
structure Call where
  sourceNodeId : NodeId
  destinationNodeId : NodeId
  observation : Observation
  sampledAtUtc : Timestamp
  now : Timestamp

def Call.key (c : Call) : String := edgeKey c.sourceNodeId c.destinationNodeId

section

variable {Text : Type} (codec : Codec Text) (alpha : Rat)

def Call.perform (c : Call) (s : TelemetryStore Text) : Except Error (TelemetryStore Text) :=
  match c.observation with
  | .latency latencyMs =>
      (s.recordLatency codec alpha c.now c.sourceNodeId c.destinationNodeId c.sampledAtUtc
        latencyMs).map Prod.fst
  | .transfer transferBytes durationSeconds sampleSource =>
      (s.recordTransfer codec alpha c.now c.sourceNodeId c.destinationNodeId c.sampledAtUtc
        transferBytes durationSeconds sampleSource).map Prod.fst
  | .transferModelPair smallBytes smallSeconds largeBytes largeSeconds sampleSource =>
      (s.recordTransferModelPair codec alpha c.now c.sourceNodeId c.destinationNodeId c.sampledAtUtc
        smallBytes smallSeconds largeBytes largeSeconds sampleSource).map Prod.fst
  | .transferModelStream smallBytes smallSeconds streamBytes streamSeconds sampleSource =>
      (s.recordTransferModelStream codec alpha c.now c.sourceNodeId c.destinationNodeId c.sampledAtUtc
        smallBytes smallSeconds streamBytes streamSeconds sampleSource).map Prod.fst
  | .edgeFailure error =>
      (s.recordEdgeFailure codec c.now c.sourceNodeId c.destinationNodeId c.sampledAtUtc
        error).map Prod.fst
  | .migrationCalibration seconds transferBytes =>
      (s.recordMigrationCalibration codec alpha c.now c.sourceNodeId c.destinationNodeId
        c.sampledAtUtc seconds transferBytes).map Prod.fst

/-- The values of a model of the transport. -/
def modelValues (bandwidthMbps fixedSeconds steadyBandwidthMbps : Rat) : EdgeQuantity → List Rat
  | .latency => []
  | .bandwidth => [bandwidthMbps]
  | .transferFixed => [fixedSeconds]
  | .transferSteady => [steadyBandwidthMbps]

/-- The values that an observation feeds the averages of an edge, by the record so far. -/
def Observation.edgeValues (record : Option EdgeTelemetryRecord) : Observation → EdgeQuantity → List Rat
  | .latency latencyMs, .latency => [max 0 latencyMs]
  | .transfer transferBytes durationSeconds _, .bandwidth => [mbps transferBytes durationSeconds]
  | .transfer transferBytes durationSeconds sampleSource, .transferSteady =>
      (record.bind fun r => r.refinement transferBytes durationSeconds sampleSource).toList
  | .transferModelPair smallBytes smallSeconds largeBytes largeSeconds _, q =>
      match fitTransferModel smallBytes smallSeconds largeBytes largeSeconds with
      | .ok (fixedSeconds, steadyBandwidthMbps) =>
          modelValues (mbps largeBytes largeSeconds) fixedSeconds steadyBandwidthMbps q
      | .error _ => []
  | .transferModelStream smallBytes smallSeconds streamBytes streamSeconds _, q =>
      modelValues (mbps streamBytes streamSeconds)
        (max 0 (smallSeconds - payloadSeconds smallBytes (mbps streamBytes streamSeconds)))
        (mbps streamBytes streamSeconds) q
  | _, _ => []

def Observation.phaseValues : Observation → Phase → List Rat
  | .migrationCalibration seconds _, p => [max 0 (seconds.of p)]
  | _, _ => []

/-- The values that a call feeds an average, in the order in which it does. -/
def Call.fed (c : Call) (d : TelemetryDocument) (key : String) (q : Quantity) : List Rat :=
  if key = c.key then
    match q with
    | .edge q => c.observation.edgeValues (d.edgeRecords.get? key) q
    | .phase p => c.observation.phaseValues p
  else []

/-- Everything that each average has been fed. -/
abbrev Fed := String → Quantity → List Rat

/-- The stores that calls which do not raise and reloads lead to, from a store without a file. -/
inductive Runs : TelemetryStore Text → Fed → Prop
  | start (now : Timestamp) : Runs ⟨{ updatedAtUtc := now }, none⟩ fun _ _ => []
  | call {s s' : TelemetryStore Text} {fed : Fed} (c : Call) : Runs s fed →
      c.perform codec alpha s = .ok s' → Runs s' fun key q => fed key q ++ c.fed s.document key q
  | reload {s : TelemetryStore Text} {fed : Fed} (now : Timestamp) : Runs s fed →
      Runs (s.reload codec now) fed

end

/-! ## Rates and fits -/

theorem mbps_pos {bytes : Int} {seconds : Rat} (some : 0 < bytes) (positive : 0 < seconds) :
    0 < mbps bytes seconds := by
  have cast : (0 : Rat) < bytes := by exact_mod_cast some
  unfold mbps
  positivity

/-- A fitted model has a positive rate, and its fixed time is not negative. -/
theorem fitTransferModel_ok {smallBytes largeBytes : Int} {smallSeconds largeSeconds : Rat}
    {model : Rat × Rat}
    (fitted : fitTransferModel smallBytes smallSeconds largeBytes largeSeconds = .ok model) :
    (0 < smallBytes ∧ 0 < smallSeconds ∧ 0 < largeBytes ∧ 0 < largeSeconds) ∧
      0 ≤ model.1 ∧ 0 < model.2 := by
  dsimp only [fitTransferModel] at fitted
  split_ifs at fitted with sizes durations flat
  all_goals push Not at sizes durations
  all_goals have sizes' : 0 < smallBytes ∧ 0 < largeBytes := ⟨sizes.1, sizes.1.trans sizes.2⟩
  all_goals refine ⟨⟨sizes'.1, durations.1, sizes'.2, durations.2⟩, ?_⟩
  · cases fitted
    exact ⟨le_refl _, mbps_pos sizes'.2 durations.2⟩
  · cases fitted
    have later : 0 < largeSeconds - smallSeconds := by
      have positive : 0 < nanosecond := by norm_num [nanosecond]
      linarith
    exact ⟨le_max_left _ _, mbps_pos (by omega) later⟩

section

variable {alpha : Rat} (positive : 0 < alpha) (atMost : alpha ≤ 1) {previous : Option Rat} {observed : Rat}
include positive atMost

theorem ema_nonneg (new : 0 ≤ observed) (old : ∀ x ∈ previous, 0 ≤ x) : 0 ≤ ema previous observed alpha := by
  rw [ema_eq]
  exact ExponentialAverage.step_mem positive.le atMost (convex_Ici 0) new old

theorem ema_pos (new : 0 < observed) (old : ∀ x ∈ previous, 0 < x) : 0 < ema previous observed alpha := by
  rw [ema_eq]
  exact ExponentialAverage.step_mem positive.le atMost (convex_Ioi 0) new old

end

/-! ## What an observation changes in a record -/

/-- Feed an average some more values. -/
def feed (alpha : Rat) (previous : Option Rat) (values : List Rat) : Option Rat :=
  values.foldl (fun previous observed => some (ExponentialAverage.step alpha observed previous)) previous

theorem average_append (alpha : Rat) (values more : List Rat) :
    ExponentialAverage.average alpha (values ++ more) =
      feed alpha (ExponentialAverage.average alpha values) more :=
  List.foldl_append

theorem feed_singleton (alpha : Rat) (previous : Option Rat) (observed : Rat) :
    feed alpha previous [observed] = some (ema previous observed alpha) := by
  rw [ema_eq]
  rfl

namespace EdgeTelemetryRecord

variable {alpha : Rat} {sampledAtUtc : Timestamp} {r : EdgeTelemetryRecord} (q : EdgeQuantity)

theorem average_observeLatency (latencyMs : Rat) :
    (r.observeLatency alpha sampledAtUtc latencyMs).average q =
      feed alpha (r.average q) ((Observation.latency latencyMs).edgeValues (some r) q) := by
  cases q <;> first | exact (feed_singleton ..).symm | rfl

theorem average_observeTransfer (transferBytes : Int) (durationSeconds : Rat) (sampleSource : String) :
    (r.observeTransfer alpha sampledAtUtc transferBytes durationSeconds sampleSource).average q =
      feed alpha (r.average q)
        ((Observation.transfer transferBytes durationSeconds sampleSource).edgeValues (some r) q) := by
  have same : (r.observeBandwidth alpha sampledAtUtc (mbps transferBytes durationSeconds) 1
      sampleSource).refinement transferBytes durationSeconds sampleSource =
        r.refinement transferBytes durationSeconds sampleSource := rfl
  have refined (observed : Option Rat) : ((r.observeBandwidth alpha sampledAtUtc
      (mbps transferBytes durationSeconds) 1 sampleSource).refine alpha observed).average
        .transferSteady = feed alpha (r.average .transferSteady) observed.toList := by
    cases observed with
    | none => rfl
    | some observed => exact (feed_singleton ..).symm
  unfold observeTransfer
  dsimp only
  rw [same]
  cases q with
  | transferSteady => exact refined _
  | latency | bandwidth | transferFixed =>
      cases r.refinement transferBytes durationSeconds sampleSource <;>
        first | exact (feed_singleton ..).symm | rfl

theorem average_observeTransferModel (bandwidthMbps fixedSeconds steadyBandwidthMbps : Rat)
    (samples : ModelSamples) (sampleSource : String) :
    (r.observeTransferModel alpha sampledAtUtc bandwidthMbps fixedSeconds steadyBandwidthMbps samples
        sampleSource).average q =
      feed alpha (r.average q) (modelValues bandwidthMbps fixedSeconds steadyBandwidthMbps q) := by
  cases q <;> first | exact (feed_singleton ..).symm | rfl

/-! ## Records stay in range -/

/-- Samples that a fit or a stream accepts. -/
structure ModelSamples.Positive (samples : ModelSamples) : Prop where
  smallBytes : 0 < samples.smallBytes
  smallSeconds : 0 < samples.smallSeconds
  largeBytes : 0 < samples.largeBytes
  largeSeconds : 0 < samples.largeSeconds

theorem InRange.succeeded (h : r.InRange) : (r.succeeded sampledAtUtc).InRange :=
  ⟨h.source, h.destination, h.latency, h.bandwidth, h.transferFixed, h.transferSteady, h.latencyCount,
    h.bandwidthCount, h.transferModelCount, h.smallBytes, h.smallSeconds, h.largeBytes,
    h.largeSeconds, le_refl _⟩

theorem InRange.observeFailure (h : r.InRange) (error : String) :
    (r.observeFailure sampledAtUtc error).InRange :=
  ⟨h.source, h.destination, h.latency, h.bandwidth, h.transferFixed, h.transferSteady, h.latencyCount,
    h.bandwidthCount, h.transferModelCount, h.smallBytes, h.smallSeconds, h.largeBytes,
    h.largeSeconds, add_nonneg h.failures zero_le_one⟩

section

variable (positive : 0 < alpha) (atMost : alpha ≤ 1)
include positive atMost

theorem InRange.observeLatency (h : r.InRange) (latencyMs : Rat) :
    (r.observeLatency alpha sampledAtUtc latencyMs).InRange := by
  refine InRange.succeeded ⟨h.source, h.destination, ?_, h.bandwidth, h.transferFixed, h.transferSteady,
    add_nonneg h.latencyCount zero_le_one, h.bandwidthCount, h.transferModelCount, h.smallBytes,
    h.smallSeconds, h.largeBytes, h.largeSeconds, h.failures⟩
  rintro x ⟨⟩
  exact ema_nonneg positive atMost (le_max_left ..) h.latency

theorem InRange.observeBandwidth (h : r.InRange) {bandwidthMbps : Rat} (some : 0 < bandwidthMbps)
    (samples : Nat) (sampleSource : String) :
    (r.observeBandwidth alpha sampledAtUtc bandwidthMbps samples sampleSource).InRange := by
  refine ⟨h.source, h.destination, h.latency, ?_, h.transferFixed, h.transferSteady, h.latencyCount,
    add_nonneg h.bandwidthCount (Int.natCast_nonneg samples), h.transferModelCount, h.smallBytes,
    h.smallSeconds, h.largeBytes, h.largeSeconds, h.failures⟩
  rintro x ⟨⟩
  exact ema_pos positive atMost some h.bandwidth

theorem InRange.refine (h : r.InRange) {observed : Option Rat} (some : ∀ x ∈ observed, 0 < x) :
    (r.refine alpha observed).InRange := by
  cases observed with
  | none => exact h
  | some observed =>
      refine ⟨h.source, h.destination, h.latency, h.bandwidth, h.transferFixed, ?_, h.latencyCount,
        h.bandwidthCount, add_nonneg h.transferModelCount zero_le_one, h.smallBytes, h.smallSeconds,
        h.largeBytes, h.largeSeconds, h.failures⟩
      rintro x ⟨⟩
      exact ema_pos positive atMost (some observed rfl) h.transferSteady

end

theorem refinement_pos {transferBytes : Int} (some : 0 < transferBytes) {durationSeconds : Rat}
    {sampleSource : String} :
    ∀ x ∈ r.refinement transferBytes durationSeconds sampleSource, 0 < x := by
  intro x is
  unfold refinement at is
  split at is
  swap
  · cases is
  split_ifs at is with refines
  · cases is
    have positive : 0 < nanosecond := by norm_num [nanosecond]
    exact mbps_pos some (positive.trans refines.2)
  · cases is

section

variable (positive : 0 < alpha) (atMost : alpha ≤ 1)
include positive atMost

theorem InRange.observeTransfer (h : r.InRange) {transferBytes : Int} (some : 0 < transferBytes)
    {durationSeconds : Rat} (lasts : 0 < durationSeconds) (sampleSource : String) :
    (r.observeTransfer alpha sampledAtUtc transferBytes durationSeconds sampleSource).InRange :=
  ((h.observeBandwidth positive atMost (mbps_pos some lasts) 1 sampleSource).refine positive atMost
    (refinement_pos some)).succeeded

theorem InRange.observeTransferModel (h : r.InRange) {samples : ModelSamples}
    (accepted : samples.Positive) {bandwidthMbps fixedSeconds steadyBandwidthMbps : Rat}
    (bandwidth : 0 < bandwidthMbps) (fixed : 0 ≤ fixedSeconds) (steady : 0 < steadyBandwidthMbps)
    (sampleSource : String) :
    (r.observeTransferModel alpha sampledAtUtc bandwidthMbps fixedSeconds steadyBandwidthMbps samples
      sampleSource).InRange := by
  have h' : (r.observeBandwidth alpha sampledAtUtc bandwidthMbps 2 sampleSource).InRange :=
    h.observeBandwidth positive atMost bandwidth 2 sampleSource
  refine InRange.succeeded ⟨h'.source, h'.destination, h'.latency, h'.bandwidth, ?_, ?_,
    h'.latencyCount, h'.bandwidthCount, add_nonneg h'.transferModelCount zero_le_one, ?_, ?_, ?_, ?_,
    h'.failures⟩
  · rintro x ⟨⟩
    exact ema_nonneg positive atMost fixed h'.transferFixed
  · rintro x ⟨⟩
    exact ema_pos positive atMost steady h'.transferSteady
  all_goals rintro x ⟨⟩
  exacts [accepted.smallBytes, accepted.smallSeconds, accepted.largeBytes, accepted.largeSeconds]

end

end EdgeTelemetryRecord

/-! ## One call -/

section

variable {Text : Type} {codec : Codec Text} {alpha : Rat} {s s' : TelemetryStore Text} {c : Call}

/-- A step that feeds the averages these values. -/
structure Step (codec : Codec Text) (alpha : Rat) (fed : Fed) (s s' : TelemetryStore Text) : Prop where
  average : ∀ key q, s'.document.average key q = feed alpha (s.document.average key q) (fed key q)
  inRange : s.document.InRange → s'.document.InRange
  written : s'.file = some (codec.dumps s'.document)

/-- A new record has no averages, and one that was there is in range. -/
theorem edgeOrNew_ok {sourceNodeId destinationNodeId : NodeId} {record : EdgeTelemetryRecord}
    (found : s.edgeOrNew sourceNodeId destinationNodeId = .ok record) :
    (∀ q, record.average q = s.document.average (edgeKey sourceNodeId destinationNodeId) (.edge q)) ∧
      (s.document.InRange → record.InRange) ∧
      ∀ (o : Observation) q, o.edgeValues (some record) q =
        o.edgeValues (s.document.edgeRecords.get? (edgeKey sourceNodeId destinationNodeId)) q := by
  unfold TelemetryStore.edgeOrNew at found
  cases there : s.document.edgeRecords.get? (edgeKey sourceNodeId destinationNodeId) with
  | some r =>
      rw [there] at found
      cases found
      refine ⟨fun q => ?_, fun inRange => inRange.edges _ _ there, fun _ _ => rfl⟩
      rw [TelemetryDocument.average, there]
      rfl
  | none =>
      simp only [there, EdgeTelemetryRecord.validated] at found
      split_ifs at found with valid
      cases found
      refine ⟨fun q => ?_, fun _ => (EdgeTelemetryRecord.errors_eq_nil _).mp valid, fun o q => ?_⟩
      · rw [TelemetryDocument.average, there]
        cases q <;> rfl
      · cases o <;> cases q <;> rfl

theorem calibrationOrNew_ok {sourceNodeId destinationNodeId : NodeId}
    {record : MigrationCalibrationRecord}
    (found : s.calibrationOrNew sourceNodeId destinationNodeId = .ok record) :
    (∀ p, record.average p = s.document.average (edgeKey sourceNodeId destinationNodeId) (.phase p)) ∧
      (s.document.InRange → record.InRange) := by
  unfold TelemetryStore.calibrationOrNew at found
  cases there : s.document.migrationCalibrations.get? (edgeKey sourceNodeId destinationNodeId) with
  | some r =>
      rw [there] at found
      cases found
      refine ⟨fun p => ?_, fun inRange => inRange.calibrations _ _ there⟩
      rw [TelemetryDocument.average, there]
      rfl
  | none =>
      simp only [there, MigrationCalibrationRecord.validated] at found
      split_ifs at found with valid
      cases found
      refine ⟨fun p => ?_, fun _ => (MigrationCalibrationRecord.errors_eq_nil _).mp valid⟩
      rw [TelemetryDocument.average, there]
      cases p <;> rfl

theorem map_fst_eq_ok {ε α β : Type} {x : Except ε (α × β)} {a : α} (h : x.map Prod.fst = .ok a) :
    ∃ b, x = .ok (a, b) := by
  cases x with
  | error e => cases h
  | ok p =>
      cases h
      exact ⟨p.2, rfl⟩

theorem average_setEdge (d : TelemetryDocument) (key key' : String) (r : EdgeTelemetryRecord)
    (q : EdgeQuantity) :
    { d with edgeRecords := d.edgeRecords.set key r }.average key' (.edge q) =
      if key' = key then r.average q else d.average key' (.edge q) := by
  simp only [TelemetryDocument.average, Dict.get?_set]
  split <;> rfl

theorem average_setCalibration (d : TelemetryDocument) (key key' : String)
    (r : MigrationCalibrationRecord) (p : Phase) :
    { d with migrationCalibrations := d.migrationCalibrations.set key r }.average key' (.phase p) =
      if key' = key then r.average p else d.average key' (.phase p) := by
  simp only [TelemetryDocument.average, Dict.get?_set]
  split <;> rfl

theorem updateEdge_step {change : EdgeTelemetryRecord → EdgeTelemetryRecord} {r : EdgeTelemetryRecord}
    (updated : s.updateEdge codec c.now c.sourceNodeId c.destinationNodeId change = .ok (s', r))
    (edge : ∀ p, c.observation.phaseValues p = [])
    (average : ∀ r q, (change r).average q =
      feed alpha (r.average q) (c.observation.edgeValues (some r) q))
    (inRange : ∀ r : EdgeTelemetryRecord, r.InRange → (change r).InRange) :
    Step codec alpha (c.fed s.document) s s' := by
  unfold TelemetryStore.updateEdge at updated
  obtain ⟨record, found, same⟩ := Except.bind_eq_ok.mp updated
  cases same
  obtain ⟨averages, kept, values⟩ := edgeOrNew_ok found
  refine ⟨fun key q => ?_, fun all => ⟨fun key r' is => ?_, all.calibrations⟩, rfl⟩
  · cases q with
    | edge q =>
        refine (average_setEdge s.document c.key key (change record) q).trans ?_
        unfold Call.fed
        split_ifs with own
        · rw [average, averages, values, own]
          rfl
        · rfl
    | phase p =>
        unfold Call.fed
        split_ifs with own
        · simp only [edge]
          rfl
        · rfl
  · simp only [TelemetryStore.persist, Dict.get?_set] at is
    split_ifs at is with own
    · cases is
      exact inRange record (kept all)
    · exact all.edges key r' is

theorem average_observe {r : MigrationCalibrationRecord} {sampledAtUtc : Timestamp}
    (seconds : PhaseSeconds) (transferBytes : Int) (p : Phase) :
    (r.observe alpha sampledAtUtc seconds transferBytes).average p =
      feed alpha (r.average p) [max 0 (seconds.of p)] := by
  cases p <;> exact (feed_singleton ..).symm

theorem MigrationCalibrationRecord.InRange.observe {r : MigrationCalibrationRecord} (h : r.InRange)
    (positive : 0 < alpha) (atMost : alpha ≤ 1) (sampledAtUtc : Timestamp) (seconds : PhaseSeconds)
    (transferBytes : Int) : (r.observe alpha sampledAtUtc seconds transferBytes).InRange := by
  refine ⟨h.source, h.destination, ?_, ?_, ?_, ?_, ?_, ?_, add_nonneg h.count zero_le_one⟩
  all_goals rintro x ⟨⟩
  · exact ema_nonneg positive atMost (le_max_left ..) h.checkpoint
  · exact ema_nonneg positive atMost (le_max_left ..) h.transfer
  · exact ema_nonneg positive atMost (le_max_left ..) h.restore
  · exact ema_nonneg positive atMost (le_max_left ..) h.activation
  · exact ema_nonneg positive atMost (le_max_left ..) h.totalDowntime
  · exact le_max_left ..

theorem recordMigrationCalibration_step (positive : 0 < alpha) (atMost : alpha ≤ 1)
    {seconds : PhaseSeconds} {transferBytes : Int} {r : MigrationCalibrationRecord}
    (is : c.observation = .migrationCalibration seconds transferBytes)
    (recorded : s.recordMigrationCalibration codec alpha c.now c.sourceNodeId c.destinationNodeId
      c.sampledAtUtc seconds transferBytes = .ok (s', r)) :
    Step codec alpha (c.fed s.document) s s' := by
  unfold TelemetryStore.recordMigrationCalibration at recorded
  obtain ⟨record, found, same⟩ := Except.bind_eq_ok.mp recorded
  cases same
  obtain ⟨averages, kept⟩ := calibrationOrNew_ok found
  refine ⟨fun key q => ?_, fun all => ⟨all.edges, fun key r' is' => ?_⟩, rfl⟩
  · cases q with
    | edge q =>
        unfold Call.fed
        simp only [is, Observation.edgeValues, ite_self]
        rfl
    | phase p =>
        refine (average_setCalibration s.document c.key key _ p).trans ?_
        unfold Call.fed
        split_ifs with own
        · simp only [is, Observation.phaseValues]
          rw [average_observe, averages, own]
          rfl
        · rfl
  · simp only [TelemetryStore.persist, Dict.get?_set] at is'
    split_ifs at is' with own
    · cases is'
      exact (kept all).observe positive atMost ..
    · exact all.calibrations key r' is'

/-- What a call that does not raise does. -/
theorem perform_step (positive : 0 < alpha) (atMost : alpha ≤ 1)
    (performed : c.perform codec alpha s = .ok s') : Step codec alpha (c.fed s.document) s s' := by
  unfold Call.perform at performed
  cases is : c.observation with
  | latency latencyMs =>
      rw [is] at performed
      obtain ⟨r, recorded⟩ := map_fst_eq_ok performed
      refine updateEdge_step recorded (fun _ => by rw [is]; rfl) (fun r q => ?_)
        fun r inRange => inRange.observeLatency positive atMost latencyMs
      rw [is]
      exact EdgeTelemetryRecord.average_observeLatency q latencyMs
  | transfer transferBytes durationSeconds sampleSource =>
      rw [is] at performed
      obtain ⟨r, recorded⟩ := map_fst_eq_ok performed
      unfold TelemetryStore.recordTransfer at recorded
      split_ifs at recorded with refused
      push Not at refused
      refine updateEdge_step recorded (fun _ => by rw [is]; rfl) (fun r q => ?_)
        fun r inRange => inRange.observeTransfer positive atMost refused.1 refused.2 sampleSource
      rw [is]
      exact EdgeTelemetryRecord.average_observeTransfer q ..
  | transferModelPair smallBytes smallSeconds largeBytes largeSeconds sampleSource =>
      rw [is] at performed
      obtain ⟨r, recorded⟩ := map_fst_eq_ok performed
      obtain ⟨model, fitted, updated⟩ := Except.bind_eq_ok.mp recorded
      obtain ⟨⟨small, smallTime, large, largeTime⟩, fixed, steady⟩ := fitTransferModel_ok fitted
      refine updateEdge_step updated (fun _ => by rw [is]; rfl) (fun r q => ?_)
        fun r inRange => inRange.observeTransferModel positive atMost
          ⟨small, smallTime, large, largeTime⟩ (mbps_pos large largeTime) fixed steady sampleSource
      rw [is, Observation.edgeValues, fitted]
      exact EdgeTelemetryRecord.average_observeTransferModel q ..
  | transferModelStream smallBytes smallSeconds streamBytes streamSeconds sampleSource =>
      rw [is] at performed
      obtain ⟨r, recorded⟩ := map_fst_eq_ok performed
      unfold TelemetryStore.recordTransferModelStream at recorded
      split_ifs at recorded with small stream
      push Not at small stream
      have steady := mbps_pos stream.1 stream.2
      refine updateEdge_step recorded (fun _ => by rw [is]; rfl) (fun r q => ?_)
        fun r inRange => inRange.observeTransferModel positive atMost
          ⟨small.1, small.2, stream.1, stream.2⟩ steady (le_max_left ..) steady sampleSource
      rw [is]
      exact EdgeTelemetryRecord.average_observeTransferModel q ..
  | edgeFailure error =>
      rw [is] at performed
      obtain ⟨r, recorded⟩ := map_fst_eq_ok performed
      refine updateEdge_step recorded (fun _ => by rw [is]; rfl) (fun r q => ?_)
        fun r inRange => inRange.observeFailure error
      rw [is]
      cases q <;> rfl
  | migrationCalibration seconds transferBytes =>
      rw [is] at performed
      obtain ⟨r, recorded⟩ := map_fst_eq_ok performed
      exact recordMigrationCalibration_step positive atMost is recorded

end

/-! ## Runs -/

section

variable {Text : Type} {codec : Codec Text} {alpha : Rat} {s s' : TelemetryStore Text} {fed : Fed}

/-- The records are the same; when they were written may differ. -/
structure SameRecords (d d' : TelemetryDocument) : Prop where
  edges : d.edgeRecords = d'.edgeRecords
  calibrations : d.migrationCalibrations = d'.migrationCalibrations

theorem SameRecords.average {d d' : TelemetryDocument} (same : SameRecords d d') (key : String)
    (q : Quantity) : d.average key q = d'.average key q := by
  cases q with
  | edge q => rw [TelemetryDocument.average, TelemetryDocument.average, same.edges]
  | phase p => rw [TelemetryDocument.average, TelemetryDocument.average, same.calibrations]

theorem SameRecords.inRange {d d' : TelemetryDocument} (same : SameRecords d d') (h : d'.InRange) :
    d.InRange :=
  ⟨same.edges ▸ h.edges, same.calibrations ▸ h.calibrations⟩

/-- What was written is loaded. -/
theorem load_dumps {d : TelemetryDocument} (h : d.InRange) (now : Timestamp) :
    load codec now (some (codec.dumps d)) = d := by
  unfold load
  simp only [Option.bind_some, codec.parse_dumps]
  exact if_pos (d.errors_eq_nil.mpr h)

structure Sound (codec : Codec Text) (alpha : Rat) (s : TelemetryStore Text) (fed : Fed) : Prop where
  average : ∀ key q, s.document.average key q = ExponentialAverage.average alpha (fed key q)
  inRange : s.document.InRange
  reloads : ∀ now, SameRecords (s.reload codec now).document s.document

theorem Step.sound {values : Fed} (step : Step codec alpha values s s') (h : Sound codec alpha s fed) :
    Sound codec alpha s' fun key q => fed key q ++ values key q := by
  have inRange := step.inRange h.inRange
  refine ⟨fun key q => ?_, inRange, fun now => ?_⟩
  · rw [step.average, h.average, average_append]
  · rw [TelemetryStore.reload, step.written, load_dumps inRange]
    exact ⟨rfl, rfl⟩

theorem Runs.sound (positive : 0 < alpha) (atMost : alpha ≤ 1) (run : Runs codec alpha s fed) :
    Sound codec alpha s fed := by
  induction run with
  | start now =>
      refine ⟨fun key q => by cases q <;> rfl, ⟨?_, ?_⟩, fun now => ⟨rfl, rfl⟩⟩
      all_goals
        intro key r is
        cases is
  | call c _ performed ih => exact (perform_step positive atMost performed).sound ih
  | reload now _ ih =>
      have same := ih.reloads now
      refine ⟨fun key q => (same.average key q).trans (ih.average key q), same.inRange ih.inRange,
        fun later => ?_⟩
      exact ⟨(ih.reloads later).edges.trans same.edges.symm,
        (ih.reloads later).calibrations.trans same.calibrations.symm⟩

end

/-! ## Views -/

section

variable {Text : Type} {s : TelemetryStore Text} {sourceNodeId destinationNodeId : NodeId}

theorem edgeOrNew_inRange (h : s.document.InRange) (source : sourceNodeId ≠ "")
    (destination : destinationNodeId ≠ "") :
    ∃ r, s.edgeOrNew sourceNodeId destinationNodeId = .ok r ∧ r.InRange := by
  unfold TelemetryStore.edgeOrNew
  cases there : s.document.edgeRecords.get? (edgeKey sourceNodeId destinationNodeId) with
  | some r => exact ⟨r, rfl, h.edges _ _ there⟩
  | none =>
      have new : EdgeTelemetryRecord.InRange
          { sourceNodeId := sourceNodeId, destinationNodeId := destinationNodeId } := by
        constructor <;> simp [source, destination]
      exact ⟨_, if_pos ((EdgeTelemetryRecord.errors_eq_nil _).mpr new), new⟩

theorem calibrationOrNew_inRange (h : s.document.InRange) (source : sourceNodeId ≠ "")
    (destination : destinationNodeId ≠ "") :
    ∃ r, s.calibrationOrNew sourceNodeId destinationNodeId = .ok r ∧ r.InRange := by
  unfold TelemetryStore.calibrationOrNew
  cases there : s.document.migrationCalibrations.get? (edgeKey sourceNodeId destinationNodeId) with
  | some r => exact ⟨r, rfl, h.calibrations _ _ there⟩
  | none =>
      have new : MigrationCalibrationRecord.InRange
          { sourceNodeId := sourceNodeId, destinationNodeId := destinationNodeId } := by
        constructor <;> simp [source, destination]
      exact ⟨_, if_pos ((MigrationCalibrationRecord.errors_eq_nil _).mpr new), new⟩

theorem ageSeconds_nonneg (value : Option Timestamp) (now : Timestamp) :
    ∀ x ∈ ageSeconds value now, 0 ≤ x := by
  intro x is
  obtain ⟨_, -, rfl⟩ := Option.map_eq_some_iff.mp is
  exact le_max_left ..

/-- A measured value where it is used, and else the configured one. -/
theorem ite_getD {P : Rat → Prop} {c : Prop} [Decidable c] {measured : Option Rat} {configured : Rat}
    (ok : ∀ x ∈ measured, P x) (present : c → measured ≠ none) (fallback : P configured) :
    P (if c then measured.getD 0 else configured) := by
  split_ifs with used
  · obtain ⟨x, is⟩ := Option.ne_none_iff_exists'.mp (present used)
    rw [is]
    exact ok x is
  · exact fallback

theorem edgeView_ok (h : s.document.InRange) (source : sourceNodeId ≠ "")
    (destination : destinationNodeId ≠ "") {configuredBandwidthMbps configuredLatencyMs : Rat}
    (bandwidth : 0 < configuredBandwidthMbps) (latency : 0 ≤ configuredLatencyMs)
    (staleAfterSeconds : Rat) (now : Timestamp) :
    ∃ view, s.edgeView now sourceNodeId destinationNodeId configuredBandwidthMbps
      configuredLatencyMs staleAfterSeconds = .ok view := by
  obtain ⟨r, found, inRange⟩ := edgeOrNew_inRange h source destination
  unfold TelemetryStore.edgeView
  rw [found, Except.ok_bind]
  refine ⟨_, dif_pos ((EdgeTelemetryView.errors_eq_nil _).mpr ⟨inRange, latency, bandwidth, ?_, ?_, ?_, ?_,
    ageSeconds_nonneg _ _, ageSeconds_nonneg _ _, ageSeconds_nonneg _ _⟩)⟩
  · exact ite_getD inRange.latency (fun used => used.2) latency
  · exact ite_getD inRange.bandwidth (fun used => used.2) bandwidth
  · exact ite_getD inRange.transferFixed (fun used => used.2.1) (le_refl 0)
  · dsimp only
    split_ifs
    · exact inRange.transferSteady
    · intro x is
      cases is

theorem calibrationView_ok (h : s.document.InRange) (source : sourceNodeId ≠ "")
    (destination : destinationNodeId ≠ "") (staleAfterSeconds : Rat) (now : Timestamp) :
    ∃ view, s.calibrationView now sourceNodeId destinationNodeId staleAfterSeconds = .ok view := by
  obtain ⟨r, found, inRange⟩ := calibrationOrNew_inRange h source destination
  unfold TelemetryStore.calibrationView
  rw [found, Except.ok_bind]
  exact ⟨_, dif_pos ((MigrationCalibrationView.errors_eq_nil _).mpr ⟨inRange, ageSeconds_nonneg _ _⟩)⟩

theorem transferDurationSeconds_ok {edge : Planning.EdgeMetrics} (positive : 0 < edge.bandwidthMbps)
    (totalTransferBytes : Nat) :
    ∃ seconds, Planning.transferDurationSeconds edge totalTransferBytes = .ok seconds := by
  have byBandwidth : ∃ seconds,
      Planning.transferDurationSeconds.byBandwidth edge totalTransferBytes = .ok seconds := by
    unfold Planning.transferDurationSeconds.byBandwidth Planning.transferSeconds
    rw [if_neg positive.not_ge]
    split <;> exact ⟨_, rfl⟩
  unfold Planning.transferDurationSeconds
  split
  · split
    · exact ⟨_, rfl⟩
    · exact byBandwidth
  · exact byBandwidth

/-- The rates that the time of a transfer is divided by are positive, so it has a value. -/
structure Usable (metrics : Planning.EdgeMetrics) : Prop where
  inRange : metrics.InRange
  transferFixed : 0 ≤ metrics.transferFixedSeconds
  transferSteady : ∀ rate ∈ metrics.transferSteadyBandwidthMbps, 0 < rate
  duration : ∀ totalTransferBytes, ∃ seconds,
    Planning.transferDurationSeconds metrics totalTransferBytes = .ok seconds

theorem edgeMetrics_ok (h : s.document.InRange) (source : sourceNodeId ≠ "")
    (destination : destinationNodeId ≠ "") {configured : Planning.EdgeMetrics}
    (inRange : configured.InRange) (edgeStaleAfterSeconds calibrationStaleAfterSeconds : Rat)
    (now : Timestamp) :
    ∃ metrics, s.edgeMetrics now sourceNodeId destinationNodeId edgeStaleAfterSeconds
      calibrationStaleAfterSeconds configured = .ok metrics ∧ Usable metrics := by
  obtain ⟨view, viewed⟩ := edgeView_ok h source destination inRange.bandwidth_pos
    inRange.latency_nonneg edgeStaleAfterSeconds now
  obtain ⟨calibration, calibrated⟩ := calibrationView_ok h source destination
    calibrationStaleAfterSeconds now
  unfold TelemetryStore.edgeMetrics
  rw [viewed, Except.ok_bind, calibrated, Except.ok_bind]
  have inRange' := inRange.measured view.property.toPlanning calibration.property.toPlanning
  refine ⟨_, rfl, inRange', ?_, ?_, transferDurationSeconds_ok inRange'.bandwidth_pos⟩
  all_goals
    unfold Planning.EdgeMetrics.measured
    split
  exacts [view.property.transferFixed, view.property.transferFixed, view.property.transferSteady,
    view.property.transferSteady]

end

/-- In every store that calls and reloads lead to, each average lies between two of the values that it
has been fed, rates are positive and fixed times not negative, a reload finds the same records, and
the views and the metrics of every edge of the cluster can be built and used. -/
theorem averages_inside_observations {Text : Type} {codec : Codec Text} {alpha : Rat}
    (positive : 0 < alpha) (atMost : alpha ≤ 1) {s : TelemetryStore Text} {fed : Fed}
    (run : Runs codec alpha s fed) :
    (∀ key q x, s.document.average key q = some x →
      (∃ least ∈ fed key q, least ≤ x) ∧ ∃ greatest ∈ fed key q, x ≤ greatest) ∧
    (∀ key x, (s.document.average key (.edge .bandwidth) = some x → 0 < x) ∧
      (s.document.average key (.edge .transferSteady) = some x → 0 < x) ∧
      (s.document.average key (.edge .transferFixed) = some x → 0 ≤ x)) ∧
    (∀ now, SameRecords (s.reload codec now).document s.document) ∧
    ∀ sourceNodeId destinationNodeId, sourceNodeId ≠ "" → destinationNodeId ≠ "" →
      ∀ (configured : Planning.EdgeMetrics), configured.InRange →
        ∀ edgeStaleAfterSeconds calibrationStaleAfterSeconds now,
          (∃ view, s.edgeView now sourceNodeId destinationNodeId configured.bandwidthMbps
            configured.latencyMs edgeStaleAfterSeconds = .ok view) ∧
          (∃ view, s.calibrationView now sourceNodeId destinationNodeId
            calibrationStaleAfterSeconds = .ok view) ∧
          ∃ metrics, s.edgeMetrics now sourceNodeId destinationNodeId edgeStaleAfterSeconds
            calibrationStaleAfterSeconds configured = .ok metrics ∧ Usable metrics := by
  have sound := run.sound positive atMost
  refine ⟨fun key q x is => ?_, fun key x => ?_, sound.reloads,
    fun source destination someSource someDestination configured inRange stale stale' now => ?_⟩
  · rw [sound.average] at is
    exact ExponentialAverage.average_between positive.le atMost is
  · have record (q : EdgeQuantity) (is : s.document.average key (.edge q) = some x) :
        ∃ r : EdgeTelemetryRecord, r.InRange ∧ r.average q = some x := by
      obtain ⟨r, there, value⟩ := Option.bind_eq_some_iff.mp is
      exact ⟨r, sound.inRange.edges key r there, value⟩
    refine ⟨fun is => ?_, fun is => ?_, fun is => ?_⟩ <;> obtain ⟨r, inRange, value⟩ := record _ is
    exacts [inRange.bandwidth x value, inRange.transferSteady x value, inRange.transferFixed x value]
  · exact ⟨edgeView_ok sound.inRange someSource someDestination inRange.bandwidth_pos
      inRange.latency_nonneg stale now,
      calibrationView_ok sound.inRange someSource someDestination stale' now,
      edgeMetrics_ok sound.inRange someSource someDestination inRange stale stale' now⟩

/-! ## A refined model -/

section

variable {Text : Type} {codec : Codec Text} {alpha : Rat}

/-- Calls one after another, if none of them raises. -/
def performAll (codec : Codec Text) (alpha : Rat) :
    List Call → TelemetryStore Text × Fed → Option (TelemetryStore Text × Fed)
  | [], reached => some reached
  | c :: calls, (s, fed) =>
      match c.perform codec alpha s with
      | .error _ => none
      | .ok s' => performAll codec alpha calls (s', fun key q => fed key q ++ c.fed s.document key q)

theorem Runs.performAll {calls : List Call} {s s' : TelemetryStore Text} {fed fed' : Fed}
    (run : Runs codec alpha s fed)
    (performed : performAll codec alpha calls (s, fed) = some (s', fed')) :
    Runs codec alpha s' fed' := by
  induction calls generalizing s fed with
  | nil =>
      cases performed
      exact run
  | cons c calls ih =>
      unfold Telemetry.performAll at performed
      cases first : c.perform codec alpha s with
      | error e =>
          rw [first] at performed
          cases performed
      | ok s'' =>
          rw [first] at performed
          exact ih (.call c run first) performed

end

/-- A model of the transport, and then a migration that takes twice as long as it predicts. -/
def sampleCalls : List Call := [
  ⟨"a", "b", .transferModelPair 1000000 2 5000000 6 "rsync_two_point_probe", 1, 2⟩,
  ⟨"a", "b", .transfer 1000000 3 "migration_transfer", 3, 4⟩]

def sampleCodec : Codec TelemetryDocument where
  dumps := id
  parse := some
  parse_dumps _ := rfl

theorem averages_inside_observations_sample : ∃ s fed, Runs sampleCodec (1 / 2) s fed ∧
    s.document.average "a->b" (.edge .transferSteady) = some 6 ∧
    fed "a->b" (.edge .transferSteady) = [8, 4] ∧
    (∃ least ∈ fed "a->b" (.edge .transferSteady), least ≤ 6) ∧
    ∃ greatest ∈ fed "a->b" (.edge .transferSteady), 6 ≤ greatest := by
  have ran : (performAll sampleCodec (1 / 2) sampleCalls
      (⟨{ updatedAtUtc := 0 }, none⟩, fun _ _ => [])).any (fun p =>
        decide (p.1.document.average "a->b" (.edge .transferSteady) = some 6 ∧
          p.2 "a->b" (.edge .transferSteady) = [8, 4])) = true := by
    decide +kernel
  obtain ⟨⟨s, fed⟩, performed, seen⟩ := (Option.any_eq_true _ _).mp ran
  obtain ⟨average, values⟩ := of_decide_eq_true seen
  have run := (Runs.start 0).performAll performed
  have inside := averages_inside_observations (by norm_num) (by norm_num) run
  exact ⟨s, fed, run, average, values, inside.1 _ _ _ average⟩

end Magellan.Telemetry
