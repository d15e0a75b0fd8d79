import Magellan.Coroutine.System
import Magellan.Telemetry.Averages

/-!
# Probing the edges

The probes of a daemon: those of its background round, and those that a decision or a request asks
for. A probe reads the round trip and, when that is due, measures the transport to the peer in a
thread. All of them run beside each other on the event loop, and a restart of the daemon ends them.
-/

namespace Magellan.Telemetry

open Coroutine

/-- The number of the daemon's start, and which of its calls. -/
structure ProbeId where
  session : Nat
  index : Nat
  deriving DecidableEq

structure ProbeSettings (Text : Type) where
  codec : Codec Text
  emaAlpha : Rat
  cluster : Planning.ClusterConfig
  localNode : NodeId
  edgeStaleAfterSeconds : Rat
  edgeProbeIntervalSeconds : Rat
  edgeBandwidthProbeIntervalSeconds : Rat
  /-- `str` of what the store raises. -/
  describe : Error → String

/-- What a call has done for an edge. -/
inductive Attempt where
  | fresh
  | measured
  | failed
  deriving DecidableEq

/-- What is known of the measurements since the daemon was started; no program reads it. -/
inductive Measurement where
  | began (id : ProbeId) (destination : NodeId) (forced : Bool) (at_ : Rat)
  | noted (destination : NodeId) (at_ : Rat)
  deriving DecidableEq

inductive ProbeCall where
  | probeEdge (destination : NodeId) (forceBandwidth : Bool)
  | ensureEdgesFresh (destinations : List NodeId)
  | refreshAllEdges
  /-- The part of `run_once` that is about edges. -/
  | probeRound (forceEdgeProbe : Bool)
  deriving DecidableEq

structure EndedProbe where
  id : ProbeId
  call : ProbeCall
  returned : Bool
  deriving DecidableEq

structure Probing (Text : Type) where
  store : TelemetryStore Text
  session : Nat := 0
  started : List ProbeId := []
  lastEdgeProbeMonotonic : Rat := 0
  lastBandwidthProbeMonotonic : NodeId → Option Rat := fun _ => none
  /-- Who has the bandwidth probe lock. -/
  holder : Option ProbeId := none
  monotonic : Rat := 0
  /-- The threads that measure, with their destinations. -/
  measuring : List (ProbeId × NodeId) := []
  /-- The newest first. -/
  measurements : List Measurement := []
  attempts : List (ProbeId × NodeId × Attempt) := []
  ended : List EndedProbe := []

inductive ProbeError where
  | store (e : Error)
  | raised (e : Exn)
  /-- A request, a copy or a stream fails. -/
  | peer (text : String)

inductive ProbeOp where
  | health (destination : NodeId)
  | record (destination : NodeId) (observation : Observation)
  | edgeView (destination : NodeId)
  | monotonic
  | lastEdgeProbe
  | noteEdgeProbe (at_ : Rat)
  | lastBandwidthProbe (destination : NodeId)
  | noteBandwidthProbe (destination : NodeId) (at_ : Rat)
  | acquire
  | release
  | beginMeasurement (destination : NodeId) (forced : Bool)
  | endMeasurement (destination : NodeId)
  | ended (call : ProbeCall) (returned : Bool)

def ProbeOp.Ret : ProbeOp → Type
  | .health _ | .monotonic | .lastEdgeProbe => Rat
  | .edgeView _ => EdgeTelemetryView
  | .lastBandwidthProbe _ => Option Rat
  | .endMeasurement _ => EdgeTelemetryRecord.ModelSamples
  | _ => Unit

/-- What becomes of an operation. -/
inductive ProbeChoice where
  | runs
  /-- The times that the store reads, and whether its file can be written. -/
  | reads (sampledAtUtc now : Timestamp) (written : Bool)
  | answers (milliseconds : Rat)
  | measures (samples : EdgeTelemetryRecord.ModelSamples)
  | fails (text : String)

section

variable {Text : Type} (settings : ProbeSettings Text)

/-- `_configured_edge_values`. -/
def ProbeSettings.configuredEdgeValues (destination : NodeId) : Rat × Rat :=
  match settings.cluster.getEdgeOverride settings.localNode destination with
  | some configured => (configured.bandwidthMbps, configured.latencyMs)
  | none => (settings.cluster.defaultBandwidthMbps, settings.cluster.defaultLatencyMs)

def ProbeSettings.peerIds : List NodeId :=
  (settings.cluster.nodes.map (·.id)).filter (· ≠ settings.localNode)

def ProbeSettings.text : ProbeError → String
  | .store e => settings.describe e
  | .raised e => e.describe
  | .peer text => text

namespace Probing

variable (w : Probing Text)

def edgeView (destination : NodeId) (now : Timestamp) : Except ProbeError EdgeTelemetryView := do
  let _ ← (settings.cluster.getNode destination).mapError .raised
  let configured := settings.configuredEdgeValues destination
  let view ← (w.store.edgeView now settings.localNode destination configured.1 configured.2
    settings.edgeStaleAfterSeconds).mapError .store
  return view.val

/-- The edge needs no refresh. -/
def isFresh (view : EdgeTelemetryView) : Bool :=
  view.latencyFreshness = .fresh ∧ view.transferModelFreshness = .fresh

/-- A record in the store. Where the file cannot be written, the document has changed all the same. -/
def record (destination : NodeId) (observation : Observation) (sampledAtUtc now : Timestamp)
    (written : Bool) : Except ProbeError Unit × Probing Text :=
  match (⟨settings.localNode, destination, observation, sampledAtUtc, now⟩ : Call).perform settings.codec
      settings.emaAlpha w.store with
  | .error e => (.error (.store e), w)
  | .ok store =>
    if written then (.ok (), { w with store })
    else (.error (.raised ⟨.osError, "telemetry.json"⟩), { w with store := { store with file := w.store.file } })

def attempted (id : ProbeId) (destination : NodeId) (attempt : Attempt) : Probing Text :=
  { w with attempts := (id, destination, attempt) :: w.attempts }

/-- A failure that is in the store. -/
def failed (id : ProbeId) (destination : NodeId) : Observation → Probing Text
  | .edgeFailure _ => w.attempted id destination .failed
  | _ => w

end Probing

/-- An operation of the call `id`. -/
def performProbe (id : ProbeId) : Semantics ProbeOp ProbeOp.Ret ProbeError ProbeChoice (Probing Text)
  | .health _, .answers milliseconds, w => some (.ok milliseconds, w)
  | .health _, .fails text, w => some (.error (.peer text), w)
  | .record destination observation, .reads sampledAtUtc now written, w =>
      match w.record settings destination observation sampledAtUtc now written with
      | (.error e, w) => some (.error e, w)
      | (.ok _, w) => some (.ok (), w.failed id destination observation)
  | .edgeView destination, .reads _ now _, w =>
      match w.edgeView settings destination now with
      | .error e => some (.error e, w)
      | .ok view =>
        some (.ok view, if Probing.isFresh view then w.attempted id destination .fresh else w)
  | .monotonic, .runs, w => some (.ok w.monotonic, w)
  | .lastEdgeProbe, .runs, w => some (.ok w.lastEdgeProbeMonotonic, w)
  | .noteEdgeProbe at_, .runs, w => some (.ok (), { w with lastEdgeProbeMonotonic := at_ })
  | .lastBandwidthProbe destination, .runs, w =>
      some (.ok (w.lastBandwidthProbeMonotonic destination), w)
  | .noteBandwidthProbe destination at_, .runs, w =>
      some (.ok (), { w with
        lastBandwidthProbeMonotonic := Function.update w.lastBandwidthProbeMonotonic destination (some at_)
        measurements := .noted destination at_ :: w.measurements }.attempted id destination .measured)
  | .acquire, .runs, w => if w.holder = none then some (.ok (), { w with holder := some id }) else none
  | .release, .runs, w => some (.ok (), { w with holder := none })
  | .beginMeasurement destination forced, .runs, w =>
      some (.ok (), { w with
        measuring := (id, destination) :: w.measuring
        measurements := .began id destination forced w.monotonic :: w.measurements })
  | .endMeasurement destination, .measures samples, w =>
      some (.ok samples, { w with measuring := w.measuring.erase (id, destination) })
  | .endMeasurement destination, .fails text, w =>
      some (.error (.peer text), { w with measuring := w.measuring.erase (id, destination) })
  | .ended call returned, .runs, w => some (.ok (), { w with ended := ⟨id, call, returned⟩ :: w.ended })
  | _, _, _ => none

/-- The calls of an earlier start of the daemon are gone. -/
def execProbe (id : ProbeId) : Semantics ProbeOp ProbeOp.Ret ProbeError ProbeChoice (Probing Text) :=
  fun o c w => if id.session = w.session then performProbe settings id o c w else none

/-! ## The service -/

abbrev ProbeWork (α : Type) := Coro ProbeOp ProbeOp.Ret ProbeError α

abbrev doing (o : ProbeOp) : ProbeWork o.Ret := Coro.op o

/-- `_bandwidth_probe_due`. -/
def bandwidthProbeDue (destination : NodeId) (force : Bool) : ProbeWork Bool :=
  if force then pure true
  else do
    let view : EdgeTelemetryView ← doing (.edgeView destination)
    if view.transferModelFreshness = .unavailable then pure true
    else do
      let last : Option Rat ← doing (.lastBandwidthProbe destination)
      match last with
      | none => pure (settings.edgeBandwidthProbeIntervalSeconds ≤ view.transferModelAgeSeconds.getD 0)
      | some last => do
        let now : Rat ← doing .monotonic
        pure (settings.edgeBandwidthProbeIntervalSeconds ≤ now - last)

/-- A measurement in a thread and its entry in the store. -/
def measureTransport (destination : NodeId) (force : Bool) : ProbeWork Unit := do
  let _ : Unit ← doing (.beginMeasurement destination force)
  let samples : EdgeTelemetryRecord.ModelSamples ← doing (.endMeasurement destination)
  let _ : Unit ← doing (.record destination (.transferModelStream samples.smallBytes samples.smallSeconds
    samples.largeBytes samples.largeSeconds "ssh_stream_plus_rsync_setup_probe"))
  let now : Rat ← doing .monotonic
  doing (.noteBandwidthProbe destination now)

/-- What is done with the lock. -/
def measureDue (destination : NodeId) (force : Bool) : ProbeWork Unit := do
  let due ← bandwidthProbeDue settings destination force
  if due then
    (measureTransport destination force).tryExcept fun e =>
      doing (.record destination (.edgeFailure ("bandwidth_probe:" ++ settings.text e)))
  else pure ()

/-- `async with self._bandwidth_probe_lock`. -/
def withProbeLock (p : ProbeWork Unit) : ProbeWork Unit := do
  let _ : Unit ← doing .acquire
  p.tryFinally fun _ => doing .release

def probeEdge (destination : NodeId) (forceBandwidth : Bool) : ProbeWork EdgeTelemetryView :=
  if destination = settings.localNode then .raise (.raised ⟨.valueError, "Destination must be a peer"⟩)
  else match settings.cluster.getNode destination with
  | .error e => .raise (.raised e)
  | .ok _ =>
    Coro.attempt (do
        let latencyMs : Rat ← doing (.health destination)
        doing (.record destination (.latency latencyMs)))
      (fun _ => do
        let due ← bandwidthProbeDue settings destination forceBandwidth
        if due then withProbeLock (measureDue settings destination forceBandwidth) else pure ()
        doing (.edgeView destination))
      fun e => do
        let _ : Unit ← doing (.record destination (.edgeFailure (settings.text e)))
        doing (.edgeView destination)

/-- The loops over destinations. -/
def forEach (f : NodeId → ProbeWork Unit) : List NodeId → ProbeWork Unit
  | [] => pure ()
  | destination :: rest => do
    let _ : Unit ← f destination
    forEach f rest

def staleEdges : List NodeId → ProbeWork (List NodeId)
  | [] => pure []
  | destination :: rest => do
    let view : EdgeTelemetryView ← doing (.edgeView destination)
    let stale ← staleEdges rest
    pure (if Probing.isFresh view then stale else destination :: stale)

def viewEdge (destination : NodeId) : ProbeWork Unit := do
  let _ : EdgeTelemetryView ← doing (.edgeView destination)
  pure ()

def refreshEdge (force : Bool) (destination : NodeId) : ProbeWork Unit := do
  let _ : EdgeTelemetryView ← probeEdge settings destination force
  pure ()

def ensureEdgesFresh (destinations : List NodeId) : ProbeWork Unit := do
  let unique := destinations.eraseDups
  let stale ← staleEdges unique
  let _ : Unit ← forEach (refreshEdge settings true) stale
  forEach viewEdge unique

def refreshAllEdges : ProbeWork Unit := do
  let _ : Unit ← forEach (refreshEdge settings true) settings.peerIds
  forEach viewEdge settings.peerIds

def probeRound (forceEdgeProbe : Bool) : ProbeWork Unit := do
  let now : Rat ← doing .monotonic
  let last : Rat ← doing .lastEdgeProbe
  if forceEdgeProbe ∨ settings.edgeProbeIntervalSeconds ≤ now - last then do
    let _ : Unit ← forEach (refreshEdge settings false) settings.peerIds
    doing (.noteEdgeProbe now)
  else pure ()

def ProbeCall.work : ProbeCall → ProbeWork Unit
  | .probeEdge destination forceBandwidth => refreshEdge settings forceBandwidth destination
  | .ensureEdgesFresh destinations => Telemetry.ensureEdgesFresh settings destinations
  | .refreshAllEdges => Telemetry.refreshAllEdges settings
  | .probeRound forceEdgeProbe => Telemetry.probeRound settings forceEdgeProbe

/-! ## The system -/

/-- What happens beside the probes. -/
inductive ProbeEvent where
  | tick (monotonic : Rat)
  /-- Another recorder of the store, such as a migration. -/
  | observe (call : Call)
  | restart (monotonic : Rat) (now : Timestamp)

def ProbeEvent.apply (w : Probing Text) : ProbeEvent → Option (Probing Text)
  | .tick monotonic => if w.monotonic ≤ monotonic then some { w with monotonic } else none
  | .observe call =>
      match call.perform settings.codec settings.emaAlpha w.store with
      | .error _ => some w
      | .ok store => some { w with store }
  | .restart monotonic now =>
      some { w with
        store := w.store.reload settings.codec now
        session := w.session + 1
        lastEdgeProbeMonotonic := 0
        lastBandwidthProbeMonotonic := fun _ => none
        holder := none
        monotonic
        measuring := []
        measurements := [] }

/-- Any number of calls, each with an id of its own. -/
def probing : System ProbeOp ProbeOp.Ret ProbeError ProbeChoice (Probing Text) ProbeId ProbeCall ProbeEvent where
  exec := execProbe settings
  accept := fun id _ w =>
    if id.session = w.session ∧ id ∉ w.started then some { w with started := id :: w.started } else none
  body := fun _ call => (call.work settings).andThen fun outcome => doing (.ended call outcome.toBool)
  crash := fun _ w => w
  event := fun e w => e.apply settings w

/-- No call is dropped while its daemon runs. -/
def callsRun : Conditions ProbeOp ProbeChoice (Probing Text) ProbeId ProbeCall ProbeEvent where
  crash := fun _ _ => False

end

end Magellan.Telemetry
