import Magellan.Coroutine.Rules
import Magellan.Telemetry.Probing

/-!
# One measurement at a time

Whatever calls run beside each other and however they end, at most one of them measures, and a
measurement that nobody forces comes no sooner than an interval after the last one of its edge.
-/

namespace Magellan.Telemetry

open Coroutine

variable {Text : Type} {settings : ProbeSettings Text}

/-! ## The store -/

/-- The transport of the edge has been measured. -/
def TelemetryStore.Known (s : TelemetryStore Text) (key : String) : Prop :=
  ∃ record, s.document.edgeRecords.get? key = some record ∧ record.lastTransferModelSampleAtUtc ≠ none

section

variable {codec : Codec Text} {alpha : Rat} {now sampledAtUtc : Timestamp} {s s' : TelemetryStore Text}
  {source destination : NodeId} {key : String}

theorem edgeRecords_of_updateEdge {change : EdgeTelemetryRecord → EdgeTelemetryRecord}
    {record : EdgeTelemetryRecord}
    (updated : s.updateEdge codec now source destination change = .ok (s', record)) :
    ∃ old, s.edgeOrNew source destination = .ok old ∧
      s'.document.edgeRecords = s.document.edgeRecords.set (edgeKey source destination) (change old) := by
  unfold TelemetryStore.updateEdge at updated
  obtain ⟨old, found, same⟩ := Except.bind_eq_ok.mp updated
  cases same
  exact ⟨old, found, rfl⟩

/-- A change that forgets no measurement. -/
def Remembers (change : EdgeTelemetryRecord → EdgeTelemetryRecord) : Prop :=
  ∀ r, r.lastTransferModelSampleAtUtc ≠ none → (change r).lastTransferModelSampleAtUtc ≠ none

theorem TelemetryStore.Known.updateEdge {change : EdgeTelemetryRecord → EdgeTelemetryRecord}
    {record : EdgeTelemetryRecord} (known : s.Known key) (remembers : Remembers change)
    (updated : s.updateEdge codec now source destination change = .ok (s', record)) : s'.Known key := by
  obtain ⟨old, found, records⟩ := edgeRecords_of_updateEdge updated
  obtain ⟨r, stored, measured⟩ := known
  unfold TelemetryStore.Known
  rw [records, Dict.get?_set]
  split_ifs with same
  · refine ⟨_, rfl, remembers old ?_⟩
    rw [TelemetryStore.edgeOrNew, ← same, stored] at found
    cases found
    exact measured
  · exact ⟨r, stored, measured⟩

theorem remembers_transfer (transferBytes : Int) (durationSeconds : Rat) (sampleSource : String) :
    Remembers fun r => r.observeTransfer alpha sampledAtUtc transferBytes durationSeconds sampleSource := by
  intro r measured
  simp only [EdgeTelemetryRecord.observeTransfer, EdgeTelemetryRecord.succeeded]
  unfold EdgeTelemetryRecord.refine
  split
  · exact measured
  · simp [EdgeTelemetryRecord.observeBandwidth]

theorem TelemetryStore.Known.perform {c : Call} (known : s.Known key)
    (performed : c.perform codec alpha s = .ok s') : s'.Known key := by
  unfold Call.perform at performed
  split at performed
  all_goals obtain ⟨record, performed⟩ := map_fst_eq_ok performed
  · refine known.updateEdge ?_ performed
    intro r measured
    exact measured
  · unfold TelemetryStore.recordTransfer at performed
    split_ifs at performed
    exact known.updateEdge (remembers_transfer _ _ _) performed
  · obtain ⟨fit, -, performed⟩ := Except.bind_eq_ok.mp performed
    exact known.updateEdge (fun _ _ => Option.some_ne_none _) performed
  · unfold TelemetryStore.recordTransferModelStream at performed
    split_ifs at performed
    exact known.updateEdge (fun _ _ => Option.some_ne_none _) performed
  · refine known.updateEdge ?_ performed
    intro r measured
    exact measured
  · obtain ⟨r, -, same⟩ := Except.bind_eq_ok.mp performed
    cases same
    exact known

/-- A stream that is recorded is known of from then on. -/
theorem known_of_stream {smallBytes streamBytes : Int} {smallSeconds streamSeconds : Rat}
    {sampleSource : String}
    (performed : (⟨source, destination, .transferModelStream smallBytes smallSeconds streamBytes
      streamSeconds sampleSource, sampledAtUtc, now⟩ : Call).perform codec alpha s = .ok s') :
    s'.Known (edgeKey source destination) := by
  obtain ⟨record, performed⟩ := map_fst_eq_ok performed
  simp only [TelemetryStore.recordTransferModelStream] at performed
  split_ifs at performed
  obtain ⟨old, -, records⟩ := edgeRecords_of_updateEdge performed
  unfold TelemetryStore.Known
  rw [records, Dict.get?_set, if_pos rfl]
  exact ⟨_, rfl, Option.some_ne_none _⟩

theorem EdgeTelemetryView.eq_of_validated {v : EdgeTelemetryView} {view : { v : EdgeTelemetryView // v.InRange }}
    (validated : v.validated = .ok view) : view.val = v := by
  unfold EdgeTelemetryView.validated at validated
  split_ifs at validated
  cases validated
  rfl

theorem freshness_ne_unavailable (at_ : Timestamp) (staleAfterSeconds : Rat) :
    freshness (some at_) staleAfterSeconds now ≠ .unavailable := by
  simp only [freshness, ageSeconds]
  split
  · rename_i none
    cases none
  · split_ifs <;> simp

/-- The view of an edge that has been measured says so. -/
theorem available_of_known {configuredBandwidthMbps configuredLatencyMs staleAfterSeconds : Rat}
    {view : { v : EdgeTelemetryView // v.InRange }} (known : s.Known (edgeKey source destination))
    (viewed : s.edgeView now source destination configuredBandwidthMbps configuredLatencyMs
      staleAfterSeconds = .ok view) : view.val.transferModelFreshness ≠ .unavailable := by
  obtain ⟨r, stored, measured⟩ := known
  unfold TelemetryStore.edgeView at viewed
  obtain ⟨record, found, validated⟩ := Except.bind_eq_ok.mp viewed
  rw [TelemetryStore.edgeOrNew, stored] at found
  cases found
  obtain ⟨at_, sampled⟩ := Option.ne_none_iff_exists'.mp measured
  rw [EdgeTelemetryView.eq_of_validated validated]
  simp only [sampled]
  exact freshness_ne_unavailable at_ staleAfterSeconds

end

/-! ## The invariant -/

/-- An unforced measurement begins no sooner than an interval after every noted one of its edge. -/
def Spaced (interval : Rat) : List Measurement → Prop
  | [] => True
  | .began _ destination forced at_ :: earlier =>
    (forced = false → ∀ t, .noted destination t ∈ earlier → t + interval ≤ at_) ∧ Spaced interval earlier
  | .noted _ _ :: earlier => Spaced interval earlier

/-- The call has measured the edge, or the store has its failure. -/
def Tried (id : ProbeId) (destination : NodeId) (w : Probing Text) : Prop :=
  (id, destination, .measured) ∈ w.attempts ∨ (id, destination, .failed) ∈ w.attempts

/-- What a call that returns has done. -/
def Served (settings : ProbeSettings Text) (id : ProbeId) (w : Probing Text) : ProbeCall → Prop
  | .probeEdge destination forceBandwidth => forceBandwidth = true → Tried id destination w
  | .ensureEdgesFresh destinations => ∀ destination ∈ destinations,
      (id, destination, .fresh) ∈ w.attempts ∨ Tried id destination w
  | .refreshAllEdges => ∀ destination ∈ settings.peerIds, Tried id destination w
  | .probeRound _ => True

structure ProbesSound (settings : ProbeSettings Text) (w : Probing Text) : Prop where
  exclusive : w.measuring = [] ∨ ∃ id destination, w.measuring = [(id, destination)] ∧ w.holder = some id
  holding : ∀ id, w.holder = some id → id ∈ w.started
  last : ∀ destination t, .noted destination t ∈ w.measurements →
    t ≤ w.monotonic ∧ ∃ last, w.lastBandwidthProbeMonotonic destination = some last ∧ t ≤ last
  known : ∀ destination t, .noted destination t ∈ w.measurements →
    w.store.Known (edgeKey settings.localNode destination)
  spaced : Spaced settings.edgeBandwidthProbeIntervalSeconds w.measurements
  released : ∀ e ∈ w.ended, e.id ∈ w.started ∧ w.holder ≠ some e.id
  served : ∀ e ∈ w.ended, e.returned = true → Served settings e.id w e.call

/-! ## What the others do -/

/-- The session goes on, and what the call has locked stays. -/
structure Undisturbed (id : ProbeId) (w v : Probing Text) : Prop where
  monotonic : w.monotonic ≤ v.monotonic
  started : w.started ⊆ v.started
  ended : ∀ e ∈ v.ended, e.id = id → e ∈ w.ended
  holder : v.holder = some id ↔ w.holder = some id
  locked : w.holder = some id → v.lastBandwidthProbeMonotonic = w.lastBandwidthProbeMonotonic ∧
    v.measuring = w.measuring ∧ v.measurements = w.measurements
  known : ∀ key, w.store.Known key → v.store.Known key
  attempts : w.attempts ⊆ v.attempts

def Relying (id : ProbeId) (w v : Probing Text) : Prop :=
  w.session ≤ v.session ∧ (v.session = w.session → Undisturbed id w v)

/-- A step of one call as the others see it. -/
structure Giving (id : ProbeId) (w v : Probing Text) : Prop where
  session : v.session = w.session
  monotonic : v.monotonic = w.monotonic
  started : w.started ⊆ v.started
  ended : ∀ e ∈ v.ended, e ∈ w.ended ∨ e.id = id
  holder : ∀ other ≠ id, v.holder = some other ↔ w.holder = some other
  locked : ∀ other ≠ id, w.holder = some other →
    v.lastBandwidthProbeMonotonic = w.lastBandwidthProbeMonotonic ∧
      v.measuring = w.measuring ∧ v.measurements = w.measurements
  known : ∀ key, w.store.Known key → v.store.Known key
  attempts : w.attempts ⊆ v.attempts

variable {w v : Probing Text} {id other : ProbeId} {destination : NodeId}

theorem Giving.relying (gives : Giving id w v) (different : other ≠ id) : Relying other w v := by
  refine ⟨gives.session.ge, fun _ => ⟨gives.monotonic.ge, gives.started, ?_, gives.holder other different,
    gives.locked other different, gives.known, gives.attempts⟩⟩
  intro e ended own
  rcases gives.ended e ended with before | by_
  · exact before
  · exact absurd (own.symm.trans by_) different

theorem Undisturbed.refl (id : ProbeId) (w : Probing Text) : Undisturbed id w w :=
  ⟨le_rfl, fun _ member => member, fun _ ended _ => ended, Iff.rfl, fun _ => ⟨rfl, rfl, rfl⟩,
    fun _ known => known, fun _ member => member⟩

theorem Giving.refl (id : ProbeId) (w : Probing Text) : Giving id w w :=
  ⟨rfl, rfl, fun _ member => member, fun _ ended => .inl ended, fun _ _ => Iff.rfl, fun _ _ _ => ⟨rfl, rfl, rfl⟩,
    fun _ known => known, fun _ member => member⟩

theorem Tried.later (tried : Tried id destination w) (attempts : w.attempts ⊆ v.attempts) :
    Tried id destination v :=
  tried.imp (fun found => attempts found) fun found => attempts found

theorem Served.later {call : ProbeCall} (served : Served settings id w call)
    (attempts : w.attempts ⊆ v.attempts) : Served settings id v call := by
  cases call with
  | probeEdge destination forceBandwidth => exact fun forced => (served forced).later attempts
  | ensureEdgesFresh destinations =>
      intro destination member
      exact (served destination member).imp (fun found => attempts found) fun tried => tried.later attempts
  | refreshAllEdges => exact fun destination member => (served destination member).later attempts
  | probeRound forceEdgeProbe => exact trivial

/-! ## Assertions of a call -/

/-- What holds as long as the daemon runs that has the call. -/
def Live (id : ProbeId) (A : Probing Text → Prop) (w : Probing Text) : Prop :=
  id.session ≤ w.session ∧ (w.session = id.session → A w)

/-- The call runs, without the lock. -/
structure Outside (id : ProbeId) (G : Probing Text → Prop) (w : Probing Text) : Prop where
  started : id ∈ w.started
  running : ∀ e ∈ w.ended, e.id ≠ id
  unlocked : w.holder ≠ some id
  fact : G w

/-- The call runs, has the lock and measures where it says so. -/
structure Inside (id : ProbeId) (threads : List (ProbeId × NodeId)) (G : Probing Text → Prop)
    (w : Probing Text) : Prop where
  started : id ∈ w.started
  running : ∀ e ∈ w.ended, e.id ≠ id
  locked : w.holder = some id
  measuring : w.measuring = threads
  fact : G w

/-- What attempts show does not change. -/
def Lasting (G : Probing Text → Prop) : Prop := ∀ w v : Probing Text, w.attempts ⊆ v.attempts → G w → G v

/-- What the call knows as long as it has the lock. -/
def Held (id : ProbeId) (G : Probing Text → Prop) : Prop :=
  ∀ w v : Probing Text, w.holder = some id → Undisturbed id w v → G w → G v

variable {G F : Probing Text → Prop}

theorem Lasting.held (lasting : Lasting G) : Held id G :=
  fun w v _ undisturbed => lasting w v undisturbed.attempts

theorem Lasting.and (g : Lasting G) (f : Lasting F) : Lasting fun w => G w ∧ F w :=
  fun w v attempts both => ⟨g w v attempts both.1, f w v attempts both.2⟩

theorem Held.and (g : Held id G) (f : Held id F) : Held id fun w => G w ∧ F w :=
  fun w v locked undisturbed both => ⟨g w v locked undisturbed both.1, f w v locked undisturbed both.2⟩

theorem Lasting.const (P : Prop) : Lasting fun _ : Probing Text => P := fun _ _ _ holds => holds

theorem lasting_tried : Lasting fun w : Probing Text => Tried id destination w :=
  fun _ _ attempts tried => tried.later attempts

def probeContract (settings : ProbeSettings Text) (id : ProbeId) :
    Contract ProbeOp ProbeChoice (Probing Text) :=
  ⟨fun _ _ _ => True, Relying id, ProbesSound settings, Giving id⟩

theorem Outside.undisturbed (lasting : Lasting G) (outside : Outside id G w)
    (undisturbed : Undisturbed id w v) : Outside id G v := by
  refine ⟨undisturbed.started outside.started, ?_, ?_, lasting w v undisturbed.attempts outside.fact⟩
  · intro e ended own
    exact outside.running e (undisturbed.ended e ended own) own
  · exact fun holds => outside.unlocked (undisturbed.holder.mp holds)

theorem Inside.undisturbed {threads : List (ProbeId × NodeId)} (held : Held id G) (inside : Inside id threads G w)
    (undisturbed : Undisturbed id w v) : Inside id threads G v := by
  obtain ⟨-, measuring, -⟩ := undisturbed.locked inside.locked
  refine ⟨undisturbed.started inside.started, ?_, undisturbed.holder.mpr inside.locked,
    measuring.trans inside.measuring, held w v inside.locked undisturbed inside.fact⟩
  intro e ended own
  exact inside.running e (undisturbed.ended e ended own) own

/-- An assertion that the steps of others leave. -/
def Tolerant (id : ProbeId) (A : Probing Text → Prop) : Prop :=
  ∀ w v : Probing Text, Undisturbed id w v → A w → A v

theorem Tolerant.stable {A : Probing Text → Prop} (tolerant : Tolerant id A) :
    (probeContract settings id).Stable (Live id A) := by
  intro w v step live
  refine ⟨live.1.trans step.1, fun same => ?_⟩
  have before : w.session = id.session := le_antisymm (step.1.trans same.le) live.1
  exact tolerant w v (step.2 (same.trans before.symm)) (live.2 before)

theorem Outside.tolerant (lasting : Lasting G) : Tolerant id (Outside id G) :=
  fun _ _ undisturbed outside => outside.undisturbed lasting undisturbed

theorem Inside.tolerant {threads : List (ProbeId × NodeId)} (held : Held id G) :
    Tolerant id (Inside id threads G) :=
  fun _ _ undisturbed inside => inside.undisturbed held undisturbed

/-! ## Operations -/

/-- Only the store and the attempts change. -/
structure Quiet (w v : Probing Text) : Prop where
  session : v.session = w.session
  monotonic : v.monotonic = w.monotonic
  started : v.started = w.started
  ended : v.ended = w.ended
  holder : v.holder = w.holder
  last : v.lastBandwidthProbeMonotonic = w.lastBandwidthProbeMonotonic
  measuring : v.measuring = w.measuring
  measurements : v.measurements = w.measurements
  known : ∀ key, w.store.Known key → v.store.Known key
  attempts : w.attempts ⊆ v.attempts

theorem Quiet.refl (w : Probing Text) : Quiet w w :=
  ⟨rfl, rfl, rfl, rfl, rfl, rfl, rfl, rfl, fun _ known => known, fun _ member => member⟩

theorem Quiet.attempted (w : Probing Text) (id : ProbeId) (destination : NodeId) (attempt : Attempt) :
    Quiet w (w.attempted id destination attempt) :=
  ⟨rfl, rfl, rfl, rfl, rfl, rfl, rfl, rfl, fun _ known => known, fun _ member => List.mem_cons_of_mem _ member⟩

theorem Quiet.failed (w : Probing Text) (id : ProbeId) (destination : NodeId) (observation : Observation) :
    Quiet w (w.failed id destination observation) := by
  cases observation with
  | edgeFailure error => exact .attempted w id destination .failed
  | _ => exact .refl w

theorem Quiet.trans {u : Probing Text} (first : Quiet u w) (second : Quiet w v) : Quiet u v :=
  ⟨second.session.trans first.session, second.monotonic.trans first.monotonic,
    second.started.trans first.started, second.ended.trans first.ended, second.holder.trans first.holder,
    second.last.trans first.last, second.measuring.trans first.measuring,
    second.measurements.trans first.measurements, fun key known => second.known key (first.known key known),
    fun _ member => second.attempts (first.attempts member)⟩

theorem Quiet.giving (quiet : Quiet w v) (id : ProbeId) : Giving id w v := by
  refine ⟨quiet.session, quiet.monotonic, quiet.started ▸ fun _ member => member, ?_, ?_, ?_, quiet.known,
    quiet.attempts⟩
  · exact fun e ended => .inl (quiet.ended ▸ ended)
  · intro other _
    rw [quiet.holder]
  · exact fun _ _ _ => ⟨quiet.last, quiet.measuring, quiet.measurements⟩

theorem Quiet.undisturbed (quiet : Quiet w v) (id : ProbeId) : Undisturbed id w v := by
  refine ⟨quiet.monotonic.ge, quiet.started ▸ fun _ member => member, ?_, by rw [quiet.holder], ?_, quiet.known,
    quiet.attempts⟩
  · exact fun e ended _ => quiet.ended ▸ ended
  · exact fun _ => ⟨quiet.last, quiet.measuring, quiet.measurements⟩

theorem Quiet.sound (quiet : Quiet w v) (sound : ProbesSound settings w) : ProbesSound settings v := by
  refine ⟨?_, ?_, ?_, ?_, ?_, ?_, ?_⟩
  · rw [quiet.measuring, quiet.holder]
    exact sound.exclusive
  · rw [quiet.holder, quiet.started]
    exact sound.holding
  · rw [quiet.measurements, quiet.monotonic, quiet.last]
    exact sound.last
  · rw [quiet.measurements]
    exact fun destination t noted => quiet.known _ (sound.known destination t noted)
  · rw [quiet.measurements]
    exact sound.spaced
  · rw [quiet.ended, quiet.started, quiet.holder]
    exact sound.released
  · rw [quiet.ended]
    exact fun e ended returned => (sound.served e ended returned).later quiet.attempts

/-- One operation of a call that is alive. -/
def Does (settings : ProbeSettings Text) (id : ProbeId) (A : Probing Text → Prop) (o : ProbeOp)
    (B : o.Ret → Probing Text → Prop) (E : ProbeError → Probing Text → Prop) : Prop :=
  OpTriple (execProbe settings id) (probeContract settings id) (Live id A) o (fun a => Live id (B a))
    fun e => Live id (E e)

variable {A : Probing Text → Prop} {o : ProbeOp} {B : o.Ret → Probing Text → Prop}
  {E : ProbeError → Probing Text → Prop}

theorem does_of (h : ∀ w c r v, A w → ProbesSound settings w → performProbe settings id o c w = some (r, v) →
    ProbesSound settings v ∧ Giving id w v ∧ endsWith B E r v) : Does settings id A o B E := by
  intro w c r v live sound _ step
  unfold execProbe at step
  split_ifs at step with session
  obtain ⟨sound', gives, ends⟩ := h w c r v (live.2 session.symm) sound step
  refine ⟨sound', gives, ?_⟩
  have later : id.session ≤ v.session := gives.session ▸ live.1
  cases r with
  | ok a => exact ⟨later, fun _ => ends⟩
  | error e => exact ⟨later, fun _ => ends⟩

/-- An operation that changes no more than the store and the attempts keeps what the others keep. -/
theorem does_quiet (tolerant : Tolerant id A)
    (h : ∀ w c r v, A w → ProbesSound settings w → performProbe settings id o c w = some (r, v) →
      Quiet w v ∧ endsWith B E r v) :
    Does settings id A o (fun a w => A w ∧ B a w) fun e w => A w ∧ E e w := by
  apply does_of
  intro w c r v given sound step
  obtain ⟨quiet, ends⟩ := h w c r v given sound step
  have kept := tolerant w v (quiet.undisturbed id) given
  refine ⟨quiet.sound sound, quiet.giving id, ?_⟩
  cases r with
  | ok a => exact ⟨kept, ends⟩
  | error e => exact ⟨kept, ends⟩

theorem does_keeps (tolerant : Tolerant id A)
    (h : ∀ w c r v, performProbe settings id o c w = some (r, v) → Quiet w v) :
    Does settings id A o (fun _ => A) fun _ => A := by
  apply does_of
  intro w c r v given sound step
  have quiet := h w c r v step
  have kept := tolerant w v (quiet.undisturbed id) given
  refine ⟨quiet.sound sound, quiet.giving id, ?_⟩
  cases r <;> exact kept

def ProbeOp.IsQuiet : ProbeOp → Prop
  | .health _ | .record _ _ | .edgeView _ | .monotonic | .lastEdgeProbe | .noteEdgeProbe _
  | .lastBandwidthProbe _ => True
  | _ => False

theorem record_quiet {observation : Observation} {sampledAtUtc now : Timestamp} {written : Bool}
    {result : Except ProbeError Unit}
    (recorded : w.record settings destination observation sampledAtUtc now written = (result, v)) : Quiet w v := by
  unfold Probing.record at recorded
  split at recorded
  · cases recorded
    exact .refl w
  · rename_i store performed
    have grows (key : String) (known : w.store.Known key) : store.Known key := known.perform performed
    split_ifs at recorded
    all_goals
      cases recorded
      exact ⟨rfl, rfl, rfl, rfl, rfl, rfl, rfl, rfl, grows, fun _ member => member⟩

theorem quiet_of_perform {c : ProbeChoice} {r : Except ProbeError o.Ret} (isQuiet : o.IsQuiet)
    (step : performProbe settings id o c w = some (r, v)) : Quiet w v := by
  cases o with
  | health destination => cases c <;> cases step <;> exact .refl w
  | record destination observation =>
      cases c with
      | reads sampledAtUtc now written =>
          simp only [performProbe] at step
          split at step
          · rename_i e u recorded
            cases step
            exact record_quiet recorded
          · rename_i a u recorded
            cases step
            exact (record_quiet recorded).trans (.failed u id destination observation)
      | _ => cases step
  | edgeView destination =>
      cases c with
      | reads sampledAtUtc now written =>
          simp only [performProbe] at step
          split at step
          · cases step
            exact .refl w
          · cases step
            split_ifs
            · exact .attempted w id destination .fresh
            · exact .refl w
      | _ => cases step
  | monotonic | lastEdgeProbe =>
      cases c <;> cases step
      exact .refl w
  | noteEdgeProbe at_ =>
      cases c <;> cases step
      exact ⟨rfl, rfl, rfl, rfl, rfl, rfl, rfl, rfl, fun _ known => known, fun _ member => member⟩
  | lastBandwidthProbe destination =>
      cases c <;> cases step
      exact .refl w
  | _ => cases isQuiet

theorem quiet_does (tolerant : Tolerant id A) (isQuiet : o.IsQuiet) :
    Does settings id A o (fun _ => A) fun _ => A :=
  does_keeps tolerant fun _ _ _ _ step => quiet_of_perform isQuiet step

/-- A quiet operation with what it shows. -/
theorem quiet_shows (tolerant : Tolerant id A) (isQuiet : o.IsQuiet)
    (shows_ : ∀ w c a v, A w → ProbesSound settings w → performProbe settings id o c w = some (.ok a, v) →
      B a v) :
    Does settings id A o (fun a w => A w ∧ B a w) fun _ => A := by
  apply does_of
  intro w c r v given sound step
  have quiet := quiet_of_perform isQuiet step
  have kept := tolerant w v (quiet.undisturbed id) given
  refine ⟨quiet.sound sound, quiet.giving id, ?_⟩
  cases r with
  | ok a => exact ⟨kept, shows_ w c a v given sound step⟩
  | error e => exact kept

/-! ## Assertions about coroutines -/

/-- The call runs `p` from a state with `A` while it is alive. -/
def Achieves {α : Type} (settings : ProbeSettings Text) (id : ProbeId) (A : Probing Text → Prop)
    (p : ProbeWork α) (B : α → Probing Text → Prop) (E : ProbeError → Probing Text → Prop) : Prop :=
  Triple (execProbe settings id) (probeContract settings id) (Live id A) p (fun a => Live id (B a))
    fun e => Live id (E e)

theorem Does.achieves (does : Does settings id A o B E) (tolerant : Tolerant id A)
    (tolerantB : ∀ a, Tolerant id (B a)) (tolerantE : ∀ e, Tolerant id (E e)) :
    Achieves settings id A (doing o) B E :=
  Triple.op tolerant.stable (fun a => (tolerantB a).stable) (fun e => (tolerantE e).stable) does

theorem Live.imp {A' : Probing Text → Prop} (h : ∀ w, A w → A' w) (w : Probing Text) (live : Live id A w) :
    Live id A' w := ⟨live.1, fun same => h w (live.2 same)⟩

theorem achieves_pure {α : Type} {a : α} {B : α → Probing Text → Prop} (tolerant : Tolerant id (B a))
    (h : ∀ w, A w → B a w) : Achieves settings id A (pure a) B E :=
  Triple.pure tolerant.stable (Live.imp h)

theorem achieves_quiet {α : Type} {p : ProbeWork α} (tolerant : Tolerant id A)
    (performs : p.Performs ProbeOp.IsQuiet) : Achieves settings id A p (fun _ => A) fun _ => A :=
  Triple.of_performs tolerant.stable performs fun _ isQuiet => quiet_does tolerant isQuiet

theorem bandwidthProbeDue_performs (destination : NodeId) (force : Bool) :
    (bandwidthProbeDue settings destination force).Performs ProbeOp.IsQuiet := by
  apply Coro.Performs.ite
  · exact Coro.Performs.pure _
  · apply Coro.Performs.bind (.op trivial)
    intro view
    apply Coro.Performs.ite
    · exact Coro.Performs.pure _
    · apply Coro.Performs.bind (.op trivial)
      intro last
      cases last with
      | none => exact Coro.Performs.pure _
      | some last => exact Coro.Performs.bind (.op trivial) fun _ => Coro.Performs.pure _

/-! ## The measurements that are due -/

/-- The last measurement of the edge is an interval ago. -/
def Due (settings : ProbeSettings Text) (destination : NodeId) (w : Probing Text) : Prop :=
  ∀ t, .noted destination t ∈ w.measurements → t + settings.edgeBandwidthProbeIntervalSeconds ≤ w.monotonic

theorem held_due : Held id (Due settings destination) := by
  intro w v locked undisturbed due t noted
  obtain ⟨-, -, measurements⟩ := undisturbed.locked locked
  rw [measurements] at noted
  exact (due t noted).trans undisturbed.monotonic

/-- Every measurement of the edge is noted at or before `last`. -/
def Until (destination : NodeId) (last : Rat) (w : Probing Text) : Prop :=
  ∀ t, .noted destination t ∈ w.measurements → t ≤ last

theorem held_until (last : Rat) : Held id (Until destination last : Probing Text → Prop) := by
  intro w v locked undisturbed until_ t noted
  obtain ⟨-, -, measurements⟩ := undisturbed.locked locked
  exact until_ t (measurements ▸ noted)

theorem Held.imp (P : Prop) (held : Held id G) : Held id fun w => P → G w :=
  fun w v locked undisturbed given holds => held w v locked undisturbed (given holds)

theorem Held.const (P : Prop) : Held id fun _ : Probing Text => P := fun _ _ _ _ holds => holds

theorem Inside.imp {threads : List (ProbeId × NodeId)} (h : ∀ w, G w → F w) (w : Probing Text)
    (inside : Inside id threads G w) : Inside id threads F w :=
  ⟨inside.started, inside.running, inside.locked, inside.measuring, h w inside.fact⟩

theorem Inside.add {threads : List (ProbeId × NodeId)} (inside : Inside id threads G w) (fact : F w) :
    Inside id threads (fun w => G w ∧ F w) w :=
  ⟨inside.started, inside.running, inside.locked, inside.measuring, inside.fact, fact⟩

/-- A quiet operation of the call that has the lock. -/
theorem quiet_inside {threads : List (ProbeId × NodeId)} {F : o.Ret → Probing Text → Prop} (held : Held id G)
    (heldF : ∀ a, Held id (F a)) (isQuiet : o.IsQuiet)
    (shows_ : ∀ w c a v, G w → ProbesSound settings w → performProbe settings id o c w = some (.ok a, v) →
      F a v) :
    Achieves settings id (Inside id threads G) (doing o) (fun a => Inside id threads fun w => G w ∧ F a w)
      fun _ => Inside id threads G := by
  have does : Does settings id (Inside id threads G) o (fun a => Inside id threads fun w => G w ∧ F a w)
      fun _ => Inside id threads G := by
    apply does_of
    intro w c r v inside sound step
    have quiet := quiet_of_perform isQuiet step
    have kept := inside.undisturbed held (quiet.undisturbed id)
    refine ⟨quiet.sound sound, quiet.giving id, ?_⟩
    cases r with
    | ok a => exact kept.add (shows_ w c a v inside.fact sound step)
    | error e => exact kept
  exact does.achieves (Inside.tolerant held) (fun a => Inside.tolerant (held.and (heldF a)))
    fun _ => Inside.tolerant held

theorem mapError_eq_ok {ε ε' α : Type} {f : ε → ε'} {x : Except ε α} {a : α} (h : x.mapError f = .ok a) :
    x = .ok a := by
  cases x with
  | error e => cases h
  | ok b =>
      cases h
      rfl

theorem unknown_of_unavailable {c : ProbeChoice} {view : EdgeTelemetryView}
    (step : performProbe settings id (.edgeView destination) c w = some (.ok view, v))
    (unavailable : view.transferModelFreshness = .unavailable) :
    ¬ w.store.Known (edgeKey settings.localNode destination) := by
  cases c with
  | reads sampledAtUtc now written =>
      simp only [performProbe] at step
      split at step
      · cases step
      · rename_i found viewed
        cases step
        unfold Probing.edgeView at viewed
        obtain ⟨node, -, rest⟩ := Except.bind_eq_ok.mp viewed
        obtain ⟨own, checked, same⟩ := Except.bind_eq_ok.mp rest
        cases same
        intro known
        exact available_of_known known (mapError_eq_ok checked) unavailable
  | _ => cases step

/-- With the lock in hand what is due stays due. -/
theorem bandwidthProbeDue_inside (held : Held id G) (destination : NodeId) (force : Bool) :
    Achieves settings id (Inside id [] G) (bandwidthProbeDue settings destination force)
      (fun due => Inside id [] fun w => G w ∧ (due = true → force = false → Due settings destination w))
      fun _ => Inside id [] G := by
  have heldDue (due : Bool) :
      Held id fun w => G w ∧ (due = true → force = false → Due settings destination w) :=
    held.and ((held_due.imp _).imp _)
  have answer {F : Probing Text → Prop} {due : Bool}
      (h : ∀ w, F w → G w ∧ (due = true → force = false → Due settings destination w)) :
      Achieves settings id (Inside id [] F) (pure due)
        (fun due => Inside id [] fun w => G w ∧ (due = true → force = false → Due settings destination w))
        fun _ => Inside id [] G :=
    achieves_pure (Inside.tolerant (heldDue due)) (Inside.imp h)
  apply Triple.ite
  · intro forced
    apply answer
    intro w fact
    exact ⟨fact, fun _ free => absurd (forced.symm.trans free) (by simp)⟩
  · intro _
    apply Triple.bind (quiet_inside (o := .edgeView destination) (F := fun (view : EdgeTelemetryView) w =>
      view.transferModelFreshness = .unavailable → Due settings destination w) held
      (fun view => held_due.imp _) trivial ?_)
    · intro view
      apply Triple.ite
      · intro unavailable
        apply answer
        intro w given
        exact ⟨given.1, fun _ _ => given.2 unavailable⟩
      · intro _
        apply Triple.pre ?_ (Live.imp (Inside.imp fun w (given : G w ∧ _) => given.1))
        apply Triple.bind (quiet_inside (o := .lastBandwidthProbe destination)
          (F := fun (last : Option Rat) w => ∀ t, .noted destination t ∈ w.measurements →
            ∃ at_, last = some at_ ∧ t ≤ at_) held ?_ trivial ?_)
        · intro last
          cases last with
          | none =>
              apply answer
              intro w given
              refine ⟨given.1, fun _ _ t noted => ?_⟩
              obtain ⟨at_, none, -⟩ := given.2 t noted
              cases none
          | some last =>
              apply Triple.pre ?_ (Live.imp (Inside.imp (F := fun w => G w ∧ Until destination last w) ?_))
              · apply Triple.bind (Triple.weaken (quiet_inside (o := .monotonic)
                  (F := fun (now : Rat) w => now ≤ w.monotonic) (held.and (held_until last)) ?_ trivial ?_)
                  (fun _ given => given) (fun _ _ given => given) fun _ => Live.imp (Inside.imp fun _ both => both.1))
                · intro (now : Rat)
                  apply answer
                  intro w given
                  refine ⟨given.1.1, fun late _ t noted => ?_⟩
                  have before := given.1.2 t noted
                  have waited : settings.edgeBandwidthProbeIntervalSeconds ≤ now - last := of_decide_eq_true late
                  have past : now ≤ w.monotonic := given.2
                  linarith
                · intro now w v _ undisturbed past
                  exact past.trans undisturbed.monotonic
                · intro w c now v _ _ step
                  cases c <;> cases step
                  exact le_rfl
              · intro w given
                refine ⟨given.1, fun t noted => ?_⟩
                obtain ⟨at_, same, before⟩ := given.2 t noted
                cases same
                exact before
        · intro last w v locked undisturbed all t noted
          obtain ⟨-, -, measurements⟩ := undisturbed.locked locked
          exact all t (measurements ▸ noted)
        · intro w c last v _ sound step t noted
          cases c <;> cases step
          exact (sound.last destination t noted).2
    · intro w c view v _ sound step unavailable t noted
      have quiet := quiet_of_perform (o := .edgeView destination) trivial step
      exact absurd (sound.known destination t (quiet.measurements ▸ noted)) (unknown_of_unavailable step unavailable)

/-! ## The lock and the thread -/

theorem Lasting.same (lasting : Lasting G) (fact : G w) (attempts : v.attempts = w.attempts) : G v :=
  lasting w v (attempts ▸ fun _ member => member) fact

theorem acquire_achieves (lasting : Lasting G) : Achieves settings id (Outside id G) (doing .acquire)
    (fun _ => Inside id [] G) fun _ => Outside id G := by
  have does : Does settings id (Outside id G) .acquire (fun _ => Inside id [] G) fun _ => Outside id G := by
    apply does_of
    intro w c r v outside sound step
    cases c with
    | runs =>
        simp only [performProbe] at step
        split_ifs at step with free
        cases step
        have idle : w.measuring = [] := by
          rcases sound.exclusive with none | ⟨other, d, -, held⟩
          · exact none
          · rw [free] at held
            cases held
        refine ⟨⟨.inl idle, ?_, sound.last, sound.known, sound.spaced, ?_, sound.served⟩, ?_, ?_⟩
        · rintro other ⟨⟩
          exact outside.started
        · intro e ended
          refine ⟨(sound.released e ended).1, fun same => ?_⟩
          exact outside.running e ended (Option.some.inj same).symm
        · refine ⟨rfl, rfl, fun _ member => member, fun _ ended => .inl ended, ?_, ?_, fun _ known => known,
            fun _ member => member⟩
          · intro other different
            simp [free, Ne.symm different]
          · intro other _ held
            rw [free] at held
            cases held
        · exact ⟨outside.started, outside.running, rfl, idle, lasting.same outside.fact rfl⟩
    | _ => cases step
  exact does.achieves (Outside.tolerant lasting) (fun _ => Inside.tolerant lasting.held)
    fun _ => Outside.tolerant lasting

/-- What the others see of a step of the call that has the lock. -/
theorem Inside.giving {threads : List (ProbeId × NodeId)} (inside : Inside id threads G w)
    (session : v.session = w.session) (monotonic : v.monotonic = w.monotonic) (started : v.started = w.started)
    (ended : v.ended = w.ended) (holder : ∀ other ≠ id, v.holder ≠ some other) (store : v.store = w.store)
    (attempts : w.attempts ⊆ v.attempts) : Giving id w v := by
  have alone (other : ProbeId) (different : other ≠ id) : w.holder ≠ some other := by
    rw [inside.locked]
    exact fun same => different (Option.some.inj same).symm
  refine ⟨session, monotonic, started ▸ fun _ member => member, fun e member => .inl (ended ▸ member), ?_, ?_, ?_,
    attempts⟩
  · intro other different
    exact ⟨fun held => absurd held (holder other different), fun held => absurd held (alone other different)⟩
  · exact fun other different held => absurd held (alone other different)
  · intro key known
    rw [store]
    exact known

theorem Inside.only {threads : List (ProbeId × NodeId)} (inside : Inside id threads G w) :
    ∀ other ≠ id, w.holder ≠ some other := by
  intro other different held
  rw [inside.locked] at held
  exact different (Option.some.inj held).symm

theorem release_achieves (lasting : Lasting G) (lastingF : Lasting F) : Achieves settings id (Inside id [] G)
    (doing .release) (fun _ => Outside id G) fun _ => Outside id F := by
  have does : Does settings id (Inside id [] G) .release (fun _ => Outside id G) fun _ => Outside id F := by
    apply does_of
    intro w c r v inside sound step
    cases c with
    | runs =>
        cases step
        refine ⟨⟨.inl inside.measuring, ?_, sound.last, sound.known, sound.spaced, ?_, sound.served⟩, ?_, ?_⟩
        · rintro other ⟨⟩
        · exact fun e ended => ⟨(sound.released e ended).1, Option.some_ne_none _ ∘ Eq.symm⟩
        · exact inside.giving rfl rfl rfl rfl (fun _ _ => Option.some_ne_none _ ∘ Eq.symm) rfl
            fun _ member => member
        · exact ⟨inside.started, inside.running, Option.some_ne_none _ ∘ Eq.symm, lasting.same inside.fact rfl⟩
    | _ => cases step
  exact does.achieves (Inside.tolerant lasting.held) (fun _ => Outside.tolerant lasting)
    fun _ => Outside.tolerant lastingF

theorem withProbeLock_achieves {p : ProbeWork Unit} (lasting : Lasting G) (lastingF : Lasting F)
    (achieves : Achieves settings id (Inside id [] G) p (fun _ => Inside id [] F) fun _ => Inside id [] G) :
    Achieves settings id (Outside id G) (withProbeLock p) (fun _ => Outside id F) fun _ => Outside id G := by
  apply Triple.bind (acquire_achieves lasting)
  intro _
  apply Triple.tryFinally achieves
  · exact fun _ => release_achieves lastingF lasting
  · exact fun _ => release_achieves lasting lasting

/-- A measurement that is due begins, in the only thread. -/
theorem beginMeasurement_achieves (lasting : Lasting G) (destination : NodeId) (force : Bool) :
    Achieves settings id (Inside id [] fun w => G w ∧ (force = false → Due settings destination w))
      (doing (.beginMeasurement destination force)) (fun _ => Inside id [(id, destination)] G)
      fun _ => Inside id [] G := by
  have does : Does settings id (Inside id [] fun w => G w ∧ (force = false → Due settings destination w))
      (.beginMeasurement destination force) (fun _ => Inside id [(id, destination)] G)
      fun _ => Inside id [] G := by
    apply does_of
    intro w c r v inside sound step
    cases c with
    | runs =>
        cases step
        have threads : (id, destination) :: w.measuring = [(id, destination)] := by rw [inside.measuring]
        refine ⟨⟨.inr ⟨id, destination, threads, inside.locked⟩, sound.holding, ?_, ?_, ?_, sound.released,
          sound.served⟩, ?_, ?_⟩
        · intro d t noted
          exact sound.last d t (by simpa using noted)
        · intro d t noted
          exact sound.known d t (by simpa using noted)
        · exact ⟨fun free => inside.fact.2 free, sound.spaced⟩
        · exact inside.giving rfl rfl rfl rfl inside.only rfl fun _ member => member
        · exact ⟨inside.started, inside.running, inside.locked, threads, lasting.same inside.fact.1 rfl⟩
    | _ => cases step
  exact does.achieves (Inside.tolerant (lasting.held.and (held_due.imp _)))
    (fun _ => Inside.tolerant lasting.held) fun _ => Inside.tolerant lasting.held

theorem endMeasurement_achieves (lasting : Lasting G) (destination : NodeId) :
    Achieves settings id (Inside id [(id, destination)] G) (doing (.endMeasurement destination))
      (fun _ => Inside id [] G) fun _ => Inside id [] G := by
  have does : Does settings id (Inside id [(id, destination)] G) (.endMeasurement destination)
      (fun _ => Inside id [] G) fun _ => Inside id [] G := by
    apply does_of
    intro w c r v inside sound step
    have idle : w.measuring.erase (id, destination) = [] := by simp [inside.measuring]
    have left : ProbesSound settings { w with measuring := w.measuring.erase (id, destination) } :=
      ⟨.inl idle, sound.holding, sound.last, sound.known, sound.spaced, sound.released, sound.served⟩
    have given : Inside id [] G { w with measuring := w.measuring.erase (id, destination) } :=
      ⟨inside.started, inside.running, inside.locked, idle, lasting.same inside.fact rfl⟩
    have gives : Giving id w { w with measuring := w.measuring.erase (id, destination) } :=
      inside.giving rfl rfl rfl rfl inside.only rfl fun _ member => member
    cases c with
    | measures samples =>
        cases step
        exact ⟨left, gives, given⟩
    | fails text =>
        cases step
        exact ⟨left, gives, given⟩
    | _ => cases step
  exact does.achieves (Inside.tolerant lasting.held) (fun _ => Inside.tolerant lasting.held)
    fun _ => Inside.tolerant lasting.held

/-- What is known when a measurement is noted. -/
structure Notable (settings : ProbeSettings Text) (destination : NodeId) (now : Rat) (w : Probing Text) :
    Prop where
  known : w.store.Known (edgeKey settings.localNode destination)
  until_ : Until destination now w
  past : now ≤ w.monotonic

theorem held_notable (now : Rat) : Held id (Notable settings destination now) :=
  fun w v locked undisturbed notable => ⟨undisturbed.known _ notable.known,
    held_until now w v locked undisturbed notable.until_, notable.past.trans undisturbed.monotonic⟩

theorem noteBandwidthProbe_achieves (lasting : Lasting G) (destination : NodeId) (now : Rat) :
    Achieves settings id (Inside id [] fun w => G w ∧ Notable settings destination now w)
      (doing (.noteBandwidthProbe destination now)) (fun _ => Inside id [] fun w => G w ∧ Tried id destination w)
      fun _ => Inside id [] G := by
  have does : Does settings id (Inside id [] fun w => G w ∧ Notable settings destination now w)
      (.noteBandwidthProbe destination now) (fun _ => Inside id [] fun w => G w ∧ Tried id destination w)
      fun _ => Inside id [] G := by
    apply does_of
    intro w c r v inside sound step
    obtain ⟨fact, notable⟩ := inside.fact
    cases c with
    | runs =>
        cases step
        have later : w.attempts ⊆ (id, destination, .measured) :: w.attempts :=
          fun _ member => List.mem_cons_of_mem _ member
        refine ⟨⟨.inl inside.measuring, sound.holding, ?_, ?_, sound.spaced, sound.released, ?_⟩, ?_, ?_⟩
        · intro d t noted
          rcases List.mem_cons.mp noted with new | old
          · cases new
            exact ⟨notable.past, now, by simp [Probing.attempted], le_rfl⟩
          · obtain ⟨past, last, known, before⟩ := sound.last d t old
            by_cases same : d = destination
            · cases same
              exact ⟨past, now, by simp [Probing.attempted], notable.until_ t old⟩
            · exact ⟨past, last, by simpa [Probing.attempted, same] using known, before⟩
        · intro d t noted
          rcases List.mem_cons.mp noted with new | old
          · cases new
            exact notable.known
          · exact sound.known d t old
        · exact fun e ended returned => (sound.served e ended returned).later later
        · exact inside.giving rfl rfl rfl rfl inside.only rfl later
        · exact ⟨inside.started, inside.running, inside.locked, inside.measuring,
            lasting _ _ later fact, .inl List.mem_cons_self⟩
    | _ => cases step
  exact does.achieves (Inside.tolerant (lasting.held.and (held_notable now)))
    (fun _ => Inside.tolerant (lasting.and lasting_tried).held) fun _ => Inside.tolerant lasting.held

/-! ## The calls -/

theorem failed_of_record {error : String} {c : ProbeChoice} {a : Unit}
    (step : performProbe settings id (.record destination (.edgeFailure error)) c w = some (.ok a, v)) :
    Tried id destination v := by
  cases c with
  | reads sampledAtUtc now written =>
      simp only [performProbe] at step
      split at step
      · cases step
      · cases step
        exact .inr List.mem_cons_self
  | _ => cases step

theorem known_of_record {samples : EdgeTelemetryRecord.ModelSamples} {sampleSource : String} {c : ProbeChoice}
    {a : Unit} (step : performProbe settings id (.record destination (.transferModelStream samples.smallBytes
      samples.smallSeconds samples.largeBytes samples.largeSeconds sampleSource)) c w = some (.ok a, v)) :
    v.store.Known (edgeKey settings.localNode destination) := by
  cases c with
  | reads sampledAtUtc now written =>
      simp only [performProbe] at step
      split at step
      · cases step
      · rename_i b u recorded
        cases step
        unfold Probing.record at recorded
        split at recorded
        · cases recorded
        · rename_i store performed
          split_ifs at recorded
          · cases recorded
            exact known_of_stream performed
          · cases recorded
  | _ => cases step

theorem failure_achieves (lasting : Lasting G) (destination : NodeId) (error : String) :
    Achieves settings id (Inside id [] G) (doing (.record destination (.edgeFailure error)))
      (fun _ => Inside id [] fun w => G w ∧ Tried id destination w) fun _ => Inside id [] G :=
  quiet_inside (o := .record destination (.edgeFailure error)) (F := fun _ => Tried id destination) lasting.held
    (fun _ => lasting_tried.held) trivial fun _ _ _ _ _ _ step => failed_of_record step

/-- A measurement is tried, whatever becomes of it. -/
theorem measureTransport_achieves (lasting : Lasting G) (destination : NodeId) (force : Bool) :
    Achieves settings id (Inside id [] fun w => G w ∧ (force = false → Due settings destination w))
      ((measureTransport destination force).tryExcept fun e =>
        doing (.record destination (.edgeFailure ("bandwidth_probe:" ++ settings.text e))))
      (fun _ => Inside id [] fun w => G w ∧ Tried id destination w) fun _ => Inside id [] G := by
  apply Triple.tryExcept
  · apply Triple.bind (beginMeasurement_achieves lasting destination force)
    intro _
    apply Triple.bind (endMeasurement_achieves lasting destination)
    intro (samples : EdgeTelemetryRecord.ModelSamples)
    apply Triple.bind (quiet_inside (o := .record destination (.transferModelStream samples.smallBytes
      samples.smallSeconds samples.largeBytes samples.largeSeconds "ssh_stream_plus_rsync_setup_probe"))
      (F := fun _ w => w.store.Known (edgeKey settings.localNode destination)) lasting.held (fun _ _ _ _ undisturbed => undisturbed.known _) trivial
      fun _ _ _ _ _ _ step => known_of_record step)
    intro _
    have measured : Held id fun w => G w ∧ w.store.Known (edgeKey settings.localNode destination) :=
      lasting.held.and fun _ _ _ undisturbed => undisturbed.known _
    apply Triple.bind (Triple.weaken (quiet_inside (o := .monotonic)
      (F := fun (now : Rat) => Notable settings destination now) measured (fun now => held_notable now) trivial ?_)
      (fun _ given => given) (fun _ _ given => given) fun _ => Live.imp (Inside.imp fun _ both => both.1))
    · intro now
      exact (noteBandwidthProbe_achieves lasting destination now).pre
        (Live.imp (Inside.imp fun _ both => ⟨both.1.1, both.2⟩))
    · intro w c now v known sound step
      cases c <;> cases step
      exact ⟨known.2, fun t noted => (sound.last destination t noted).1, le_rfl⟩
  · exact fun e => failure_achieves lasting destination _

theorem measureDue_achieves (lasting : Lasting G) (destination : NodeId) (force : Bool) :
    Achieves settings id (Inside id [] G) (measureDue settings destination force)
      (fun _ => Inside id [] fun w => G w ∧ (force = true → Tried id destination w)) fun _ => Inside id [] G := by
  have tried : Lasting fun w : Probing Text => G w ∧ (force = true → Tried id destination w) :=
    lasting.and fun w v attempts tried forced => (tried forced).later attempts
  cases force with
  | true =>
      exact Triple.weaken (measureTransport_achieves lasting destination true)
        (Live.imp (Inside.imp fun _ fact => ⟨fact, fun free => by cases free⟩))
        (fun _ => Live.imp (Inside.imp fun _ both => ⟨both.1, fun _ => both.2⟩)) fun _ _ given => given
  | false =>
      apply Triple.bind (bandwidthProbeDue_inside lasting.held destination false)
      intro due
      apply Triple.ite
      · intro isDue
        exact Triple.weaken (measureTransport_achieves lasting destination false)
          (Live.imp (Inside.imp fun _ both => ⟨both.1, both.2 isDue⟩))
          (fun _ => Live.imp (Inside.imp fun _ both => ⟨both.1, fun _ => both.2⟩)) fun _ _ given => given
      · intro _
        exact achieves_pure (Inside.tolerant tried.held) (Inside.imp fun _ both => ⟨both.1, fun forced => by cases forced⟩)

/-- A quiet operation of a call without the lock. -/
theorem quiet_outside {F : o.Ret → Probing Text → Prop} (lasting : Lasting G) (lastingF : ∀ a, Lasting (F a))
    (isQuiet : o.IsQuiet)
    (shows_ : ∀ w c a v, performProbe settings id o c w = some (.ok a, v) → F a v) :
    Achieves settings id (Outside id G) (doing o) (fun a => Outside id fun w => G w ∧ F a w)
      fun _ => Outside id G := by
  have does : Does settings id (Outside id G) o (fun a => Outside id fun w => G w ∧ F a w)
      fun _ => Outside id G := by
    apply does_of
    intro w c r v outside sound step
    have quiet := quiet_of_perform isQuiet step
    have kept := outside.undisturbed lasting (quiet.undisturbed id)
    refine ⟨quiet.sound sound, quiet.giving id, ?_⟩
    cases r with
    | ok a => exact ⟨kept.started, kept.running, kept.unlocked, kept.fact, shows_ w c a v step⟩
    | error e => exact kept
  exact does.achieves (Outside.tolerant lasting) (fun a => Outside.tolerant (lasting.and (lastingF a)))
    fun _ => Outside.tolerant lasting

theorem lasting_forced {force : Bool} : Lasting fun w : Probing Text => force = true → Tried id destination w :=
  fun _ _ attempts tried forced => (tried forced).later attempts

theorem Outside.imp (h : ∀ w, G w → F w) (w : Probing Text) (outside : Outside id G w) : Outside id F w :=
  ⟨outside.started, outside.running, outside.unlocked, h w outside.fact⟩

theorem probeEdge_achieves (lasting : Lasting G) (destination : NodeId) (force : Bool) :
    Achieves settings id (Outside id G) (probeEdge settings destination force)
      (fun _ => Outside id fun w => G w ∧ (force = true → Tried id destination w)) fun _ => Outside id G := by
  have tolerant : Tolerant id (Outside id G) := Outside.tolerant lasting
  have tried : Lasting fun w : Probing Text => G w ∧ (force = true → Tried id destination w) :=
    lasting.and lasting_forced
  have viewed : Achieves settings id (Outside id fun w => G w ∧ (force = true → Tried id destination w))
      (doing (.edgeView destination))
      (fun _ => Outside id fun w => G w ∧ (force = true → Tried id destination w)) fun _ => Outside id G :=
    Triple.weaken (achieves_quiet (Outside.tolerant tried) (.op trivial)) (fun _ given => given)
      (fun _ _ given => given) fun _ => Live.imp (Outside.imp fun _ both => both.1)
  unfold probeEdge
  split_ifs
  · exact Triple.raise tolerant.stable fun _ given => given
  · split
    · exact Triple.raise tolerant.stable fun _ given => given
    · apply Triple.attempt (F := fun _ => Live id (Outside id G)) (B := fun _ => Live id (Outside id G))
      · exact achieves_quiet tolerant (.bind (.op trivial) fun _ => .op trivial)
      · intro _
        cases force with
        | true =>
            apply Triple.bind (withProbeLock_achieves lasting tried (measureDue_achieves lasting destination true))
            exact fun _ => viewed
        | false =>
            apply Triple.bind (achieves_quiet tolerant (bandwidthProbeDue_performs destination false))
            intro due
            apply Triple.ite
            · intro _
              apply Triple.bind (withProbeLock_achieves lasting tried (measureDue_achieves lasting destination false))
              exact fun _ => viewed
            · intro _
              apply viewed.pre
              exact Live.imp (Outside.imp fun _ fact => ⟨fact, fun forced => by cases forced⟩)
      · intro e
        apply Triple.bind (quiet_outside (o := .record destination (.edgeFailure (settings.text e)))
          (F := fun _ => Tried id destination) lasting (fun _ => lasting_tried) trivial
          fun _ _ _ _ step => failed_of_record step)
        intro _
        exact viewed.pre (Live.imp (Outside.imp fun _ both => ⟨both.1, fun _ => both.2⟩))

theorem refreshEdge_achieves (lasting : Lasting G) (destination : NodeId) (force : Bool) :
    Achieves settings id (Outside id G) (refreshEdge settings force destination)
      (fun _ => Outside id fun w => G w ∧ (force = true → Tried id destination w)) fun _ => Outside id G := by
  apply Triple.bind (probeEdge_achieves lasting destination force)
  intro _
  exact achieves_pure (Outside.tolerant (lasting.and lasting_forced)) fun _ given => given

/-- A loop over destinations does for each what its body does for one. -/
theorem forEach_achieves {f : NodeId → ProbeWork Unit} {H : NodeId → Probing Text → Prop}
    (lastingH : ∀ d, Lasting (H d))
    (each : ∀ {G : Probing Text → Prop}, Lasting G → ∀ d, Achieves settings id (Outside id G) (f d)
      (fun _ => Outside id fun w => G w ∧ H d w) fun _ => Outside id G)
    (lasting : Lasting G) (destinations : List NodeId) :
    Achieves settings id (Outside id G) (forEach f destinations)
      (fun _ => Outside id fun w => G w ∧ ∀ d ∈ destinations, H d w) fun _ => Outside id G := by
  have all (destinations : List NodeId) : Lasting fun w => ∀ d ∈ destinations, H d w :=
    fun w v attempts holds d member => lastingH d w v attempts (holds d member)
  induction destinations generalizing G with
  | nil => exact achieves_pure (Outside.tolerant (lasting.and (all []))) (Outside.imp fun _ fact => ⟨fact, by simp⟩)
  | cons destination rest ih =>
      apply Triple.bind (each lasting destination)
      intro _
      apply Triple.weaken (ih (lasting.and (lastingH destination)))
      · exact fun _ given => given
      · intro _
        apply Live.imp
        apply Outside.imp
        rintro w ⟨⟨fact, here⟩, later⟩
        exact ⟨fact, List.forall_mem_cons.mpr ⟨here, later⟩⟩
      · exact fun _ => Live.imp (Outside.imp fun _ both => both.1)

theorem lasting_fresh : Lasting fun w : Probing Text => (id, destination, .fresh) ∈ w.attempts :=
  fun _ _ attempts found => attempts found

theorem fresh_of_view {c : ProbeChoice} {view : EdgeTelemetryView}
    (step : performProbe settings id (.edgeView destination) c w = some (.ok view, v))
    (fresh : Probing.isFresh view = true) : (id, destination, .fresh) ∈ v.attempts := by
  cases c with
  | reads sampledAtUtc now written =>
      simp only [performProbe] at step
      split at step
      · cases step
      · cases step
        rw [if_pos fresh]
        exact List.mem_cons_self
  | _ => cases step

theorem staleEdges_achieves (lasting : Lasting G) (destinations : List NodeId) :
    Achieves settings id (Outside id G) (staleEdges destinations)
      (fun stale => Outside id fun w => G w ∧ ∀ d ∈ destinations, d ∉ stale → (id, d, .fresh) ∈ w.attempts)
      fun _ => Outside id G := by
  have all (destinations stale : List NodeId) :
      Lasting fun w : Probing Text => ∀ d ∈ destinations, d ∉ stale → (id, d, .fresh) ∈ w.attempts :=
    fun _ _ attempts holds d member absent => attempts (holds d member absent)
  induction destinations generalizing G with
  | nil =>
      exact achieves_pure (Outside.tolerant (lasting.and (all [] []))) (Outside.imp fun _ fact => ⟨fact, by simp⟩)
  | cons destination rest ih =>
      have seen (view : EdgeTelemetryView) : Lasting fun w : Probing Text =>
          Probing.isFresh view = true → (id, destination, .fresh) ∈ w.attempts :=
        fun _ _ attempts found fresh => attempts (found fresh)
      apply Triple.bind (quiet_outside (o := .edgeView destination) lasting seen trivial
        fun _ _ _ _ step => fresh_of_view step)
      intro (view : EdgeTelemetryView)
      apply Triple.bind (Triple.weaken (ih (lasting.and (seen view))) (fun _ given => given)
        (fun _ _ given => given) fun _ => Live.imp (Outside.imp fun _ both => both.1))
      intro stale
      refine achieves_pure (E := fun _ => Outside id G) (Outside.tolerant (lasting.and (all _ _))) ?_
      apply Outside.imp
      rintro w ⟨⟨fact, here⟩, later⟩
      refine ⟨fact, List.forall_mem_cons.mpr ⟨?_, ?_⟩⟩
      · intro absent
        cases fresh : Probing.isFresh view with
        | true => exact here fresh
        | false => simp [fresh] at absent
      · intro d member absent
        apply later d member
        intro listed
        apply absent
        split_ifs
        · exact listed
        · exact List.mem_cons_of_mem _ listed

theorem viewEdges_achieves (lasting : Lasting G) (destinations : List NodeId) :
    Achieves settings id (Outside id G) (forEach viewEdge destinations) (fun _ => Outside id G)
      fun _ => Outside id G := by
  apply achieves_quiet (Outside.tolerant lasting)
  induction destinations with
  | nil => exact Coro.Performs.pure _
  | cons destination rest ih =>
      apply Coro.Performs.bind
      · exact Coro.Performs.bind (.op trivial) fun _ => Coro.Performs.pure _
      · exact fun _ => ih

theorem refreshEdges_achieves (lasting : Lasting G) (force : Bool) (destinations : List NodeId) :
    Achieves settings id (Outside id G) (forEach (refreshEdge settings force) destinations)
      (fun _ => Outside id fun w => G w ∧ ∀ d ∈ destinations, force = true → Tried id d w)
      fun _ => Outside id G :=
  forEach_achieves (fun _ => lasting_forced) (fun lasting d => refreshEdge_achieves lasting d force) lasting
    destinations

/-- A call that returns has served its edges, and does not keep the lock. -/
theorem work_achieves (call : ProbeCall) :
    Achieves settings id (Outside id fun _ => True) (call.work settings)
      (fun _ => Outside id fun w => Served settings id w call) fun _ => Outside id fun _ => True := by
  have top : Lasting fun _ : Probing Text => True := Lasting.const True
  have served (call : ProbeCall) : Lasting fun w => Served settings id w call :=
    fun _ _ attempts served => served.later attempts
  cases call with
  | probeEdge destination forceBandwidth =>
      exact Triple.weaken (refreshEdge_achieves top destination forceBandwidth) (fun _ given => given)
        (fun _ => Live.imp (Outside.imp fun _ both => both.2)) fun _ _ given => given
  | ensureEdgesFresh destinations =>
      apply Triple.bind (staleEdges_achieves top destinations.eraseDups)
      intro stale
      have fresh : Lasting fun w : Probing Text => True ∧
          ∀ d ∈ destinations.eraseDups, d ∉ stale → (id, d, .fresh) ∈ w.attempts :=
        top.and fun _ _ attempts holds d member absent => attempts (holds d member absent)
      apply Triple.bind (Triple.weaken (refreshEdges_achieves fresh true stale) (fun _ given => given)
        (fun _ _ given => given) fun _ => Live.imp (Outside.imp fun _ _ => trivial))
      intro _
      apply Triple.weaken (viewEdges_achieves (served (.ensureEdgesFresh destinations)) destinations.eraseDups)
      · apply Live.imp
        apply Outside.imp
        rintro w ⟨⟨-, fresh⟩, tried⟩ d member
        by_cases old : d ∈ stale
        · exact .inr (tried d old rfl)
        · exact .inl (fresh d (List.mem_eraseDups.mpr member) old)
      · exact fun _ _ given => given
      · exact fun _ => Live.imp (Outside.imp fun _ _ => trivial)
  | refreshAllEdges =>
      apply Triple.bind (refreshEdges_achieves top true settings.peerIds)
      intro _
      apply Triple.weaken (viewEdges_achieves (served .refreshAllEdges) settings.peerIds)
      · exact Live.imp (Outside.imp fun _ both d member => both.2 d member rfl)
      · exact fun _ _ given => given
      · exact fun _ => Live.imp (Outside.imp fun _ _ => trivial)
  | probeRound forceEdgeProbe =>
      have tolerant : Tolerant id (Outside id fun _ : Probing Text => True) := Outside.tolerant top
      have clock : (doing .monotonic).Performs ProbeOp.IsQuiet := .op trivial
      have noted : (doing .lastEdgeProbe).Performs ProbeOp.IsQuiet := .op trivial
      apply Triple.bind (achieves_quiet tolerant clock)
      intro (now : Rat)
      apply Triple.bind (achieves_quiet tolerant noted)
      intro (last : Rat)
      apply Triple.ite
      · intro _
        apply Triple.bind (refreshEdges_achieves top false settings.peerIds)
        intro _
        have note : (doing (.noteEdgeProbe now)).Performs ProbeOp.IsQuiet := .op trivial
        exact (achieves_quiet tolerant note).pre (Live.imp (Outside.imp fun _ _ => trivial))
      · exact fun _ => achieves_pure tolerant fun _ given => given

/-! ## The daemon -/

theorem Spaced.split {interval : Rat} {later earlier : List Measurement} {id : ProbeId} {at_ : Rat}
    (spaced : Spaced interval (later ++ .began id destination false at_ :: earlier)) :
    ∀ t, .noted destination t ∈ earlier → t + interval ≤ at_ := by
  induction later with
  | nil => exact spaced.1 rfl
  | cons measurement later ih =>
      cases measurement with
      | began => exact ih spaced.2
      | noted => exact ih spaced

/-- The end of a call, in its history. -/
theorem ended_achieves (call : ProbeCall) (returned : Bool) :
    Achieves settings id (Outside id fun w => returned = true → Served settings id w call)
      (doing (.ended call returned)) (fun _ _ => True) fun _ _ => True := by
  have does : Does settings id (Outside id fun w => returned = true → Served settings id w call)
      (.ended call returned) (fun _ _ => True) fun _ _ => True := by
    apply does_of
    intro w c r v outside sound step
    cases c with
    | runs =>
        cases step
        refine ⟨⟨sound.exclusive, sound.holding, sound.last, sound.known, sound.spaced, ?_, ?_⟩, ?_, trivial⟩
        · exact List.forall_mem_cons.mpr ⟨⟨outside.started, outside.unlocked⟩, sound.released⟩
        · exact List.forall_mem_cons.mpr ⟨outside.fact, sound.served⟩
        · refine ⟨rfl, rfl, fun _ member => member, ?_, fun _ _ => Iff.rfl, fun _ _ _ => ⟨rfl, rfl, rfl⟩,
            fun _ known => known, fun _ member => member⟩
          intro e member
          rcases List.mem_cons.mp member with rfl | before
          · exact .inr rfl
          · exact .inl before
    | _ => cases step
  exact does.achieves (Outside.tolerant fun _ _ attempts served returned => (served returned).later attempts)
    (fun _ _ _ _ _ => trivial) fun _ _ _ _ _ => trivial

theorem body_achieves (call : ProbeCall) :
    Achieves settings id (Outside id fun _ => True)
      ((call.work settings).andThen fun outcome => doing (.ended call outcome.toBool)) (fun _ _ => True)
      fun _ _ => True := by
  apply Triple.andThen (work_achieves call)
  intro outcome
  cases outcome with
  | ok a => exact (ended_achieves call true).pre (Live.imp (Outside.imp fun _ served _ => served))
  | error e =>
      exact (ended_achieves call false).pre (Live.imp (Outside.imp fun _ _ returned => by cases returned))

theorem ProbesSound.apply {e : ProbeEvent} (sound : ProbesSound settings w)
    (happened : e.apply settings w = some v) : ProbesSound settings v ∧ ∀ id, Relying id w v := by
  cases e with
  | tick monotonic =>
      simp only [ProbeEvent.apply] at happened
      split_ifs at happened with later
      cases happened
      refine ⟨⟨sound.exclusive, sound.holding, ?_, sound.known, sound.spaced, sound.released, sound.served⟩, ?_⟩
      · intro d t noted
        obtain ⟨past, last⟩ := sound.last d t noted
        exact ⟨past.trans later, last⟩
      · intro id
        exact ⟨le_rfl, fun _ => ⟨later, fun _ member => member, fun _ ended _ => ended, Iff.rfl,
          fun _ => ⟨rfl, rfl, rfl⟩, fun _ known => known, fun _ member => member⟩⟩
  | observe call =>
      have quiet : Quiet w v := by
        simp only [ProbeEvent.apply] at happened
        split at happened
        · cases happened
          exact .refl w
        · rename_i store performed
          cases happened
          exact ⟨rfl, rfl, rfl, rfl, rfl, rfl, rfl, rfl, fun _ known => known.perform performed,
            fun _ member => member⟩
      exact ⟨quiet.sound sound, fun id => ⟨quiet.session.ge, fun _ => quiet.undisturbed id⟩⟩
  | restart monotonic now =>
      cases happened
      refine ⟨⟨.inl rfl, by simp, by simp, by simp, trivial, ?_, sound.served⟩, ?_⟩
      · exact fun e ended => ⟨(sound.released e ended).1, by simp⟩
      · exact fun id => ⟨Nat.le_succ _, fun same => absurd same (Nat.succ_ne_self _)⟩

theorem probing_verified : (probing settings).Verified callsRun (ProbesSound settings) Relying Giving
    fun _ _ => True where
  trans := fun _ _ => trivial
  interference := fun different gives => gives.relying different
  within := fun _ => trivial
  call := by
    intro id call w v sound _ accepted
    simp only [probing] at accepted
    split_ifs at accepted with allowed
    cases accepted
    have outside : Outside id (fun _ => True) { w with started := id :: w.started } := by
      refine ⟨List.mem_cons_self, ?_, fun held => allowed.2 (sound.holding id held), trivial⟩
      exact fun e ended same => allowed.2 (same ▸ (sound.released e ended).1)
    have live : Live id (Outside id fun _ => True) { w with started := id :: w.started } :=
      ⟨allowed.1.le, fun _ => outside⟩
    refine ⟨⟨sound.exclusive, fun other held => List.mem_cons_of_mem _ (sound.holding other held), sound.last,
      sound.known, sound.spaced, ?_, sound.served⟩, ?_, ?_⟩
    · exact fun e ended => ⟨List.mem_cons_of_mem _ (sound.released e ended).1, (sound.released e ended).2⟩
    · exact ⟨rfl, rfl, fun _ member => List.mem_cons_of_mem _ member, fun _ ended => .inl ended, fun _ _ => Iff.rfl,
        fun _ _ _ => ⟨rfl, rfl, rfl⟩, fun _ known => known, fun _ member => member⟩
    · exact (body_achieves call live).mono fun _ _ _ => trivial
  crash := fun _ dropped => dropped.elim
  event := fun sound _ happened => ⟨(sound.apply happened).1, (sound.apply happened).2, trivial⟩

def pairSettings : ProbeSettings TelemetryDocument where
  codec := sampleCodec
  emaAlpha := 1 / 2
  cluster := .plain [.plain "a", .plain "b"]
  localNode := "a"
  edgeStaleAfterSeconds := 60
  edgeProbeIntervalSeconds := 30
  edgeBandwidthProbeIntervalSeconds := 300
  describe := fun _ => ""

/-- The second call waits for the lock while the first one measures. -/
def pairScript : List (Label ProbeChoice ProbeId ProbeCall ProbeEvent) :=
  let first (c : ProbeChoice) := Label.perform ⟨0, 0⟩ c
  let second (c : ProbeChoice) := Label.perform ⟨0, 1⟩ c
  let reads := ProbeChoice.reads 1 2 true
  let measures := ProbeChoice.measures ⟨1000000, 2, 5000000, 6⟩
  [.call ⟨0, 0⟩ (.probeEdge "b" false) (.answers 10), first reads, first reads, first .runs, first reads,
    first .runs, .call ⟨0, 1⟩ (.probeEdge "b" true) (.answers 12), second reads, .event (.tick 8),
    first measures, first reads, first .runs, first .runs, first .runs, second .runs, first reads,
    first .runs, second .runs, second measures, second reads, second .runs, second .runs, second .runs,
    second reads, second .runs]

def pairStart : Config ProbeOp ProbeOp.Ret ProbeError (Probing TelemetryDocument) ProbeId where
  world := { store := ⟨{ updatedAtUtc := 0 }, none⟩, monotonic := 0 }

end Magellan.Telemetry
