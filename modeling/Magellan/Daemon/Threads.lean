import Magellan.Cluster
import Magellan.Coroutine.Implement
import Magellan.State.Operations

/-!
# The threads of a daemon

The services of a daemon run beside each other, on the event loop and in worker threads. The lock of
the registry is held for one read or one write, so an operation of the registry is two steps here,
and what the other threads do between them is not seen by it.
-/

namespace Magellan

open Coroutine

/-- The coroutine that holds the migration lock of the task, the recovery loop, and the others. -/
inductive Lane where
  | migration
  | recovery
  | service (index : Nat)
  deriving DecidableEq

structure ServiceThread where
  node : NodeId
  lane : Lane
  deriving DecidableEq

/-- What a thread of a daemon is asked to do. -/
inductive ServiceCall where
  | migration (call : Call)
  | recover (now : Timestamp)
  /-- One task of a round of the pause service; `at_` is the trace time. -/
  | resumeDue (at_ : Timestamp)
  | pause (pausedAtUtc resumeAtUtc resumeWallAtUtc : Timestamp) (reason : String)
  | resume
  /-- One task of a pass of `LocalProcessRuntime.reconcile`. -/
  | reconcile
  | settle
  | mergeUpdate (update : Registry.OwnershipUpdate)
  | postOwnership (update : Registry.OwnershipUpdate)

inductive Signal where
  | stop
  | cont
  deriving DecidableEq

inductive Action where
  | start
  | resume
  deriving DecidableEq

/-- What has happened at a node; no program reads it. -/
structure History where
  /-- The generations at which the node has recorded the task as completed. -/
  completions : List Nat := []
  /-- The migrations that have stopped the task here and whose records are still open. -/
  quiesced : List MigrationId := []
  /-- The holder of the migration lock has started the task again since. -/
  restarting : Bool := false

/-- A migration from here has stopped the task, and its record is still open. -/
def History.Fenced (h : History) : Prop := h.quiesced ≠ []

instance (h : History) : Decidable h.Fenced := inferInstanceAs (Decidable (h.quiesced ≠ []))

/-- What a write of the journal ends. -/
def History.closed (journal : Journal) (h : History) : History :=
  { h with quiesced := h.quiesced.filter fun m => (journal.get m).any (!·.status.isTerminal) }

/-- A start or a resumption of a process, and what it has come upon. -/
structure Activity where
  thread : ServiceThread
  action : Action
  state : NodeState
  history : History
  finished : Option NodeId

/-- What the threads of all daemons share. All but the world is history. -/
structure Shared where
  world : World
  call : ServiceThread → Option ServiceCall := fun _ => none
  /-- The record as the call has last read or written it. -/
  seen : ServiceThread → Option TaskRuntimeState := fun _ => none
  history : NodeId → History := fun _ => {}
  activity : List Activity := []
  /-- The node at which the workload has left its completion marker. -/
  finished : Option NodeId := none

namespace Shared

variable (v : Shared)

def record (n : NodeId) : TaskRuntimeState := (v.world.nodes n).registry

def saw (t : ServiceThread) (s : TaskRuntimeState) : Shared :=
  { v with seen := Function.update v.seen t (some s) }

def note (n : NodeId) (f : History → History) : Shared :=
  { v with history := Function.update v.history n (f (v.history n)) }

def acted (t : ServiceThread) (action : Action) : Shared :=
  { v with activity := ⟨t, action, v.world.nodes t.node, v.history t.node, v.finished⟩ :: v.activity }

/-- ServiceThread `t` writes the record of its node. -/
def put (t : ServiceThread) (s : TaskRuntimeState) : Shared :=
  let w := v.world.modify t.node fun state => { state with registry := s }
  let written : Shared := { v with world := w }
  (written.saw t s).note t.node fun h =>
    if s.status = TaskStatus.completed then { h with completions := s.generation :: h.completions }
    else h

/-- ServiceThread `t` writes the record of its node, if there is something to write. -/
def putAny (t : ServiceThread) : Option TaskRuntimeState → Shared
  | none => v
  | some s => v.put t s

end Shared

/-- What an operation of the registry that has returned adds to the history. -/
def History.after (lane : Lane) (call : Option ServiceCall) (o : Registry.Operation)
    (h : History) : History :=
  match lane, o, call with
  | .migration, .markStopped, some (.migration (.migrate call)) =>
      { h with quiesced := call.migrationId :: h.quiesced, restarting := false }
  | .migration, .markRunning .., _ | .migration, .markFailed .., _ => { h with restarting := true }
  | _, _, _ => h

/-- An operation that reads or writes the record is made of steps. -/
def Op.isRecordOp : Op → Bool
  | getState | registry _ | ensureTaskArtifacts | stageBindings _ | settleTask | recordMigration =>
      true
  | _ => false

/-- One step of a thread. -/
inductive Step where
  | op (o : Op)
  | clock
  | getState
  /-- What an operation of the registry does that has read the record. -/
  | finish (o : Registry.Operation) (read : TaskRuntimeState)
  | setState (state : TaskRuntimeState)
  | materializeArtifacts
  | stageArtifacts
  /-- The clock, prices, carbon intensities and progress file of a settlement. -/
  | settleInput
  | migrationCharge
  | signal (signal : Signal) (pid : Pid)
  /-- `poll` of the process handle, which may be that of an earlier process. -/
  | pollProcess
  | synthesizeCompletion (exitCode : Option Int)
  | completionMarkerExists
  | loadMarker
  | writeOutputManifest

namespace Step

@[reducible] def Ret : Step → Type
  | op o => o.Ret
  | clock => Timestamp
  | getState => TaskRuntimeState
  | finish .. => Registry.Value
  | materializeArtifacts => List ArtifactBinding
  | settleInput => Accounting.SettleInput
  | migrationCharge => Registry.AccountingArgs
  | signal .. | completionMarkerExists => Bool
  | pollProcess => Option Int
  | loadMarker => CompletionMarker
  | setState _ | stageArtifacts | synthesizeCompletion _ | writeOutputManifest => Unit

def mayRaise : Step → Exn → Bool
  | op o, e => !o.isRecordOp && o.mayRaise e
  | clock, _ | completionMarkerExists, _ | pollProcess, _ => false
  | _, e => e.cls ≠ .activationOutcomeUnknownError

end Step

/-- How the environment resolves a step. -/
inductive Fate where
  | of (c : Choice)
  /-- The Dendro completion rule writes this marker. -/
  | synthesized (marker : CompletionMarker)

def missingMarker : Exn := runtimeError "Completion marker does not exist"

/-- What an operation that leaves the record alone adds to the history. -/
def Shared.did (v : Shared) (t : ServiceThread) (w : World) : Op → Shared
  | .spawn =>
      let spawned : Shared := { v.acted t .start with world := w }
      spawned.note t.node fun h =>
        if t.lane = Lane.migration then { h with restarting := true } else h
  | .journalPut _ | .setRecordStatus .. =>
      let recorded : Shared := { v with world := w }
      recorded.note t.node (History.closed (w.nodes t.node).journal)
  | _ => { v with world := w }

/-- What a step of `t` does when it does not raise at once. -/
def Step.effect (t : ServiceThread) (v : Shared) :
    (s : Step) → Fate → Option (Except Exn s.Ret × Shared)
  | .op o, .of c =>
      if o.isRecordOp then none
      else
        match Magellan.effect t.node v.world o c with
        | none => none
        | some (.ok a, w) => some (.ok a, v.did t w o)
        | some (.error e, w) => some (.error e, { v with world := w })
  | .clock, .of (.ok now) => some (.ok now, v)
  | .getState, .of (.ok _) => some (.ok (v.record t.node), v.saw t (v.record t.node))
  | .finish o read, .of (.ok _) =>
      let e := o.perform t.node read
      match e.outcome with
      | .error error => some (.error error, v)
      | .ok value =>
          some (.ok value, (v.putAny t e.written).note t.node (History.after t.lane (v.call t) o))
  | .setState s, .of (.ok _) => some (.ok (), v.put t s)
  | .materializeArtifacts, .of (.bindings b) => some (.ok b, v)
  | .stageArtifacts, .of (.ok _) => some (.ok (), v)
  | .settleInput, .of (.settled i) => some (.ok i, v)
  | .migrationCharge, .of (.charged seconds cost carbon now) =>
      some (.ok {
        migrationSeconds := seconds
        transferCostUsd := cost
        transferCarbonGrams := carbon
        lastAccountedAtUtc := some now }, v)
  | .signal s pid, .of (.ok _) =>
      if (v.world.nodes t.node).isAlive pid then
        some (.ok true, if s = .cont then v.acted t .resume else v)
      else some (.ok false, v)
  | .pollProcess, .of (.exitCode code) => some (.ok code, v)
  | .synthesizeCompletion _, .of (.ok _) => some (.ok (), v)
  | .synthesizeCompletion exitCode, .synthesized marker =>
      if exitCode = some 0 ∧ (v.world.nodes t.node).completionMarker = none then
        some (.ok (), { v with world := v.world.modify t.node fun s =>
          { s with completionMarker := some marker } })
      else none
  | .completionMarkerExists, .of (.ok _) =>
      some (.ok (v.world.nodes t.node).completionMarker.isSome, v)
  | .loadMarker, .of (.ok _) =>
      match (v.world.nodes t.node).completionMarker with
      | none => some (.error missingMarker, v)
      | some marker => some (.ok marker, v)
  | .writeOutputManifest, .of (.ok _) => some (.ok (), v)
  | _, _ => none

/-- One step of thread `t`. -/
def Step.exec (t : ServiceThread) : Semantics Step Step.Ret Exn Fate Shared := fun s f v =>
  match f with
  | .of (.fail e) => if s.mayRaise e then some (.error e, v) else none
  | f => s.effect t v f

theorem Step.exec_cases {t : ServiceThread} {s : Step} {f : Fate} {v v' : Shared} {r : Except Exn s.Ret}
    (h : s.exec t f v = some (r, v')) :
    (∃ e, f = .of (.fail e) ∧ s.mayRaise e = true ∧ r = .error e ∧ v' = v) ∨
      s.effect t v f = some (r, v') := by
  cases f with
  | synthesized marker => exact .inr h
  | of c =>
      cases c with
      | fail e =>
          simp only [exec] at h
          split at h
          · rename_i may
            cases h
            exact .inl ⟨e, rfl, may, rfl, rfl⟩
          · cases h
      | _ => exact .inr h

abbrev Routine (α : Type) := Coro Step Step.Ret Exn α

/-- One step as a coroutine. -/
abbrev step (s : Step) : Routine s.Ret := Coro.op s

end Magellan
