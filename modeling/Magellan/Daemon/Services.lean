import Magellan.Daemon.Threads

/-!
# The services of a daemon

The runtime, the pause and recovery services, settlement and the ownership endpoints as coroutines
of single steps, and the migration service carried out by them.
-/

namespace Magellan

open Coroutine Coro
open Registry (OwnershipUpdate)

/-- An operation of the registry: one read, then the rest. -/
def transact (o : Registry.Operation) : Routine Registry.Value := do
  let read ← step .getState
  step (.finish o read)

/-- An operation of the registry whose result is not used. -/
def update (o : Registry.Operation) : Routine Unit := do
  let _ ← transact o

namespace LocalProcess

/-- `state.pid is not None and pid_is_alive(state.pid)`. -/
def isAlive : Option Pid → Routine Bool
  | none => pure false
  | some pid => step (.op (.pidIsAlive pid))

/-- `os.killpg`; `false` where it raises `ProcessLookupError`. -/
def killpg (s : Signal) : Option Pid → Routine Bool
  | none => pure false
  | some pid => step (.signal s pid)

def noSuchProcess : Exn := ⟨.processLookupError, "[Errno 3] No such process"⟩

def pause (n : NodeId) (pausedAtUtc resumeAtUtc resumeWallAtUtc : Timestamp) (reason : String) :
    Routine Unit := do
  let state ← step .getState
  if state.ownerNodeId ≠ n then
    raise (runtimeError s!"Cannot pause {state.taskId}; owner is {state.ownerNodeId}")
  else if state.status = .paused then pure ()
  else do
    let alive ← (if state.status = .running then isAlive state.pid else pure false)
    if ¬ alive then raise (runtimeError s!"Cannot pause {state.taskId}; no live running process")
    else do
      let found ← killpg .stop state.pid
      let now ← step .clock
      if found then update (.markPaused pausedAtUtc resumeAtUtc resumeWallAtUtc reason now)
      else do
        update (.markFailed "Process disappeared while pausing" none now)
        raise (runtimeError s!"Process disappeared while pausing {state.taskId}")

def resume (n : NodeId) : Routine Unit := do
  let state ← step .getState
  if state.ownerNodeId ≠ n then
    raise (runtimeError s!"Cannot resume {state.taskId}; owner is {state.ownerNodeId}")
  else if state.status = .running then pure ()
  else if state.status ≠ .paused ∨ state.pid = none then
    raise (runtimeError s!"Cannot resume {state.taskId}; status is {state.status.value}")
  else do
    let alive ← isAlive state.pid
    let now ← step .clock
    if ¬ alive then do
      update (.markFailed "Paused process is no longer running" none now)
      raise (runtimeError s!"Paused process for {state.taskId} is no longer running")
    else do
      let found ← killpg .cont state.pid
      if found then update (.markResumed now) else raise noSuchProcess

/-- `CompletionManager.finalize`. -/
def finalize (exitCode : Option Int) : Routine Unit := do
  let marker ← step .loadMarker
  let _ ← step .getState
  step .writeOutputManifest
  update (.markCompleted marker.completedAtUtc marker.manifestRelativePath marker.manifestSha256
    marker.outputBytes exitCode)

/-- `poll` and `pid_is_alive` for the process of the record. -/
def observe (pid : Option Pid) : Routine (Option Int × Bool) := do
  let exitCode ← step .pollProcess
  let alive ← (if exitCode = none then isAlive pid else pure false)
  pure (exitCode, alive)

/-- What a pass does with a task whose process is gone. -/
def settleExit (exitCode : Option Int) : Routine Unit := do
  step (.synthesizeCompletion exitCode)
  let found ← step .completionMarkerExists
  if found then
    (finalize exitCode).tryExcept fun e => do
      let now ← step .clock
      update (.markFailed s!"Completion validation failed: {e.message}" exitCode now)
  else do
    let now ← step .clock
    update (.markFailed
      "Persisted process is no longer running and no valid completion marker was written"
      exitCode now)

def reconcile (n : NodeId) : Routine Unit := do
  let state ← step .getState
  if state.ownerNodeId ≠ n ∨ (state.status ≠ .running ∧ state.status ≠ .paused) then pure ()
  else do
    let seen ← observe state.pid
    if seen.2 then pure () else settleExit seen.1

end LocalProcess

/-! ## Settlement -/

def settleTask (n : NodeId) : Routine Unit := do
  let state ← step .getState
  if state.ownerNodeId ≠ n then pure ()
  else do
    let input ← step .settleInput
    let alive ← LocalProcess.isAlive state.pid
    update (.recordAccounting (Accounting.settleArgs (fun _ => alive) input state))

/-! ## The migration service by steps -/

/-- A registry operation of the migration service, or a record that it writes whole. -/
def RegistryOp.update (n : NodeId) (now : Timestamp) :
    RegistryOp → Registry.Operation ⊕ TaskRuntimeState
  | .markRunning pid adapter command resumed =>
      .inl (.markRunning pid adapter command resumed now)
  | .markStopped => .inl .markStopped
  | .markMigrating m => .inl (.markMigrating m)
  | .markFailed error exitCode => .inl (.markFailed error exitCode now)
  | .markRecoveryExhausted error => .inl (.markRecoveryExhausted error)
  | .claimLocal generation m digests at_ accounting =>
      .inl (.claimLocal generation m digests at_ accounting)
  | .markRemote owner generation m at_ => .inl (.markRemote owner generation m at_)
  | .restoreLocalAfterFailure generation error =>
      .inl (.restoreLocalAfterFailure generation error)
  | .restoreOriginal record reason =>
      match record.originalState with
      | some original => .inr (restoredState n record.generation reason original)
      | none => .inl (.restoreLocalAfterFailure (record.generation - 1) reason)
  | .setState state => .inr state

/-- The record that an operation returns. -/
def Registry.Value.stateD (read : TaskRuntimeState) : Registry.Value → TaskRuntimeState
  | .state s => s
  | .flag _ => read

def registryOp (n : NodeId) (op : RegistryOp) : Routine TaskRuntimeState := do
  let now ← step .clock
  match op.update n now with
  | .inl o => do
      let read ← step .getState
      let value ← step (.finish o read)
      pure (value.stateD read)
  | .inr s => do
      step (.setState s)
      pure s

/-- An operation of the migration service by single steps. -/
def stepwise (n : NodeId) : (o : Op) → Routine o.Ret
  | .getState => step .getState
  | .registry op => registryOp n op
  | .ensureTaskArtifacts => do
      let bindings ← step .materializeArtifacts
      update (.setArtifactDigests (bindingDigests bindings))
      pure bindings
  | .stageBindings bindings => do
      step .stageArtifacts
      update (.setArtifactDigests (bindingDigests bindings))
  | .settleTask => settleTask n
  | .recordMigration => do
      let args ← step .migrationCharge
      update (.recordAccounting args)
  | o => step (.op o)

/-! ## Recovery -/

/-- Times in microseconds. -/
structure RecoveryPolicy where
  enabled : Bool := true
  maxRestartAttempts : Nat := 3
  initialBackoff : Nat := 5000000
  maxBackoff : Nat := 60000000

def RecoveryPolicy.backoff (policy : RecoveryPolicy) (attempts : Nat) : Nat :=
  min policy.maxBackoff (policy.initialBackoff * 2 ^ attempts)

namespace FailureRecoveryService

/-- Start the task again; a failure has been recorded by the runtime. -/
def restart (n : NodeId) : Routine Unit := do
  update .beginRecovery
  ((LocalProcess.start n).implement (stepwise n)).attempt (fun _ => pure ()) fun _ => pure ()

def exhaustedError (state : TaskRuntimeState) : String :=
  let lastError := state.lastError.getD "None"
  s!"Automatic recovery exhausted after {state.recoveryAttempts} attempts: {lastError}"

def recoverOne (policy : RecoveryPolicy) (n : NodeId) (now : Timestamp) : Routine Unit := do
  let state ← step .getState
  if state.ownerNodeId ≠ n ∨ state.status ≠ .failed ∨ state.recoveryExhausted then pure ()
  else if ¬ policy.enabled then
    update (.markRecoveryExhausted "Automatic recovery is disabled")
  else if state.recoveryAttempts ≥ policy.maxRestartAttempts then
    update (.markRecoveryExhausted (exhaustedError state))
  else match state.nextRecoveryAtUtc with
    | none => update (.scheduleRecovery (now + policy.backoff state.recoveryAttempts))
    | some recoverAt =>
        if now < recoverAt then pure ()
        else
          (step (.op (.external .validateCheckpoint))).attempt (fun _ => restart n) fun e =>
            if e.cls = .checkpointValidationError then
              update (.markRecoveryExhausted s!"No valid checkpoint for recovery: {e.message}")
            else raise e

end FailureRecoveryService

/-! ## Pausing -/

namespace PauseService

def resume (services : MigrationService.Services) (n : NodeId) : Routine Unit := do
  (if services.accountingService then settleTask n else pure ())
  LocalProcess.resume n

def isDue (wallNow at_ : Timestamp) (s : TaskRuntimeState) : Bool :=
  match s.resumeWallAtUtc, s.resumeAtUtc with
  | some deadline, _ => deadline ≤ wallNow
  | none, some resumeAt => resumeAt ≤ at_
  | none, none => false

/-- One task of `run_once`. -/
def resumeDue (services : MigrationService.Services) (n : NodeId) (at_ : Timestamp) :
    Routine Unit := do
  let listed ← step .getState
  if listed.ownerNodeId ≠ n ∨ listed.status ≠ .paused then pure ()
  else do
    let state ← step .getState
    let wallNow ← step .clock
    if ¬ isDue wallNow at_ state then pure ()
    else (resume services n).tryExcept fun e => do
      let now ← step .clock
      update (.markFailed s!"Pause resume failed: {e.describe}" none now)

end PauseService

/-! ## Ownership updates -/

def mergePolicy (u : OwnershipUpdate) : Routine Unit :=
  match u.adaptivePolicy with
  | none => pure ()
  | some policy => step (.op (.mergePolicy policy))

def installDigests (u : OwnershipUpdate) : Routine Unit :=
  if u.artifactDigests = [] then pure () else update (.setArtifactDigests u.artifactDigests)

/-- One update of a snapshot in a round of the reconciliation service. -/
def mergeUpdateRoutine (u : OwnershipUpdate) : Routine Unit := do
  let applied ← transact (.applyOwnership u)
  if applied = .flag true then do
    installDigests u
    mergePolicy u
  else pure ()

/-- The endpoint installs the digests also of an update that was not applied. -/
def postOwnershipRoutine (u : OwnershipUpdate) : Routine Unit := do
  let applied ← transact (.applyOwnership u)
  installDigests u
  if applied = .flag true then mergePolicy u else pure ()

/-! ## The system -/

def routine (services : MigrationService.Services) (policy : RecoveryPolicy) (n : NodeId) :
    ServiceCall → Routine Unit
  | .migration call => (body services n call).implement (stepwise n)
  | .recover now => FailureRecoveryService.recoverOne policy n now
  | .resumeDue at_ => PauseService.resumeDue services n at_
  | .pause pausedAt resumeAt resumeWallAt reason =>
      LocalProcess.pause n pausedAt resumeAt resumeWallAt reason
  | .resume => PauseService.resume services n
  | .reconcile => LocalProcess.reconcile n
  | .settle => settleTask n
  | .mergeUpdate u => mergeUpdateRoutine u
  | .postOwnership u => postOwnershipRoutine u

/-- The world in which thread `t` takes up a call. -/
def takeUp (t : ServiceThread) (call : ServiceCall) (w : World) : Option World :=
  match t.lane, call with
  | .migration, .migration call => accept t.node call w
  | .recovery, .recover _ => some w
  | .service _, .mergeUpdate u | .service _, .postOwnership u =>
      if u ∈ w.updates then some w else none
  | .service _, .resumeDue _ | .service _, .pause .. | .service _, .resume
  | .service _, .reconcile | .service _, .settle => some w
  | _, _ => none

/-- The events of the cluster that no thread of a daemon takes part in. -/
def Event.isOutside : Event → Bool
  | .mergeUpdate .. | .postOwnership .. | .settle .. | .reconcileRuntime .. => false
  | _ => true

/-- The node at which a workload leaves a completion marker, as the owner of the task. -/
def Event.finishes (w : World) : Event → Option NodeId
  | .exit n _ (some _) => if (w.nodes n).registry.ownerNodeId = n then some n else none
  | _ => none

abbrev Daemons := System Step Step.Ret Exn Fate Shared ServiceThread ServiceCall Event
abbrev DaemonsConfig := Config Step Step.Ret Exn Shared ServiceThread
abbrev DaemonsLabel := Label Fate ServiceThread ServiceCall Event
abbrev DaemonsConditions := Conditions Step Fate Shared ServiceThread ServiceCall Event

def daemons (services : MigrationService.Services) (policy : RecoveryPolicy) : Daemons where
  exec := Step.exec
  accept t call v :=
    (takeUp t call v.world).map fun w => { v with
      world := w
      call := Function.update v.call t (some call)
      seen := Function.update v.seen t none }
  body t := routine services policy t.node
  /- A daemon restart is the crash of all its threads. -/
  crash t v := { v with world := crash t.node v.world }
  event e v :=
    if e.isOutside then
      (event e v.world).map fun w => { v with
        world := w
        finished := v.finished <|> e.finishes v.world }
    else none

/-- Daemon `a` runs the task, daemon `b` has accepted a bid for it. -/
def sampleDaemons : DaemonsConfig where
  world := { world := { nodes := sampleNode } }

/-- The next steps of a thread go through. -/
def onward (n : NodeId) (lane : Lane) (steps : Nat) : List DaemonsLabel :=
  List.replicate steps (.perform ⟨n, lane⟩ (.of (.ok 0)))

end Magellan
