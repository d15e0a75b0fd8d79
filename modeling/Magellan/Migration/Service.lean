import Magellan.Runtime.LocalProcess
import Magellan.Migration.Client

/-!
# The migration service

`migrate` at the source, `activate_incoming` at the destination and the durable reconciliation of
one record, as coroutines that hold the lock of the task. A flag that a handler reads is an argument
of the handler here: the `try` statement is split where the flag is set.
-/

namespace Magellan.MigrationService

open Coroutine Coro
open Registry (OwnershipUpdate)

/-- Which onlyIf services the daemon is built with. -/
structure Services where
  accountingService : Bool := true
  telemetryStore : Bool := true
  adaptivePolicyStore : Bool := true
  experimentJournal : Bool := true

/-- `adaptive_policy_store.get`, where there is a store. -/
def getPolicy (services : Services) : Async (Option AdaptiveTaskPolicyState) :=
  if services.adaptivePolicyStore then await .getPolicy else pure none

/-! ## Outcome of an activation -/

/-- The polls left before the deadline, the last record and whether the destination was reached. -/
def pollOutcome (destinationNodeId : NodeId) (m : MigrationId) :
    Nat → Option MigrationRecord → Bool → Async (Option MigrationRecord × Bool)
  | 0, lastRecord, destinationReached => pure (lastRecord, destinationReached)
  | polls + 1, _, destinationReached =>
      (MigrationClient.status destinationNodeId m).attempt
        (fun record =>
          if record.any (·.status.isTerminal) then pure (record, true)
          else pollOutcome destinationNodeId m polls record true)
        fun e =>
          if e.cls = .activationOutcomeUnknownError then
            pollOutcome destinationNodeId m polls none destinationReached
          else raise e

def queryRemoteOutcome (destinationNodeId : NodeId) (m : MigrationId) :
    Async (Option MigrationRecord × Bool) := do
  let polls ← await .pollBudget
  pollOutcome destinationNodeId m polls none false

/-- The tests on the outcome, written out at both places that resolve one. -/
def confirmsActivation (outcome : Option MigrationRecord × Bool) : Bool :=
  outcome.1.any (·.status = .activated)

def confirmsNoActivation (outcome : Option MigrationRecord × Bool) : Bool :=
  outcome.1.any (·.status = .rolledBack) || (outcome.2 && outcome.1.isNone)

/-! ## The source -/

section

variable (services : Services) (n : NodeId)

def finalizeSourceSuccess (destinationNodeId : NodeId) (m : MigrationId) (newGeneration : Nat)
    (migrationAtUtc : Timestamp) (bindings : List ArtifactBinding) : Async Unit := do
  let _ ← await (.registry (.markRemote destinationNodeId newGeneration m migrationAtUtc))
  let state ← await .getState
  let policy ← getPolicy services
  await (.broadcast {
    ownerNodeId := destinationNodeId
    generation := newGeneration
    lastMigrationId := some m
    migrationAtUtc := some migrationAtUtc
    artifactDigests := bindingDigests bindings
    accounting := some state.accounting
    adaptivePolicy := policy })
  await (.setRecordStatus m .activated none none)

/-- Start the task; a failure is recorded and not raised. -/
def restart (describe : String → String) : Async Unit :=
  (LocalProcess.start n).attempt (fun _ => pure ()) fun e => do
    let _ ← await (.registry (.markFailed (describe e.message) none))

def rollbackSourceRecord (record : MigrationRecord) (reason : String) : Async Unit := do
  let _ ← await (.registry (.restoreOriginal record reason))
  let state ← await .getState
  onlyIf (state.ownerNodeId = n ∧ state.pid = none)
    (restart n fun e => s!"Durable migration rollback restart failed: {e}")
  await (.setRecordStatus record.migrationId .rolledBack none (some reason))

/-- The arguments of one call of `migrate`; the migration id is the fresh one it draws. -/
structure MigrateCall where
  destinationNodeId : NodeId
  migrationAtUtc : Timestamp
  bidId : BidId
  migrationId : MigrationId

def cancelRemoteReservation (bidId : BidId) (destinationNodeId : NodeId) (reason : String) :
    Async Unit :=
  ignoreErrors (await (.cancelReservation bidId destinationNodeId reason))

/-- The `finally` block of `migrate`. -/
def withCleanup (call : MigrateCall) (activated : Bool) (p : Async Bool) : Async Bool :=
  p.tryFinally fun _ =>
    onlyIf (¬ activated) (cancelRemoteReservation call.bidId call.destinationNodeId
      s!"Source migration {call.migrationId} did not complete")

/-- The record written when a migration starts. -/
def sourceRecord (call : MigrateCall) (original : TaskRuntimeState) : MigrationRecord where
  migrationId := call.migrationId
  bidId := call.bidId
  taskId := original.taskId
  sourceNodeId := n
  destinationNodeId := call.destinationNodeId
  generation := original.generation + 1
  migrationAtUtc := call.migrationAtUtc
  role := .source
  status := .preparing
  originalState := some original

/-- `ArtifactPrefetchService.missing_bytes` and `prefetch`. -/
def prefetch (call : MigrateCall) : Async (List ArtifactBinding) := do
  let _ ← await .ensureTaskArtifacts
  ignoreErrors (await (.external (.artifactStatus call.destinationNodeId)))
  let bindings ← await .ensureTaskArtifacts
  await (.external (.artifactStatus call.destinationNodeId))
  await (.external (.prefetchArtifacts call.destinationNodeId call.migrationId))
  pure bindings

/-- Roll back the record of `m`, if it exists. -/
def rollbackMigration (m : MigrationId) : Async Unit := do
  let record ← await (.journalGet m)
  match record with
  | some record => rollbackSourceRecord n record "Destination confirmed activation did not commit"
  | none => pure ()

/-- What `migrate` does once it has polled for an unknown outcome. -/
def resolveOutcome (call : MigrateCall) (original : TaskRuntimeState)
    (bindings : List ArtifactBinding) (e : Exn) (outcome : Option MigrationRecord × Bool) :
    Async Bool :=
  if confirmsActivation outcome then
    withCleanup call true do
      finalizeSourceSuccess services call.destinationNodeId call.migrationId
        (original.generation + 1) call.migrationAtUtc bindings
      pure true
  else if confirmsNoActivation outcome then
    withCleanup call false do
      rollbackMigration n call.migrationId
      pure false
  else
    withCleanup call false do
      let _ ← await (.registry (.markRecoveryExhausted
        ("Migration activation outcome remains unknown; durable reconciliation will retry. "
          ++ e.describe)))
      pure false

/-- The handler of an unknown activation outcome. -/
def outcomeUnknown (call : MigrateCall) (original : TaskRuntimeState)
    (bindings : List ArtifactBinding) (e : Exn) : Async Bool :=
  (do await (.setRecordStatus call.migrationId .uncertain none (some e.describe))
      queryRemoteOutcome call.destinationNodeId call.migrationId).attempt
    (resolveOutcome services n call original bindings e)
    fun e => withCleanup call false (raise e)

/-- The handler of every other failure. -/
def migrationFailed (call : MigrateCall) (original : TaskRuntimeState) (sourceWasStopped : Bool)
    (e : Exn) : Async Bool := do
  onlyIf services.experimentJournal (await (.external (.appendExperimentEvent "migration_failed")))
  let _ ← await (.registry (.restoreLocalAfterFailure original.generation e.describe))
  onlyIf sourceWasStopped
    (restart n fun error => s!"Migration failed: {e.describe}; local restart failed: {error}")
  await (.setRecordStatus call.migrationId .rolledBack none (some e.describe))
  pure false

/-- The `except` clauses of `migrate`. -/
def onMigrateError (call : MigrateCall) (original : TaskRuntimeState)
    (bindings : List ArtifactBinding) (sourceWasStopped activated : Bool) (e : Exn) : Async Bool :=
  if e.cls = .activationOutcomeUnknownError then
    outcomeUnknown services n call original bindings e
  else withCleanup call activated (migrationFailed services n call original sourceWasStopped e)

/-- The prefetch; `none` when it failed. -/
def tryPrefetch (call : MigrateCall) : Async (Option (List ArtifactBinding)) :=
  (prefetch call).attempt (fun bindings => pure (some bindings)) fun e => do
    await (.setRecordStatus call.migrationId .rolledBack none (some e.describe))
    pure none

/-- From the prefetch to the stopped process; `none` when the prefetch failed. -/
def quiesce (call : MigrateCall) : Async (Option (List ArtifactBinding)) := do
  let prefetched ← tryPrefetch call
  match prefetched with
  | none => pure none
  | some bindings => do
      onlyIf services.accountingService (await .settleTask)
      let _ ← await (.registry (.markMigrating call.migrationId))
      await (.setRecordStatus call.migrationId .transferring none none)
      let _ ← LocalProcess.stop
      pure (some bindings)

/-- From the stopped process to the request. -/
def prepareActivation (call : MigrateCall) (original : TaskRuntimeState)
    (bindings : List ArtifactBinding) : Async MigrationActivationRequest := do
  await (.external .validateCheckpoint)
  await (.transferCheckpoint call.destinationNodeId call.migrationId)
  onlyIf services.telemetryStore (await (.external (.recordTransfer call.destinationNodeId)))
  onlyIf services.accountingService (await .recordMigration)
  let state ← await .getState
  let policy ← getPolicy services
  await (.setRecordStatus call.migrationId .activating none none)
  pure {
    migrationId := call.migrationId
    bidId := call.bidId
    taskId := original.taskId
    sourceNodeId := n
    destinationNodeId := call.destinationNodeId
    generation := original.generation + 1
    migrationAtUtc := call.migrationAtUtc
    artifacts := bindings
    accounting := some state.accounting
    adaptivePolicy := policy }

/-- From the stopped process to the activation response. -/
def handOver (call : MigrateCall) (original : TaskRuntimeState)
    (bindings : List ArtifactBinding) : Async Unit := do
  let request ← prepareActivation services n call original bindings
  let response ← MigrationClient.activate request
  if response.activated then pure ()
  else raise (runtimeError (response.error.getD "Destination rejected activation"))

/-- From the activation response to the end. -/
def commit (call : MigrateCall) (original : TaskRuntimeState) (bindings : List ArtifactBinding) :
    Async Bool := do
  onlyIf services.telemetryStore
    (await (.external (.recordMigrationCalibration call.destinationNodeId)))
  onlyIf services.experimentJournal
    (await (.external (.appendExperimentEvent "migration_completed")))
  finalizeSourceSuccess services call.destinationNodeId call.migrationId (original.generation + 1)
    call.migrationAtUtc bindings
  pure true

def migrate (call : MigrateCall) : Async Bool := do
  let original ← await .getState
  if original.ownerNodeId ≠ n then pure false
  else do
    await (.journalPut (sourceRecord n call original))
    (quiesce services call).attempt
      (fun
        | none => withCleanup call false (pure false)
        | some bindings =>
            (handOver services n call original bindings).attempt
              (fun _ =>
                (commit services call original bindings).attempt
                  (fun activated => withCleanup call true (pure activated))
                  (onMigrateError services n call original bindings true true))
              (onMigrateError services n call original bindings true false))
      (onMigrateError services n call original [] false false)

/-! ## The destination -/

def activationResponse (request : MigrationActivationRequest) (activated : Bool)
    (pid : Option Pid) (error : Option String) : MigrationActivationResponse where
  migrationId := request.migrationId
  taskId := request.taskId
  destinationNodeId := n
  generation := request.generation
  activated := activated
  pid := pid
  error := error

/-- The test for a retry of an activation this node has claimed. -/
def isRetry (request : MigrationActivationRequest) (state : TaskRuntimeState) : Bool :=
  state.lastMigrationId = some request.migrationId ∧ state.ownerNodeId = n ∧
    state.generation = request.generation

/-- The record written for an activation request. -/
def destinationRecord (request : MigrationActivationRequest) (status : MigrationStatus)
    (originalState : Option TaskRuntimeState) (pid : Option Pid) : MigrationRecord where
  migrationId := request.migrationId
  bidId := request.bidId
  taskId := request.taskId
  sourceNodeId := request.sourceNodeId
  destinationNodeId := request.destinationNodeId
  generation := request.generation
  migrationAtUtc := request.migrationAtUtc
  role := .destination
  status := status
  originalState := originalState
  pid := pid

/-- Put the record, or give an existing one its status and pid. -/
def putRecord (existing : Option MigrationRecord) (record : MigrationRecord) : Async Unit :=
  match existing with
  | none => await (.journalPut record)
  | some _ => await (.setRecordStatus record.migrationId record.status record.pid none)

def mergeRequestPolicy (request : MigrationActivationRequest) : Async Unit :=
  match request.adaptivePolicy with
  | none => pure ()
  | some policy => onlyIf services.adaptivePolicyStore (await (.mergePolicy policy))

/-- The answer to a retry. -/
def answerRetry (request : MigrationActivationRequest) (state : TaskRuntimeState)
    (existing : Option MigrationRecord) : Async MigrationActivationResponse := do
  putRecord existing (destinationRecord request .activated none state.pid)
  pure (activationResponse n request true state.pid none)

/-- `if backup.exists(): p`. -/
def ifBackupExists (m : MigrationId) (p : Async Unit) : Async Unit := do
  let found ← await (.backupExists m)
  onlyIf found p

/-- `if local_checkpoint.exists(): p`. -/
def ifCheckpointExists (p : Async Unit) : Async Unit := do
  let found ← await .checkpointExists
  onlyIf found p

/-- From the reservation to the copied checkpoint. -/
def replaceCheckpoint (request : MigrationActivationRequest) : Async Unit := do
  let m := request.migrationId
  let _ ← await (.beginActivation request.bidId request.taskId request.sourceNodeId
    request.destinationNodeId)
  let found ← await (.incomingExists m)
  onlyIf (¬ found) (raise (noSuchFile s!"Incoming checkpoint not found: {m}"))
  await (.external .makeDirectory)
  ifBackupExists m (await (.removeBackup m false))
  ifCheckpointExists (await (.renameToBackup m))
  await (.copyIncoming m)

/-- From the copied checkpoint to the started process. -/
def claimAndStart (request : MigrationActivationRequest) : Async TaskRuntimeState := do
  await (.external .validateCheckpoint)
  await (.stageBindings request.artifacts)
  let _ ← await (.registry (.claimLocal request.generation request.migrationId
    (bindingDigests request.artifacts) request.migrationAtUtc request.accounting))
  LocalProcess.start n

/-- From the started process to the answer. -/
def commitActivation (request : MigrationActivationRequest) (runtimeState : TaskRuntimeState) :
    Async MigrationActivationResponse := do
  let m := request.migrationId
  mergeRequestPolicy services request
  let _ ← await (.consumeBid request.bidId)
  await (.setRecordStatus m .activated runtimeState.pid none)
  ifBackupExists m (await (.removeBackup m true))
  await (.removeIncoming m)
  pure (activationResponse n request true runtimeState.pid none)

def stopTask : Async Unit := do let _ ← LocalProcess.stop

def cancelBid (bidId : BidId) (reason : String) : Async Unit := do
  let _ ← await (.cancelBid bidId reason)

/-- The handler of a failed activation. -/
def rollbackActivation (request : MigrationActivationRequest) (originalState : TaskRuntimeState)
    (checkpointReplaced runtimeStarted : Bool) (e : Exn) : Async MigrationActivationResponse := do
  let m := request.migrationId
  onlyIf runtimeStarted (ignoreErrors stopTask)
  onlyIf checkpointReplaced (ifCheckpointExists (await .removeCheckpoint))
  ifBackupExists m (await (.renameFromBackup m))
  let _ ← await (.registry (.setState originalState))
  await (.setRecordStatus m .rolledBack none (some e.describe))
  ignoreErrors (cancelBid request.bidId s!"Destination activation rolled back: {e.describe}")
  await (.removeIncoming m)
  pure (activationResponse n request false none (some e.describe))

/-- The transaction from the open record on. -/
def activationTransaction (request : MigrationActivationRequest)
    (originalState : TaskRuntimeState) : Async MigrationActivationResponse :=
  (replaceCheckpoint request).attempt
    (fun _ =>
      (claimAndStart n request).attempt
        (fun runtimeState =>
          (commitActivation services n request runtimeState).tryExcept
            (rollbackActivation n request originalState true true))
        (rollbackActivation n request originalState true false))
    (rollbackActivation n request originalState false false)

def activateIncoming (request : MigrationActivationRequest) :
    Async MigrationActivationResponse := do
  if request.destinationNodeId ≠ n then
    pure (activationResponse n request false none (some
      s!"Request destination is {request.destinationNodeId}, but local node is {n}"))
  else do
    let state ← await .getState
    let existing ← await (.journalGet request.migrationId)
    mergeRequestPolicy services request
    if isRetry n request state then answerRetry n request state existing
    else if existing.any (·.status = .rolledBack) then
      pure (activationResponse n request false none
        (some ((existing.bind (·.error)).getD "Activation previously rolled back")))
    else do
      putRecord existing (destinationRecord request .activating (some state) none)
      activationTransaction services n request state

/-- The endpoint: the answer is sent to whoever waits for it. -/
def serveActivation (request : MigrationActivationRequest) : Async Unit := do
  let response ← activateIncoming services n request
  await (.respond response)

/-! ## Durable reconciliation -/

/-- The test for an activation that has a running owner. -/
def isCommitted (record : MigrationRecord) (state : TaskRuntimeState) : Bool :=
  state.ownerNodeId = n ∧ state.generation = record.generation ∧
    state.lastMigrationId = some record.migrationId ∧
    (state.status = .running ∨ state.status = .paused ∨ state.status = .completed)

/-- Claim a bid that is still accepted, and read it again. -/
def claimAccepted (record : MigrationRecord) (bid : Option BidRecord) :
    Async (Option BidRecord) :=
  if bid.any (·.status = .accepted) then do
    let _ ← await (.beginActivation record.bidId record.taskId record.sourceNodeId
      record.destinationNodeId)
    await (.getBid record.bidId)
  else pure bid

def consumeActivating (record : MigrationRecord) (bid : Option BidRecord) : Async Unit :=
  onlyIf (bid.any (·.status = .activating)) do
    let _ ← await (.consumeBid record.bidId)

/-- Consume the reservation of a committed activation. -/
def settleReservation (record : MigrationRecord) : Async Unit := do
  let bid ← await (.getBid record.bidId)
  ignoreErrors do
    let bid ← claimAccepted record bid
    consumeActivating record bid

def restartRolledBack : String := "Daemon restart rolled back incomplete activation"

def restoreState (original : Option TaskRuntimeState) : Async Unit :=
  match original with
  | none => pure ()
  | some original => do let _ ← await (.registry (.setState original))

/-- Roll back an interrupted activation. -/
def undoActivation (record : MigrationRecord) (state : TaskRuntimeState) : Async Unit := do
  let m := record.migrationId
  onlyIf (state.lastMigrationId = some m ∧ state.ownerNodeId = n ∧ state.pid ≠ none)
    (ignoreErrors stopTask)
  ifBackupExists m do
    ifCheckpointExists (await .removeCheckpoint)
    await (.renameFromBackup m)
  restoreState record.originalState
  ignoreErrors (cancelBid record.bidId restartRolledBack)
  await (.removeIncoming m)
  await (.setRecordStatus m .rolledBack none (some restartRolledBack))

def reconcileDestinationRecord (record : MigrationRecord) : Async Unit := do
  let state ← await .getState
  if isCommitted n record state then do
    settleReservation record
    await (.setRecordStatus record.migrationId .activated state.pid none)
  else undoActivation n record state

/-- What reconciliation does once it has polled for the outcome of a source record. -/
def resolveRecord (record : MigrationRecord) (outcome : Option MigrationRecord × Bool) :
    Async Unit :=
  if confirmsActivation outcome then
    finalizeSourceSuccess services record.destinationNodeId record.migrationId record.generation
      record.migrationAtUtc []
  else if confirmsNoActivation outcome then
    rollbackSourceRecord n record "Durable reconciliation confirmed no destination activation"
  else
    await (.setRecordStatus record.migrationId .uncertain none
      (some "Destination outcome still unreachable"))

def reconcileSourceRecord (record : MigrationRecord) : Async Unit := do
  let m := record.migrationId
  let state ← await .getState
  if state.ownerNodeId = record.destinationNodeId ∧ state.generation ≥ record.generation then
    await (.setRecordStatus m .activated none none)
  else if record.status = .preparing ∧ state.ownerNodeId = n ∧ state.status ≠ .migrating then
    await (.setRecordStatus m .rolledBack none (some "Migration ended before source quiesce"))
  else do
    let outcome ← queryRemoteOutcome record.destinationNodeId m
    resolveRecord services n record outcome

/-- One record of a pass of `reconcile_durable_state`, under the lock of its task. -/
def reconcileRecord (record : MigrationRecord) : Async Unit :=
  match record.role with
  | .destination => reconcileDestinationRecord n record
  | .source => reconcileSourceRecord services n record

/-- A pass of `reconcile_durable_state` over the records it has listed. -/
def reconcileDurableState : List MigrationRecord → Async Unit
  | [] => pure ()
  | record :: records => do
      onlyIf (¬ record.status.isTerminal) (reconcileRecord services n record)
      reconcileDurableState records

end

end Magellan.MigrationService
