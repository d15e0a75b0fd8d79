import Magellan.Coroutine.Traces
import Magellan.Migration.Service

/-!
# The operations of a migration

Which operations the parts of `migrate` and of source reconciliation can perform.
-/

namespace Magellan.MigrationService

open Coroutine Coro

variable (services : Services) (n : NodeId) {call : MigrateCall} {original : TaskRuntimeState}
  {bindings : List ArtifactBinding}

theorem finalizeSourceSuccess_performs {P : Op → Prop} {d : NodeId} {m : MigrationId} {g : Nat}
    {at_ : Timestamp} {bindings : List ArtifactBinding} (read : P .getState ∧ P .getPolicy)
    (write : P (.registry (.markRemote d g m at_))) (send : ∀ u, P (.broadcast u))
    (close : P (.setRecordStatus m .activated none none)) :
    (finalizeSourceSuccess services d m g at_ bindings).Performs P :=
  .bind (.op write) fun _ => .bind (.op read.1) fun _ =>
    .bind (.ite (.op read.2) (.pure _)) fun _ => .bind (.op (send _)) fun _ => .op close

theorem restart_performs {P : Op → Prop} {describe : String → String}
    (start : ∀ o, LocalProcess.isStartOp o = true → P o) : (restart n describe).Performs P :=
  .attempt ((LocalProcess.start_performs n).mono start) (fun _ => .pure _) fun _ =>
    .bind (.op (start _ rfl)) fun _ => .pure _

theorem rollbackSourceRecord_performs {P : Op → Prop} {record : MigrationRecord} {reason : String}
    (start : ∀ o, LocalProcess.isStartOp o = true → P o)
    (write : P (.registry (.restoreOriginal record reason)))
    (close : P (.setRecordStatus record.migrationId .rolledBack none (some reason))) :
    (rollbackSourceRecord n record reason).Performs P :=
  .bind (.op write) fun _ => .bind (.op (start _ rfl)) fun _ =>
    .bind (.ite (restart_performs n start) (.pure _)) fun _ => .op close

theorem withCleanup_performs {P : Op → Prop} {activated : Bool} {p : Async Bool}
    (h : p.Performs P) (cancel : ∀ b d reason, P (.cancelReservation b d reason)) :
    (withCleanup call activated p).Performs P :=
  .tryFinally h fun _ => .ite (.tryExcept (.op (cancel _ _ _)) fun _ => .pure _) (.pure _)

theorem rollbackMigration_performs {P : Op → Prop} {m : MigrationId} (read : P (.journalGet m))
    (start : ∀ o, LocalProcess.isStartOp o = true → P o)
    (write : ∀ record reason, P (.registry (.restoreOriginal record reason)))
    (close : ∀ m reason, P (.setRecordStatus m .rolledBack none reason)) :
    (rollbackMigration n m).Performs P :=
  .bind (.op read) fun
    | none => .pure _
    | some _ => rollbackSourceRecord_performs n start (write _ _) (close _ _)

def isQuiesceOp (m : MigrationId) : Op → Bool
  | .ensureTaskArtifacts | .external _ | .settleTask => true
  | .setRecordStatus m' .. => m' = m
  | .registry (.markMigrating _) => true
  | o => LocalProcess.isStopOp o

def isHandOverOp (m : MigrationId) : Op → Bool
  | .external _ | .transferCheckpoint .. | .recordMigration | .getState | .getPolicy => true
  | .setRecordStatus m' .activating _ _ => m' = m
  | .sendActivation _ | .awaitActivation _ => true
  | _ => false

theorem isQuiesceOp_of_isStopOp {m : MigrationId} {o : Op} (h : LocalProcess.isStopOp o = true) :
    isQuiesceOp m o = true := by
  cases o with
  | registry op => cases op <;> first | rfl | cases h
  | _ => first | rfl | cases h

theorem prefetch_performs : (prefetch call).Performs (isQuiesceOp call.migrationId ·) :=
  .bind (.op rfl) fun _ => .bind (.tryExcept (.op rfl) fun _ => .pure _) fun _ =>
    .bind (.op rfl) fun _ => .bind (.op rfl) fun _ => .bind (.op rfl) fun _ => .pure _

theorem quiesce_performs : (quiesce services call).Performs (isQuiesceOp call.migrationId ·) :=
  have close : ∀ status pid error, isQuiesceOp call.migrationId
      (.setRecordStatus call.migrationId status pid error) = true := fun _ _ _ => decide_eq_true rfl
  .bind (.attempt prefetch_performs (fun _ => .pure _) fun _ =>
      .bind (.op (close _ _ _)) fun _ => .pure _) fun
    | none => .pure _
    | some _ => .bind (.ite (.op rfl) (.pure _)) fun _ => .bind (.op rfl) fun _ =>
        .bind (.op (close _ _ _)) fun _ =>
          .bind (LocalProcess.stop_performs.mono fun _ => isQuiesceOp_of_isStopOp) fun _ => .pure _

theorem activateAttempts_performs {request : MigrationActivationRequest} {attempts : Nat}
    {lastError : String} {m : MigrationId} :
    (MigrationClient.activateAttempts request attempts lastError).Performs (isHandOverOp m ·) := by
  induction attempts generalizing lastError with
  | zero => exact .raise _
  | succ attempts ih =>
      exact .tryExcept (.bind (.op rfl) fun _ => .op rfl) fun e => .ite ih (.raise _)

theorem prepareActivation_performs :
    (prepareActivation services n call original bindings).Performs (isHandOverOp call.migrationId ·) :=
  .bind (.op rfl) fun _ => .bind (.op rfl) fun _ => .bind (.ite (.op rfl) (.pure _)) fun _ =>
    .bind (.ite (.op rfl) (.pure _)) fun _ => .bind (.op rfl) fun _ =>
      .bind (.ite (.op rfl) (.pure _)) fun _ => .bind (.op (decide_eq_true rfl)) fun _ => .pure _

theorem handOver_performs :
    (handOver services n call original bindings).Performs (isHandOverOp call.migrationId ·) :=
  .bind (prepareActivation_performs services n) fun _ =>
    .bind activateAttempts_performs fun _ => .ite (.pure _) (.raise _)

theorem commit_performs {P : Op → Prop} (external : ∀ x, P (.external x))
    (read : P .getState ∧ P .getPolicy)
    (write : P (.registry (.markRemote call.destinationNodeId (original.generation + 1)
      call.migrationId call.migrationAtUtc)))
    (send : ∀ u, P (.broadcast u)) (close : P (.setRecordStatus call.migrationId .activated none none)) :
    (commit services call original bindings).Performs P :=
  .bind (.ite (.op (external _)) (.pure _)) fun _ =>
    .bind (.ite (.op (external _)) (.pure _)) fun _ =>
      .bind (finalizeSourceSuccess_performs services read write send close) fun _ => .pure _

theorem migrationFailed_performs {P : Op → Prop} {sourceWasStopped : Bool} {e : Exn}
    (external : ∀ x, P (.external x)) (start : ∀ o, LocalProcess.isStartOp o = true → P o)
    (write : P (.registry (.restoreLocalAfterFailure original.generation e.describe)))
    (close : P (.setRecordStatus call.migrationId .rolledBack none (some e.describe))) :
    (migrationFailed services n call original sourceWasStopped e).Performs P :=
  .bind (.ite (.op (external _)) (.pure _)) fun _ => .bind (.op write) fun _ =>
    .bind (.ite (restart_performs n start) (.pure _)) fun _ => .bind (.op close) fun _ => .pure _

/-- The operations that neither hand the task over nor write the journal nor send a message that
others believe. -/
def isUpkeepOp : Op → Bool
  | .registry (.claimLocal ..) | .registry (.markRemote ..) | .registry (.restoreOriginal ..)
  | .registry (.restoreLocalAfterFailure ..) | .registry (.setState _) => false
  | .journalPut _ | .setRecordStatus .. | .sendActivation _ | .respond _ | .broadcast _ => false
  | _ => true

theorem isUpkeepOp_of_isStartOp {o : Op} (h : LocalProcess.isStartOp o = true) :
    isUpkeepOp o = true := by
  cases o with
  | registry op => cases op <;> first | rfl | cases h
  | _ => first | rfl | cases h

theorem isUpkeepOp_of_isStopOp {o : Op} (h : LocalProcess.isStopOp o = true) :
    isUpkeepOp o = true := by
  cases o with
  | registry op => cases op <;> first | rfl | cases h
  | _ => first | rfl | cases h

theorem restart_upkeep {describe : String → String} : (restart n describe).Performs (isUpkeepOp ·) :=
  restart_performs n fun _ => isUpkeepOp_of_isStartOp

theorem prefetch_upkeep : (prefetch call).Performs (isUpkeepOp ·) :=
  .bind (.op rfl) fun _ => .bind (.tryExcept (.op rfl) fun _ => .pure _) fun _ =>
    .bind (.op rfl) fun _ => .bind (.op rfl) fun _ => .bind (.op rfl) fun _ => .pure _

theorem stopTask_upkeep : stopTask.Performs (isUpkeepOp ·) :=
  .bind (LocalProcess.stop_performs.mono fun _ => isUpkeepOp_of_isStopOp) fun _ => .pure _

theorem ifBackupExists_performs {P : Op → Prop} {m : MigrationId} {p : Async Unit}
    (test : P (.backupExists m)) (h : p.Performs P) : (ifBackupExists m p).Performs P :=
  .bind (.op test) fun _ => .ite h (.pure _)

theorem ifCheckpointExists_performs {P : Op → Prop} {p : Async Unit} (test : P .checkpointExists)
    (h : p.Performs P) : (ifCheckpointExists p).Performs P :=
  .bind (.op test) fun _ => .ite h (.pure _)

theorem cancelBid_upkeep {b : BidId} {reason : String} :
    (ignoreErrors (cancelBid b reason)).Performs (isUpkeepOp ·) :=
  .tryExcept (.bind (.op rfl) fun _ => .pure _) fun _ => .pure _

theorem replaceCheckpoint_upkeep {request : MigrationActivationRequest} :
    (replaceCheckpoint request).Performs (isUpkeepOp ·) :=
  .bind (.op rfl) fun _ => .bind (.op rfl) fun _ => .bind (.ite (.raise _) (.pure _)) fun _ =>
    .bind (.op rfl) fun _ => .bind (ifBackupExists_performs rfl (.op rfl)) fun _ =>
      .bind (ifCheckpointExists_performs rfl (.op rfl)) fun _ => .op rfl

theorem mergeRequestPolicy_performs {services : Services} {request : MigrationActivationRequest}
    {P : Op → Prop} (merge : ∀ p, P (.mergePolicy p)) :
    (mergeRequestPolicy services request).Performs P := by
  unfold mergeRequestPolicy
  cases request.adaptivePolicy with
  | none => exact .pure _
  | some policy => exact .ite (.op (merge policy)) (.pure _)

theorem settleReservation_upkeep {record : MigrationRecord} :
    (settleReservation record).Performs (isUpkeepOp ·) :=
  .bind (.op rfl) fun _ => .tryExcept (.bind (.ite (.bind (.op rfl) fun _ => .op rfl) (.pure _))
    fun _ => .ite (.bind (.op rfl) fun _ => .pure _) (.pure _)) fun _ => .pure _

def isQueryOp : Op → Bool
  | .pollBudget | .sendStatusQuery .. | .awaitStatus .. => true
  | _ => false

theorem queryRemoteOutcome_performs {d : NodeId} {m : MigrationId} :
    (queryRemoteOutcome d m).Performs (isQueryOp ·) := by
  refine .bind (.op rfl) fun count => ?_
  generalize (none : Option MigrationRecord) = lastRecord
  generalize false = destinationReached
  induction count generalizing lastRecord destinationReached with
  | zero => exact .pure _
  | succ count ih =>
      exact .attempt (.bind (.op rfl) fun _ => .op rfl) (fun _ => .ite (.pure _) (ih _ _))
        fun _ => .ite (ih _ _) (.raise _)

end Magellan.MigrationService
