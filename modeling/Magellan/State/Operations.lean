import Magellan.State.PersistentRegistry

/-!
# The operations of the registry

An operation reads the record, and then raises, returns, or writes a record and returns. The time it
takes from the clock is an argument here.
-/

namespace Magellan.Registry

inductive Operation where
  | setArtifactDigests (digests : List (String × String))
  | recordAccounting (args : AccountingArgs)
  | markRunning (pid : Pid) (runtimeAdapter : Option String) (launchCommand : Option (List String))
      (resumedFromCheckpoint : Bool) (now : Timestamp)
  | markPaused (pausedAtUtc resumeAtUtc resumeWallAtUtc : Timestamp) (reason : String)
      (now : Timestamp)
  | markResumed (now : Timestamp)
  | markStopped
  | markMigrating (migrationId : MigrationId)
  | markFailed (error : String) (exitCode : Option Int) (now : Timestamp)
  | scheduleRecovery (recoverAtUtc : Timestamp)
  | beginRecovery
  | markRecoveryExhausted (error : String)
  | markCompleted (completedAtUtc : Timestamp) (manifestRelativePath manifestSha256 : String)
      (outputBytes : Nat) (exitCode : Option Int)
  | claimLocal (generation : Nat) (migrationId : MigrationId)
      (artifactDigests : List (String × String)) (migrationAtUtc : Timestamp)
      (accounting : Option TaskAccountingSnapshot)
  | markRemote (ownerNodeId : NodeId) (generation : Nat) (migrationId : MigrationId)
      (migrationAtUtc : Timestamp)
  | restoreLocalAfterFailure (generation : Nat) (error : String)
  | applyOwnership (update : OwnershipUpdate)

/-- What an operation returns. -/
inductive Value where
  | state (s : TaskRuntimeState)
  | flag (applied : Bool)
  deriving DecidableEq

/-- What an operation does after its read: its outcome, and the record it writes. -/
structure Effect where
  outcome : Except Exn Value
  written : Option TaskRuntimeState := none
  deriving DecidableEq

namespace Effect

def write (s : TaskRuntimeState) : Effect := ⟨.ok (.state s), some s⟩

/-- The operations that return what they read. -/
def keep (s : TaskRuntimeState) : Effect := ⟨.ok (.state s), none⟩

def ofExcept : Except Exn TaskRuntimeState → Effect
  | .ok s => write s
  | .error e => ⟨.error e, none⟩

/-- The record after the operation, when it has read `s`. -/
def after (e : Effect) (s : TaskRuntimeState) : TaskRuntimeState := e.written.getD s

end Effect

/-- What an operation does that has read `s`. -/
def Operation.perform (localNodeId : NodeId) (s : TaskRuntimeState) : Operation → Effect
  | .setArtifactDigests digests => .write (Registry.setArtifactDigests digests s)
  | .recordAccounting args => .write (Registry.recordAccounting args s)
  | .markRunning pid adapter command resumed now =>
      .ofExcept (Registry.markRunning localNodeId pid adapter command resumed now s)
  | .markPaused pausedAt resumeAt resumeWallAt reason now =>
      .ofExcept (Registry.markPaused localNodeId pausedAt resumeAt resumeWallAt reason now s)
  | .markResumed now => .ofExcept (Registry.markResumed localNodeId now s)
  | .markStopped =>
      if s.status = .completed then .keep s else .write (Registry.markStopped s)
  | .markMigrating m => .ofExcept (Registry.markMigrating localNodeId m s)
  | .markFailed error exitCode now => .write (Registry.markFailed error exitCode now s)
  | .scheduleRecovery recoverAt =>
      if s.status ≠ .failed then .keep s else .write (Registry.scheduleRecovery recoverAt s)
  | .beginRecovery => .ofExcept (Registry.beginRecovery localNodeId s)
  | .markRecoveryExhausted error => .write (Registry.markRecoveryExhausted error s)
  | .markCompleted completedAt path sha bytes exitCode =>
      .ofExcept (Registry.markCompleted localNodeId completedAt path sha bytes exitCode s)
  | .claimLocal generation m digests at_ accounting =>
      .ofExcept (Registry.claimLocal localNodeId generation m digests at_ accounting s)
  | .markRemote owner generation m at_ =>
      if s.generation = generation ∧ s.ownerNodeId = owner ∧ s.status = .completed then .keep s
      else .write (Registry.markRemote owner generation m at_ s)
  | .restoreLocalAfterFailure generation error =>
      .write (Registry.restoreLocalAfterFailure localNodeId generation error s)
  | .applyOwnership update =>
      match Registry.applyOwnership localNodeId update s with
      | none => ⟨.ok (.flag false), none⟩
      | some t => ⟨.ok (.flag true), some t⟩

/-- The record after an operation that nothing interrupts. -/
def Operation.apply (localNodeId : NodeId) (o : Operation) (s : TaskRuntimeState) :
    TaskRuntimeState :=
  (o.perform localNodeId s).after s

@[simp] theorem Effect.after_write (s t : TaskRuntimeState) : (Effect.write t).after s = t := rfl

@[simp] theorem Effect.after_keep (s t : TaskRuntimeState) : (Effect.keep t).after s = s := rfl

end Magellan.Registry
