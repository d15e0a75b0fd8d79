import Mathlib.Algebra.Order.Field.Rat
import Mathlib.Algebra.Order.Ring.Nat

/-!
# Task state

The persisted state of one task at one node. The bookkeeping times `created_at_utc` and
`updated_at_utc` are left out, so equal states are states that agree up to the update timestamp. The
fields of the accounting snapshot are one component here, since every operation that copies one of
them across nodes copies all of them.
-/

namespace Magellan

abbrev NodeId := String
abbrev TaskId := String
abbrev MigrationId := String
abbrev BidId := String
abbrev Pid := Nat

/-- A point in time, in microseconds. -/
abbrev Timestamp := Nat

inductive ExceptionClass where
  | runtimeError
  | keyError
  | valueError
  | fileNotFoundError
  | fileExistsError
  | osError
  | timeoutError
  | processLookupError
  | checkpointValidationError
  | httpError
  | activationOutcomeUnknownError
  | stopIteration
  | indexError
  deriving DecidableEq, Repr

def ExceptionClass.name : ExceptionClass → String
  | .runtimeError => "RuntimeError"
  | .keyError => "KeyError"
  | .valueError => "ValueError"
  | .fileNotFoundError => "FileNotFoundError"
  | .fileExistsError => "FileExistsError"
  | .osError => "OSError"
  | .timeoutError => "TimeoutError"
  | .processLookupError => "ProcessLookupError"
  | .checkpointValidationError => "CheckpointValidationError"
  | .httpError => "HTTPError"
  | .activationOutcomeUnknownError => "ActivationOutcomeUnknownError"
  | .stopIteration => "StopIteration"
  | .indexError => "IndexError"

/-- A raised exception. -/
structure Exn where
  cls : ExceptionClass
  message : String
  deriving DecidableEq, Repr

/-- The rendering `f"{type(exc).__name__}: {exc}"`. -/
def Exn.describe (e : Exn) : String := s!"{e.cls.name}: {e.message}"

def runtimeError (message : String) : Exn := ⟨.runtimeError, message⟩

inductive TaskStatus where
  | stopped
  | running
  | paused
  | migrating
  | recovering
  | remote
  | completed
  | failed
  deriving DecidableEq, Repr

def TaskStatus.value : TaskStatus → String
  | .stopped => "stopped"
  | .running => "running"
  | .paused => "paused"
  | .migrating => "migrating"
  | .recovering => "recovering"
  | .remote => "remote"
  | .completed => "completed"
  | .failed => "failed"

structure TaskAccountingSnapshot where
  estimatedRemainingSeconds : Option Rat := none
  accumulatedRuntimeSeconds : Rat := 0
  accumulatedPausedSeconds : Rat := 0
  accumulatedMigrationSeconds : Rat := 0
  accumulatedComputeCostUsd : Rat := 0
  accumulatedTransferCostUsd : Rat := 0
  accumulatedCostUsd : Rat := 0
  accumulatedComputeCarbonGrams : Rat := 0
  accumulatedTransferCarbonGrams : Rat := 0
  accumulatedCarbonGrams : Rat := 0
  progressCompletedUnits : Option Rat := none
  progressTotalUnits : Option Rat := none
  progressFraction : Option Rat := none
  progressRateUnitsPerSecond : Option Rat := none
  progressUpdatedAtUtc : Option Timestamp := none
  deriving DecidableEq

structure TaskRuntimeState where
  taskId : TaskId
  ownerNodeId : NodeId
  generation : Nat := 0
  status : TaskStatus
  pid : Option Pid := none
  processGroupId : Option Pid := none
  runtimeAdapter : Option String := none
  launchCommand : List String := []
  resumedFromCheckpoint : Bool := false
  lastMigrationId : Option MigrationId := none
  lastMigrationAtUtc : Option Timestamp := none
  lastPauseAtUtc : Option Timestamp := none
  pausedAtUtc : Option Timestamp := none
  resumeAtUtc : Option Timestamp := none
  resumeWallAtUtc : Option Timestamp := none
  pauseReason : Option String := none
  pauseCount : Nat := 0
  lastError : Option String := none
  lastExitCode : Option Int := none
  lastFailureAtUtc : Option Timestamp := none
  recoveryAttempts : Nat := 0
  nextRecoveryAtUtc : Option Timestamp := none
  recoveryExhausted : Bool := false
  completedAtUtc : Option Timestamp := none
  finalOutputManifestRelativePath : Option String := none
  finalOutputManifestSha256 : Option String := none
  finalOutputBytes : Nat := 0
  startedAtUtc : Option Timestamp := none
  lastAccountedAtUtc : Option Timestamp := none
  accounting : TaskAccountingSnapshot := {}
  artifactDigests : List (String × String) := []
  deriving DecidableEq

/-- The adaptive policy state of a task; the store's merge reads these fields of it. -/
structure AdaptiveTaskPolicyState where
  taskId : TaskId
  decisionCount : Nat := 0
  updatedAtUtc : Timestamp
  deriving DecidableEq

/-- `AdaptivePolicyStore.merge`: what the store holds afterwards. -/
def AdaptiveTaskPolicyState.merge (current : Option AdaptiveTaskPolicyState)
    (incoming : AdaptiveTaskPolicyState) : AdaptiveTaskPolicyState :=
  match current with
  | none => incoming
  | some current =>
      if incoming.decisionCount < current.decisionCount ∨
          (incoming.decisionCount = current.decisionCount ∧
            incoming.updatedAtUtc ≤ current.updatedAtUtc) then current
      else incoming

/-- The ownership record of a node: who runs the task, at which fencing generation. -/
structure Ownership where
  generation : Nat
  owner : NodeId
  deriving DecidableEq

def TaskRuntimeState.ownership (s : TaskRuntimeState) : Ownership := ⟨s.generation, s.ownerNodeId⟩

end Magellan
