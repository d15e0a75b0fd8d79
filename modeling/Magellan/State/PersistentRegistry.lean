import Magellan.State.TaskModels

/-!
# The persistent task registry

Each operation of the registry is a read, a change of the record and a write; it is given here as
the function from the record read to the record written (the record itself where the operation
returns without writing).
-/

namespace Magellan.Registry

section

variable (localNodeId : NodeId)

/-- The state written for a task that has none yet. -/
def initialState (taskId : TaskId) (currentNodeId : NodeId) (remaining : Option Rat)
    (accumulatedCostUsd : Rat) : TaskRuntimeState where
  taskId := taskId
  ownerNodeId := currentNodeId
  status := if currentNodeId = localNodeId then .stopped else .remote
  accounting := {
    estimatedRemainingSeconds := remaining
    accumulatedComputeCostUsd := accumulatedCostUsd
    accumulatedCostUsd := accumulatedCostUsd }

def setArtifactDigests (digests : List (String × String)) (s : TaskRuntimeState) :
    TaskRuntimeState :=
  { s with artifactDigests := digests }

def applyAccountingSnapshot (snapshot : TaskAccountingSnapshot) (s : TaskRuntimeState) :
    TaskRuntimeState :=
  { s with accounting := snapshot }

/-- The arguments of `record_accounting`, with its defaults. -/
structure AccountingArgs where
  runtimeSeconds : Rat := 0
  pausedSeconds : Rat := 0
  migrationSeconds : Rat := 0
  computeCostUsd : Rat := 0
  transferCostUsd : Rat := 0
  computeCarbonGrams : Rat := 0
  transferCarbonGrams : Rat := 0
  lastAccountedAtUtc : Option Timestamp := none
  estimatedRemainingSeconds : Option Rat := none
  progressCompletedUnits : Option Rat := none
  progressTotalUnits : Option Rat := none
  progressFraction : Option Rat := none
  progressRateUnitsPerSecond : Option Rat := none
  progressUpdatedAtUtc : Option Timestamp := none
  deriving DecidableEq

def recordAccounting (args : AccountingArgs) (s : TaskRuntimeState) : TaskRuntimeState :=
  let a := s.accounting
  let computeCost := a.accumulatedComputeCostUsd + max 0 args.computeCostUsd
  let transferCost := a.accumulatedTransferCostUsd + max 0 args.transferCostUsd
  let computeCarbon := a.accumulatedComputeCarbonGrams + max 0 args.computeCarbonGrams
  let transferCarbon := a.accumulatedTransferCarbonGrams + max 0 args.transferCarbonGrams
  { s with
    lastAccountedAtUtc := args.lastAccountedAtUtc <|> s.lastAccountedAtUtc
    accounting := {
      accumulatedRuntimeSeconds := a.accumulatedRuntimeSeconds + max 0 args.runtimeSeconds
      accumulatedPausedSeconds := a.accumulatedPausedSeconds + max 0 args.pausedSeconds
      accumulatedMigrationSeconds := a.accumulatedMigrationSeconds + max 0 args.migrationSeconds
      accumulatedComputeCostUsd := computeCost
      accumulatedTransferCostUsd := transferCost
      accumulatedCostUsd := computeCost + transferCost
      accumulatedComputeCarbonGrams := computeCarbon
      accumulatedTransferCarbonGrams := transferCarbon
      accumulatedCarbonGrams := computeCarbon + transferCarbon
      estimatedRemainingSeconds :=
        (args.estimatedRemainingSeconds.map (max 0 ·)) <|> a.estimatedRemainingSeconds
      progressCompletedUnits := args.progressCompletedUnits <|> a.progressCompletedUnits
      progressTotalUnits := args.progressTotalUnits <|> a.progressTotalUnits
      progressFraction := args.progressFraction <|> a.progressFraction
      progressRateUnitsPerSecond :=
        args.progressRateUnitsPerSecond <|> a.progressRateUnitsPerSecond
      progressUpdatedAtUtc := args.progressUpdatedAtUtc <|> a.progressUpdatedAtUtc } }

def markRunning (pid : Pid) (runtimeAdapter : Option String) (launchCommand : Option (List String))
    (resumedFromCheckpoint : Bool) (now : Timestamp) (s : TaskRuntimeState) :
    Except Exn TaskRuntimeState :=
  if s.ownerNodeId ≠ localNodeId then
    .error (runtimeError s!"Cannot run {s.taskId}; owner is {s.ownerNodeId}")
  else if s.status = .completed then
    .error (runtimeError s!"Cannot start completed task {s.taskId}")
  else
    .ok { s with
      status := .running
      pid := some pid
      processGroupId := some pid
      runtimeAdapter := runtimeAdapter <|> s.runtimeAdapter
      launchCommand := launchCommand.getD s.launchCommand
      resumedFromCheckpoint := resumedFromCheckpoint
      startedAtUtc := s.startedAtUtc <|> some now
      lastAccountedAtUtc := some now
      pausedAtUtc := none
      resumeAtUtc := none
      resumeWallAtUtc := none
      pauseReason := none
      lastError := none
      lastExitCode := none
      nextRecoveryAtUtc := none
      recoveryExhausted := false }

def markPaused (pausedAtUtc resumeAtUtc resumeWallAtUtc : Timestamp) (reason : String)
    (now : Timestamp) (s : TaskRuntimeState) : Except Exn TaskRuntimeState :=
  if s.ownerNodeId ≠ localNodeId then
    .error (runtimeError s!"Cannot pause {s.taskId}; owner is {s.ownerNodeId}")
  else if s.status ≠ .running ∨ s.pid = none then
    .error (runtimeError s!"Cannot pause {s.taskId}; status is {s.status.value}")
  else
    .ok { s with
      status := .paused
      pausedAtUtc := some pausedAtUtc
      resumeAtUtc := some resumeAtUtc
      resumeWallAtUtc := some resumeWallAtUtc
      lastPauseAtUtc := some pausedAtUtc
      pauseReason := some reason
      pauseCount := s.pauseCount + 1
      lastAccountedAtUtc := some now }

def markResumed (now : Timestamp) (s : TaskRuntimeState) : Except Exn TaskRuntimeState :=
  if s.ownerNodeId ≠ localNodeId then
    .error (runtimeError s!"Cannot resume {s.taskId}; owner is {s.ownerNodeId}")
  else if s.status ≠ .paused ∨ s.pid = none then
    .error (runtimeError s!"Cannot resume {s.taskId}; status is {s.status.value}")
  else
    .ok { s with
      status := .running
      pausedAtUtc := none
      resumeAtUtc := none
      resumeWallAtUtc := none
      pauseReason := none
      lastAccountedAtUtc := some now }

def markStopped (s : TaskRuntimeState) : TaskRuntimeState :=
  if s.status = .completed then s
  else
    { s with
      status := .stopped
      pid := none
      processGroupId := none
      pausedAtUtc := none
      resumeAtUtc := none
      resumeWallAtUtc := none
      pauseReason := none
      lastExitCode := none }

def markMigrating (migrationId : MigrationId) (s : TaskRuntimeState) :
    Except Exn TaskRuntimeState :=
  if s.ownerNodeId ≠ localNodeId then
    .error (runtimeError s!"Cannot migrate {s.taskId}; owner is {s.ownerNodeId}")
  else if s.status = .completed then
    .error (runtimeError s!"Cannot migrate completed task {s.taskId}")
  else
    .ok { s with
      status := .migrating
      lastMigrationId := some migrationId }

def markFailed (error : String) (exitCode : Option Int) (now : Timestamp)
    (s : TaskRuntimeState) : TaskRuntimeState :=
  { s with
    status := .failed
    pid := none
    processGroupId := none
    lastError := some error
    lastExitCode := exitCode
    lastFailureAtUtc := some now
    pausedAtUtc := none
    resumeAtUtc := none
    resumeWallAtUtc := none
    pauseReason := none
    nextRecoveryAtUtc := none }

def scheduleRecovery (recoverAtUtc : Timestamp) (s : TaskRuntimeState) : TaskRuntimeState :=
  if s.status ≠ .failed then s else { s with nextRecoveryAtUtc := some recoverAtUtc }

def beginRecovery (s : TaskRuntimeState) : Except Exn TaskRuntimeState :=
  if s.ownerNodeId ≠ localNodeId then
    .error (runtimeError s!"Cannot recover {s.taskId}; owner is {s.ownerNodeId}")
  else if s.status ≠ .failed then
    .error (runtimeError s!"Cannot recover {s.taskId}; status is {s.status.value}")
  else
    .ok { s with
      status := .recovering
      recoveryAttempts := s.recoveryAttempts + 1
      nextRecoveryAtUtc := none }

def markRecoveryExhausted (error : String) (s : TaskRuntimeState) : TaskRuntimeState :=
  { s with
    status := .failed
    pid := none
    processGroupId := none
    lastError := some error
    nextRecoveryAtUtc := none
    recoveryExhausted := true }

def markCompleted (completedAtUtc : Timestamp) (manifestRelativePath manifestSha256 : String)
    (outputBytes : Nat) (exitCode : Option Int) (s : TaskRuntimeState) :
    Except Exn TaskRuntimeState :=
  if s.ownerNodeId ≠ localNodeId then
    .error (runtimeError s!"Cannot complete {s.taskId}; owner is {s.ownerNodeId}")
  else
    .ok { s with
      status := .completed
      pid := none
      processGroupId := none
      lastError := none
      lastExitCode := exitCode
      completedAtUtc := some completedAtUtc
      pausedAtUtc := none
      resumeAtUtc := none
      resumeWallAtUtc := none
      pauseReason := none
      finalOutputManifestRelativePath := some manifestRelativePath
      finalOutputManifestSha256 := some manifestSha256
      finalOutputBytes := outputBytes
      nextRecoveryAtUtc := none
      recoveryExhausted := false }

def claimLocal (generation : Nat) (migrationId : MigrationId)
    (artifactDigests : List (String × String)) (migrationAtUtc : Timestamp)
    (accounting : Option TaskAccountingSnapshot) (s : TaskRuntimeState) :
    Except Exn TaskRuntimeState :=
  if generation < s.generation then
    .error (runtimeError s!"Stale generation {generation}; current generation is {s.generation}")
  else
    .ok { s with
      ownerNodeId := localNodeId
      generation := generation
      status := .stopped
      pid := none
      processGroupId := none
      pausedAtUtc := none
      resumeAtUtc := none
      resumeWallAtUtc := none
      pauseReason := none
      lastMigrationId := some migrationId
      lastMigrationAtUtc := some migrationAtUtc
      lastError := none
      lastExitCode := none
      artifactDigests := artifactDigests
      accounting := accounting.getD s.accounting }

def markRemote (ownerNodeId : NodeId) (generation : Nat) (migrationId : MigrationId)
    (migrationAtUtc : Timestamp) (s : TaskRuntimeState) : TaskRuntimeState :=
  if s.generation = generation ∧ s.ownerNodeId = ownerNodeId ∧ s.status = .completed then s
  else
    { s with
      ownerNodeId := ownerNodeId
      generation := generation
      status := .remote
      pid := none
      processGroupId := none
      pausedAtUtc := none
      resumeAtUtc := none
      resumeWallAtUtc := none
      pauseReason := none
      lastMigrationId := some migrationId
      lastMigrationAtUtc := some migrationAtUtc
      lastError := none
      lastExitCode := none }

def restoreLocalAfterFailure (generation : Nat) (error : String) (s : TaskRuntimeState) :
    TaskRuntimeState :=
  { s with
    ownerNodeId := localNodeId
    generation := generation
    status := .stopped
    pid := none
    processGroupId := none
    pausedAtUtc := none
    resumeAtUtc := none
    resumeWallAtUtc := none
    pauseReason := none
    lastError := some error
    lastExitCode := none }

end

/-! ## Ownership gossip -/

/-- What a node publishes about a task (`migration/models.py`). -/
structure OwnershipUpdate where
  ownerNodeId : NodeId
  generation : Nat
  lastMigrationId : Option MigrationId := none
  migrationAtUtc : Option Timestamp := none
  artifactDigests : List (String × String) := []
  status : Option TaskStatus := none
  completedAtUtc : Option Timestamp := none
  finalOutputManifestSha256 : Option String := none
  finalOutputBytes : Option Nat := none
  accounting : Option TaskAccountingSnapshot := none
  adaptivePolicy : Option AdaptiveTaskPolicyState := none
  deriving DecidableEq

/-- Apply an update; `none` where the source returns `False`. -/
def applyOwnership (localNodeId : NodeId) (u : OwnershipUpdate) (s : TaskRuntimeState) :
    Option TaskRuntimeState :=
  if u.generation < s.generation then none
  else if u.generation = s.generation ∧ u.ownerNodeId ≠ s.ownerNodeId then none
  else if u.generation = s.generation ∧ s.status = .completed ∧ u.status ≠ some .completed then none
  else
    let s := { s with
      ownerNodeId := u.ownerNodeId
      generation := u.generation
      accounting := u.accounting.getD s.accounting
      lastMigrationId := u.lastMigrationId <|> s.lastMigrationId
      lastMigrationAtUtc := u.migrationAtUtc <|> s.lastMigrationAtUtc }
    if u.status = some .completed then
      some { s with
        status := .completed
        pid := none
        processGroupId := none
        pausedAtUtc := none
        resumeAtUtc := none
        resumeWallAtUtc := none
        pauseReason := none
        completedAtUtc := u.completedAtUtc
        finalOutputManifestSha256 := u.finalOutputManifestSha256
        finalOutputBytes := u.finalOutputBytes.getD s.finalOutputBytes }
    else if u.ownerNodeId ≠ localNodeId then
      some { s with
        status := .remote
        pid := none
        processGroupId := none
        pausedAtUtc := none
        resumeAtUtc := none
        resumeWallAtUtc := none
        pauseReason := none }
    else some s

/-- The update a node exports for its own record. -/
def ownershipUpdate (s : TaskRuntimeState) : OwnershipUpdate where
  ownerNodeId := s.ownerNodeId
  generation := s.generation
  lastMigrationId := s.lastMigrationId
  migrationAtUtc := s.lastMigrationAtUtc
  artifactDigests := s.artifactDigests
  status := if s.status = .completed then some .completed else none
  completedAtUtc := s.completedAtUtc
  finalOutputManifestSha256 := s.finalOutputManifestSha256
  finalOutputBytes := some s.finalOutputBytes
  accounting := some s.accounting

end Magellan.Registry
