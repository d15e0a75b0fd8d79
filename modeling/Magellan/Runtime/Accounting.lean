import Magellan.State.PersistentRegistry

/-!
# Settlement of a task

`RuntimeAccountingService.settle_task` and `record_migration` as functions of the record they read.
The elapsed evaluation time, the prices and carbon intensities applied to it and the progress file
come from outside the registry and are inputs here.
-/

namespace Magellan.Accounting

open Registry

/-- What settlement reads outside the registry. -/
structure SettleInput where
  nowWall : Timestamp
  elapsedEvalSeconds : Rat
  computeCostUsd : Rat
  computeCarbonGrams : Rat
  /-- The result of `_progress_update`; it sets the progress fields only. -/
  estimatedRemainingSeconds : Option Rat := none
  progressCompletedUnits : Option Rat := none
  progressTotalUnits : Option Rat := none
  progressFraction : Option Rat := none
  progressRateUnitsPerSecond : Option Rat := none
  progressUpdatedAtUtc : Option Timestamp := none

/-- The arguments settlement passes to `record_accounting`. -/
def settleArgs (alive : Pid → Bool) (i : SettleInput) (s : TaskRuntimeState) : AccountingArgs :=
  let base : AccountingArgs := {
    lastAccountedAtUtc := some i.nowWall
    estimatedRemainingSeconds := i.estimatedRemainingSeconds
    progressCompletedUnits := i.progressCompletedUnits
    progressTotalUnits := i.progressTotalUnits
    progressFraction := i.progressFraction
    progressRateUnitsPerSecond := i.progressRateUnitsPerSecond
    progressUpdatedAtUtc := i.progressUpdatedAtUtc }
  if s.lastAccountedAtUtc = none then base
  else if s.status = .running ∧ s.pid.any alive then
    { base with
      runtimeSeconds := i.elapsedEvalSeconds
      computeCostUsd := i.computeCostUsd
      computeCarbonGrams := i.computeCarbonGrams }
  else if s.status = .paused ∧ s.pid.any alive then
    { base with pausedSeconds := i.elapsedEvalSeconds }
  else base

def settleTask (localNodeId : NodeId) (alive : Pid → Bool) (i : SettleInput)
    (s : TaskRuntimeState) : TaskRuntimeState :=
  if s.ownerNodeId ≠ localNodeId then s else recordAccounting (settleArgs alive i s) s

/-- The charge for moving the task; there is no owner or status check. -/
def recordMigration (migrationSeconds transferCostUsd transferCarbonGrams : Rat)
    (now : Timestamp) (s : TaskRuntimeState) : TaskRuntimeState :=
  recordAccounting {
    migrationSeconds, transferCostUsd, transferCarbonGrams,
    lastAccountedAtUtc := some now } s

end Magellan.Accounting
