import Magellan.Migration.Models
import Magellan.Bidding.Store
import Magellan.Runtime.Accounting

/-!
# The nodes and the network

The state of one task at every node, and the messages about it. Messages stay in flight for ever
and may be received at any time and any number of times: loss, delay and duplication are all runs
of this network. The log is a history variable; no program reads it.
-/

namespace Magellan

open Registry (OwnershipUpdate)

/-- A directory as the list of its files, in the order in which they are copied. -/
abbrev Directory := List (String × String)

/-- The registry operations the services call, with their arguments. -/
inductive RegistryOp where
  | markRunning (pid : Pid) (runtimeAdapter : Option String) (launchCommand : Option (List String))
      (resumedFromCheckpoint : Bool)
  | markStopped
  | markMigrating (migrationId : MigrationId)
  | markFailed (error : String) (exitCode : Option Int)
  | markRecoveryExhausted (error : String)
  | claimLocal (generation : Nat) (migrationId : MigrationId)
      (artifactDigests : List (String × String)) (migrationAtUtc : Timestamp)
      (accounting : Option TaskAccountingSnapshot)
  | markRemote (ownerNodeId : NodeId) (generation : Nat) (migrationId : MigrationId)
      (migrationAtUtc : Timestamp)
  | restoreLocalAfterFailure (generation : Nat) (error : String)
  /-- The whole-state write of `_rollback_source_record`. -/
  | restoreOriginal (record : MigrationRecord) (reason : String)
  /-- The whole-state write of a rolled back activation. -/
  | setState (state : TaskRuntimeState)

/-- What `_rollback_source_record` writes for a record that has an original state. -/
def restoredState (localNodeId : NodeId) (generation : Nat) (reason : String)
    (original : TaskRuntimeState) : TaskRuntimeState :=
  { original with
    ownerNodeId := localNodeId
    generation := generation - 1
    status := .stopped
    pid := none
    lastError := some reason }

def RegistryOp.apply (localNodeId : NodeId) (now : Timestamp) :
    RegistryOp → TaskRuntimeState → Except Exn TaskRuntimeState
  | .markRunning pid adapter command resumed, s =>
      Registry.markRunning localNodeId pid adapter command resumed now s
  | .markStopped, s => .ok (Registry.markStopped s)
  | .markMigrating m, s => Registry.markMigrating localNodeId m s
  | .markFailed error exitCode, s => .ok (Registry.markFailed error exitCode now s)
  | .markRecoveryExhausted error, s => .ok (Registry.markRecoveryExhausted error s)
  | .claimLocal generation m digests at_ accounting, s =>
      Registry.claimLocal localNodeId generation m digests at_ accounting s
  | .markRemote owner generation m at_, s => .ok (Registry.markRemote owner generation m at_ s)
  | .restoreLocalAfterFailure generation error, s =>
      .ok (Registry.restoreLocalAfterFailure localNodeId generation error s)
  | .restoreOriginal record reason, s =>
      match record.originalState with
      | some original => .ok (restoredState localNodeId record.generation reason original)
      | none => .ok (Registry.restoreLocalAfterFailure localNodeId (record.generation - 1) reason s)
  | .setState state, _ => .ok state

/-- The marker a workload leaves when it finishes. -/
structure CompletionMarker where
  completedAtUtc : Timestamp
  manifestRelativePath : String
  manifestSha256 : String
  outputBytes : Nat
  deriving DecidableEq

structure NodeState where
  /-- `state.json` of the task. -/
  registry : TaskRuntimeState
  journal : Journal := []
  bids : Bids := fun _ => none
  policy : Option AdaptiveTaskPolicyState := none
  /-- The checkpoint directory, if it exists. -/
  checkpoint : Option Directory := none
  /-- The directories `checkpoint.rollback-<migration id>`. -/
  backups : MigrationId → Option Directory := fun _ => none
  completionMarker : Option CompletionMarker := none
  /-- The live processes of the task; they survive a crash of the daemon. -/
  processes : List Pid := []
  /-- A process that `start` has spawned and not yet recorded; lost in a crash. -/
  starting : Option Pid := none
  /-- The records a durable reconciliation pass still holds; lost in a crash. -/
  pass : List MigrationRecord := []

def NodeState.isAlive (s : NodeState) (pid : Pid) : Bool := pid ∈ s.processes

inductive LogEntry where
  /-- A journal write, with the ownership the node recorded at that moment. -/
  | journal (node : NodeId) (record : MigrationRecord) (held : Ownership)
  | registry (node : NodeId) (op : RegistryOp)

structure World where
  nodes : NodeId → NodeState
  /-- The directories `incoming/<migration id>` of each node. -/
  incoming : NodeId → MigrationId → Option Directory := fun _ _ => none
  requests : List MigrationActivationRequest := []
  responses : List MigrationActivationResponse := []
  queries : List (NodeId × MigrationId) := []
  /-- Answers to status queries; `none` is a 404. -/
  answers : List (NodeId × MigrationId × Option MigrationRecord) := []
  updates : List OwnershipUpdate := []
  cancels : List (NodeId × BidId) := []
  log : List LogEntry := []

namespace World

def modify (w : World) (n : NodeId) (f : NodeState → NodeState) : World :=
  { w with nodes := fun i => if i = n then f (w.nodes i) else w.nodes i }

@[simp] theorem modify_self (w : World) (n : NodeId) (f : NodeState → NodeState) :
    (w.modify n f).nodes n = f (w.nodes n) := if_pos rfl

theorem modify_of_ne (w : World) (f : NodeState → NodeState) {n i : NodeId} (ne : i ≠ n) :
    (w.modify n f).nodes i = w.nodes i := if_neg ne

theorem modify_nodes (w : World) (n i : NodeId) (f : NodeState → NodeState) :
    (w.modify n f).nodes i = if i = n then f (w.nodes i) else w.nodes i := rfl

end World

end Magellan
