import Magellan.State.PersistentRegistry

/-!
# Migration records, messages and the journal

The journal keeps one record for each migration id. It is listed in order of creation, so a list
with replacement in place models both the files and their listing; `updated_at_utc` is left out.
-/

namespace Magellan

inductive MigrationRole where
  | source
  | destination
  deriving DecidableEq, Repr

inductive MigrationStatus where
  | preparing
  | transferring
  | activating
  | activated
  | rolledBack
  | uncertain
  deriving DecidableEq, Repr

/-- The statuses in which a transaction is finished. -/
def MigrationStatus.isTerminal : MigrationStatus → Bool
  | .activated | .rolledBack => true
  | _ => false

structure ArtifactBinding where
  artifactId : String
  digest : String
  sizeBytes : Nat
  deriving DecidableEq

def bindingDigests (bindings : List ArtifactBinding) : List (String × String) :=
  bindings.map fun b => (b.artifactId, b.digest)

structure MigrationRecord where
  migrationId : MigrationId
  bidId : BidId
  taskId : TaskId
  sourceNodeId : NodeId
  destinationNodeId : NodeId
  generation : Nat
  migrationAtUtc : Timestamp
  role : MigrationRole
  status : MigrationStatus
  originalState : Option TaskRuntimeState := none
  pid : Option Pid := none
  error : Option String := none
  deriving DecidableEq

structure MigrationActivationRequest where
  migrationId : MigrationId
  bidId : BidId
  taskId : TaskId
  sourceNodeId : NodeId
  destinationNodeId : NodeId
  generation : Nat
  migrationAtUtc : Timestamp
  artifacts : List ArtifactBinding := []
  accounting : Option TaskAccountingSnapshot := none
  adaptivePolicy : Option AdaptiveTaskPolicyState := none
  deriving DecidableEq

structure MigrationActivationResponse where
  migrationId : MigrationId
  taskId : TaskId
  destinationNodeId : NodeId
  generation : Nat
  activated : Bool
  pid : Option Pid := none
  error : Option String := none
  deriving DecidableEq

abbrev Journal := List MigrationRecord

namespace Journal

def get (j : Journal) (m : MigrationId) : Option MigrationRecord :=
  j.find? fun r => r.migrationId = m

def put : Journal → MigrationRecord → Journal
  | [], r => [r]
  | x :: j, r => if x.migrationId = r.migrationId then r :: j else x :: put j r

/-- `_set_record_status`: the pid and the error are overwritten as well. -/
def setStatus (j : Journal) (m : MigrationId) (status : MigrationStatus)
    (pid : Option Pid := none) (error : Option String := none) : Journal :=
  match j.get m with
  | none => j
  | some r => j.put { r with status, pid, error }

theorem get_put_self (j : Journal) (r : MigrationRecord) :
    (j.put r).get r.migrationId = some r := by
  induction j with
  | nil => simp [put, get]
  | cons x j ih =>
      by_cases h : x.migrationId = r.migrationId
      · simp [put, get, h]
      · simpa [put, get, h] using ih

theorem get_put_of_ne (j : Journal) (r : MigrationRecord) {m : MigrationId}
    (ne : m ≠ r.migrationId) : (j.put r).get m = j.get m := by
  induction j with
  | nil => simp [put, get, ne.symm]
  | cons x j ih =>
      by_cases h : x.migrationId = r.migrationId
      · simp [put, get, h, ne.symm]
      · by_cases hm : x.migrationId = m
        · simp only [put, get, List.find?_cons, hm, decide_true]
          rw [if_neg (by simpa [hm] using h)]
          simp [hm]
        · simpa [put, get, h, hm] using ih

theorem get_migrationId {j : Journal} {m : MigrationId} {r : MigrationRecord}
    (h : j.get m = some r) : r.migrationId = m := by
  simpa using List.find?_some h

@[simp] theorem get_put (j : Journal) (r : MigrationRecord) (m : MigrationId) :
    (j.put r).get m = if m = r.migrationId then some r else j.get m := by
  by_cases h : m = r.migrationId
  · rw [if_pos h, h, get_put_self]
  · rw [if_neg h, get_put_of_ne j r h]

end Journal

end Magellan
