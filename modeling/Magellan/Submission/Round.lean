import Magellan.State.PersistentRegistry
import Magellan.Submission.Catalog

/-!
# A round of the reconciliation service

`DistributedReconciliationService`: the catalogs that the peers sent are merged one after another
and the runs that are new are registered; then the ownership updates are offered to the registry.
The migrations that a round looks at first are not part of this.
-/

namespace Magellan.Submission

variable {Payload : Type} [DecidableEq Payload]

structure TaskDefinition (Payload : Type) where
  taskId : TaskId
  currentNodeId : NodeId
  estimatedRemainingSeconds : Option Rat := none
  accumulatedCostUsd : Rat := 0
  payload : Payload
  deriving DecidableEq

def TaskDefinitionRecord.materialize (r : TaskDefinitionRecord Payload) (runId : RunId)
    (ownerNodeId : NodeId) : TaskDefinition Payload where
  taskId := runId
  currentNodeId := ownerNodeId
  estimatedRemainingSeconds := r.estimatedRemainingSeconds
  accumulatedCostUsd := r.accumulatedCostUsd
  payload := r.payload

def Catalog.materializeRun (run : TaskRunRecord) (c : Catalog Payload) :
    Except Exn (TaskDefinition Payload) :=
  match c.getDefinition run.definitionId (some run.revision) with
  | .error e => .error e
  | .ok definition =>
      if definition.digest ≠ run.definitionDigest then
        .error (runtimeError s!"Definition digest mismatch for task run {run.runId}")
      else .ok (definition.materialize run.runId run.initialOwnerNodeId)

/-- The registry: the definitions in memory, and the state files. -/
structure TaskRegistry (Payload : Type) where
  localNodeId : NodeId
  definitions : Dict TaskId (TaskDefinition Payload) := .empty
  states : Dict TaskId TaskRuntimeState := .empty

namespace TaskRegistry

/-- `_initialize_state_if_missing`; `io` is the error of the file system, if it fails. -/
def initializeStateIfMissing (d : TaskDefinition Payload) (io : Option Exn)
    (g : TaskRegistry Payload) : Except Exn Unit × TaskRegistry Payload :=
  if (g.states.get? d.taskId).isSome then (.ok (), g)
  else match io with
    | some e => (.error e, g)
    | none =>
        let s := Registry.initialState g.localNodeId d.taskId d.currentNodeId
          d.estimatedRemainingSeconds d.accumulatedCostUsd
        (.ok (), { g with states := g.states.set d.taskId s })

def registerDefinition (d : TaskDefinition Payload) (io : Option Exn) (g : TaskRegistry Payload) :
    Except Exn Bool × TaskRegistry Payload :=
  match g.definitions.get? d.taskId with
  | some existing =>
      if existing ≠ d then
        (.error (runtimeError s!"Conflicting task definition for {d.taskId}"), g)
      else (.ok false, g)
  | none =>
      let (written, g) := initializeStateIfMissing d io
        { g with definitions := g.definitions.set d.taskId d }
      (written.map fun _ => true, g)

def getState (taskId : TaskId) (g : TaskRegistry Payload) : Except Exn TaskRuntimeState :=
  match g.definitions.get? taskId with
  | none => .error (keyError s!"Unknown Magellan task definition: {taskId}")
  | some _ =>
      match g.states.get? taskId with
      | none => .error ⟨.fileNotFoundError, taskId⟩
      | some s => .ok s

def setState (taskId : TaskId) (s : TaskRuntimeState) (g : TaskRegistry Payload) :
    TaskRegistry Payload :=
  { g with states := g.states.set taskId s }

/-- `apply_ownership`; `none` where it returns `False`. -/
def applyOwnership (taskId : TaskId) (u : Registry.OwnershipUpdate) (g : TaskRegistry Payload) :
    Except Exn (Option (TaskRegistry Payload)) :=
  (g.getState taskId).map fun s =>
    (Registry.applyOwnership g.localNodeId u s).map (setState taskId · g)

def setArtifactDigests (taskId : TaskId) (digests : List (String × String))
    (g : TaskRegistry Payload) : Except Exn (TaskRegistry Payload) :=
  (g.getState taskId).map fun s => g.setState taskId (Registry.setArtifactDigests digests s)

end TaskRegistry

/-- What the service works on. -/
structure Node (Payload : Type) where
  store : TaskCatalogStore Payload
  registry : TaskRegistry Payload
  adaptivePolicies : Dict TaskId AdaptiveTaskPolicyState := .empty

/-- The errors of the file system in one turn. -/
structure Disk where
  catalog : Option Exn := none
  state : TaskId → Option Exn := fun _ => none

abbrev Update := TaskId × Registry.OwnershipUpdate

namespace Node

/-- The loop over the runs that a merge has added. -/
def registerRuns (disk : Disk) : List TaskRunRecord → Node Payload → Except Exn Nat × Node Payload
  | [], n => (.ok 0, n)
  | run :: runs, n =>
      match n.store.memory.materializeRun run with
      | .error e => (.error e, n)
      | .ok d =>
          match n.registry.registerDefinition d (disk.state d.taskId) with
          | (.error e, g) => (.error e, { n with registry := g })
          | (.ok _, g) =>
              let (count, n) := registerRuns disk runs { n with registry := g }
              (count.map (· + 1), n)

/-- The turn of one catalog; how many definitions and runs were added. -/
def absorb (disk : Disk) (snapshot : TaskCatalogSnapshot Payload) (n : Node Payload) :
    Except Exn (Nat × Nat) × Node Payload :=
  match n.store.mergeSnapshot snapshot disk.catalog with
  | (.error e, s) => (.error e, { n with store := s })
  | (.ok added, s) =>
      let (count, n) := registerRuns disk added.2 { n with store := s }
      (count.map (added.1.length, ·), n)

/-- `_reconcile_catalog`. -/
def reconcileCatalog : List (Disk × TaskCatalogSnapshot Payload) → Node Payload →
    Except Exn (Nat × Nat) × Node Payload
  | [], n => (.ok (0, 0), n)
  | (disk, snapshot) :: later, n =>
      match n.absorb disk snapshot with
      | (.error e, n) => (.error e, n)
      | (.ok added, n) =>
          let (counts, n) := reconcileCatalog later n
          (counts.map fun c => (added.1 + c.1, added.2 + c.2), n)

/-- The adaptive policy that comes with an update, under the id that it names itself. -/
def mergePolicy (policy : Option AdaptiveTaskPolicyState) (n : Node Payload) : Node Payload :=
  match policy with
  | none => n
  | some incoming =>
      let kept := .merge (n.adaptivePolicies.get? incoming.taskId) incoming
      { n with adaptivePolicies := n.adaptivePolicies.set incoming.taskId kept }

/-- The body of the `try`; whether the update was applied. -/
def apply (u : Update) (n : Node Payload) : Except Exn Bool × Node Payload :=
  match n.registry.applyOwnership u.1 u.2 with
  | .error e => (.error e, n)
  | .ok none => (.ok false, n)
  | .ok (some g) =>
      if u.2.artifactDigests.isEmpty then
        (.ok true, mergePolicy u.2.adaptivePolicy { n with registry := g })
      else match g.setArtifactDigests u.1 u.2.artifactDigests with
        | .error e => (.error e, { n with registry := g })
        | .ok g => (.ok true, mergePolicy u.2.adaptivePolicy { n with registry := g })

/-- One update, with `except KeyError: continue`. -/
def offer (u : Update) (n : Node Payload) : Except Exn Bool × Node Payload :=
  match n.apply u with
  | (.error e, n) => if e.cls = .keyError then (.ok false, n) else (.error e, n)
  | (.ok applied, n) => (.ok applied, n)

/-- The outcome of the loop over the updates, which of them were applied, and what is left. -/
structure Repairs (Payload : Type) where
  outcome : Except Exn Unit
  applied : List Update
  node : Node Payload

def repair : List Update → Node Payload → Repairs Payload
  | [], n => ⟨.ok (), [], n⟩
  | u :: us, n =>
      match n.offer u with
      | (.error e, n) => ⟨.error e, [], n⟩
      | (.ok applied, n) =>
          let rest := repair us n
          if applied then { rest with applied := u :: rest.applied } else rest

/-- What a round returns, which updates it has applied, and what it leaves. -/
structure Round (Payload : Type) where
  outcome : Except Exn Nat
  applied : List Update
  node : Node Payload

/-- `run_once` of a service that is enabled. -/
def runOnce (catalogs : List (TaskCatalogSnapshot Payload)) (updates : List Update)
    (n : Node Payload) : Round Payload :=
  match n.reconcileCatalog (catalogs.map ({}, ·)) with
  | (.error e, n) => ⟨.error e, [], n⟩
  | (.ok (definitions, runs), n) =>
      let repairs := n.repair updates
      ⟨repairs.outcome.map fun _ => repairs.applied.length + definitions + runs, repairs.applied,
        repairs.node⟩

end Node

end Magellan.Submission
