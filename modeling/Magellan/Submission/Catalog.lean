import Magellan.Data.Dict
import Magellan.Data.Insertion
import Magellan.State.TaskModels
import Mathlib.Data.List.Sort
import Mathlib.Data.Prod.Lex
import Mathlib.Data.String.Basic

/-!
# The task catalog

Immutable task definitions in revisions, and the runs that were created of them. The file holds the
JSON form of the records, which reads back as they were.
-/

namespace Magellan.Submission

abbrev DefinitionId := String
abbrev RunId := String
abbrev Digest := String

/-- The runtime, the artifacts and the rest of the profile are one component here. -/
structure TaskDefinitionSubmission (Payload : Type) where
  definitionId : DefinitionId
  estimatedRemainingSeconds : Option Rat := none
  accumulatedCostUsd : Rat := 0
  payload : Payload
  deriving DecidableEq

structure TaskDefinitionRecord (Payload : Type) extends TaskDefinitionSubmission Payload where
  revision : Nat
  digest : Digest
  originNodeId : NodeId
  createdAtUtc : Timestamp
  deriving DecidableEq

structure TaskRunSubmission where
  definitionId : DefinitionId
  revision : Option Nat := none
  initialOwnerNodeId : Option NodeId := none
  idempotencyKey : String
  autoStart : Bool := false
  /-- In the order of their names. -/
  labels : List (String × String) := []
  deriving DecidableEq

structure TaskRunRecord where
  runId : RunId
  definitionId : DefinitionId
  revision : Nat
  definitionDigest : Digest
  originNodeId : NodeId
  initialOwnerNodeId : NodeId
  idempotencyKey : String
  requestDigest : Digest
  autoStart : Bool := false
  labels : List (String × String) := []
  createdAtUtc : Timestamp
  deriving DecidableEq

structure TaskCatalogSnapshot (Payload : Type) where
  reportingNodeId : NodeId
  definitions : List (TaskDefinitionRecord Payload) := []
  runs : List TaskRunRecord := []

/-- `canonical_digest`, which raises for a number that is not finite. -/
structure Digests (Payload : Type) where
  definition : TaskDefinitionSubmission Payload → Except Exn Digest
  run : TaskRunSubmission → Digest

/-- `task_catalog.json`. -/
structure CatalogFile (Payload : Type) where
  definitions : List (TaskDefinitionRecord Payload)
  runs : List TaskRunRecord

def TaskDefinitionRecord.key {Payload : Type} (r : TaskDefinitionRecord Payload) :
    DefinitionId × Nat :=
  (r.definitionId, r.revision)

/-- What the store holds in memory: each record under its own key. -/
@[ext] structure Catalog (Payload : Type) where
  definitions : Dict (DefinitionId × Nat) (TaskDefinitionRecord Payload)
  runs : Dict RunId TaskRunRecord
  definitionKeys : ∀ e ∈ definitions.entries, e.2.key = e.1
  runKeys : ∀ e ∈ runs.entries, e.2.runId = e.1

structure TaskCatalogStore (Payload : Type) where
  localNodeId : NodeId
  memory : Catalog Payload
  file : Option (CatalogFile Payload)

def keyError (message : String) : Exn := ⟨.keyError, message⟩

def valueError (message : String) : Exn := ⟨.valueError, message⟩

variable {Payload : Type}

namespace Catalog

theorem noEntries {κ α : Type} {p : κ × α → Prop} : ∀ e ∈ (Dict.empty : Dict κ α).entries, p e := by
  intro e member
  cases member

def empty : Catalog Payload := ⟨.empty, .empty, noEntries, noEntries⟩

/-- The catalog of the records of a file; of two records with one key the later one counts. -/
def ofRecords (definitions : List (TaskDefinitionRecord Payload)) (runs : List TaskRunRecord) :
    Catalog Payload where
  definitions := .ofList (definitions.map fun r => (r.key, r))
  runs := .ofList (runs.map fun r => (r.runId, r))
  definitionKeys := Dict.forall_ofList fun e member => by
    obtain ⟨r, -, rfl⟩ := List.mem_map.mp member
    rfl
  runKeys := Dict.forall_ofList fun e member => by
    obtain ⟨r, -, rfl⟩ := List.mem_map.mp member
    rfl

variable (c : Catalog Payload)

def listDefinitions : List (TaskDefinitionRecord Payload) :=
  (c.definitions.entries.insertionSort fun a b => toLex a.1 ≤ toLex b.1).map Prod.snd

def listRuns : List TaskRunRecord :=
  (c.runs.entries.insertionSort fun a b => a.1 ≤ b.1).map Prod.snd

/-- The records of `definition_id`. -/
def candidates (definitionId : DefinitionId) : List (TaskDefinitionRecord Payload) :=
  c.definitions.values.filter (·.definitionId = definitionId)

/-- `max(.., key=lambda item: item.revision)`: the first of the greatest. -/
def latest : List (TaskDefinitionRecord Payload) → Option (TaskDefinitionRecord Payload)
  | [] => none
  | r :: rs => some (rs.foldl (fun best r => if best.revision < r.revision then r else best) r)

def getDefinition (definitionId : DefinitionId) (revision : Option Nat) :
    Except Exn (TaskDefinitionRecord Payload) :=
  match latest (c.candidates definitionId), revision with
  | none, _ => .error (keyError s!"Unknown task definition: {definitionId}")
  | some newest, none => .ok newest
  | some _, some revision =>
      match c.definitions.get? (definitionId, revision) with
      | some r => .ok r
      | none =>
          .error (keyError s!"Unknown task definition revision: {definitionId}@{revision}")

def getRun (runId : RunId) : Except Exn TaskRunRecord :=
  match c.runs.get? runId with
  | some run => .ok run
  | none => .error (keyError s!"Unknown task run: {runId}")

def addDefinition (r : TaskDefinitionRecord Payload) : Catalog Payload where
  definitions := c.definitions.set r.key r
  runs := c.runs
  definitionKeys := Dict.forall_set c.definitionKeys rfl
  runKeys := c.runKeys

def addRun (r : TaskRunRecord) : Catalog Payload where
  definitions := c.definitions
  runs := c.runs.set r.runId r
  definitionKeys := c.definitionKeys
  runKeys := Dict.forall_set c.runKeys rfl

/-- One definition of a snapshot; `none` where the catalog has it already. -/
def mergeDefinition (incoming : TaskDefinitionRecord Payload) :
    Except Exn (Option (Catalog Payload)) :=
  match c.definitions.get? incoming.key with
  | some held =>
      if held.digest ≠ incoming.digest then
        .error (runtimeError s!"Conflicting immutable task definition {incoming.definitionId}@{incoming.revision}")
      else .ok none
  | none => .ok (some (c.addDefinition incoming))

/-- One run of a snapshot; `none` where the catalog has it already. -/
def mergeRun (incoming : TaskRunRecord) : Except Exn (Option (Catalog Payload)) :=
  if c.runs.values.any fun existing =>
      existing.idempotencyKey = incoming.idempotencyKey ∧ existing.runId ≠ incoming.runId then
    .error (runtimeError s!"Conflicting task runs use idempotency key {incoming.idempotencyKey}")
  else match c.runs.get? incoming.runId with
    | some held =>
        if held ≠ incoming then
          .error (runtimeError s!"Conflicting immutable task run {incoming.runId}")
        else .ok none
    | none =>
        match c.getDefinition incoming.definitionId (some incoming.revision) with
        | .error e => .error e
        | .ok definition =>
            if definition.digest ≠ incoming.definitionDigest then
              .error (runtimeError s!"Definition digest mismatch for replicated run {incoming.runId}")
            else .ok (some (c.addRun incoming))

def mergeDefinitions (incoming : List (TaskDefinitionRecord Payload)) :
    Except Exn (List (TaskDefinitionRecord Payload)) × Catalog Payload :=
  Insertion.insertAll (fun r c => mergeDefinition c r) incoming c

def mergeRuns (incoming : List TaskRunRecord) :
    Except Exn (List TaskRunRecord) × Catalog Payload :=
  Insertion.insertAll (fun r c => mergeRun c r) incoming c

/-- The two loops of `merge_snapshot`. -/
def merge (snapshot : TaskCatalogSnapshot Payload) :
    Except Exn (List (TaskDefinitionRecord Payload) × List TaskRunRecord) × Catalog Payload :=
  match c.mergeDefinitions snapshot.definitions with
  | (.error e, c) => (.error e, c)
  | (.ok definitions, c) =>
      match c.mergeRuns snapshot.runs with
      | (.error e, c) => (.error e, c)
      | (.ok runs, c) => (.ok (definitions, runs), c)

end Catalog

namespace TaskCatalogStore

/-- What `_persist` writes. -/
def dump (c : Catalog Payload) : CatalogFile Payload := ⟨c.listDefinitions, c.listRuns⟩

/-- What `_load` reads. -/
def load : Option (CatalogFile Payload) → Catalog Payload
  | none => .empty
  | some file => .ofRecords file.definitions file.runs

/-- The store of a node that has no catalog file. -/
def new (localNodeId : NodeId) : TaskCatalogStore Payload := ⟨localNodeId, .empty, none⟩

/-- The store after a restart of the daemon. -/
def restart (s : TaskCatalogStore Payload) : TaskCatalogStore Payload :=
  { s with memory := load s.file }

/-- `_persist`; `io` is the error of the file system, if it fails. -/
def persist (io : Option Exn) (s : TaskCatalogStore Payload) :
    Except Exn Unit × TaskCatalogStore Payload :=
  match io with
  | some e => (.error e, s)
  | none => (.ok (), { s with file := some (dump s.memory) })

/-- `origin_node_id or self._local_node_id`. -/
def origin (originNodeId : Option NodeId) (s : TaskCatalogStore Payload) : NodeId :=
  match originNodeId with
  | some n => if n = "" then s.localNodeId else n
  | none => s.localNodeId

def registerDefinition (digests : Digests Payload) (submission : TaskDefinitionSubmission Payload)
    (originNodeId : Option NodeId) (now : Timestamp) (io : Option Exn)
    (s : TaskCatalogStore Payload) :
    Except Exn (TaskDefinitionRecord Payload × Bool) × TaskCatalogStore Payload :=
  match digests.definition submission with
  | .error e => (.error e, s)
  | .ok digest =>
      let existing := s.memory.candidates submission.definitionId
      match existing.find? (·.digest = digest) with
      | some item => (.ok (item, false), s)
      | none =>
          let record := { submission with
            revision := (existing.map (·.revision)).foldl max 0 + 1
            digest := digest
            originNodeId := s.origin originNodeId
            createdAtUtc := now }
          let (saved, s) := persist io { s with memory := s.memory.addDefinition record }
          (saved.map fun _ => (record, true), s)

/-- `run_id` is the fresh one that the store draws. -/
def createRun (digests : Digests Payload) (submission : TaskRunSubmission) (ownerNodeId : NodeId)
    (originNodeId : Option NodeId) (runId : RunId) (now : Timestamp) (io : Option Exn)
    (s : TaskCatalogStore Payload) : Except Exn (TaskRunRecord × Bool) × TaskCatalogStore Payload :=
  let requestDigest := digests.run submission
  match s.memory.runs.values.find? (·.idempotencyKey = submission.idempotencyKey) with
  | some item =>
      if item.requestDigest ≠ requestDigest then
        (.error (valueError "Idempotency key was already used with a different request"), s)
      else (.ok (item, false), s)
  | none =>
      match s.memory.getDefinition submission.definitionId submission.revision with
      | .error e => (.error e, s)
      | .ok definition =>
          let record := {
            runId := runId
            definitionId := definition.definitionId
            revision := definition.revision
            definitionDigest := definition.digest
            originNodeId := s.origin originNodeId
            initialOwnerNodeId := ownerNodeId
            idempotencyKey := submission.idempotencyKey
            requestDigest := requestDigest
            autoStart := submission.autoStart
            labels := submission.labels
            createdAtUtc := now }
          let (saved, s) := persist io { s with memory := s.memory.addRun record }
          (saved.map fun _ => (record, true), s)

def snapshot (s : TaskCatalogStore Payload) : TaskCatalogSnapshot Payload where
  reportingNodeId := s.localNodeId
  definitions := s.memory.listDefinitions
  runs := s.memory.listRuns

def mergeSnapshot (snapshot : TaskCatalogSnapshot Payload) (io : Option Exn)
    (s : TaskCatalogStore Payload) :
    Except Exn (List (TaskDefinitionRecord Payload) × List TaskRunRecord) ×
      TaskCatalogStore Payload :=
  match s.memory.merge snapshot with
  | (.error e, c) => (.error e, { s with memory := c })
  | (.ok ([], []), c) => (.ok ([], []), { s with memory := c })
  | (.ok added, c) =>
      let (saved, s) := persist io { s with memory := c }
      (saved.map fun _ => added, s)

end TaskCatalogStore

end Magellan.Submission
