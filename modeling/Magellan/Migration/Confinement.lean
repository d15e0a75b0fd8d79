import Magellan.Artifacts.Places
import Magellan.Migration.Activation

/-!
# Requests stay inside their directories

The strings of a request from another node are joined to directories, and what they lead to is read,
renamed and removed. The files of the runtime and of the bid store are named by no request and are
left out; the journal's record of a migration is counted with what belongs to the migration.
-/

namespace Magellan.Confinement

open Coroutine Coro Artifacts MigrationService

/-- What the definition of a task says about its files. -/
structure TaskFiles where
  checkpointRelativePath : String
  checkpointManifestRelativePath : Option String := none
  discovers : Bool := false
  artifacts : List StaticArtifactSpec := []
  safe : SafePath checkpointRelativePath
  safeManifest : ∀ path, checkpointManifestRelativePath = some path → SafePath path

section

variable (root : StateRoot) (taskId : TaskId) (files : TaskFiles) (fresh : String)

def checkpointDirectory : AbsolutePath :=
  root.taskDirectory taskId ++ (components files.checkpointRelativePath).dropLast

def checkpointFile : AbsolutePath :=
  joinPath (root.taskDirectory taskId) files.checkpointRelativePath

def localCheckpoint : Place := ⟨.task taskId, checkpointDirectory root taskId files⟩

/-- `local_checkpoint.with_name(f"checkpoint.rollback-{migration_id}")`. -/
def backup (migrationId : MigrationId) : Place :=
  ⟨.task taskId, (checkpointDirectory root taskId files).dropLast ++
    [("checkpoint.rollback-" ++ migrationId).toList]⟩

def incomingMigration (migrationId : MigrationId) : AbsolutePath :=
  joinPath (root.inside ["incoming"]) migrationId

def incomingCheckpoint (migrationId : MigrationId) : Place :=
  ⟨.incoming migrationId, joinPath (incomingMigration root migrationId) taskId ++ ["checkpoint".toList]⟩

def statePlace : Place := ⟨.task taskId, root.statePath taskId⟩

def temporaryState : Place := ⟨.task taskId, root.temporaryStatePath taskId⟩

def recordPlace (migrationId : MigrationId) : Place :=
  ⟨.record migrationId, joinPath (root.inside ["control", "migrations"]) (migrationId ++ ".json")⟩

def temporaryRecord (migrationId : MigrationId) : Place :=
  ⟨.temporaryRecord migrationId,
    joinPath (root.inside ["control", "migrations"]) (migrationId ++ ".json.tmp")⟩

/-- The files that a checkpoint's manifest lists, each path checked before it is joined. -/
def validateListed : List String → FileWork Unit
  | [] => pure ()
  | path :: paths =>
      if SafePath path then do
        let place : Place := ⟨.task taskId, joinPath (checkpointDirectory root taskId files) path⟩
        let found ← file (.isFile place)
        if found then do
          let _ ← file (.size place)
          let _ ← file (.sha256 place)
          validateListed paths
        else raise .validationError
      else raise .validationError

def discover (place : Place) : FileWork Unit :=
  if files.discovers then do
    file (.read (localCheckpoint root taskId files))
    file (.write place)
  else pure ()

def validateCheckpoint : FileWork Unit := do
  let found ← file (.isDirectory (localCheckpoint root taskId files))
  if found then
    match files.checkpointManifestRelativePath with
    | none => do
        let there ← file (.isFile ⟨.task taskId, checkpointFile root taskId files⟩)
        if there then file (.read (localCheckpoint root taskId files)) else raise .validationError
    | some path => do
        let place : Place := ⟨.task taskId, joinPath (checkpointDirectory root taskId files) path⟩
        discover root taskId files place
        let there ← file (.isFile place)
        if there then do
          let listed ← file (.readListed place)
          validateListed root taskId files listed
        else raise .validationError
  else raise .validationError

/-- `write` under a temporary name and `os.replace`. -/
def replaceFile (temporary place : Place) : FileWork Unit := do
  file (.write temporary)
  file (.replace temporary place)

def readRecord (migrationId : MigrationId) : FileWork Unit := do
  let found ← file (.isFile (recordPlace root migrationId))
  if found then file (.read (recordPlace root migrationId)) else pure ()

def putRecordFile (migrationId : MigrationId) : FileWork Unit :=
  replaceFile (temporaryRecord root migrationId) (recordPlace root migrationId)

/-- What an operation of an activation does with files. -/
def fileWork : Op → FileWork Unit
  | .getState => file (.read (statePlace root taskId))
  | .registry _ => do
      file (.read (statePlace root taskId))
      replaceFile (temporaryState root taskId) (statePlace root taskId)
  | .journalGet m => readRecord root m
  | .journalPut record => putRecordFile root record.migrationId
  | .setRecordStatus m .. => do
      readRecord root m
      putRecordFile root m
  | .external .makeDirectory =>
      file (.makeDirectories ⟨.task taskId, (checkpointDirectory root taskId files).dropLast⟩)
  | .external .validateCheckpoint => validateCheckpoint root taskId files
  | .stageBindings bindings =>
      stageBindings root taskId files.artifacts fresh
        (bindings.map fun b => ⟨b.artifactId, b.digest, b.sizeBytes⟩)
  | .incomingExists m => do let _ ← file (.isDirectory (incomingCheckpoint root taskId m))
  | .checkpointExists => do let _ ← file (.exists_ (localCheckpoint root taskId files))
  | .backupExists m => do let _ ← file (.exists_ (backup root taskId files m))
  | .removeBackup m _ => file (.removeTree (backup root taskId files m))
  | .renameToBackup m =>
      file (.replace (localCheckpoint root taskId files) (backup root taskId files m))
  | .copyIncoming m =>
      file (.copyTree (incomingCheckpoint root taskId m) (localCheckpoint root taskId files))
  | .removeCheckpoint => file (.removeTree (localCheckpoint root taskId files))
  | .renameFromBackup m =>
      file (.replace (backup root taskId files m) (localCheckpoint root taskId files))
  | .removeIncoming m => file (.removeTree ⟨.incoming m, incomingMigration root m⟩)
  | _ => pure ()

end

variable (root : StateRoot) (manifest : AbsolutePath → ArtifactManifest String String)
  (definitions : TaskId → Option TaskFiles) (fresh : String) (services : Services) (n : NodeId)

/-- Every path of every run of the activation leads to where it belongs. A task without a definition
is refused before any of them. -/
def ActivationConfined (request : MigrationActivationRequest) : Prop :=
  ∀ files, definitions request.taskId = some files →
    (activateIncoming services n request).Always (fun _ _ => True) fun o =>
      Confined root manifest (fileWork root request.taskId files fresh o)

/-- The ids and digests of a request are names, the checkpoint directory of the task lies below the
directory of the task, and the manifests list what lies in their entries. -/
def SafeActivation (request : MigrationActivationRequest) : Prop :=
  request.destinationNodeId = n → ∀ files, definitions request.taskId = some files →
    IsName request.migrationId ∧ IsName request.taskId ∧
      (components files.checkpointRelativePath).dropLast ≠ [] ∧
      SafeBindings root manifest files.artifacts
        (request.artifacts.map fun b => ⟨b.artifactId, b.digest, b.sizeBytes⟩)

/-! ## The operations of an activation -/

/-- What an operation names is what the request names. -/
def Named (request : MigrationActivationRequest) : Op → Prop
  | .journalGet m | .setRecordStatus m .. | .incomingExists m | .backupExists m | .removeBackup m _
  | .renameToBackup m | .copyIncoming m | .renameFromBackup m | .removeIncoming m =>
      m = request.migrationId
  | .journalPut record => record.migrationId = request.migrationId
  | .stageBindings bindings => bindings = request.artifacts
  | _ => True

variable {root : StateRoot} {manifest : AbsolutePath → ArtifactManifest String String}
  {definitions : TaskId → Option TaskFiles} {fresh : String} {services : Services} {n : NodeId}
  {request : MigrationActivationRequest} {taskId : TaskId} {files : TaskFiles}

theorem named_of_isStartOp {o : Op} (h : LocalProcess.isStartOp o = true) : Named request o := by
  cases o <;> trivial

theorem named_of_isStopOp {o : Op} (h : LocalProcess.isStopOp o = true) : Named request o := by
  cases o <;> trivial

theorem rollbackActivation_named {original : TaskRuntimeState} {replaced started : Bool} {e : Exn} :
    (rollbackActivation n request original replaced started e).Performs (Named request) := by
  refine .bind (.ite (.tryExcept (.bind ?_ fun _ => .pure _) fun _ => .pure _) (.pure _)) fun _ => ?_
  · exact LocalProcess.stop_performs.mono fun _ => named_of_isStopOp
  refine .bind (.ite (.bind (.op trivial) fun _ => .ite (.op trivial) (.pure _)) (.pure _)) fun _ => ?_
  refine .bind (.bind (.op rfl) fun _ => .ite (.op rfl) (.pure _)) fun _ => ?_
  refine .bind (.op trivial) fun _ => .bind (.op rfl) fun _ => ?_
  refine .bind (.tryExcept (.bind (.op trivial) fun _ => .pure _) fun _ => .pure _) fun _ => ?_
  exact .bind (.op rfl) fun _ => .pure _

theorem replaceCheckpoint_named : (replaceCheckpoint request).Performs (Named request) := by
  refine .bind (.op trivial) fun _ => .bind (.op rfl) fun found => ?_
  refine .bind (.ite (.raise _) (.pure _)) fun _ => .bind (.op trivial) fun _ => ?_
  refine .bind (.bind (.op rfl) fun _ => .ite (.op rfl) (.pure _)) fun _ => ?_
  refine .bind (.bind (.op trivial) fun _ => .ite (.op rfl) (.pure _)) fun _ => ?_
  exact .op rfl

theorem claimAndStart_named : (claimAndStart n request).Performs (Named request) := by
  refine .bind (.op trivial) fun _ => .bind (.op rfl) fun _ => .bind (.op trivial) fun _ => ?_
  exact (LocalProcess.start_performs n).mono fun _ => named_of_isStartOp

theorem commitActivation_named {state : TaskRuntimeState} :
    (commitActivation services n request state).Performs (Named request) := by
  refine .bind (mergeRequestPolicy_performs fun _ => trivial) fun _ => ?_
  refine .bind (.op trivial) fun _ => .bind (.op rfl) fun _ => ?_
  refine .bind (.bind (.op rfl) fun _ => .ite (.op rfl) (.pure _)) fun _ => ?_
  exact .bind (.op rfl) fun _ => .pure _

theorem activateIncoming_named : (activateIncoming services n request).Performs (Named request) := by
  refine .ite (.pure _) (.bind (.op trivial) fun state => .bind (.op rfl) fun existing => ?_)
  refine .bind (mergeRequestPolicy_performs fun _ => trivial) fun _ => ?_
  refine .ite (.bind (putRecord_performs rfl rfl) fun _ => .pure _) (.ite (.pure _) ?_)
  refine .bind (putRecord_performs rfl rfl) fun _ => ?_
  refine .attempt replaceCheckpoint_named (fun _ => ?_) fun _ => rollbackActivation_named
  refine .attempt claimAndStart_named (fun _ => ?_) fun _ => rollbackActivation_named
  exact .tryExcept commitActivation_named fun _ => rollbackActivation_named

/-! ## Their paths -/

theorem up_not_mem_components {path : String} (safe : SafePath path) : up ∉ components path :=
  fun climbs => safe.2 (List.mem_of_mem_filter climbs)

theorem SafePath.joinPath {base : AbsolutePath} {path : String} (safe : SafePath path) :
    joinPath base path = base ++ components path := if_neg safe.1

theorem own_checkpointDirectory (root : StateRoot) (taskId : TaskId) (files : TaskFiles) : Own root taskId (localCheckpoint root taskId files) := by
  refine ⟨(components files.checkpointRelativePath).dropLast, fun climbs => ?_, rfl⟩
  exact up_not_mem_components files.safe (List.dropLast_subset _ climbs)

theorem own_below (root : StateRoot) (taskId : TaskId) (files : TaskFiles) {path : String} (safe : SafePath path) :
    Own root taskId ⟨.task taskId, joinPath (checkpointDirectory root taskId files) path⟩ := by
  refine ⟨(components files.checkpointRelativePath).dropLast ++ components path, fun climbs => ?_, ?_⟩
  · rcases List.mem_append.mp climbs with road | last
    · exact up_not_mem_components files.safe (List.dropLast_subset _ road)
    · exact up_not_mem_components safe last
  · rw [SafePath.joinPath safe, checkpointDirectory, List.append_assoc]

theorem confined_validateListed (single : IsName taskId) {paths : List String} :
    Confined root manifest (validateListed root taskId files paths) := by
  induction paths with
  | nil => trivial
  | cons path paths ih =>
      refine always_ite.mpr ⟨fun safe => ?_, fun _ => always_raise _⟩
      have place := (own_below root taskId files safe).confined single
      refine always_bind.mpr ⟨confined_file _ fun _ => place.one, fun _ _ => ?_⟩
      refine always_ite.mpr ⟨fun _ => ?_, fun _ => always_raise _⟩
      refine always_bind.mpr ⟨confined_file _ fun _ => place.one, fun _ _ => ?_⟩
      exact always_bind.mpr ⟨confined_file _ fun _ => place.one, fun _ _ => ih⟩

theorem confined_validateCheckpoint (single : IsName taskId) :
    Confined root manifest (validateCheckpoint root taskId files) := by
  have directory := (own_checkpointDirectory root taskId files).confined single
  refine always_bind.mpr ⟨confined_file _ fun _ => directory.one, fun _ _ => ?_⟩
  refine always_ite.mpr ⟨fun _ => ?_, fun _ => always_raise _⟩
  split
  · have checkpoint : Own root taskId ⟨.task taskId, checkpointFile root taskId files⟩ :=
      ⟨_, up_not_mem_components files.safe, by rw [checkpointFile, SafePath.joinPath files.safe]⟩
    refine always_bind.mpr ⟨confined_file _ fun _ => (checkpoint.confined single).one, fun _ _ => ?_⟩
    exact always_ite.mpr ⟨fun _ => confined_file _ fun _ => directory.one, fun _ => always_raise _⟩
  · rename_i path listed
    have place := (own_below root taskId files (files.safeManifest path listed)).confined single
    refine always_bind.mpr ⟨always_ite.mpr ⟨fun _ => ?_, fun _ => always_pure _⟩, fun _ _ => ?_⟩
    · exact always_bind.mpr ⟨confined_file _ fun _ => directory.one, fun _ _ => confined_file _ fun _ => place.one⟩
    refine always_bind.mpr ⟨confined_file _ fun _ => place.one, fun _ _ => ?_⟩
    refine always_ite.mpr ⟨fun _ => ?_, fun _ => always_raise _⟩
    exact always_bind.mpr ⟨confined_file _ fun _ => place.one, fun _ _ => confined_validateListed single⟩

theorem isName_append {m : String} (suffix : String) (single : IsName m) (slash : '/' ∉ suffix.toList)
    (long : 2 < suffix.toList.length) : IsName (m ++ suffix) := by
  have text : (m ++ suffix).toList = m.toList ++ suffix.toList := String.toList_append
  have length : (m ++ suffix).toList.length = m.toList.length + suffix.toList.length := by
    rw [text, List.length_append]
  refine ⟨⟨fun empty => ?_, fun dot => ?_, fun inside => ?_⟩, fun climbs => ?_⟩
  · rw [empty, List.length_nil] at length
    omega
  · rw [dot, List.length_singleton] at length
    omega
  · rw [text] at inside
    exact (List.mem_append.mp inside).elim single.1.slash slash
  · rw [climbs] at length
    simp only [up, List.length_cons, List.length_nil] at length
    omega

/-- What the operations of a safe request do stays inside. -/
theorem fileWork_confined (migration : IsName request.migrationId) (task : IsName request.taskId)
    (nested : (components files.checkpointRelativePath).dropLast ≠ [])
    (bindings : SafeBindings root manifest files.artifacts
      (request.artifacts.map fun b => ⟨b.artifactId, b.digest, b.sizeBytes⟩))
    {o : Op} (named : Named request o) :
    Confined root manifest (fileWork root request.taskId files fresh o) := by
  have directory := (own_checkpointDirectory root request.taskId files).confined task
  have climbing : up ∉ ((components files.checkpointRelativePath).dropLast).dropLast := fun climbs =>
    up_not_mem_components files.safe (List.dropLast_subset _ (List.dropLast_subset _ climbs))
  have parent_eq : (checkpointDirectory root request.taskId files).dropLast =
      root.taskDirectory request.taskId ++ ((components files.checkpointRelativePath).dropLast).dropLast := by
    rw [checkpointDirectory, List.dropLast_append_of_ne_nil nested]
  have parent : Place.Confined root
      ⟨.task request.taskId, (checkpointDirectory root request.taskId files).dropLast⟩ :=
    Own.confined task ⟨_, climbing, by rw [parent_eq]⟩
  have backup_ : (backup root request.taskId files request.migrationId).Confined root := by
    refine Own.confined task ⟨((components files.checkpointRelativePath).dropLast).dropLast ++
      [("checkpoint.rollback-" ++ request.migrationId).toList], fun climbs => ?_, ?_⟩
    · rcases List.mem_append.mp climbs with road | last
      · exact climbing road
      · have length := congrArg List.length (List.mem_singleton.mp last)
        simp [up] at length
    · rw [backup, parent_eq, List.append_assoc]
  have incoming : (incomingCheckpoint root request.taskId request.migrationId).Confined root := by
    have below : up ∉ [request.taskId.toList] ++ ["checkpoint".toList] := by
      intro climbs
      rcases List.mem_append.mp climbs with own | last
      · exact task.2 (List.mem_singleton.mp own).symm
      · revert last
        decide
    have whole := root.under_name ["incoming"] (by decide) migration below
    rwa [← List.append_assoc, ← task.joinPath] at whole
  have incomingAll : Place.Confined root
      ⟨.incoming request.migrationId, incomingMigration root request.migrationId⟩ :=
    root.under_joined ["incoming"] (by decide) migration
  have record : (recordPlace root request.migrationId).Confined root :=
    root.under_joined ["control", "migrations"] (by decide)
      (isName_append ".json" migration (by decide) (by decide))
  have temporary : (temporaryRecord root request.migrationId).Confined root :=
    root.under_joined ["control", "migrations"] (by decide)
      (isName_append ".json.tmp" migration (by decide) (by decide))
  have state : (statePlace root request.taskId).Confined root := Own.confined task ⟨_, by decide, rfl⟩
  have temporaryState_ : (temporaryState root request.taskId).Confined root :=
    Own.confined task ⟨_, by decide, rfl⟩
  have reads : Confined root manifest (readRecord root request.migrationId) := by
    refine always_bind.mpr ⟨confined_file _ fun _ => record.one, fun _ _ => ?_⟩
    exact always_ite.mpr ⟨fun _ => confined_file _ fun _ => record.one, fun _ => always_pure _⟩
  have puts : Confined root manifest (putRecordFile root request.migrationId) :=
    always_bind.mpr ⟨confined_file _ fun _ => temporary.one,
      fun _ _ => confined_file _ fun _ => temporary.both record⟩
  have tests (test : FileOp) (confined : ∀ place ∈ test.places, place.Confined root) :
      Confined root manifest (do let _ ← file test) :=
    always_bind.mpr ⟨confined_file _ confined, fun _ _ => always_pure _⟩
  cases o with
  | getState => exact confined_file _ fun _ => state.one
  | registry _ =>
      refine always_bind.mpr ⟨confined_file _ fun _ => state.one, fun _ _ => ?_⟩
      exact always_bind.mpr ⟨confined_file _ fun _ => temporaryState_.one,
        fun _ _ => confined_file _ fun _ => temporaryState_.both state⟩
  | journalGet m =>
      cases named
      exact reads
  | journalPut r =>
      have same : r.migrationId = request.migrationId := named
      rw [fileWork, same]
      exact puts
  | setRecordStatus m _ _ _ =>
      cases named
      exact always_bind.mpr ⟨reads, fun _ _ => puts⟩
  | external call =>
      cases call with
      | makeDirectory => exact confined_file _ fun _ => parent.one
      | validateCheckpoint => exact confined_validateCheckpoint task
      | _ => exact always_pure _
  | stageBindings b =>
      cases named
      exact (confined_stageBindings task).mpr bindings
  | incomingExists m =>
      cases named
      exact tests _ fun _ => incoming.one
  | checkpointExists => exact tests _ fun _ => directory.one
  | backupExists m =>
      cases named
      exact tests _ fun _ => backup_.one
  | removeBackup m _ =>
      cases named
      exact confined_file _ fun _ => backup_.one
  | renameToBackup m =>
      cases named
      exact confined_file _ fun _ => directory.both backup_
  | copyIncoming m =>
      cases named
      exact confined_file _ fun _ => incoming.both directory
  | removeCheckpoint => exact confined_file _ fun _ => directory.one
  | renameFromBackup m =>
      cases named
      exact confined_file _ fun _ => backup_.both directory
  | removeIncoming m =>
      cases named
      exact confined_file _ fun _ => incomingAll.one
  | _ => exact always_pure _

/-! ## What an unsafe request leads to -/

theorem gives_await (o : Op) (a : o.Ret) : (await o).Gives (fun _ _ => True) (.ok a) :=
  gives_op.mpr trivial

theorem always_await {P : Op → Prop} {o : Op} : (await o).Always (fun _ _ => True) P ↔ P o := always_op

theorem gives_mergeRequestPolicy :
    (mergeRequestPolicy services request).Gives (fun _ _ => True) (.ok ()) := by
  unfold mergeRequestPolicy onlyIf
  cases request.adaptivePolicy with
  | none => rfl
  | some policy =>
      dsimp only
      split
      · exact gives_await (.mergePolicy policy) ()
      · rfl

/-- The reservation of a request. -/
def reserved (request : MigrationActivationRequest) : BidRecord :=
  ⟨request.bidId, request.taskId, request.sourceNodeId, request.destinationNodeId, .activating,
    request.migrationAtUtc, none, none, none, none, none⟩

theorem gives_replaceCheckpoint : (replaceCheckpoint request).Gives (fun _ _ => True) (.ok ()) := by
  refine Gives.perform (reserved request) trivial ?_
  refine Gives.perform true trivial (gives_bind.mpr ⟨(), rfl, Gives.perform () trivial ?_⟩)
  refine gives_bind.mpr ⟨(), Gives.perform false trivial rfl, ?_⟩
  exact gives_bind.mpr ⟨(), Gives.perform false trivial rfl, gives_await (.copyIncoming _) ()⟩

theorem isName_of_statePlace (confined : (statePlace root taskId).Confined root) : IsName taskId := by
  refine isName_of_under_inside ["tasks"] (fun part inside => ?_) confined
  rcases List.mem_append.mp inside with own | last
  · refine isPart_of_mem_joinPath (fun _ among => ?_) own
    exact (root.isPart_of_mem_inside (by decide) among).1
  · exact isPart_toList "state.json" (by decide) part last

theorem isName_of_incomingCheckpoint {m : MigrationId}
    (confined : (incomingCheckpoint root taskId m).Confined root) : IsName m := by
  refine isName_of_under_inside ["incoming"] (fun part inside => ?_) confined
  rcases List.mem_append.mp inside with own | last
  · refine isPart_of_mem_joinPath (fun _ among => isPart_of_mem_joinPath (fun _ own => ?_) among) own
    exact (root.isPart_of_mem_inside (by decide) own).1
  · exact isPart_toList "checkpoint" (by decide) part last

/-- A checkpoint directory that is the directory of the task has its parent outside. -/
theorem nested_of_parent (task : IsName taskId)
    (confined : Place.Confined root ⟨.task taskId, (checkpointDirectory root taskId files).dropLast⟩) :
    (components files.checkpointRelativePath).dropLast ≠ [] := by
  intro flat
  have above : (checkpointDirectory root taskId files).dropLast = root.inside ["tasks"] := by
    rw [checkpointDirectory, flat, List.append_nil, StateRoot.taskDirectory, task.joinPath,
      List.dropLast_concat]
  have under : Under (root.inside (["tasks"] ++ [taskId])) (root.inside ["tasks"]) := above ▸ confined
  rw [under_append (root.up_not_mem (by decide)), StateRoot.inside_concat] at under
  have shorter := under.length_le
  rw [List.length_append, List.length_singleton] at shorter
  omega

theorem safe_of_confined
    (confined : ActivationConfined root manifest definitions fresh services n request) :
    SafeActivation root manifest definitions n request := by
  intro here files found
  have work := confined files found
  have opened := (always_ite.mp work).2 fun other => other here
  obtain ⟨state, rest⟩ := always_bind.mp opened
  have read : Confined root manifest (file (.read (statePlace root request.taskId))) :=
    always_await.mp state
  have task := isName_of_statePlace (always_op.mp read _ List.mem_cons_self)
  let unclaimed : TaskRuntimeState := { taskId := request.taskId, ownerNodeId := n, status := .remote }
  have looked := (always_bind.mp (rest unclaimed (gives_await .getState _))).2 none
    (gives_await (.journalGet _) none)
  have merged := (always_bind.mp looked).2 () gives_mergeRequestPolicy
  have first := (always_ite.mp merged).2 (by simp [isRetry, unclaimed])
  have open_ := (always_ite.mp first).2 (by simp)
  have transaction := (always_bind.mp open_).2 () (gives_await (.journalPut _) ())
  obtain ⟨replace, on, -⟩ := always_attempt.mp transaction
  have began := (always_bind.mp replace).2 (reserved request) (gives_await (.beginActivation ..) _)
  obtain ⟨incoming, there⟩ := always_bind.mp began
  have tested : Confined root manifest
      (do let _ ← file (.isDirectory (incomingCheckpoint root request.taskId request.migrationId))) :=
    always_await.mp incoming
  have migration := isName_of_incomingCheckpoint (always_op.mp (always_bind.mp tested).1 _ List.mem_cons_self)
  have made := (always_bind.mp (there true (gives_await (.incomingExists _) true))).2 () rfl
  have parent : Confined root manifest (file (.makeDirectories
      ⟨.task request.taskId, (checkpointDirectory root request.taskId files).dropLast⟩)) :=
    always_await.mp (always_bind.mp made).1
  have nested := nested_of_parent task (always_op.mp parent _ List.mem_cons_self)
  obtain ⟨claim, -⟩ := always_attempt.mp (on () gives_replaceCheckpoint)
  have validated := (always_bind.mp claim).2 () (gives_await (.external _) ())
  have staged : Confined root manifest (stageBindings root request.taskId files.artifacts fresh
      (request.artifacts.map fun b => ⟨b.artifactId, b.digest, b.sizeBytes⟩)) :=
    always_await.mp (always_bind.mp validated).1
  exact ⟨migration, task, nested, (confined_stageBindings task).mp staged⟩

theorem confined_of_safe (safe : SafeActivation root manifest definitions n request) :
    ActivationConfined root manifest definitions fresh services n request := by
  intro files found
  by_cases here : request.destinationNodeId = n
  · obtain ⟨migration, task, nested, bindings⟩ := safe here files found
    exact activateIncoming_named.always.mono fun _ => fileWork_confined migration task nested bindings
  · exact always_ite.mpr ⟨fun _ => always_pure _, fun same => absurd here same⟩

/-- The paths of a request stay inside its directories exactly where its strings are names and the
files of the manifests lie in their entries. -/
theorem requests_confined (root : StateRoot) (manifest : AbsolutePath → ArtifactManifest String String)
    (definitions : TaskId → Option TaskFiles) (fresh : String) (services : Services) (n : NodeId) :
    (∀ request, ActivationConfined root manifest definitions fresh services n request ↔
      SafeActivation root manifest definitions n request) ∧
    (∀ migrationId digest, Confined root manifest (commitIncoming root migrationId digest) ↔
      IsName migrationId ∧ SafeDigest root manifest digest) ∧
    (∀ artifacts, Confined root manifest (artifactStatus root artifacts) ↔
      ∀ artifact ∈ artifacts, SafeDigest root manifest artifact.digest) ∧
    ∀ digest verifyHashes, Confined root manifest (validateCache root digest digest verifyHashes) ↔
      SafeDigest root manifest digest :=
  ⟨fun _ => ⟨safe_of_confined, confined_of_safe⟩, fun _ _ => confined_commitIncoming,
    fun _ => confined_artifactStatus, fun _ _ => confined_validateCache⟩

/-! ## Two requests -/

def sampleRoot : StateRoot where
  path := ["srv".toList, "state".toList]
  names part inside := by
    rcases List.mem_cons.mp inside with rfl | last
    · exact (by decide : IsName "srv")
    · rw [List.mem_singleton.mp last]
      exact (by decide : IsName "state")

def sampleFiles : TaskFiles where
  checkpointRelativePath := "checkpoint/state.json"
  safe := by decide
  safeManifest _ listed := by cases listed

def sampleRequest : MigrationActivationRequest where
  migrationId := ".."
  bidId := "bid"
  taskId := "task"
  sourceNodeId := "a"
  destinationNodeId := "b"
  generation := 1
  migrationAtUtc := 0

/-- A manifest without files. -/
def emptyManifest : AbsolutePath → ArtifactManifest String String :=
  fun _ => ⟨⟨"data", "dataset", []⟩, 1, "d", 0⟩

/-- An activation under the id `..` removes the state directory at its end, and a commit of an
absolute digest removes the directory that it names. -/
theorem requests_escape :
    ¬ ActivationConfined sampleRoot emptyManifest (fun _ => some sampleFiles) "0" { } "b" sampleRequest ∧
      landing (incomingMigration sampleRoot "..") = sampleRoot.path ∧
      ¬ Confined sampleRoot emptyManifest (commitIncoming sampleRoot "m" "/home/user") ∧
      landing (sampleRoot.incomingDirectory "m" "/home/user") = ["home".toList, "user".toList] := by
  refine ⟨fun confined => ?_, by decide +kernel, fun confined => ?_, by decide +kernel⟩
  · have named := (safe_of_confined confined rfl sampleFiles rfl).1
    revert named
    decide
  · have named := (confined_commitIncoming.mp confined).2.isName
    revert named
    decide

end Magellan.Confinement
