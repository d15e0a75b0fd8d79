import Magellan.Artifacts.Places
import Magellan.Data.PyJson
import Magellan.Data.Volume
import Magellan.Experiments.Bundle
import Magellan.State.PersistentRegistry

/-!
# Final outputs

The completion manager lists the files of a finished task with their sizes and digests, and serves
them on request. The task may have left links of any kind behind.
-/

namespace Magellan.Completion

open Confinement (StateRoot)
open ExperimentBundle (Sha256)

structure CompletionMarker where
  taskId : TaskId
  success : Bool
  completedAtUtc : Timestamp
  details : Dict String PyJson

structure FinalOutputFile where
  path : String
  sizeBytes : Nat
  sha256 : List Char
  deriving DecidableEq

structure FinalOutputManifest where
  taskId : TaskId
  ownerNodeId : NodeId
  generation : Nat
  completedAtUtc : Timestamp
  createdAtUtc : Timestamp
  totalSizeBytes : Nat
  files : List FinalOutputFile
  completionDetails : Dict String PyJson

/-- What the texts of files are for the manager. -/
structure Reading (Content : Type) where
  size : Content → Nat
  sha256 : Sha256 Content
  /-- `CompletionMarker.model_validate_json`, or the text of what it raises. -/
  marker : Content → Except String CompletionMarker
  /-- `manifest.model_dump_json(indent=2)`. -/
  dump : FinalOutputManifest → Content

inductive OutputError where
  | completionValidationError (message : String)
  | fileNotFoundError (message : String)
  | runtimeError (message : String)
  | registry (e : Exn)
  deriving DecidableEq

/-- The paths of the runtime of a task. -/
structure OutputPaths where
  root : StateRoot
  taskId : TaskId
  completionRelativePath : Option String := none
  outputRelativeDirectory : Option String := none

namespace OutputPaths

variable (paths : OutputPaths)

def completionFile : Option AbsolutePath :=
  paths.completionRelativePath.map (joinPath (paths.root.taskDirectory paths.taskId))

def outputDirectory : Option AbsolutePath :=
  paths.outputRelativeDirectory.map (joinPath (paths.root.taskDirectory paths.taskId))

end OutputPaths

/-- `path.as_posix()` of a relative path. -/
def posix (parts : List (List Char)) : String := String.ofList (List.intercalate ['/'] parts)

/-- `str(path)`. -/
def pathText (path : AbsolutePath) : String := "/" ++ posix path

/-- What `resolve` raises. -/
def symlinkLoop (path : AbsolutePath) : OutputError :=
  .runtimeError s!"Symlink loop from '{pathText path}'"

section

variable {Content : Type} (r : Reading Content) (v : Volume Content) (paths : OutputPaths)

def loadMarker : Except OutputError CompletionMarker :=
  match paths.completionFile with
  | none => .error (.completionValidationError s!"Task {paths.taskId} does not define a completion marker")
  | some path =>
      match v.read path with
      | none => .error (.completionValidationError s!"Completion marker does not exist: {pathText path}")
      | some content =>
          match r.marker content with
          | .error text =>
              .error (.completionValidationError s!"Invalid completion marker {pathText path}: {text}")
          | .ok marker =>
              if marker.taskId ≠ paths.taskId then
                .error (.completionValidationError
                  s!"Completion marker task mismatch: expected={paths.taskId}, actual={marker.taskId}")
              else if marker.success = false then
                .error (.completionValidationError s!"Task {paths.taskId} reported unsuccessful completion")
              else .ok marker

/-- `sorted(directory.rglob("*"))`, relative to the directory. It descends into no link. -/
def listing (directory : AbsolutePath) : List (List (List Char)) :=
  match v.stat directory with
  | none => []
  | some place =>
      ((v.locations.filter fun l => (v.node l).isSome ∧ place <+: l ∧ l ≠ place).map
        (·.drop place.length)).insertionSort (· ≤ ·)

/-- The entry of the manifest for what lies at a path below the directory, if it is a file. -/
def outputFile (directory : AbsolutePath) (path : List (List Char)) : Option FinalOutputFile :=
  (v.read (directory ++ path)).map fun content =>
    ⟨posix path, r.size content, r.sha256.hexdigest content⟩

def outputFiles : Except OutputError (List FinalOutputFile) :=
  match paths.outputDirectory with
  | none => .ok []
  | some directory =>
      if v.isDir directory then .ok ((listing v directory).filterMap (outputFile r v directory))
      else .error (.completionValidationError
        s!"Final output directory does not exist: {pathText directory}")

/-- The manifest, and the record of the task once it is written. -/
def finalize (localNodeId : NodeId) (exitCode : Option Int) (now : Timestamp) (state : TaskRuntimeState) :
    Except OutputError (FinalOutputManifest × TaskRuntimeState) := do
  let marker ← loadMarker r v paths
  let files ← outputFiles r v paths
  let manifest : FinalOutputManifest := {
    taskId := paths.taskId
    ownerNodeId := state.ownerNodeId
    generation := state.generation
    completedAtUtc := marker.completedAtUtc
    createdAtUtc := now
    totalSizeBytes := (files.map (·.sizeBytes)).sum
    files
    completionDetails := marker.details }
  let completed ← (Registry.markCompleted localNodeId marker.completedAtUtc "final-output/manifest.json"
    (String.ofList (r.sha256.hexdigest (r.dump manifest))) manifest.totalSizeBytes exitCode state).mapError .registry
  return (manifest, completed)

def resolveOutputFile (relativePath : String) : Except OutputError AbsolutePath :=
  match paths.outputDirectory with
  | none => .error (.fileNotFoundError s!"Task {paths.taskId} has no final output directory")
  | some directory =>
      if ¬ SafePath relativePath then
        .error (.completionValidationError "Output path must be a safe relative path")
      else match v.realPath (directory ++ components relativePath) with
      | .error path => .error (symlinkLoop path)
      | .ok candidate =>
          match v.realPath directory with
          | .error path => .error (symlinkLoop path)
          | .ok root =>
              if ¬ root <+: candidate then
                .error (.completionValidationError "Output path escapes the task output directory")
              else if (v.read candidate).isNone then
                .error (.fileNotFoundError s!"Final output file does not exist: {pathText candidate}")
              else .ok candidate

/-- An answer of the service: a content, or a status with its detail. -/
abbrev Answer (Content : Type) := Except (Nat × String) Content

def OutputError.answer : OutputError → Nat × String
  | .completionValidationError message | .runtimeError message => (400, message)
  | .fileNotFoundError message => (404, message)
  | .registry e => (if e.cls = .keyError then 404 else 400, e.message)

/-- `task_output_file` and the response that reads the file. -/
def taskOutputFile (localNodeId : NodeId) (state : Except Exn TaskRuntimeState) (relativePath : String) :
    Answer Content :=
  match state with
  | .error e => .error (OutputError.registry e).answer
  | .ok state =>
      if state.ownerNodeId ≠ localNodeId then
        .error (409, s!"Final outputs are owned by {state.ownerNodeId}")
      else match resolveOutputFile v paths relativePath with
      | .error e => .error e.answer
      | .ok path =>
          match v.read path with
          | some content => .ok content
          | none => .error (500, "Internal Server Error")

end

end Magellan.Completion
