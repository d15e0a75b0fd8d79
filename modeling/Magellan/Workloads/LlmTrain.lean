import Magellan.Data.Writes
import Magellan.Runtime.Checkpoint

/-!
# Checkpoints of the training workload

`save_checkpoint` replaces the files of one directory one after the other, and the resuming workload
reads them back. A file knows which call has written it. Temporary files are in no manifest and are
left out; what the libraries write and load beside the weights is read by nobody here.
-/

namespace Magellan.LlmTrain

open Checkpoint

inductive Data where
  /-- A file of the model or of the tokenizer. -/
  | pretrained
  | trainingState (completedSteps : Nat) (checkpointId : String)
  | metadata (completedSteps : Nat) (checkpointId : String)
  | complete (completedSteps : Nat) (checkpointId : String) (files : List (ManifestItem Unit))

structure Content where
  sizeBytes : Nat
  data : Data
  /-- The number of the call that has written the file. -/
  savedBy : Nat

/-- The manifests of this workload list no digests. -/
def reading : Reading Content Unit where
  size := Content.sizeBytes
  sha256 := fun _ => ()
  manifest := fun content =>
    match content.data with
    | .complete _ _ files => .ok { files }
    | _ => .error "Expecting value"

def reservedNames : List String :=
  ["model.safetensors", "pytorch_model.bin", "optimizer.pt", "meta.json", "complete.json"]

/-! ## Saving -/

/-- One call of `save_checkpoint`: the sizes of what it writes, and the files that the writers of
the model and of the tokenizer replace before and after the weights. -/
structure SaveCall where
  checkpointId : String
  completedSteps : Nat
  before : List (String × Nat)
  weightsBytes : Nat
  after : List (String × Nat)
  optimizerBytes : Nat
  metaBytes : Nat
  completeBytes : Nat
  savedAtNs : Int
  safe : ∀ file ∈ before ++ after, SafePath file.1
  own : ∀ file ∈ before ++ after, file.1 ∉ reservedNames

/-- Whether the manifest lists a path. -/
def Listed (path : String) : Prop :=
  fileName path ≠ "complete.json".toList ∧ ¬ ".tmp".toList <:+ fileName path

instance (path : String) : Decidable (Listed path) := by
  unfold Listed
  infer_instance

def manifestItem (file : String × StoredFile Content) : ManifestItem Unit :=
  { path := file.1, sizeBytes := file.2.content.sizeBytes }

/-- The list of `build_manifest`. -/
def manifestFiles (directory : Checkpoint.Directory Content) : List (ManifestItem Unit) :=
  (sortedFiles (directory.entries.filter fun file => Listed file.1)).map manifestItem

namespace SaveCall

def file (c : SaveCall) (number sizeBytes : Nat) (data : Data) : StoredFile Content :=
  ⟨⟨sizeBytes, data, number⟩, c.savedAtNs⟩

def pretrained (c : SaveCall) (number : Nat) (files : List (String × Nat)) :
    List (Write String (StoredFile Content)) :=
  files.map fun (name, sizeBytes) => (name, fun _ => c.file number sizeBytes .pretrained)

def weightsWrite (c : SaveCall) (number : Nat) : Write String (StoredFile Content) :=
  ("model.safetensors", fun _ => c.file number c.weightsBytes .pretrained)

def optimizerWrite (c : SaveCall) (number : Nat) : Write String (StoredFile Content) :=
  ("optimizer.pt", fun _ =>
    c.file number c.optimizerBytes (.trainingState c.completedSteps c.checkpointId))

def metaWrite (c : SaveCall) (number : Nat) : Write String (StoredFile Content) :=
  ("meta.json", fun _ => c.file number c.metaBytes (.metadata c.completedSteps c.checkpointId))

def completeWrite (c : SaveCall) (number : Nat) : Write String (StoredFile Content) :=
  ("complete.json", fun directory =>
    c.file number c.completeBytes
      (.complete c.completedSteps c.checkpointId (manifestFiles directory)))

/-- The replacements of `save_checkpoint` in their order. -/
def writes (c : SaveCall) (number : Nat) : List (Write String (StoredFile Content)) :=
  c.pretrained number c.before ++ c.weightsWrite number :: (c.pretrained number c.after ++
    [c.optimizerWrite number, c.metaWrite number, c.completeWrite number])

/-! How far a call of which `k` replacements were made has come. -/

def ReplacedWeights (c : SaveCall) (k : Nat) : Prop := c.before.length < k

def SavedOptimizer (c : SaveCall) (k : Nat) : Prop := c.before.length + c.after.length + 1 < k

def SavedMeta (c : SaveCall) (k : Nat) : Prop := c.before.length + c.after.length + 2 < k

def Completed (c : SaveCall) (k : Nat) : Prop := c.before.length + c.after.length + 3 < k

end SaveCall

/-- Calls of `save_checkpoint`, the latest first, each with the number of replacements that it made
before it ended or was killed. -/
abbrev History := List (SaveCall × Nat)

/-- The directory that the calls leave. -/
def left : History → Checkpoint.Directory Content
  | [] => .empty
  | (c, k) :: earlier => Write.run ((c.writes earlier.length).take k) (left earlier)

/-! ## Resuming -/

def localModelExists (directory : Checkpoint.Directory Content) : Bool :=
  (directory.get? "config.json").isSome ∧
    ((directory.get? "model.safetensors").isSome ∨ (directory.get? "pytorch_model.bin").isSome)

/-- The file that `from_pretrained` loads the weights of. -/
def weightsFile (directory : Checkpoint.Directory Content) : Option (StoredFile Content) :=
  (directory.get? "model.safetensors").or (directory.get? "pytorch_model.bin")

structure Resumed where
  weights : Content
  /-- The file of the optimizer state and of the random state. -/
  optimizer : Option Content
  completedSteps : Nat

/-- The checkpoint that `meta.json` names. -/
def resumedCheckpointId (directory : Checkpoint.Directory Content) : Option String :=
  match directory.get? "meta.json" with
  | some ⟨⟨_, .metadata _ checkpointId, _⟩, _⟩ => some checkpointId
  | _ => none

/-- What the workload starts from, or nothing where it loads the base model. -/
def resume (directory : Checkpoint.Directory Content) : Except Exn (Option Resumed) :=
  if ¬ localModelExists directory then .ok none
  else
    match weightsFile directory with
    | none => .ok none
    | some weights =>
        match directory.get? "optimizer.pt" with
        | none => .ok (some ⟨weights.content, none, 0⟩)
        | some optimizer =>
            match optimizer.content.data with
            | .trainingState completedSteps savedCheckpointId =>
                if resumedCheckpointId directory ≠ none ∧
                    resumedCheckpointId directory ≠ some savedCheckpointId then
                  .error (runtimeError "Checkpoint model/meta and optimizer state IDs do not match")
                else .ok (some ⟨weights.content, some optimizer.content, completedSteps⟩)
            | _ => .error (runtimeError "Invalid optimizer state")

end Magellan.LlmTrain
