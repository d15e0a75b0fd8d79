import Magellan.Runtime.Checkpoint
import Mathlib.Data.List.Dedup
import Mathlib.Data.List.Sort

/-!
# Discovery of Dendro checkpoints

`DendroCheckpointDiscovery` selects the files of the latest complete checkpoint, and it writes their
manifest unless the one in place agrees with them. `CheckpointManager.validate` runs it first.
-/

namespace Magellan.Dendro

open Checkpoint

structure DendroCheckpointDiscoverySpec where
  fileGlobs : List String := []
  stepRegex : Option String := none
  rankRegex : Option String := none
  expectedFileCount : Option Nat := none
  expectedRankCount : Option Nat := none
  stabilitySeconds : Rat := 2
  includeSha256 : Bool := true
  nativeBssnPrefix : Option String := none
  nativeBssnStepKey : String := "DENDRO_TS_STEP_CURRENT"

/-- Glob patterns and regular expressions. -/
structure Patterns where
  /-- Whether `glob` of the pattern finds the path. -/
  glob : String → String → Bool
  /-- The number that a pattern finds in a path under a group's name. -/
  search : String → String → String → Except Exn (Option Int)

/-- What is read and written in the bytes of a file. -/
structure DendroReading (Content Digest : Type) extends Reading Content Digest where
  render : CheckpointManifest Digest → Content
  manifest_render : ∀ m, manifest (render m) = .ok m
  /-- The integer under a key of a JSON object, if it is one. -/
  stepIn : String → Content → Except Exn (Option Int)

/-- What discovery selects: a step, for a native checkpoint its generation, and files with their
ranks. -/
structure Selection where
  step : Int
  generation : Option Nat
  files : List (String × Option Int)
  deriving DecidableEq

section

variable {Content Digest : Type} [DecidableEq Digest] (p : Patterns)
  (r : DendroReading Content Digest) (spec : DendroCheckpointDiscoverySpec) (manifestPath : String)

/-- `now - path.stat().st_mtime < spec.stability_seconds`; times are in nanoseconds. -/
def tooYoung (now : Int) (file : StoredFile Content) : Prop :=
  ((now - file.mtimeNs : Int) : Rat) / 1000000000 < spec.stabilitySeconds

instance (now : Int) (file : StoredFile Content) : Decidable (tooYoung spec now file) := by
  unfold tooYoung
  infer_instance

/-- `sorted(items, key=lambda item: item[0])`. -/
def sortedByName (items : List (String × Option Int)) : List (String × Option Int) :=
  items.insertionSort fun a b => a.1 ≤ b.1

/-! ## Generic checkpoints -/

def extractNumber (pattern : Option String) (value name : String) : Except Exn (Option Int) :=
  match pattern with
  | none => .ok none
  | some pattern => p.search pattern value name

/-- The step and the rank of a file, if it is a candidate. -/
def candidate (now : Int) (path : String) (file : StoredFile Content) :
    Except Exn (Option (Int × Option Int)) :=
  if path = manifestPath then .ok none
  else
    match extractNumber p spec.stepRegex path "step" with
    | .error e => .error e
    | .ok step =>
        if spec.stepRegex.isSome ∧ step.isNone then .ok none
        else
          match extractNumber p spec.rankRegex path "rank" with
          | .error e => .error e
          | .ok rank =>
              if spec.rankRegex.isSome ∧ rank.isNone then .ok none
              else if tooYoung spec now file then .ok none
              else .ok (some (step.getD 0, rank))

def candidates (now : Int) : List (String × StoredFile Content) →
    Dict String (Int × Option Int) → Except Exn (Dict String (Int × Option Int))
  | [], found => .ok found
  | (path, file) :: files, found =>
      match candidate p spec manifestPath now path file with
      | .error e => .error e
      | .ok none => candidates now files found
      | .ok (some numbers) => candidates now files (found.set path numbers)

/-- What the globs find, pattern by pattern. -/
def globbed (directory : Directory Content) : List (String × StoredFile Content) :=
  spec.fileGlobs.flatMap fun pattern => directory.entries.filter fun file => p.glob pattern file.1

/-- The files of a step, if they are complete. -/
def completeGroup (found : Dict String (Int × Option Int)) (step : Int) : Option Selection :=
  let items := (found.entries.filter fun item => item.2.1 = step).map fun item => (item.1, item.2.2)
  if spec.expectedFileCount.isSome ∧ spec.expectedFileCount ≠ some items.length then none
  else if spec.expectedRankCount.isSome ∧
      spec.expectedRankCount ≠ some (items.filterMap Prod.snd).dedup.length then none
  else some ⟨step, none, sortedByName items⟩

def selectGeneric (now : Int) (directory : Directory Content) : Except Exn (Option Selection) :=
  match candidates p spec manifestPath now (globbed p spec directory) .empty with
  | .error e => .error e
  | .ok found =>
      let steps := (found.values.map Prod.fst).dedup.insertionSort (· ≥ ·)
      match steps.findSome? (completeGroup spec found) with
      | none => .ok none
      | some selected => if selected.files = [] then .ok none else .ok (some selected)

/-! ## Native BSSN checkpoints -/

/-- The number that a text of decimal digits stands for. -/
def decimal? (digits : List Char) : Option Nat :=
  if digits ≠ [] ∧ digits.all Char.isDigit then
    some (digits.foldl (fun n c => 10 * n + (c.toNat - '0'.toNat)) 0)
  else none

/-- The number between two parts of a name. -/
def numberBetween (before after : String) (name : List Char) : Option Nat :=
  ((name.dropPrefix? before.toList).bind fun rest => rest.dropSuffix? after.toList).bind decimal?

def varName (bssn : String) (generation rank : Nat) : String := s!"{bssn}_{generation}_{rank}.var"

def octName (bssn : String) (generation rank : Nat) : String :=
  s!"{bssn}_{generation}_octree_{rank}.oct"

def aehName (bssn : String) (generation : Nat) : String :=
  s!"{bssn}_aeh_solver_checkpt-cp{generation}.json"

/-- The ranks of a generation: those that are there, unless the number of ranks is given. -/
def ranksOf (bssn : String) (generation : Nat) (directory : Directory Content) : List Nat :=
  match spec.expectedRankCount with
  | some count => List.range count
  | none =>
      let names := directory.keys.filter fun path => p.glob s!"{bssn}_{generation}_*.var" path
      (names.filterMap fun path =>
        numberBetween s!"{bssn}_{generation}_" ".var" (fileName path)).insertionSort (· ≤ ·)

/-- The files that a native checkpoint consists of. -/
def nativeFiles (bssn stepPath : String) (generation : Nat) (ranks : List Nat) :
    List (String × Option Int) :=
  (stepPath, none) :: (ranks.flatMap fun rank =>
    [(varName bssn generation rank, some (rank : Int)), (octName bssn generation rank, some (rank : Int))])
      ++ [(aehName bssn generation, none)]

def stableFile (now : Int) (directory : Directory Content) (path : String) : Bool :=
  match directory.get? path with
  | none => false
  | some file => 0 < r.size file.content ∧ ¬ tooYoung spec now file

/-- The checkpoint of a step file, if it is complete. -/
def nativeCandidate (bssn : String) (now : Int) (directory : Directory Content)
    (stepPath : String) (file : StoredFile Content) : Except Exn (Option Selection) :=
  match numberBetween s!"{bssn}_" "_step.cp" (fileName stepPath) with
  | none => .ok none
  | some generation =>
      match r.stepIn spec.nativeBssnStepKey file.content with
      | .error e => .error e
      | .ok none => .ok none
      | .ok (some step) =>
          let ranks := ranksOf p spec bssn generation directory
          let files := nativeFiles bssn stepPath generation ranks
          if ranks = [] then .ok none
          else if ¬ files.all fun item => stableFile r spec now directory item.1 then .ok none
          else if spec.expectedFileCount.isSome ∧ spec.expectedFileCount ≠ some files.length then
            .ok none
          else .ok (some ⟨step, some generation, files⟩)

/-- `max` by step and generation; of equal ones the first. -/
def later (a b : Selection) : Selection :=
  if a.step < b.step ∨ (a.step = b.step ∧ a.generation.getD 0 < b.generation.getD 0) then b else a

def nativeCandidates (bssn : String) (now : Int) (directory : Directory Content) :
    List (String × StoredFile Content) → Option Selection → Except Exn (Option Selection)
  | [], best => .ok best
  | (path, file) :: files, best =>
      match nativeCandidate p r spec bssn now directory path file with
      | .error e => .error e
      | .ok none => nativeCandidates bssn now directory files best
      | .ok (some selected) =>
          nativeCandidates bssn now directory files (some ((best.map (later · selected)).getD selected))

def selectNative (bssn : String) (now : Int) (directory : Directory Content) :
    Except Exn (Option Selection) :=
  let stepFiles := directory.entries.filter fun file => p.glob s!"{bssn}_*_step.cp" file.1
  match nativeCandidates p r spec bssn now directory stepFiles none with
  | .error e => .error e
  | .ok selected => .ok (selected.map fun s => { s with files := sortedByName s.files })

/-! ## The manifest -/

/-- The step and the files that discovery selects from the current files. -/
def select (now : Int) (directory : Directory Content) : Except Exn (Option Selection) :=
  match spec.nativeBssnPrefix with
  | some bssn => selectNative p r spec bssn now directory
  | none => selectGeneric p spec manifestPath now directory

def currentSize (directory : Directory Content) (path : String) : Nat :=
  ((directory.get? path).map fun file => r.size file.content).getD 0

def currentDigest (directory : Directory Content) (path : String) : Option Digest :=
  (directory.get? path).map fun file => r.sha256 file.content

/-- Equality of `dict(a)` and `dict(b)`. -/
def SameSizes (a b : List (String × Nat)) : Prop :=
  ∀ path ∈ a.map Prod.fst ++ b.map Prod.fst, (Dict.ofList a).get? path = (Dict.ofList b).get? path

instance (a b : List (String × Nat)) : Decidable (SameSizes a b) := by
  unfold SameSizes
  infer_instance

/-- Whether the manifest in place is kept for the selection. -/
def Reusable (directory : Directory Content) (selected : Selection)
    (existing : CheckpointManifest Digest) : Prop :=
  existing.checkpointStep = some selected.step ∧
    (selected.generation.isSome → existing.checkpointGeneration = selected.generation) ∧
      SameSizes (existing.files.map fun item => (item.path, item.sizeBytes))
        (selected.files.map fun item => (item.1, currentSize r directory item.1)) ∧
        (spec.includeSha256 = true → existing.files.all (·.sha256.isSome))

instance (directory : Directory Content) (selected : Selection)
    (existing : CheckpointManifest Digest) : Decidable (Reusable r spec directory selected existing) := by
  unfold Reusable
  infer_instance

/-- The manifest of a selection. -/
def newManifest (directory : Directory Content) (selected : Selection) : CheckpointManifest Digest where
  checkpointStep := some selected.step
  checkpointGeneration := selected.generation
  expectedRankCount := spec.expectedRankCount
  files := selected.files.map fun item => {
    path := item.1
    sizeBytes := currentSize r directory item.1
    rank := item.2
    sha256 := if spec.includeSha256 then currentDigest r directory item.1 else none }

/-- The manifest in place, if it is kept. -/
def reused (directory : Directory Content) (selected : Selection) :
    Option (CheckpointManifest Digest) :=
  match directory.get? manifestPath with
  | none => none
  | some file =>
      match r.manifest file.content with
      | .error _ => none
      | .ok existing => if Reusable r spec directory selected existing then some existing else none

def discover (now : Int) (directory : Directory Content) :
    Except Exn (Option String) × Directory Content :=
  match select p r spec manifestPath now directory with
  | .error e => (.error e, directory)
  | .ok none => (.ok none, directory)
  | .ok (some selected) =>
      match reused r spec manifestPath directory selected with
      | some _ => (.ok (some manifestPath), directory)
      | none =>
          (.ok (some manifestPath),
            directory.set manifestPath ⟨r.render (newManifest r spec directory selected), now⟩)

/-- `CheckpointManager.validate` of a task with discovery. -/
def validate (root : String) (now : Int) (directory : Directory Content)
    (cache : DigestCache Digest) :
    Except Exn CheckpointSummary × Directory Content × DigestCache Digest :=
  match discover p r spec manifestPath now directory with
  | (.error e, directory) => (.error e, directory, cache)
  | (.ok _, directory) =>
      match validateManifest r.toReading root manifestPath directory cache with
      | (result, cache) => (result, directory, cache)

end

end Magellan.Dendro
