import Magellan.Data.Dict
import Magellan.Data.Path
import Magellan.State.TaskModels

/-!
# The checkpoint manager

`CheckpointManager.validate` after its discovery: the manifest against the files that it lists. A
directory that does not exist is an empty one here.
-/

namespace Magellan.Checkpoint

/-- An entry of a manifest's list of files. -/
structure ManifestItem (Digest : Type) where
  path : String
  sizeBytes : Nat
  rank : Option Int := none
  sha256 : Option Digest := none

structure CheckpointManifest (Digest : Type) where
  checkpointStep : Option Int := none
  checkpointGeneration : Option Nat := none
  expectedRankCount : Option Nat := none
  files : List (ManifestItem Digest)

structure StoredFile (Content : Type) where
  content : Content
  mtimeNs : Int

/-- The files below a directory. -/
abbrev Directory (Content : Type) := Dict String (StoredFile Content)

/-- What is read in the bytes of a file. -/
structure Reading (Content Digest : Type) where
  size : Content → Nat
  sha256 : Content → Digest
  /-- The manifest that the text holds, or the error of the JSON reader. -/
  manifest : Content → Except String (CheckpointManifest Digest)

structure CheckpointSummary where
  sizeBytes : Nat
  fileCount : Nat
  manifestPath : Option String
  checkpointStep : Option Int := none
  deriving DecidableEq

/-- The verdicts on digests, each under the file's path, time and size and the expected digest. -/
abbrev DigestCache (Digest : Type) := String × Int × Nat × Digest → Option Bool

section

variable {Content Digest : Type} [DecidableEq Digest]

def checkpointValidationError (message : String) : Exn := ⟨.checkpointValidationError, message⟩

def directorySizeBytes (r : Reading Content Digest) (directory : Directory Content) : Nat :=
  (directory.values.map fun file => r.size file.content).sum

def cacheKey (r : Reading Content Digest) (path : String) (file : StoredFile Content)
    (expected : Digest) : String × Int × Nat × Digest :=
  (path, file.mtimeNs, r.size file.content, expected)

/-- Whether the file has the digest, as far as the cache does not know better. -/
def verdict (r : Reading Content Digest) (cache : DigestCache Digest) (path : String)
    (file : StoredFile Content) (expected : Digest) : Bool :=
  (cache (cacheKey r path file expected)).getD (decide (r.sha256 file.content = expected))

def validateItem (r : Reading Content Digest) (root : String) (directory : Directory Content)
    (cache : DigestCache Digest) (item : ManifestItem Digest) :
    Except Exn Unit × DigestCache Digest :=
  if ¬ SafePath item.path then
    (.error (checkpointValidationError s!"Unsafe manifest path: {item.path}"), cache)
  else
    match directory.get? item.path with
    | none =>
        (.error (checkpointValidationError s!"Manifest file is missing: {root}/{item.path}"), cache)
    | some file =>
        if r.size file.content ≠ item.sizeBytes then
          (.error (checkpointValidationError
            (s!"Checkpoint size mismatch for {root}/{item.path}: expected={item.sizeBytes}, " ++
              s!"actual={r.size file.content}")), cache)
        else
          match item.sha256 with
          | none => (.ok (), cache)
          | some expected =>
              let matches_ := verdict r cache item.path file expected
              let cache := Function.update cache (cacheKey r item.path file expected) (some matches_)
              if matches_ then (.ok (), cache)
              else
                (.error (checkpointValidationError
                  s!"Checkpoint digest mismatch for {root}/{item.path}"), cache)

def validateItems (r : Reading Content Digest) (root : String) (directory : Directory Content) :
    List (ManifestItem Digest) → DigestCache Digest → Except Exn Unit × DigestCache Digest
  | [], cache => (.ok (), cache)
  | item :: items, cache =>
      match validateItem r root directory cache item with
      | (.error e, cache) => (.error e, cache)
      | (.ok (), cache) => validateItems r root directory items cache

/-- `validate` of a task with a manifest, from the reading of the manifest on. -/
def validateManifest (r : Reading Content Digest) (root manifestPath : String)
    (directory : Directory Content) (cache : DigestCache Digest) :
    Except Exn CheckpointSummary × DigestCache Digest :=
  match directory.get? manifestPath with
  | none =>
      (.error (checkpointValidationError
        s!"Checkpoint manifest does not exist: {root}/{manifestPath}"), cache)
  | some file =>
      match r.manifest file.content with
      | .error e => (.error (checkpointValidationError s!"Invalid checkpoint manifest: {e}"), cache)
      | .ok manifest =>
          if manifest.files = [] then
            (.error (checkpointValidationError "Checkpoint manifest contains no files"), cache)
          else
            match validateItems r root directory manifest.files cache with
            | (.error e, cache) => (.error e, cache)
            | (.ok (), cache) =>
                (.ok {
                  sizeBytes := directorySizeBytes r directory
                  fileCount := manifest.files.length
                  manifestPath := some s!"{root}/{manifestPath}"
                  checkpointStep := manifest.checkpointStep }, cache)

/-! ## What validation accepts -/

/-- The file that an item names has the size and, where one is listed, the digest. -/
def Passes (r : Reading Content Digest) (directory : Directory Content) (cache : DigestCache Digest)
    (item : ManifestItem Digest) : Prop :=
  SafePath item.path ∧ ∃ file, directory.get? item.path = some file ∧
    r.size file.content = item.sizeBytes ∧
      ∀ expected, item.sha256 = some expected → verdict r cache item.path file expected = true

variable (r : Reading Content Digest) (root manifestPath : String) (directory : Directory Content)
  (cache : DigestCache Digest) (item : ManifestItem Digest)

theorem validateItem_ok_iff : (validateItem r root directory cache item).1 = .ok () ↔
    Passes r directory cache item := by
  unfold validateItem Passes
  by_cases safe : SafePath item.path
  · rw [if_neg (not_not.mpr safe)]
    cases found : directory.get? item.path with
    | none => simp
    | some file =>
        by_cases size : r.size file.content = item.sizeBytes
        · cases digest : item.sha256 with
          | none => simp [safe, size]
          | some expected =>
              simp only [size, ne_eq, not_true_eq_false, if_false, safe, Option.some.injEq,
                true_and, forall_eq', exists_eq_left']
              split_ifs with agrees
              · simp [agrees]
              · simp [agrees]
        · simp [size]
  · simp [safe]

theorem validateItem_cache : (validateItem r root directory cache item).2 = cache ∨
    ∃ file expected, directory.get? item.path = some file ∧
      (validateItem r root directory cache item).2 =
        Function.update cache (cacheKey r item.path file expected)
          (some (verdict r cache item.path file expected)) := by
  unfold validateItem
  by_cases safe : SafePath item.path
  swap
  · rw [if_pos safe]
    exact .inl rfl
  · rw [if_neg (not_not.mpr safe)]
    split
    · exact .inl rfl
    · rename_i file found
      split_ifs with size
      · exact .inl rfl
      · split
        · exact .inl rfl
        · rename_i expected digest
          refine .inr ⟨file, expected, found, ?_⟩
          dsimp only
          split_ifs <;> rfl

/-- A verdict that is noted changes no verdict on the files of the same directory. -/
theorem passes_validateItem (item' : ManifestItem Digest) :
    Passes r directory (validateItem r root directory cache item).2 item' ↔
      Passes r directory cache item' := by
  rcases validateItem_cache r root directory cache item with same | ⟨file, expected, found, noted⟩
  · rw [same]
  · rw [noted]
    unfold Passes
    apply and_congr_right'
    apply exists_congr
    intro file'
    apply and_congr_right
    intro found'
    apply and_congr_right'
    apply forall₂_congr
    intro expected' _
    by_cases key : cacheKey r item'.path file' expected' = cacheKey r item.path file expected
    · have path : item'.path = item.path := congrArg Prod.fst key
      have content : file' = file := by
        rw [path, found] at found'
        exact (Option.some.inj found').symm
      have digest : expected' = expected := congrArg (·.2.2.2) key
      rw [path, content, digest]
      simp [verdict]
    · simp [verdict, key]

theorem validateItems_ok_iff (items : List (ManifestItem Digest)) :
    (validateItems r root directory items cache).1 = .ok () ↔
      ∀ item ∈ items, Passes r directory cache item := by
  induction items generalizing cache with
  | nil => simp [validateItems]
  | cons item items ih =>
      have first := validateItem_ok_iff r root directory cache item
      have rest := passes_validateItem r root directory cache item
      rw [List.forall_mem_cons, ← first, validateItems]
      split
      · rename_i e cache' result
        rw [result]
        simp
      · rename_i cache' result
        rw [result] at rest ⊢
        rw [ih]
        simp only [rest, true_and]

variable {r root manifestPath directory cache}

theorem validateManifest_ok_iff {summary : CheckpointSummary} :
    (validateManifest r root manifestPath directory cache).1 = .ok summary ↔
      ∃ file manifest, directory.get? manifestPath = some file ∧
        r.manifest file.content = .ok manifest ∧ manifest.files ≠ [] ∧
          (∀ item ∈ manifest.files, Passes r directory cache item) ∧
            summary = ⟨directorySizeBytes r directory, manifest.files.length,
              some s!"{root}/{manifestPath}", manifest.checkpointStep⟩ := by
  unfold validateManifest
  cases directory.get? manifestPath with
  | none => simp
  | some file =>
      simp only [Option.some.injEq, exists_and_left, exists_eq_left']
      cases r.manifest file.content with
      | error e => simp
      | ok manifest =>
          simp only [Except.ok.injEq, exists_eq_left']
          split_ifs with empty
          · simp [empty]
          · have listed := validateItems_ok_iff r root directory cache manifest.files
            rw [← listed]
            split
            · rename_i e cache' result
              rw [result]
              simp
            · rename_i cache' result
              rw [result]
              simp [empty, eq_comm]

end

end Magellan.Checkpoint
