import Magellan.Data.PyJson
import Magellan.Runtime.Dendro

/-!
# The manifest file as it is read

`CheckpointManager.validate` and the discovery before it, on a manifest that may hold any text and
any JSON value. `Checkpoint.validateManifest` is the same for a manifest of the right types.
-/

namespace Magellan.CheckpointManager

open Checkpoint (Directory StoredFile CheckpointSummary CheckpointManifest ManifestItem DigestCache)
open Dendro (DendroCheckpointDiscoverySpec Patterns Selection)
open PyJson (get get?)

inductive Raised where
  | checkpointValidationError (message : String)
  /-- An exception of any other class. -/
  | other (cls message : String)
  deriving DecidableEq

/-- Why a file has no JSON value: `json.JSONDecodeError`, or an exception of another class, such as
that its bytes are not UTF-8 or that its values are nested too deeply. -/
inductive LoadError where
  | jsonDecodeError (message : String)
  | other (cls message : String)

/-! ## Manifests that discovery writes -/

def entryJson (item : ManifestItem String) : PyJson :=
  .object ([("path", .string item.path)] ++
    (item.rank.toList.map fun rank => ("rank", .number (.int rank))) ++
    (item.sha256.toList.map fun digest => ("sha256", .string digest)) ++
    [("size_bytes", .number (.int item.sizeBytes))])

def manifestJson (createdAt : String) (m : CheckpointManifest String) : PyJson :=
  .object ((m.checkpointGeneration.toList.map fun generation =>
      ("checkpoint_generation", .number (.int generation))) ++
    [("checkpoint_step", PyJson.ofOption (fun step => .number (.int step)) m.checkpointStep),
      ("created_at_utc", .string createdAt),
      ("expected_rank_count",
        PyJson.ofOption (fun count : Nat => .number (.int count)) m.expectedRankCount),
      ("files", .array (m.files.map entryJson)),
      ("format_version", .number (.int 1)),
      ("workload_type", .string "dendro-gr")])

/-- The entry with its types, if it has them. -/
def typedItem : PyJson → Option (ManifestItem String)
  | .object entries =>
      match (get entries "path").string?, (get entries "size_bytes").int? with
      | some path, some (.ofNat size) => some {
          path := path
          sizeBytes := size
          rank := (get entries "rank").int?
          sha256 := (get entries "sha256").string? }
      | _, _ => none
  | _ => none

def typedItems : List PyJson → Option (List (ManifestItem String))
  | [] => some []
  | item :: items =>
      match typedItem item, typedItems items with
      | some item, some items => some (item :: items)
      | _, _ => none

def typedManifest : PyJson → Option (CheckpointManifest String)
  | .object entries =>
      match get entries "files" with
      | .array items => (typedItems items).map fun files => {
          checkpointStep := (get entries "checkpoint_step").int?
          checkpointGeneration := (get entries "checkpoint_generation").int?.map Int.toNat
          expectedRankCount := (get entries "expected_rank_count").int?.map Int.toNat
          files := files }
      | _ => none
  | _ => none

theorem typedItem_entryJson (item : ManifestItem String) : typedItem (entryJson item) = some item := by
  obtain ⟨path, size, rank, digest⟩ := item
  cases rank <;> cases digest <;> rfl

theorem typedManifest_manifestJson (createdAt : String) (m : CheckpointManifest String) :
    typedManifest (manifestJson createdAt m) = some m := by
  have items : ∀ files : List (ManifestItem String), typedItems (files.map entryJson) = some files := by
    intro files
    induction files with
    | nil => rfl
    | cons item files ih => rw [List.map_cons, typedItems, typedItem_entryJson, ih]
  obtain ⟨step, generation, count, files⟩ := m
  have listed := items files
  cases step <;> cases generation <;> cases count <;>
    · show Option.map _ (typedItems (files.map entryJson)) = _
      rw [listed]
      rfl

/-- What is read and written in the bytes of a file. -/
structure Encoding (Content : Type) where
  size : Content → Nat
  sha256 : Content → String
  /-- `json.loads(path.read_text(encoding="utf-8"))`. -/
  loads : Content → Except LoadError PyJson
  dumps : PyJson → Content
  loads_manifest : ∀ createdAt m, loads (dumps (manifestJson createdAt m)) =
    .ok (manifestJson createdAt m)
  /-- `str(value)`. -/
  str : PyJson → String
  str_string : ∀ s, str (.string s) = s
  /-- The current time as the manifest has it. -/
  isoformat : Int → String

/-- What discovery reads under `native_bssn_step_key`. -/
def Encoding.stepIn {Content : Type} (r : Encoding Content) (key : String) (content : Content) :
    Except Exn (Option Int) :=
  match r.loads content with
  | .error (.jsonDecodeError _) => .ok none
  | .error (.other cls message) => .error ⟨.valueError, s!"{cls}: {message}"⟩
  | .ok (.object entries) => .ok ((get? entries key).bind PyJson.int?)
  | .ok _ => .ok none

/-- The manifest in the bytes, where it has the types of one. -/
def Encoding.typed {Content : Type} (r : Encoding Content) (content : Content) :
    Except String (CheckpointManifest String) :=
  match r.loads content with
  | .error (.jsonDecodeError message) => .error message
  | .error (.other cls message) => .error s!"{cls}: {message}"
  | .ok j => (typedManifest j).elim (.error "not a manifest") .ok

/-- The encoding as discovery selects with it. -/
def Encoding.toReading {Content : Type} (r : Encoding Content) :
    Dendro.DendroReading Content String where
  size := r.size
  sha256 := r.sha256
  manifest := r.typed
  render m := r.dumps (manifestJson "" m)
  manifest_render m := by
    rw [Encoding.typed, r.loads_manifest]
    show (typedManifest (manifestJson "" m)).elim _ _ = _
    rw [typedManifest_manifestJson]
    rfl
  stepIn := r.stepIn

/-! ## The files of a checkpoint directory -/

/-- The path that a text names below a directory. -/
def resolve (text : String) : String :=
  String.ofList (['/'].intercalate ((pathParts text).filter fun part => part ≠ [] ∧ part ≠ ['.']))

/-- The files below a directory, under the names that a listing gives. -/
structure Tree (Content : Type) where
  files : Directory Content
  plain : ∀ path ∈ files.keys, Plain path

namespace Tree

variable {Content : Type}

def set (tree : Tree Content) (path : String) (plain : Plain path) (file : StoredFile Content) :
    Tree Content where
  files := tree.files.set path file
  plain := by
    intro k mem
    obtain ⟨⟨k, v⟩, entry, rfl⟩ := List.mem_map.mp mem
    rcases Dict.mem_entries_set.mp entry with ⟨rfl, -⟩ | ⟨-, old⟩
    · exact plain
    · exact tree.plain k (List.mem_map_of_mem old)

def find (tree : Tree Content) (text : String) : Option (StoredFile Content) :=
  tree.files.get? (resolve text)

/-- `path.is_file()` of a path in the manifest, with the file. Of a missing file whose name is too
long for the file system the question is an error. -/
def isFile (tooLong : String → Bool) (tree : Tree Content) (text : String) :
    Except Raised (Option (StoredFile Content)) :=
  match tree.find text with
  | some file => .ok (some file)
  | none => if tooLong text then .error (.other "OSError" s!"File name too long: {text}") else .ok none

end Tree

/-! ## The settings of a task -/

/-- The manifest's path below the checkpoint directory. -/
structure ManifestPath where
  text : String
  plain : Plain text

structure CheckpointSettings where
  /-- The name of `checkpoint_relative_path`. -/
  checkpointFile : String
  manifest : Option ManifestPath := none
  /-- `dendro_options.checkpoint_discovery`. -/
  discovery : Option DendroCheckpointDiscoverySpec := none

/-! ## The manifest in place -/

section

variable {Content : Type} (p : Patterns) (r : Encoding Content)
  (spec : DendroCheckpointDiscoverySpec)

/-- `existing_sizes == selected_sizes`. -/
def sameSizes (items : List PyJson) (sizes : Dict String Nat) : Bool :=
  ((PyJson.objects items).all fun entries =>
    (get entries "path").string?.any fun path => path ∈ sizes.keys) &&
  sizes.entries.all fun (path, size) =>
    ((PyJson.objects items).reverse.find? fun entries =>
      (get entries "path").string? = some path).any fun entries =>
        (get entries "size_bytes").equalsInt size

def digestsReady (items : List PyJson) : Bool :=
  items.all fun
    | .object entries => (get entries "sha256").truthy
    | _ => false

/-- `typed` with the sizes that the selected files have. -/
def selectedSizes (files : Directory Content) (selected : Selection) : Dict String Nat :=
  Dict.ofList (selected.files.map fun item =>
    (item.1, ((files.get? item.1).map fun file => r.size file.content).getD 0))

def attributeError (j : PyJson) : Raised :=
  .other "AttributeError" s!"'{j.typeName}' object has no attribute 'get'"

/-- Whether the manifest in place is kept for the selection. -/
def keeps (files : Directory Content) (selected : Selection) : PyJson → Except Raised Bool
  | .object existing =>
      let listed := (get? existing "files").getD (.array [])
      match listed.iterate with
      | none => .error (.other "TypeError" s!"'{listed.typeName}' object is not iterable")
      | some items =>
          match (PyJson.objects items).find? fun entries => !(get entries "path").hashable with
          | some entries =>
              let path := get entries "path"
              .error (.other "TypeError" s!"unhashable type: '{path.typeName}'")
          | none =>
              .ok ((get existing "checkpoint_step").equalsInt selected.step &&
                selected.generation.all (fun generation : Nat =>
                  (get existing "checkpoint_generation").equalsInt generation) &&
                sameSizes items (selectedSizes r files selected) &&
                (!spec.includeSha256 || digestsReady items))
  | j => .error (attributeError j)

/-- The manifest of a selection. -/
def newManifest (files : Directory Content) (selected : Selection) : CheckpointManifest String where
  checkpointStep := some selected.step
  checkpointGeneration := selected.generation
  expectedRankCount := spec.expectedRankCount
  files := selected.files.map fun item => {
    path := item.1
    sizeBytes := ((files.get? item.1).map fun file => r.size file.content).getD 0
    rank := item.2
    sha256 := if spec.includeSha256 then (files.get? item.1).map fun file => r.sha256 file.content
      else none }

/-- What discovery comes to. -/
inductive Finding where
  | nothing
  /-- The manifest in place is kept. -/
  | kept
  | new (m : CheckpointManifest String)

/-- `DendroCheckpointDiscovery.discover` up to the writing of a manifest. -/
def findManifest (manifest : ManifestPath) (now : Int) (files : Directory Content) :
    Except Raised Finding :=
  match Dendro.select p r.toReading spec manifest.text now files with
  | .error e => .error (.other e.cls.name e.message)
  | .ok none => .ok .nothing
  | .ok (some selected) =>
      let fresh := Finding.new (newManifest r spec files selected)
      match files.get? manifest.text with
      | none => .ok fresh
      | some file =>
          match r.loads file.content with
          | .error (.other cls message) => .error (.other cls message)
          | .error (.jsonDecodeError _) => .ok fresh
          | .ok existing =>
              match keeps r spec files selected existing with
              | .error e => .error e
              | .ok true => .ok .kept
              | .ok false => .ok fresh

def writeManifest (manifest : ManifestPath) (now : Int) (tree : Tree Content)
    (m : CheckpointManifest String) : Tree Content :=
  tree.set manifest.text manifest.plain ⟨r.dumps (manifestJson (r.isoformat now) m), now⟩

def discover (manifest : ManifestPath) (now : Int) (tree : Tree Content) :
    Except Raised (Option ManifestPath) × Tree Content :=
  match findManifest p r spec manifest now tree.files with
  | .error e => (.error e, tree)
  | .ok .nothing => (.ok none, tree)
  | .ok .kept => (.ok (some manifest), tree)
  | .ok (.new m) => (.ok (some manifest), writeManifest r manifest now tree m)

end

/-! ## Validation -/

section

variable {Content : Type} (p : Patterns) (r : Encoding Content) (tooLong : String → Bool)
  (root : String)

def invalid (message : String) : Raised := .checkpointValidationError message

def cacheKey (text : String) (file : StoredFile Content) (expected : PyJson) :
    String × Int × Nat × String :=
  (resolve text, file.mtimeNs, r.size file.content, r.str expected)

/-- Whether the file has the digest, as far as the cache does not know better. -/
def verdict (cache : DigestCache String) (text : String) (file : StoredFile Content)
    (expected : PyJson) : Bool :=
  (cache (cacheKey r text file expected)).getD
    (decide (expected.string? = some (r.sha256 file.content)))

def validateDigest (cache : DigestCache String) (text : String) (file : StoredFile Content) :
    PyJson → Except Raised Unit × DigestCache String
  | .null => (.ok (), cache)
  | expected =>
      let matches_ := verdict r cache text file expected
      (if matches_ then .ok () else .error (invalid s!"Checkpoint digest mismatch for {root}/{text}"),
        Function.update cache (cacheKey r text file expected) (some matches_))

def validateItem (tree : Tree Content) (cache : DigestCache String) :
    PyJson → Except Raised Unit × DigestCache String
  | .object entries =>
      match (get entries "path").string? with
      | none => (.error (invalid "Manifest file path is invalid"), cache)
      | some text =>
          if ¬ SafePath text then (.error (invalid s!"Unsafe manifest path: {text}"), cache)
          else
            match tree.isFile tooLong text with
            | .error e => (.error e, cache)
            | .ok none => (.error (invalid s!"Manifest file is missing: {root}/{text}"), cache)
            | .ok (some file) =>
                let expected := get entries "size_bytes"
                if expected.int? ≠ some (r.size file.content : Int) then
                  (.error (invalid (s!"Checkpoint size mismatch for {root}/{text}: " ++
                    s!"expected={r.str expected}, actual={r.size file.content}")), cache)
                else validateDigest r root cache text file (get entries "sha256")
  | _ => (.error (invalid "Invalid checkpoint manifest entry"), cache)

def validateItems (tree : Tree Content) : List PyJson → DigestCache String →
    Except Raised Unit × DigestCache String
  | [], cache => (.ok (), cache)
  | item :: items, cache =>
      match validateItem r tooLong root tree cache item with
      | (.error e, cache) => (.error e, cache)
      | (.ok (), cache) => validateItems tree items cache

/-- `manifest.get("files")` where it is a list with something in it. -/
def listedFiles : PyJson → List PyJson
  | .array items => items
  | _ => []

/-- `checkpoint_step` is absent or an integer. -/
def stepFits (entries : List (String × PyJson)) : Bool :=
  (get entries "checkpoint_step").isNull || (get entries "checkpoint_step").int?.isSome

/-- From the manifest's value on. -/
def validateManifest (manifest : ManifestPath) (tree : Tree Content) (cache : DigestCache String) :
    PyJson → Except Raised CheckpointSummary × DigestCache String
  | .object entries =>
      let files := listedFiles (get entries "files")
      if files = [] then (.error (invalid "Checkpoint manifest contains no files"), cache)
      else
        match validateItems r tooLong root tree files cache with
        | (.error e, cache) => (.error e, cache)
        | (.ok (), cache) =>
            if ¬ stepFits entries then (.error (invalid "checkpoint_step must be an integer"), cache)
            else
              (.ok {
                sizeBytes := Checkpoint.directorySizeBytes r.toReading.toReading tree.files
                fileCount := files.length
                manifestPath := some s!"{root}/{manifest.text}"
                checkpointStep := (get entries "checkpoint_step").int? }, cache)
  | j => (.error (attributeError j), cache)

/-- A checkpoint without a manifest. -/
def validateFile (checkpointFile : String) (tree : Tree Content) : Except Raised CheckpointSummary :=
  match tree.files.get? checkpointFile with
  | none => .error (invalid s!"Checkpoint file does not exist: {root}/{checkpointFile}")
  | some _ => .ok {
      sizeBytes := Checkpoint.directorySizeBytes r.toReading.toReading tree.files
      fileCount := tree.files.keys.length
      manifestPath := none }

/-- From the reading of the manifest on. -/
def readManifest (manifest : ManifestPath) (tree : Tree Content) (cache : DigestCache String) :
    Except Raised CheckpointSummary × DigestCache String :=
  match tree.files.get? manifest.text with
  | none =>
      (.error (invalid s!"Checkpoint manifest does not exist: {root}/{manifest.text}"), cache)
  | some file =>
      match r.loads file.content with
      | .error (.jsonDecodeError message) =>
          (.error (invalid s!"Invalid checkpoint manifest: {message}"), cache)
      | .error (.other cls message) => (.error (.other cls message), cache)
      | .ok j => validateManifest r tooLong root manifest tree cache j

/-- `CheckpointManager.validate`; there is no checkpoint directory where there is no tree. -/
def validate (settings : CheckpointSettings) (now : Int) (cache : DigestCache String) :
    Option (Tree Content) →
    Except Raised CheckpointSummary × Option (Tree Content) × DigestCache String
  | none => (.error (invalid s!"Checkpoint directory does not exist: {root}"), none, cache)
  | some tree =>
      match settings.manifest with
      | none => (validateFile r root settings.checkpointFile tree, some tree, cache)
      | some manifest =>
          match settings.discovery with
          | none =>
              match readManifest r tooLong root manifest tree cache with
              | (result, cache) => (result, some tree, cache)
          | some spec =>
              match discover p r spec manifest now tree with
              | (.error e, tree) => (.error e, some tree, cache)
              | (.ok _, tree) =>
                  match readManifest r tooLong root manifest tree cache with
                  | (result, cache) => (result, some tree, cache)

end

end Magellan.CheckpointManager
