import Magellan.Artifacts.Staging
import Magellan.Coroutine.Answers
import Magellan.Data.Landing

/-!
# The paths of the artifact manager

The strings of a request and of a manifest are joined to directories of the node. Every operation
on a file carries the paths it is given and what they were joined for.
-/

namespace Magellan.Confinement

open Coroutine Coro Artifacts

/-- The state directory of a node. -/
structure StateRoot where
  path : AbsolutePath
  names : ∀ part ∈ path, IsPart part ∧ part ≠ up

/-- What a path is for. -/
inductive Area where
  | incoming (migrationId : MigrationId)
  | artifactIncoming (migrationId : MigrationId)
  | cache (digest : String)
  | task (taskId : TaskId)
  | record (migrationId : MigrationId)
  | temporaryRecord (migrationId : MigrationId)

structure Place where
  area : Area
  path : AbsolutePath

namespace StateRoot

variable (root : StateRoot)

def inside (names : List String) : AbsolutePath := root.path ++ names.map String.toList

/-- The directory, or the file, with the name that a string asks for. -/
def home : Area → AbsolutePath
  | .incoming migrationId => root.inside ["incoming", migrationId]
  | .artifactIncoming migrationId => root.inside ["artifact-incoming", migrationId]
  | .cache digest => root.inside ["artifact-cache", digest]
  | .task taskId => root.inside ["tasks", taskId]
  | .record migrationId => root.inside ["control", "migrations", migrationId ++ ".json"]
  | .temporaryRecord migrationId => root.inside ["control", "migrations", migrationId ++ ".json.tmp"]

def cacheDirectory (digest : String) : AbsolutePath := joinPath (root.inside ["artifact-cache"]) digest

def payloadDirectory (digest : String) : AbsolutePath :=
  root.cacheDirectory digest ++ ["payload".toList]

def manifestPath (digest : String) : AbsolutePath :=
  root.cacheDirectory digest ++ ["manifest.json".toList]

def incomingDirectory (migrationId : MigrationId) (digest : String) : AbsolutePath :=
  joinPath (joinPath (root.inside ["artifact-incoming"]) migrationId) digest

def taskDirectory (taskId : TaskId) : AbsolutePath := joinPath (root.inside ["tasks"]) taskId

def artifactsDirectory (taskId : TaskId) : AbsolutePath :=
  root.taskDirectory taskId ++ ["artifacts".toList]

def statePath (taskId : TaskId) : AbsolutePath := root.taskDirectory taskId ++ ["state.json".toList]

def temporaryStatePath (taskId : TaskId) : AbsolutePath :=
  root.taskDirectory taskId ++ ["state.json.tmp".toList]

end StateRoot

/-- A path leads to where the paths of its kind belong. -/
def Place.Confined (root : StateRoot) (place : Place) : Prop := Under (root.home place.area) place.path

theorem Place.Confined.one {root : StateRoot} {place other : Place} (confined : place.Confined root)
    (among : other ∈ [place]) : other.Confined root := by
  rw [List.mem_singleton.mp among]
  exact confined

theorem Place.Confined.both {root : StateRoot} {place place' other : Place}
    (confined : place.Confined root) (confined' : place'.Confined root)
    (among : other ∈ [place, place']) : other.Confined root := by
  rcases List.mem_cons.mp among with rfl | among
  · exact confined
  · exact confined'.one among

inductive FileOp where
  | isFile (place : Place)
  | isDirectory (place : Place)
  | isSymlink (place : Place)
  | exists_ (place : Place)
  | size (place : Place)
  | sha256 (place : Place)
  | readManifest (place : Place)
  /-- The paths that a checkpoint's manifest lists. -/
  | readListed (place : Place)
  | read (place : Place)
  | write (place : Place)
  | makeDirectories (place : Place)
  | unlink (place : Place)
  | symlink (place : Place)
  | removeTree (place : Place)
  | replace (source destination : Place)
  | copyTree (source destination : Place)

namespace FileOp

@[reducible] def Ret : FileOp → Type
  | isFile _ | isDirectory _ | isSymlink _ | exists_ _ => Bool
  | size _ => Nat
  | sha256 _ => String
  | readManifest _ => ArtifactManifest String String
  | readListed _ => List String
  | read _ | write _ | makeDirectories _ | unlink _ | symlink _ | removeTree _ | replace .. | copyTree .. =>
      Unit

def places : FileOp → List Place
  | isFile p | isDirectory p | isSymlink p | exists_ p | size p | sha256 p | readManifest p
  | readListed p | read p | write p | makeDirectories p | unlink p | symlink p | removeTree p => [p]
  | replace p q | copyTree p q => [p, q]

/-- The text at a path is the manifest `manifest path`, and it may be refused; everything else is
answered in any way. -/
def answers (manifest : AbsolutePath → ArtifactManifest String String) :
    (o : FileOp) → Except (Failure String) o.Ret → Prop
  | readManifest p, .ok m => m = manifest p.path
  | _, _ => True

end FileOp

abbrev FileWork (α : Type) := Coro FileOp FileOp.Ret (Failure String) α

abbrev file (o : FileOp) : FileWork o.Ret := Coro.op o

/-- The paths that are used in any run lead to where they belong. -/
def Confined {α : Type} (root : StateRoot) (manifest : AbsolutePath → ArtifactManifest String String)
    (work : FileWork α) : Prop :=
  work.Always (FileOp.answers manifest) fun o => ∀ place ∈ o.places, place.Confined root

/-! ## The manager -/

section

variable (root : StateRoot)

/-- `digest` is joined to the cache on behalf of the digest `named`. -/
def loadManifest (named digest : String) : FileWork (ArtifactManifest String String) := do
  let place : Place := ⟨.cache named, root.manifestPath digest⟩
  let found ← file (.isFile place)
  if found then file (.readManifest place) else raise (.noManifest digest)

def validateFile (named digest : String) (verifyHashes : Bool) (item : ArtifactFile String) :
    FileWork Unit := do
  let place : Place := ⟨.cache named, joinPath (root.payloadDirectory digest) item.path⟩
  let found ← file (.isFile place)
  if found then do
    let actualSize ← file (.size place)
    if actualSize ≠ item.sizeBytes then
      raise (.sizeMismatch digest item.path item.sizeBytes actualSize)
    else if verifyHashes then do
      let sha ← file (.sha256 place)
      if sha ≠ item.sha256 then raise (.digestMismatch digest item.path) else pure ()
    else pure ()
  else raise (.missingFile digest item.path)

def validateFiles (named digest : String) (verifyHashes : Bool) :
    List (ArtifactFile String) → FileWork Unit
  | [] => pure ()
  | item :: items => do
      validateFile root named digest verifyHashes item
      validateFiles named digest verifyHashes items

def validateCache (named digest : String) (verifyHashes : Bool) :
    FileWork (ArtifactManifest String String) := do
  let manifest ← loadManifest root named digest
  let found ← file (.isDirectory ⟨.cache named, root.payloadDirectory digest⟩)
  if found then do
    validateFiles root named digest verifyHashes manifest.files
    pure manifest
  else raise (.noPayload digest)

def hasArtifact (digest : String) : FileWork Bool :=
  (validateCache root digest digest false).attempt (fun _ => pure true) fun e =>
    if e.isArtifactValidationError then pure false else raise e

/-- The endpoint that answers which digests are there. -/
def artifactStatus : List (ArtifactBinding String) → FileWork (List String)
  | [] => pure []
  | artifact :: artifacts => do
      let found ← hasArtifact root artifact.digest
      let present ← artifactStatus artifacts
      pure (if found then artifact.digest :: present else present)

def commitIncoming (migrationId : MigrationId) (digest : String) :
    FileWork (ArtifactManifest String String) := do
  let incoming : Place := ⟨.artifactIncoming migrationId, root.incomingDirectory migrationId digest⟩
  let destination : Place := ⟨.cache digest, root.cacheDirectory digest⟩
  let found ← file (.isDirectory incoming)
  if found then do
    let there ← file (.exists_ destination)
    if there then do
      file (.removeTree incoming)
      validateCache root digest (String.ofList (destination.path.getLastD [])) true
    else do
      file (.replace incoming destination)
      (validateCache root digest digest true).tryExcept fun e => do
        file (.removeTree destination)
        raise e
  else raise (.noIncoming migrationId digest)

def isSymlinkOrFile (place : Place) : FileWork Bool := do
  let isSymlink ← file (.isSymlink place)
  if isSymlink then pure true else file (.isFile place)

def clearTarget (place : Place) : FileWork Unit := do
  let isSymlinkOrFile ← isSymlinkOrFile place
  if isSymlinkOrFile then file (.unlink place)
  else do
    let isDirectory ← file (.isDirectory place)
    if isDirectory then file (.removeTree place) else pure ()

/-- The link at a target, made under a fresh name. -/
def stageTarget (taskId : TaskId) (target : Target) (fresh : String) : FileWork Unit := do
  let path := root.artifactsDirectory taskId ++ target.map String.toList
  let temporary := '.' :: path.getLastD [] ++ (".tmp-" ++ fresh).toList
  let place : Place := ⟨.task taskId, path⟩
  let link : Place := ⟨.task taskId, path.dropLast ++ [temporary]⟩
  file (.makeDirectories ⟨.task taskId, path.dropLast⟩)
  clearTarget place
  file (.symlink link)
  file (.replace link place)

def stageEach (taskId : TaskId) (specs : List StaticArtifactSpec) (fresh : String) :
    List (ArtifactBinding String) → FileWork Unit
  | [] => pure ()
  | binding :: bindings =>
      match Staging.specification specs binding.artifactId with
      | none => raise (.unknownArtifact taskId binding.artifactId)
      | some spec => do
          let _ ← validateCache root binding.digest binding.digest true
          stageTarget root taskId spec.targetRelativeDirectory fresh
          stageEach taskId specs fresh bindings

def stageBindings (taskId : TaskId) (specs : List StaticArtifactSpec) (fresh : String)
    (bindings : List (ArtifactBinding String)) : FileWork Unit := do
  file (.makeDirectories ⟨.task taskId, root.artifactsDirectory taskId⟩)
  stageEach root taskId specs fresh bindings
  file (.write ⟨.task taskId, root.temporaryStatePath taskId⟩)
  file (.replace ⟨.task taskId, root.temporaryStatePath taskId⟩ ⟨.task taskId, root.statePath taskId⟩)

end

/-! ## Homes -/

variable {α : Type} {root : StateRoot} {manifest : AbsolutePath → ArtifactManifest String String}
  {named digest : String} {taskId : TaskId} {verifyHashes : Bool}

theorem StateRoot.isPart_of_mem_inside {names : List String} (parts : ∀ name ∈ names, IsName name)
    {part : List Char} (inside : part ∈ root.inside names) : IsPart part ∧ part ≠ up := by
  rcases List.mem_append.mp inside with old | new
  · exact root.names part old
  · obtain ⟨name, among, rfl⟩ := List.mem_map.mp new
    exact parts name among

theorem StateRoot.up_not_mem {names : List String} (parts : ∀ name ∈ names, IsName name) :
    up ∉ root.inside names := fun inside => (isPart_of_mem_inside parts inside).2 rfl

theorem StateRoot.inside_concat {names : List String} {name : String} :
    root.inside (names ++ [name]) = root.inside names ++ [name.toList] := by
  simp [inside]

theorem StateRoot.under_name (names : List String) {name : String} {rest : AbsolutePath}
    (parts : ∀ name ∈ names, IsName name) (single : IsName name) (below : up ∉ rest) :
    Under (root.inside (names ++ [name])) (joinPath (root.inside names) name ++ rest) := by
  rw [single.joinPath, inside_concat, under_append]
  · exact List.prefix_append ..
  · intro climbs
    rcases List.mem_append.mp climbs with road | last
    · rcases List.mem_append.mp road with road | last
      · exact root.up_not_mem parts road
      · exact single.2 (List.mem_singleton.mp last).symm
    · exact below last

theorem StateRoot.under_joined (root : StateRoot) (names : List String) {name : String}
    (parts : ∀ name ∈ names, IsName name) (single : IsName name) :
    Under (root.inside (names ++ [name])) (joinPath (root.inside names) name) := by
  have whole := @under_name root names name [] parts single List.not_mem_nil
  rwa [List.append_nil] at whole

theorem isName_of_under_inside (names : List String) {name : String} {path : AbsolutePath}
    (parts : ∀ part ∈ path, IsPart part) (under : Under (root.inside (names ++ [name])) path) :
    IsName name := by
  rw [StateRoot.inside_concat] at under
  exact isName_of_under parts under

theorem isPart_toList (name : String) (h : IsName name) : ∀ part ∈ [name.toList], IsPart part := by
  intro part inside
  rw [List.mem_singleton.mp inside]
  exact h.1

theorem isPart_of_mem_cacheDirectory {part : List Char} (inside : part ∈ root.cacheDirectory digest) :
    IsPart part :=
  isPart_of_mem_joinPath (fun _ among => (root.isPart_of_mem_inside (by decide) among).1) inside

/-! ## The cache -/

/-- The files that a manifest lists lie in the entry of the digest. -/
def Listed (root : StateRoot) (digest : String) (files : List (ArtifactFile String)) : Prop :=
  ∀ item ∈ files, Under (root.home (.cache digest)) (joinPath (root.payloadDirectory digest) item.path)

/-- A digest is a name, and the files of its manifest lie in its entry. -/
structure SafeDigest (root : StateRoot) (manifest : AbsolutePath → ArtifactManifest String String)
    (digest : String) : Prop where
  isName : IsName digest
  files : Listed root digest (manifest (root.manifestPath digest)).files

theorem isName_of_manifestPath
    (under : Under (root.home (.cache digest)) (root.manifestPath digest)) : IsName digest := by
  refine isName_of_under_inside ["artifact-cache"] (fun part inside => ?_) under
  rcases List.mem_append.mp inside with entry | last
  · exact isPart_of_mem_cacheDirectory entry
  · exact isPart_toList "manifest.json" (by decide) part last

theorem under_cache (single : IsName digest) {rest : AbsolutePath} (below : up ∉ rest) :
    Under (root.home (.cache digest)) (root.cacheDirectory digest ++ rest) :=
  root.under_name ["artifact-cache"] (by decide) single below

theorem confined_validateFile {item : ArtifactFile String} :
    Confined root manifest (validateFile root digest digest verifyHashes item) ↔
      Under (root.home (.cache digest)) (joinPath (root.payloadDirectory digest) item.path) := by
  constructor
  · intro h
    exact h.1 _ List.mem_cons_self
  · intro under
    have single (o : FileOp) (same : o.places = [⟨.cache digest, joinPath (root.payloadDirectory digest) item.path⟩]) :
        ∀ place ∈ o.places, place.Confined root := by
      intro place among
      rw [same, List.mem_singleton] at among
      rw [among]
      exact under
    refine always_bind.mpr ⟨always_op.mpr (single _ rfl), fun found _ => ?_⟩
    refine always_ite.mpr ⟨fun _ => ?_, fun _ => always_raise _⟩
    refine always_bind.mpr ⟨always_op.mpr (single _ rfl), fun actualSize _ => ?_⟩
    refine always_ite.mpr ⟨fun _ => always_raise _, fun _ => ?_⟩
    refine always_ite.mpr ⟨fun _ => ?_, fun _ => always_pure _⟩
    refine always_bind.mpr ⟨always_op.mpr (single _ rfl), fun sha _ => ?_⟩
    exact always_ite.mpr ⟨fun _ => always_raise _, fun _ => always_pure _⟩

theorem gives_validateFile {item : ArtifactFile String} :
    (validateFile root named digest verifyHashes item).Gives (FileOp.answers manifest) (.ok ()) := by
  refine Gives.perform true trivial ?_
  rw [if_pos rfl]
  refine Gives.perform item.sizeBytes trivial ?_
  rw [if_neg fun other => other rfl]
  split
  · refine Gives.perform item.sha256 trivial ?_
    rw [if_neg fun other => other rfl]
    rfl
  · rfl

theorem confined_validateFiles {items : List (ArtifactFile String)} :
    Confined root manifest (validateFiles root digest digest verifyHashes items) ↔
      Listed root digest items := by
  induction items with
  | nil => exact iff_of_true trivial fun _ inside => nomatch inside
  | cons item items ih =>
      have step : Confined root manifest (validateFiles root digest digest verifyHashes (item :: items)) ↔
          Under (root.home (.cache digest)) (joinPath (root.payloadDirectory digest) item.path) ∧
            Listed root digest items := by
        rw [← @confined_validateFile root manifest digest verifyHashes item, ← ih]
        exact always_bind.trans (and_congr_right fun _ => ⟨fun h => h () gives_validateFile, fun h _ _ => h⟩)
      rw [step, Listed, Listed, List.forall_mem_cons]

theorem gives_validateFiles {items : List (ArtifactFile String)} :
    (validateFiles root named digest verifyHashes items).Gives (FileOp.answers manifest) (.ok ()) := by
  induction items with
  | nil => rfl
  | cons item items ih => exact gives_bind.mpr ⟨(), gives_validateFile, ih⟩

theorem gives_loadManifest {m : ArtifactManifest String String} :
    (loadManifest root named digest).Gives (FileOp.answers manifest) (.ok m) ↔
      m = manifest (root.manifestPath digest) := by
  constructor
  · intro h
    obtain ⟨found, -, h⟩ := gives_bind.mp h
    split at h
    · exact gives_op.mp h
    · exact absurd h not_gives_raise
  · rintro rfl
    refine Gives.perform true trivial ?_
    rw [if_pos rfl]
    exact gives_op.mpr rfl

theorem gives_validateCache :
    (validateCache root named digest verifyHashes).Gives (FileOp.answers manifest)
      (.ok (manifest (root.manifestPath digest))) := by
  refine gives_bind.mpr ⟨_, gives_loadManifest.mpr rfl, Gives.perform true trivial ?_⟩
  rw [if_pos rfl]
  exact gives_bind.mpr ⟨(), gives_validateFiles, rfl⟩

theorem confined_validateCache :
    Confined root manifest (validateCache root digest digest verifyHashes) ↔
      SafeDigest root manifest digest := by
  constructor
  · intro h
    obtain ⟨load, rest⟩ := always_bind.mp h
    have isName := isName_of_manifestPath (load.1 _ List.mem_cons_self)
    refine ⟨isName, ?_⟩
    have files := (always_bind.mp (rest _ (gives_loadManifest.mpr rfl))).2 true (gives_op.mpr trivial)
    rw [if_pos rfl] at files
    exact confined_validateFiles.mp (always_bind.mp files).1
  · rintro ⟨isName, files⟩
    have single (o : FileOp) (rest : AbsolutePath) (below : up ∉ rest)
        (same : o.places = [⟨.cache digest, root.cacheDirectory digest ++ rest⟩]) :
        ∀ place ∈ o.places, place.Confined root := by
      intro place among
      rw [same, List.mem_singleton] at among
      rw [among]
      exact under_cache isName below
    have load : Confined root manifest (loadManifest root digest digest) := by
      refine always_bind.mpr ⟨always_op.mpr (single _ _ (by decide) rfl), fun found _ => ?_⟩
      exact always_ite.mpr ⟨fun _ => always_op.mpr (single _ _ (by decide) rfl), fun _ => always_raise _⟩
    refine always_bind.mpr ⟨load, fun m gives => ?_⟩
    refine always_bind.mpr ⟨always_op.mpr (single _ _ (by decide) rfl), fun found _ => ?_⟩
    refine always_ite.mpr ⟨fun _ => ?_, fun _ => always_raise _⟩
    rw [gives_loadManifest.mp gives]
    exact always_bind.mpr ⟨confined_validateFiles.mpr files, fun _ _ => always_pure _⟩

/-! ## Requests for artifacts -/

theorem confined_file (o : FileOp) (confined : ∀ place ∈ o.places, place.Confined root) :
    Confined root manifest (file o) := always_op.mpr confined

theorem confined_hasArtifact :
    Confined root manifest (hasArtifact root digest) ↔ SafeDigest root manifest digest := by
  rw [← @confined_validateCache root manifest digest false]
  refine always_attempt.trans (and_iff_left ⟨fun _ _ => always_pure _, fun e _ => ?_⟩)
  exact always_ite.mpr ⟨fun _ => always_pure _, fun _ => always_raise _⟩

theorem gives_hasArtifact :
    (hasArtifact root digest).Gives (FileOp.answers manifest) (.ok true) :=
  gives_andThen.mpr ⟨_, gives_validateCache, rfl⟩

theorem confined_artifactStatus {artifacts : List (ArtifactBinding String)} :
    Confined root manifest (artifactStatus root artifacts) ↔
      ∀ artifact ∈ artifacts, SafeDigest root manifest artifact.digest := by
  induction artifacts with
  | nil => exact iff_of_true trivial fun _ inside => nomatch inside
  | cons artifact artifacts ih =>
      rw [List.forall_mem_cons, ← ih, ← confined_hasArtifact]
      refine always_bind.trans (and_congr_right fun _ => ⟨fun h => ?_, fun h found _ => ?_⟩)
      · exact (always_bind.mp (h true gives_hasArtifact)).1
      · exact always_bind.mpr ⟨h, fun _ _ => always_pure _⟩

theorem under_incomingDirectory {migrationId : MigrationId} (single : IsName migrationId)
    (isName : IsName digest) :
    Under (root.home (.artifactIncoming migrationId)) (root.incomingDirectory migrationId digest) := by
  rw [StateRoot.incomingDirectory, isName.joinPath]
  refine root.under_name ["artifact-incoming"] (by decide) single fun climbs => ?_
  exact isName.2 (List.mem_singleton.mp climbs).symm

theorem isName_of_incomingDirectory {migrationId : MigrationId}
    (under : Under (root.home (.artifactIncoming migrationId))
      (root.incomingDirectory migrationId digest)) : IsName migrationId := by
  refine isName_of_under_inside ["artifact-incoming"] (fun part inside => ?_) under
  refine isPart_of_mem_joinPath (fun part among => ?_) inside
  exact isPart_of_mem_joinPath (fun _ own => (root.isPart_of_mem_inside (by decide) own).1) among

theorem confined_commitIncoming {migrationId : MigrationId} :
    Confined root manifest (commitIncoming root migrationId digest) ↔
      IsName migrationId ∧ SafeDigest root manifest digest := by
  constructor
  · intro h
    obtain ⟨looked, rest⟩ := always_bind.mp h
    refine ⟨isName_of_incomingDirectory (looked.1 _ List.mem_cons_self), ?_⟩
    have found := rest true (gives_op.mpr trivial)
    rw [if_pos rfl] at found
    have fresh := (always_bind.mp found).2 false (gives_op.mpr trivial)
    rw [if_neg Bool.false_ne_true] at fresh
    have replaced := (always_bind.mp fresh).2 () (gives_op.mpr trivial)
    exact confined_validateCache.mp (always_attempt.mp replaced).1
  · rintro ⟨single, safe⟩
    have incoming : Place.Confined root
        ⟨.artifactIncoming migrationId, root.incomingDirectory migrationId digest⟩ :=
      under_incomingDirectory single safe.isName
    have destination : Place.Confined root ⟨.cache digest, root.cacheDirectory digest⟩ :=
      root.under_joined ["artifact-cache"] (by decide) safe.isName
    have last : String.ofList ((root.cacheDirectory digest).getLastD []) = digest := by
      rw [StateRoot.cacheDirectory, safe.isName.joinPath, List.getLastD_concat, String.ofList_toList]
    refine always_bind.mpr ⟨confined_file _ fun _ => incoming.one, fun found _ => ?_⟩
    refine always_ite.mpr ⟨fun _ => ?_, fun _ => always_raise _⟩
    refine always_bind.mpr ⟨confined_file _ fun _ => destination.one, fun there _ => ?_⟩
    refine always_ite.mpr ⟨fun _ => ?_, fun _ => ?_⟩
    · refine always_bind.mpr ⟨confined_file _ fun _ => incoming.one, fun _ _ => ?_⟩
      rw [last]
      exact confined_validateCache.mpr safe
    · refine always_bind.mpr ⟨confined_file _ fun _ => incoming.both destination, fun _ _ => ?_⟩
      refine always_attempt.mpr ⟨confined_validateCache.mpr safe, fun _ _ => always_pure _, fun e _ => ?_⟩
      exact always_bind.mpr ⟨confined_file _ fun _ => destination.one, fun _ _ => always_raise _⟩

/-! ## Staging -/

/-- The digests of the bindings that are staged before the first unknown artifact are safe. -/
def SafeBindings (root : StateRoot) (manifest : AbsolutePath → ArtifactManifest String String)
    (specs : List StaticArtifactSpec) : List (ArtifactBinding String) → Prop
  | [] => True
  | binding :: bindings =>
      match Staging.specification specs binding.artifactId with
      | none => True
      | some _ => SafeDigest root manifest binding.digest ∧ SafeBindings root manifest specs bindings

theorem under_task (single : IsName taskId) {rest : AbsolutePath} (below : up ∉ rest) :
    Under (root.home (.task taskId)) (root.taskDirectory taskId ++ rest) :=
  root.under_name ["tasks"] (by decide) single below

/-- A place in the directory of a task. -/
def Own (root : StateRoot) (taskId : TaskId) (place : Place) : Prop :=
  ∃ rest, up ∉ rest ∧ place = ⟨.task taskId, root.taskDirectory taskId ++ rest⟩

theorem Own.confined (single : IsName taskId) {place : Place} (own : Own root taskId place) :
    place.Confined root := by
  obtain ⟨rest, below, rfl⟩ := own
  exact under_task single below

theorem confined_clearTarget {place : Place} (confined : place.Confined root) :
    Confined root manifest (clearTarget place) := by
  refine always_bind.mpr ⟨?_, fun isSymlinkOrFile _ => ?_⟩
  · refine always_bind.mpr ⟨confined_file _ fun _ => confined.one, fun isSymlink _ => ?_⟩
    exact always_ite.mpr ⟨fun _ => always_pure _, fun _ => confined_file _ fun _ => confined.one⟩
  · refine always_ite.mpr ⟨fun _ => confined_file _ fun _ => confined.one, fun _ => ?_⟩
    refine always_bind.mpr ⟨confined_file _ fun _ => confined.one, fun isDirectory _ => ?_⟩
    exact always_ite.mpr ⟨fun _ => confined_file _ fun _ => confined.one, fun _ => always_pure _⟩

theorem confined_stageTarget (single : IsName taskId) {target : Target} (safe : ".." ∉ target)
    (fresh : String) : Confined root manifest (stageTarget root taskId target fresh) := by
  have below : up ∉ "artifacts".toList :: target.map String.toList := by
    intro climbs
    rcases List.mem_cons.mp climbs with first | later
    · revert first
      decide
    · obtain ⟨part, inside, same⟩ := List.mem_map.mp later
      have climbing : part = ".." := String.toList_injective same
      exact safe (climbing ▸ inside)
  have path_eq : root.artifactsDirectory taskId ++ target.map String.toList =
      root.taskDirectory taskId ++ ("artifacts".toList :: target.map String.toList) := by
    rw [StateRoot.artifactsDirectory, List.append_assoc, List.singleton_append]
  have parent_eq : (root.artifactsDirectory taskId ++ target.map String.toList).dropLast =
      root.taskDirectory taskId ++ ("artifacts".toList :: target.map String.toList).dropLast := by
    rw [path_eq, List.dropLast_append_of_ne_nil (List.cons_ne_nil _ _)]
  have parentBelow : up ∉ ("artifacts".toList :: target.map String.toList).dropLast := fun climbs =>
    below (List.dropLast_subset _ climbs)
  have place : Own root taskId ⟨.task taskId, root.artifactsDirectory taskId ++ target.map String.toList⟩ :=
    ⟨_, below, by rw [path_eq]⟩
  have parent : Own root taskId
      ⟨.task taskId, (root.artifactsDirectory taskId ++ target.map String.toList).dropLast⟩ :=
    ⟨_, parentBelow, by rw [parent_eq]⟩
  have link (name : List Char) : Own root taskId
      ⟨.task taskId, (root.artifactsDirectory taskId ++ target.map String.toList).dropLast ++
        ['.' :: name ++ (".tmp-" ++ fresh).toList]⟩ := by
    refine ⟨("artifacts".toList :: target.map String.toList).dropLast ++
      ['.' :: name ++ (".tmp-" ++ fresh).toList], fun climbs => ?_, by rw [parent_eq, List.append_assoc]⟩
    rcases List.mem_append.mp climbs with road | last
    · exact parentBelow road
    · have same := congrArg List.length (List.mem_singleton.mp last)
      simp [up] at same
      omega
  refine always_bind.mpr ⟨confined_file _ fun _ => (parent.confined single).one, fun _ _ => ?_⟩
  refine always_bind.mpr ⟨confined_clearTarget (place.confined single), fun _ _ => ?_⟩
  refine always_bind.mpr ⟨confined_file _ fun _ => ((link _).confined single).one, fun _ _ => ?_⟩
  exact confined_file _ fun _ => ((link _).confined single).both (place.confined single)

theorem gives_stageTarget {target : Target} {fresh : String} :
    (stageTarget root taskId target fresh).Gives (FileOp.answers manifest) (.ok ()) := by
  refine Gives.perform () trivial (gives_bind.mpr ⟨(), ?_, Gives.perform () trivial (gives_op.mpr trivial)⟩)
  refine gives_bind.mpr ⟨true, Gives.perform true trivial rfl, ?_⟩
  exact gives_op.mpr trivial

theorem confined_stageEach (single : IsName taskId) {specs : List StaticArtifactSpec} {fresh : String}
    {bindings : List (ArtifactBinding String)} :
    Confined root manifest (stageEach root taskId specs fresh bindings) ↔
      SafeBindings root manifest specs bindings := by
  induction bindings with
  | nil => exact iff_of_true trivial trivial
  | cons binding bindings ih =>
      unfold stageEach SafeBindings
      cases found : Staging.specification specs binding.artifactId with
      | none => exact iff_of_true trivial trivial
      | some spec =>
          rw [← ih, ← @confined_validateCache root manifest binding.digest true]
          refine always_bind.trans (and_congr_right fun _ => ⟨fun h => ?_, fun h _ _ => ?_⟩)
          · exact (always_bind.mp (h _ gives_validateCache)).2 () gives_stageTarget
          · exact always_bind.mpr ⟨confined_stageTarget single spec.safe fresh, fun _ _ => h⟩

theorem confined_stageBindings (single : IsName taskId) {specs : List StaticArtifactSpec}
    {fresh : String} {bindings : List (ArtifactBinding String)} :
    Confined root manifest (stageBindings root taskId specs fresh bindings) ↔
      SafeBindings root manifest specs bindings := by
  have own (name : String) (below : up ∉ [name.toList]) :
      Own root taskId ⟨.task taskId, root.taskDirectory taskId ++ [name.toList]⟩ := ⟨_, below, rfl⟩
  have temporary := (own "state.json.tmp" (by decide)).confined single
  have state := (own "state.json" (by decide)).confined single
  have artifacts := (own "artifacts" (by decide)).confined single
  constructor
  · intro h
    have each := (always_bind.mp h).2 () (gives_op.mpr trivial)
    exact (confined_stageEach single).mp (always_bind.mp each).1
  · intro safe
    refine always_bind.mpr ⟨confined_file _ fun _ => artifacts.one, fun _ _ => ?_⟩
    refine always_bind.mpr ⟨(confined_stageEach single).mpr safe, fun _ _ => ?_⟩
    refine always_bind.mpr ⟨confined_file _ fun _ => temporary.one, fun _ _ => ?_⟩
    exact confined_file _ fun _ => temporary.both state

end Magellan.Confinement
