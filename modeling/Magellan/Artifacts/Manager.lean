import Magellan.Data.Dict
import Magellan.Data.Path
import Magellan.State.TaskModels

/-!
# The artifact manager

The cache holds one directory for each digest, and the artifacts directory of a task holds links
into it. A temporary directory is seen by nobody before it is published and is left out.
-/

namespace Magellan.Artifacts

/-! ## Records -/

inductive ArtifactKind where
  | dataset
  | model
  | code
  | environment
  | container
  | other
  deriving DecidableEq

def ArtifactKind.value : ArtifactKind → String
  | .dataset => "dataset"
  | .model => "model"
  | .code => "code"
  | .environment => "environment"
  | .container => "container"
  | .other => "other"

/-- The parts of a relative path below the artifacts directory. -/
abbrev Target := List String

structure StaticArtifactSpec where
  artifactId : String
  kind : ArtifactKind
  sourceDirectory : String
  targetRelativeDirectory : Target
  safe : ".." ∉ targetRelativeDirectory

structure ArtifactFile (FileHash : Type) where
  path : String
  sizeBytes : Nat
  sha256 : FileHash
  deriving DecidableEq

/-- What the digest of an artifact is taken of. -/
structure Identity (FileHash : Type) where
  artifactId : String
  kind : String
  files : List (ArtifactFile FileHash)
  deriving DecidableEq

structure ArtifactManifest (FileHash Digest : Type) extends Identity FileHash where
  formatVersion : Nat := 1
  digest : Digest
  sizeBytes : Nat

structure ArtifactBinding (Digest : Type) where
  artifactId : String
  digest : Digest
  sizeBytes : Nat

/-- The size and the hash of a file's bytes, and the hash of the canonical text of an identity. -/
structure Hashes (Content FileHash Digest : Type) where
  size : Content → Nat
  sha256File : Content → FileHash
  canonical : Identity FileHash → Digest

/-! ## Directories -/

/-- The files below a directory, each under its relative name. -/
structure Files (Content : Type) where
  byName : Dict String Content
  plain : ∀ path ∈ byName.keys, Plain path

inductive ManifestFile (FileHash Digest : Type) where
  | missing
  /-- A text that is not a manifest. -/
  | invalid
  | valid (manifest : ArtifactManifest FileHash Digest)

/-- A directory of the cache, or one that was received. -/
structure Entry (Content FileHash Digest : Type) where
  manifest : ManifestFile FileHash Digest
  payload : Option (Files Content)

inductive Failure (Digest : Type) where
  | noSource (sourceDirectory : String)
  | emptySource (sourceDirectory : String)
  | noManifest (digest : Digest)
  | noPayload (digest : Digest)
  | missingFile (digest : Digest) (path : String)
  | sizeMismatch (digest : Digest) (path : String) (expected actual : Nat)
  | digestMismatch (digest : Digest) (path : String)
  | unknownArtifact (taskId : TaskId) (artifactId : String)
  | noIncoming (migrationId : MigrationId) (digest : Digest)
  /-- The manifest's text is refused by the model class. -/
  | validationError
  | copyError
  | unknownTask (taskId : TaskId)

/-- `isinstance(exc, ArtifactValidationError)`. -/
def Failure.isArtifactValidationError {Digest : Type} : Failure Digest → Bool
  | .noSource _ | .validationError | .copyError | .unknownTask _ => false
  | _ => true

/-- What the manager has, and what it has accepted so far with its hashes. -/
structure Store (Content FileHash Digest : Type) where
  cache : Digest → Option (Entry Content FileHash Digest)
  incoming : MigrationId → Digest → Option (Entry Content FileHash Digest)
  /-- The links in the artifacts directory of a task. -/
  links : TaskId → List (Target × Digest)
  artifactDigests : TaskId → Dict String Digest
  accepted : List (Digest × ArtifactManifest FileHash Digest × Files Content)

/-- What the operations find outside the manager's directories. -/
structure Surroundings (Content Digest : Type) where
  definition : TaskId → Option (List StaticArtifactSpec)
  /-- The files that a listing of a source directory finds. -/
  source : String → Option (Files Content)
  /-- The files that a copy of it gets. -/
  copied : String → Except (Failure Digest) (Files Content)
  /-- The file that a path of a manifest leads to when it is not a plain name. -/
  outside : Digest → String → Option Content
  /-- What a payload holds after a link was made in it. -/
  through : Files Content → Target → Digest → Files Content

section

variable {Content FileHash Digest : Type} [DecidableEq FileHash] [DecidableEq Digest]
  (h : Hashes Content FileHash Digest) (w : Surroundings Content Digest)

/-! ## Manifests -/

def fileRecord (file : String × Content) : ArtifactFile FileHash :=
  ⟨file.1, h.size file.2, h.sha256File file.2⟩

def buildManifest (spec : StaticArtifactSpec) :
    Except (Failure Digest) (ArtifactManifest FileHash Digest) :=
  match w.source spec.sourceDirectory with
  | none => .error (.noSource spec.sourceDirectory)
  | some source =>
      let files := (sortedFiles source.byName.entries).map (fileRecord h)
      if files = [] then .error (.emptySource spec.sourceDirectory)
      else
        let identity : Identity FileHash := ⟨spec.artifactId, spec.kind.value, files⟩
        .ok { identity with
          digest := h.canonical identity
          sizeBytes := (files.map ArtifactFile.sizeBytes).sum }

/-! ## Validation -/

/-- The file at `payload / path`. -/
def fileAt (digest : Digest) (payload : Files Content) (path : String) : Option Content :=
  if Plain path then payload.byName.get? path else w.outside digest path

def validateFile (verifyHashes : Bool) (digest : Digest) (payload : Files Content)
    (item : ArtifactFile FileHash) : Except (Failure Digest) Unit :=
  match fileAt w digest payload item.path with
  | none => .error (.missingFile digest item.path)
  | some content =>
      if h.size content ≠ item.sizeBytes then
        .error (.sizeMismatch digest item.path item.sizeBytes (h.size content))
      else if verifyHashes ∧ h.sha256File content ≠ item.sha256 then
        .error (.digestMismatch digest item.path)
      else .ok ()

def validateFiles (verifyHashes : Bool) (digest : Digest) (payload : Files Content) :
    List (ArtifactFile FileHash) → Except (Failure Digest) Unit
  | [] => .ok ()
  | item :: items =>
      match validateFile h w verifyHashes digest payload item with
      | .error e => .error e
      | .ok () => validateFiles verifyHashes digest payload items

/-- What validation makes of a directory, with the payload that it has read. -/
def Entry.validated (verifyHashes : Bool) (digest : Digest)
    (entry : Entry Content FileHash Digest) :
    Except (Failure Digest) (ArtifactManifest FileHash Digest × Files Content) :=
  match entry.manifest, entry.payload with
  | .missing, _ => .error (.noManifest digest)
  | .invalid, _ => .error .validationError
  | .valid _, none => .error (.noPayload digest)
  | .valid manifest, some payload =>
      match validateFiles h w verifyHashes digest payload manifest.files with
      | .error e => .error e
      | .ok () => .ok (manifest, payload)

def Store.validated (verifyHashes : Bool) (s : Store Content FileHash Digest) (digest : Digest) :
    Except (Failure Digest) (ArtifactManifest FileHash Digest × Files Content) :=
  match s.cache digest with
  | none => .error (.noManifest digest)
  | some entry => entry.validated h w verifyHashes digest

/-- What a method returns or raises, and the store that it leaves. -/
abbrev Result (Content FileHash Digest α : Type) :=
  Except (Failure Digest) α × Store Content FileHash Digest

/-- `validate_cache(digest)`; what it accepts is noted. -/
def Store.validateCache (s : Store Content FileHash Digest) (digest : Digest) :
    Result Content FileHash Digest (ArtifactManifest FileHash Digest) :=
  match s.validated h w true digest with
  | .error e => (.error e, s)
  | .ok (manifest, payload) =>
      (.ok manifest, { s with accepted := (digest, manifest, payload) :: s.accepted })

def Store.hasArtifact (s : Store Content FileHash Digest) (digest : Digest) :
    Except (Failure Digest) Bool :=
  match s.validated h w false digest with
  | .ok _ => .ok true
  | .error e => if e.isArtifactValidationError then .ok false else .error e

/-! ## Imports and commits -/

def Store.publish (s : Store Content FileHash Digest) (digest : Digest)
    (entry : Option (Entry Content FileHash Digest)) : Store Content FileHash Digest :=
  { s with cache := Function.update s.cache digest entry }

def Store.importSource (s : Store Content FileHash Digest) (spec : StaticArtifactSpec) :
    Result Content FileHash Digest (ArtifactManifest FileHash Digest) :=
  match buildManifest h w spec with
  | .error e => (.error e, s)
  | .ok manifest =>
      match s.hasArtifact h w manifest.digest with
      | .error e => (.error e, s)
      | .ok true => s.validateCache h w manifest.digest
      | .ok false =>
          match w.copied spec.sourceDirectory with
          | .error e => (.error e, s)
          | .ok payload =>
              if (s.cache manifest.digest).isSome then s.validateCache h w manifest.digest
              else (s.publish manifest.digest (some ⟨.valid manifest, some payload⟩)).validateCache h w
                manifest.digest

def Store.receive (s : Store Content FileHash Digest) (migrationId : MigrationId) (digest : Digest)
    (entry : Option (Entry Content FileHash Digest)) : Store Content FileHash Digest :=
  { s with
    incoming := Function.update s.incoming migrationId
      (Function.update (s.incoming migrationId) digest entry) }

def Store.commitIncoming (s : Store Content FileHash Digest) (migrationId : MigrationId)
    (digest : Digest) : Result Content FileHash Digest (ArtifactManifest FileHash Digest) :=
  match s.incoming migrationId digest with
  | none => (.error (.noIncoming migrationId digest), s)
  | some entry =>
      let taken := s.receive migrationId digest none
      if (s.cache digest).isSome then taken.validateCache h w digest
      else
        match (taken.publish digest (some entry)).validateCache h w digest with
        | (.ok manifest, published) => (.ok manifest, published)
        | (.error e, published) => (.error e, published.publish digest none)

/-! ## Tasks -/

/-- One target lies properly below the other. -/
def Below (outer inner : Target) : Prop := outer <+: inner ∧ outer ≠ inner

instance (outer inner : Target) : Decidable (Below outer inner) := by
  unfold Below
  infer_instance

/-- The link that a target is reached through. -/
def linkAbove (links : List (Target × Digest)) (target : Target) : Option (Target × Digest) :=
  links.find? fun link => Below link.1 target

/-- Puts the link of one binding in place. Where the target lies below another link it is a part of
that link's payload. -/
def Store.link (s : Store Content FileHash Digest) (taskId : TaskId) (target : Target)
    (digest : Digest) : Store Content FileHash Digest :=
  match linkAbove (s.links taskId) target with
  | some (outer, held) =>
      match s.cache held with
      | none => s
      | some entry =>
          let payload := entry.payload.map fun files => w.through files (target.drop outer.length) digest
          s.publish held (some { entry with payload })
  | none =>
      let kept := (s.links taskId).filter fun link => ¬ (target <+: link.1)
      { s with links := Function.update s.links taskId ((target, digest) :: kept) }

def Store.stage (taskId : TaskId) (specifications : List StaticArtifactSpec) :
    List (ArtifactBinding Digest) → Dict String Digest → Store Content FileHash Digest →
      Result Content FileHash Digest Unit
  | [], artifactDigests, s =>
      (.ok (), { s with artifactDigests := Function.update s.artifactDigests taskId artifactDigests })
  | binding :: bindings, artifactDigests, s =>
      -- of two specifications with one id the mapping holds the later one
      match specifications.reverse.find? (·.artifactId = binding.artifactId) with
      | none => (.error (.unknownArtifact taskId binding.artifactId), s)
      | some spec =>
          match s.validateCache h w binding.digest with
          | (.error e, s) => (.error e, s)
          | (.ok _, s) =>
              Store.stage taskId specifications bindings
                (artifactDigests.set binding.artifactId binding.digest)
                (s.link w taskId spec.targetRelativeDirectory binding.digest)

def Store.stageBindings (s : Store Content FileHash Digest) (taskId : TaskId)
    (bindings : List (ArtifactBinding Digest)) : Result Content FileHash Digest Unit :=
  match w.definition taskId with
  | none => (.error (.unknownTask taskId), s)
  | some specifications => Store.stage h w taskId specifications bindings .empty s

/-- The manifest of one artifact of a task, from the cache or from its source. -/
def Store.ensureArtifact (s : Store Content FileHash Digest) (recorded : Option Digest)
    (spec : StaticArtifactSpec) :
    Result Content FileHash Digest (ArtifactManifest FileHash Digest) :=
  match recorded with
  | none => s.importSource h w spec
  | some digest =>
      match s.hasArtifact h w digest with
      | .error e => (.error e, s)
      | .ok false => s.importSource h w spec
      | .ok true =>
          match s.validated h w false digest with
          | .error e => (.error e, s)
          | .ok (manifest, _) => (.ok manifest, s)

def Store.ensureArtifacts (recorded : Dict String Digest) :
    List StaticArtifactSpec → Store Content FileHash Digest →
      Result Content FileHash Digest (List (ArtifactBinding Digest))
  | [], s => (.ok [], s)
  | spec :: specs, s =>
      match s.ensureArtifact h w (recorded.get? spec.artifactId) spec with
      | (.error e, s) => (.error e, s)
      | (.ok manifest, s) =>
          match Store.ensureArtifacts recorded specs s with
          | (.error e, s) => (.error e, s)
          | (.ok bindings, s) =>
              (.ok (⟨spec.artifactId, manifest.digest, manifest.sizeBytes⟩ :: bindings), s)

def Store.ensureTaskArtifacts (s : Store Content FileHash Digest) (taskId : TaskId) :
    Result Content FileHash Digest (List (ArtifactBinding Digest)) :=
  match w.definition taskId with
  | none => (.error (.unknownTask taskId), s)
  | some specifications =>
      match Store.ensureArtifacts h w (s.artifactDigests taskId) specifications s with
      | (.error e, s) => (.error e, s)
      | (.ok bindings, s) =>
          match s.stageBindings h w taskId bindings with
          | (.error e, s) => (.error e, s)
          | (.ok (), s) => (.ok bindings, s)

end

end Magellan.Artifacts
