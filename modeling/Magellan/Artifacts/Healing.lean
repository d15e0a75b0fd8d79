import Magellan.Artifacts.Addressing

/-!
# Damaged entries of the cache

An entry that is there is kept, whatever it holds: an import and a commit drop the copy that they
have brought and validate the entry. The check before a transfer compares sizes only.
-/

namespace Magellan.Artifacts

variable {Content FileHash Digest : Type} [DecidableEq FileHash] [DecidableEq Digest]

/-- What brings a payload for a digest. -/
inductive Repair where
  | importSource (spec : StaticArtifactSpec)
  | commitIncoming (migrationId : MigrationId)

section

variable (h : Hashes Content FileHash Digest) (w : Surroundings Content Digest)

def Repair.run (s : Store Content FileHash Digest) (digest : Digest) :
    Repair → Result Content FileHash Digest (ArtifactManifest FileHash Digest)
  | .importSource spec => s.importSource h w spec
  | .commitIncoming migrationId => s.commitIncoming h w migrationId digest

/-- The payload that is brought is the one of the digest. -/
def Repair.Correct (s : Store Content FileHash Digest) (digest : Digest) : Repair → Prop
  | .importSource spec => ∃ manifest source, buildManifest h w spec = .ok manifest ∧
      manifest.digest = digest ∧ w.source spec.sourceDirectory = some source ∧
      w.copied spec.sourceDirectory = .ok source
  | .commitIncoming migrationId => ∃ entry accepted, s.incoming migrationId digest = some entry ∧
      entry.validated h w true digest = .ok accepted

/-- The entry of the digest validates with its hashes. -/
def Store.Sound (s : Store Content FileHash Digest) (digest : Digest) : Prop :=
  ∃ accepted, s.validated h w true digest = .ok accepted

/-- The repair succeeds, and the entry validates afterwards. -/
def Heals (s : Store Content FileHash Digest) (digest : Digest) (r : Repair) : Prop :=
  ∃ manifest, (r.run h w s digest).1 = .ok manifest ∧ (r.run h w s digest).2.Sound h w digest

/-- An entry that is reported present is accepted where it is used. -/
def PresenceAgrees (s : Store Content FileHash Digest) (digest : Digest) : Prop :=
  s.hasArtifact h w digest = .ok true → s.Sound h w digest

end

variable {h : Hashes Content FileHash Digest} {w : Surroundings Content Digest} {digest : Digest}
  {s : Store Content FileHash Digest}

/-! ## Validation -/

omit [DecidableEq Digest] in
theorem validateFiles_of {payload : Files Content} {verifyHashes : Bool}
    {items : List (ArtifactFile FileHash)}
    (all : ∀ item ∈ items, validateFile h w verifyHashes digest payload item = .ok ()) :
    validateFiles h w verifyHashes digest payload items = .ok () := by
  induction items with
  | nil => rfl
  | cons item items ih =>
      obtain ⟨first, rest⟩ := List.forall_mem_cons.mp all
      simp only [validateFiles, first]
      exact ih rest

omit [DecidableEq Digest] in
theorem Store.hasArtifact_of_sound (sound : s.Sound h w digest) :
    s.hasArtifact h w digest = .ok true := by
  obtain ⟨⟨manifest, payload⟩, ok⟩ := sound
  obtain ⟨entry, found, valid⟩ := Store.validated_ok ok
  obtain ⟨manifest_eq, payload_eq, files⟩ := Entry.validated_ok valid
  have sizes : validateFiles h w false digest payload manifest.files = .ok () := by
    refine validateFiles_of fun item member => ?_
    obtain ⟨content, there, record⟩ := files item member
    have size : h.size content = item.sizeBytes := congrArg ArtifactFile.sizeBytes record
    simp [validateFile, there, size]
  simp [Store.hasArtifact, Store.validated, found, Entry.validated, manifest_eq, payload_eq, sizes]

omit [DecidableEq Digest] in
theorem Entry.validated_copy {spec : StaticArtifactSpec} {manifest : ArtifactManifest FileHash Digest}
    {source : Files Content} (built : buildManifest h w spec = .ok manifest)
    (listed : w.source spec.sourceDirectory = some source) :
    (⟨.valid manifest, some source⟩ : Entry Content FileHash Digest).validated h w true digest =
      .ok (manifest, source) := by
  obtain ⟨source', listed', -, files⟩ := buildManifest_ok built
  cases listed.symm.trans listed'
  have hashes : validateFiles h w true digest source manifest.files = .ok () := by
    refine validateFiles_of fun item member => ?_
    obtain ⟨⟨path, content⟩, held, rfl⟩ := (files item).mp member
    have there : fileAt w digest source path = some content := by
      rw [fileAt, if_pos (source.plain path (List.mem_map_of_mem held))]
      exact Dict.mem_entries_iff.mp held
    simp [validateFile, fileRecord, there]
  simp [Entry.validated, hashes]

omit [DecidableEq Digest] in
theorem Store.validateCache_of_sound (sound : s.Sound h w digest) :
    ∃ manifest, (s.validateCache h w digest).1 = .ok manifest ∧
      (s.validateCache h w digest).2.Sound h w digest := by
  obtain ⟨⟨manifest, payload⟩, ok⟩ := sound
  refine ⟨manifest, ?_⟩
  simp only [Store.validateCache, ok, true_and]
  exact ⟨(manifest, payload), ok⟩

omit [DecidableEq Digest] in
theorem Store.sound_of_validateCache {manifest : ArtifactManifest FileHash Digest}
    (ok : (s.validateCache h w digest).1 = .ok manifest) : s.Sound h w digest := by
  unfold Store.validateCache at ok
  split at ok
  · cases ok
  · rename_i accepted payload valid
    exact ⟨_, valid⟩

theorem Store.validated_publish (verifyHashes : Bool) (entry : Entry Content FileHash Digest) :
    (s.publish digest (some entry)).validated h w verifyHashes digest =
      entry.validated h w verifyHashes digest := by
  simp [Store.validated, Store.publish]

omit [DecidableEq Digest] in
theorem Store.hasArtifact_absent (absent : s.cache digest = none) :
    s.hasArtifact h w digest = .ok false := by
  simp [Store.hasArtifact, Store.validated, absent, Failure.isArtifactValidationError]

/-! ## Repairs -/

theorem Repair.sound_of_present {r : Repair} (present : s.cache digest ≠ none)
    (correct : r.Correct h w s digest) (heals : Heals h w s digest r) : s.Sound h w digest := by
  have there : (s.cache digest).isSome := Option.isSome_iff_ne_none.mpr present
  obtain ⟨manifest, ok, -⟩ := heals
  cases r with
  | importSource spec =>
      obtain ⟨manifest, source, built, rfl, -, copied⟩ := correct
      simp only [Repair.run, Store.importSource, built] at ok
      split at ok
      · cases ok
      · exact Store.sound_of_validateCache ok
      · simp only [copied, there, if_true] at ok
        exact Store.sound_of_validateCache ok
  | commitIncoming migrationId =>
      obtain ⟨entry, accepted, found, -⟩ := correct
      simp only [Repair.run, Store.commitIncoming, found, there, if_true] at ok
      have taken : (s.receive migrationId digest none).Sound h w digest :=
        Store.sound_of_validateCache ok
      exact taken

theorem Repair.heals_absent {r : Repair} (absent : s.cache digest = none)
    (correct : r.Correct h w s digest) : Heals h w s digest r := by
  cases r with
  | importSource spec =>
      obtain ⟨manifest, source, built, rfl, listed, copied⟩ := correct
      have published : (s.publish manifest.digest (some ⟨.valid manifest, some source⟩)).Sound h w
          manifest.digest := by
        refine ⟨(manifest, source), ?_⟩
        rw [Store.validated_publish, Entry.validated_copy built listed]
      have result := Store.validateCache_of_sound published
      simpa [Heals, Repair.run, Store.importSource, built, Store.hasArtifact_absent absent, copied,
        absent] using result
  | commitIncoming migrationId =>
      obtain ⟨entry, accepted, found, valid⟩ := correct
      have published : ((s.receive migrationId digest none).publish digest (some entry)).Sound h w
          digest := by
        refine ⟨accepted, ?_⟩
        rw [Store.validated_publish, valid]
      obtain ⟨manifest, ok, sound⟩ := Store.validateCache_of_sound published
      refine ⟨manifest, ?_⟩
      simp only [Repair.run, Store.commitIncoming, found, absent, Option.isSome_none,
        Bool.false_eq_true, if_false]
      split
      · rename_i manifest' published' result
        rw [result] at ok sound
        exact ⟨ok, sound⟩
      · rename_i e published' result
        rw [result] at ok
        cases ok

theorem Repair.heals_sound {r : Repair} (sound : s.Sound h w digest)
    (correct : r.Correct h w s digest) : Heals h w s digest r := by
  cases r with
  | importSource spec =>
      obtain ⟨manifest, source, built, rfl, -, -⟩ := correct
      have result := Store.validateCache_of_sound sound
      simpa [Heals, Repair.run, Store.importSource, built, Store.hasArtifact_of_sound sound] using result
  | commitIncoming migrationId =>
      obtain ⟨entry, accepted, found, -⟩ := correct
      have there : (s.cache digest).isSome := by
        obtain ⟨accepted, ok⟩ := sound
        obtain ⟨entry, held, -⟩ := Store.validated_ok ok
        rw [held]
        rfl
      have taken : (s.receive migrationId digest none).Sound h w digest := sound
      have result := Store.validateCache_of_sound taken
      simpa [Heals, Repair.run, Store.commitIncoming, found, there] using result

/-- A repair heals the entry, and its presence is reported rightly, if and only if there was none or
it was sound. -/
theorem heals_iff {r : Repair} (correct : r.Correct h w s digest) :
    (Heals h w s digest r ∧ PresenceAgrees h w s digest) ↔
      (s.cache digest = none ∨ s.Sound h w digest) := by
  constructor
  · rintro ⟨heals, -⟩
    by_cases absent : s.cache digest = none
    · exact .inl absent
    · exact .inr (Repair.sound_of_present absent correct heals)
  · rintro (absent | sound)
    · refine ⟨Repair.heals_absent absent correct, fun reported => ?_⟩
      rw [Store.hasArtifact_absent absent] at reported
      cases reported
    · exact ⟨Repair.heals_sound sound correct, fun _ => sound⟩

/-! ## A damaged model -/

/-- A file of the right size with other bytes. -/
def damagedFiles : Files String where
  byName := ⟨[("weights", "abd")], by decide⟩
  plain := by decide +kernel

def damagedEntry : Entry String String (Identity String) where
  manifest := sampleEntry.manifest
  payload := some damagedFiles

/-- The damaged entry, and the genuine one among what was received. -/
def damagedStore : Store String String (Identity String) :=
  (Store.fresh.publish sampleIdentity (some damagedEntry)).receive "m" sampleIdentity (some sampleEntry)

def isOk {ε α : Type} : Except ε α → Bool
  | .ok _ => true
  | .error _ => false

/-- The entry is reported present, is refused where it is used, and neither an import nor a commit of
the genuine artifact changes it. -/
theorem damaged_entry_stays :
    (damagedStore.hasArtifact sampleHashes sampleWorld sampleIdentity).toOption = some true ∧
      isOk (damagedStore.validateCache sampleHashes sampleWorld sampleIdentity).1 = false ∧
      isOk (damagedStore.importSource sampleHashes sampleWorld sampleSpec).1 = false ∧
      isOk (damagedStore.commitIncoming sampleHashes sampleWorld "m" sampleIdentity).1 = false := by
  decide +kernel

theorem heals_empty_cache :
    Heals sampleHashes sampleWorld Store.fresh sampleIdentity (.importSource sampleSpec) ∧
      PresenceAgrees sampleHashes sampleWorld Store.fresh sampleIdentity := by
  apply (heals_iff _).mpr
  · exact .inl rfl
  · exact ⟨_, sampleFiles, rfl, by decide +kernel, rfl, rfl⟩

end Magellan.Artifacts
