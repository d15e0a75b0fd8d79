import Magellan.Artifacts.Manager

/-!
# Entries of the artifact cache

Validation compares the files that a manifest lists with the payload. It does not compare the
manifest with the digest that the entry is kept under, nor the payload with the list.
-/

namespace Magellan.Artifacts

variable {Content FileHash Digest : Type}

/-! ## Genuine entries -/

/-- The entry is the one that the digest names. -/
structure Genuine (h : Hashes Content FileHash Digest) (digest : Digest)
    (manifest : ArtifactManifest FileHash Digest) (payload : Files Content) : Prop where
  digest : h.canonical manifest.toIdentity = digest
  files : ∀ item, item ∈ manifest.files ↔ item ∈ payload.byName.entries.map (fileRecord h)

/-- The manifest is the one that the digest names, and it lists the names of the payload's files. -/
structure Addressed (h : Hashes Content FileHash Digest) (digest : Digest)
    (manifest : ArtifactManifest FileHash Digest) (payload : Files Content) : Prop where
  digest : h.canonical manifest.toIdentity = digest
  plain : ∀ item ∈ manifest.files, Plain item.path
  names : ∀ path ∈ payload.byName.keys, ∃ item ∈ manifest.files, item.path = path

section

variable {h : Hashes Content FileHash Digest} {w : Surroundings Content Digest} {digest : Digest}
  {manifest : ArtifactManifest FileHash Digest} {payload : Files Content}

theorem Genuine.same_files (files : Function.Injective h.sha256File)
    (identities : Function.Injective h.canonical) (genuine : Genuine h digest manifest payload)
    {manifest' : ArtifactManifest FileHash Digest} {payload' : Files Content}
    (genuine' : Genuine h digest manifest' payload') (path : String) :
    payload.byName.get? path = payload'.byName.get? path := by
  have same : manifest.toIdentity = manifest'.toIdentity :=
    identities (genuine.digest.trans genuine'.digest.symm)
  have held {m m' : ArtifactManifest FileHash Digest} {p p' : Files Content}
      (genuine : Genuine h digest m p) (genuine' : Genuine h digest m' p')
      (same : m.toIdentity = m'.toIdentity) (content : Content)
      (here : p.byName.get? path = some content) : p'.byName.get? path = some content := by
    have listed : fileRecord h (path, content) ∈ m.files :=
      (genuine.files _).mpr (List.mem_map_of_mem (Dict.mem_entries_iff.mpr here))
    rw [same] at listed
    obtain ⟨⟨path', content'⟩, there, record⟩ := List.mem_map.mp ((genuine'.files _).mp listed)
    simp only [fileRecord, ArtifactFile.mk.injEq] at record
    obtain ⟨rfl, -, hash⟩ := record
    rw [← files hash]
    exact Dict.mem_entries_iff.mp there
  ext content
  exact ⟨held genuine genuine' same content, held genuine' genuine same.symm content⟩

variable [DecidableEq FileHash]

theorem validateFile_ok {item : ArtifactFile FileHash}
    (ok : validateFile h w true digest payload item = .ok ()) :
    ∃ content, fileAt w digest payload item.path = some content ∧
      fileRecord h (item.path, content) = item := by
  unfold validateFile at ok
  split at ok
  · cases ok
  · rename_i content found
    split_ifs at ok with size hash
    refine ⟨content, found, ?_⟩
    rw [not_not] at size
    have hash : h.sha256File content = item.sha256 := by simpa using hash
    rw [fileRecord, size, hash]

theorem validateFiles_ok {items : List (ArtifactFile FileHash)}
    (ok : validateFiles h w true digest payload items = .ok ()) :
    ∀ item ∈ items, ∃ content, fileAt w digest payload item.path = some content ∧
      fileRecord h (item.path, content) = item := by
  induction items with
  | nil =>
      intro item member
      cases member
  | cons item items ih =>
      unfold validateFiles at ok
      split at ok
      · cases ok
      · rename_i valid
        rw [List.forall_mem_cons]
        exact ⟨validateFile_ok valid, ih ok⟩

theorem Entry.validated_ok {entry : Entry Content FileHash Digest}
    (ok : entry.validated h w true digest = .ok (manifest, payload)) :
    entry.manifest = .valid manifest ∧ entry.payload = some payload ∧
      ∀ item ∈ manifest.files, ∃ content, fileAt w digest payload item.path = some content ∧
        fileRecord h (item.path, content) = item := by
  unfold Entry.validated at ok
  split at ok
  · cases ok
  · cases ok
  · cases ok
  · rename_i manifest' payload' manifest_eq payload_eq
    split at ok
    · cases ok
    · rename_i valid
      cases ok
      exact ⟨manifest_eq, payload_eq, validateFiles_ok valid⟩

theorem Entry.genuine_iff {entry : Entry Content FileHash Digest}
    (ok : entry.validated h w true digest = .ok (manifest, payload)) :
    Genuine h digest manifest payload ↔ Addressed h digest manifest payload := by
  obtain ⟨-, -, valid⟩ := Entry.validated_ok ok
  constructor
  · intro genuine
    refine ⟨genuine.digest, fun item member => ?_, fun path member => ?_⟩
    · obtain ⟨file, held, rfl⟩ := List.mem_map.mp ((genuine.files _).mp member)
      exact payload.plain _ (List.mem_map_of_mem held)
    · obtain ⟨file, held, rfl⟩ := List.mem_map.mp member
      exact ⟨_, (genuine.files _).mpr (List.mem_map_of_mem held), rfl⟩
  · intro addressed
    have held (item) (member : item ∈ manifest.files) :
        item ∈ payload.byName.entries.map (fileRecord h) := by
      obtain ⟨content, found, record⟩ := valid item member
      rw [fileAt, if_pos (addressed.plain item member)] at found
      rw [← record]
      exact List.mem_map_of_mem (Dict.mem_entries_iff.mpr found)
    refine ⟨addressed.digest, fun item => ⟨held item, fun member => ?_⟩⟩
    -- the file that the list has under this name is the payload's file of this name
    obtain ⟨⟨path, content⟩, file, rfl⟩ := List.mem_map.mp member
    obtain ⟨item, listed, name⟩ := addressed.names path (List.mem_map_of_mem file)
    obtain ⟨⟨path', content'⟩, file', rfl⟩ := List.mem_map.mp (held item listed)
    cases name
    have same := (Dict.mem_entries_iff.mp file).symm.trans (Dict.mem_entries_iff.mp file')
    cases same
    exact listed

omit [DecidableEq FileHash] in
theorem buildManifest_ok {spec : StaticArtifactSpec}
    (ok : buildManifest h w spec = .ok manifest) :
    ∃ source, w.source spec.sourceDirectory = some source ∧
      h.canonical manifest.toIdentity = manifest.digest ∧
      ∀ item, item ∈ manifest.files ↔ ∃ file ∈ source.byName.entries, fileRecord h file = item := by
  unfold buildManifest at ok
  split at ok
  · cases ok
  · rename_i source listed
    dsimp only at ok
    split_ifs at ok
    cases ok
    refine ⟨source, listed, rfl, fun item => ?_⟩
    rw [List.mem_map]
    simp only [mem_sortedFiles]

theorem Store.validated_ok {s : Store Content FileHash Digest}
    (ok : s.validated h w true digest = .ok (manifest, payload)) :
    ∃ entry, s.cache digest = some entry ∧
      entry.validated h w true digest = .ok (manifest, payload) := by
  unfold Store.validated at ok
  split at ok
  · cases ok
  · rename_i entry found
    exact ⟨entry, found, ok⟩

end

/-! ## Runs -/

inductive Operation (Content FileHash Digest : Type) where
  | importSource (spec : StaticArtifactSpec)
  | commitIncoming (migrationId : MigrationId) (digest : Digest)
  | ensureTaskArtifacts (taskId : TaskId)
  | stageBindings (taskId : TaskId) (bindings : List (ArtifactBinding Digest))
  | validateCache (digest : Digest)
  /-- Whatever a peer has copied into the incoming area. -/
  | receive (migrationId : MigrationId) (digest : Digest)
      (entry : Option (Entry Content FileHash Digest))
  /-- The digests that a peer has reported. -/
  | setArtifactDigests (taskId : TaskId) (artifactDigests : Dict String Digest)

section

variable [DecidableEq FileHash] [DecidableEq Digest]

def Store.step (h : Hashes Content FileHash Digest) (w : Surroundings Content Digest)
    (s : Store Content FileHash Digest) :
    Operation Content FileHash Digest → Store Content FileHash Digest
  | .importSource spec => (s.importSource h w spec).2
  | .commitIncoming migrationId digest => (s.commitIncoming h w migrationId digest).2
  | .ensureTaskArtifacts taskId => (s.ensureTaskArtifacts h w taskId).2
  | .stageBindings taskId bindings => (s.stageBindings h w taskId bindings).2
  | .validateCache digest => (s.validateCache h w digest).2
  | .receive migrationId digest entry => s.receive migrationId digest entry
  | .setArtifactDigests taskId artifactDigests =>
      { s with artifactDigests := Function.update s.artifactDigests taskId artifactDigests }

def Store.fresh : Store Content FileHash Digest :=
  ⟨fun _ => none, fun _ _ => none, fun _ => [], fun _ => .empty, []⟩

/-- What is delivered for a commit is the artifact that the digest names, a copy of a source has the
files that were listed, and no target of a task lies below another one. -/
structure Careful (h : Hashes Content FileHash Digest) (w : Surroundings Content Digest)
    (s : Store Content FileHash Digest) (op : Operation Content FileHash Digest) : Prop where
  delivered : ∀ migrationId digest entry manifest payload, op = .commitIncoming migrationId digest →
    s.incoming migrationId digest = some entry → s.cache digest = none →
      entry.validated h w true digest = .ok (manifest, payload) →
        Addressed h digest manifest payload
  copies : ∀ directory source copy, w.source directory = some source →
    w.copied directory = .ok copy → copy.byName.keys ⊆ source.byName.keys
  targets : ∀ taskId specs, w.definition taskId = some specs → ∀ a ∈ specs, ∀ b ∈ specs,
    ¬ Below a.targetRelativeDirectory b.targetRelativeDirectory

/-- The stores that operations lead to from an empty one. A task's definition never changes. -/
inductive Runs (h : Hashes Content FileHash Digest)
    (allowed : Surroundings Content Digest → Store Content FileHash Digest →
      Operation Content FileHash Digest → Prop)
    (definition : TaskId → List StaticArtifactSpec) : Store Content FileHash Digest → Prop
  | fresh : Runs h allowed definition Store.fresh
  | step {s : Store Content FileHash Digest} (w : Surroundings Content Digest)
      (op : Operation Content FileHash Digest) (before : Runs h allowed definition s)
      (known : ∀ taskId specs, w.definition taskId = some specs → definition taskId = specs)
      (ok : allowed w s op) : Runs h allowed definition (s.step h w op)

/-! ## What the operations keep -/

/-- Every published directory is addressed, the links are those of the tasks' targets, and what was
accepted is genuine. -/
structure Clean (h : Hashes Content FileHash Digest)
    (definition : TaskId → List StaticArtifactSpec) (s : Store Content FileHash Digest) : Prop where
  cached : ∀ digest entry manifest payload, s.cache digest = some entry →
    entry.manifest = .valid manifest → entry.payload = some payload →
      Addressed h digest manifest payload
  linked : ∀ taskId, ∀ link ∈ s.links taskId,
    ∃ spec ∈ definition taskId, spec.targetRelativeDirectory = link.1
  accepted : ∀ a ∈ s.accepted, Genuine h a.1 a.2.1 a.2.2

namespace Clean

variable {h : Hashes Content FileHash Digest} {w : Surroundings Content Digest} {digest : Digest}
  {definition : TaskId → List StaticArtifactSpec} {s : Store Content FileHash Digest}

omit [DecidableEq Digest] in
theorem validateCache (clean : Clean h definition s) (digest : Digest) :
    Clean h definition (s.validateCache h w digest).2 := by
  unfold Store.validateCache
  split
  · exact clean
  · rename_i manifest payload ok
    refine ⟨clean.cached, clean.linked, List.forall_mem_cons.mpr ⟨?_, clean.accepted⟩⟩
    obtain ⟨entry, found, valid⟩ := Store.validated_ok ok
    obtain ⟨manifest_eq, payload_eq, -⟩ := Entry.validated_ok valid
    exact (Entry.genuine_iff valid).mpr (clean.cached _ _ _ _ found manifest_eq payload_eq)

omit [DecidableEq FileHash] in
theorem publish (clean : Clean h definition s) {entry : Option (Entry Content FileHash Digest)}
    (addressed : ∀ e manifest payload, entry = some e → e.manifest = .valid manifest →
      e.payload = some payload → Addressed h digest manifest payload) :
    Clean h definition (s.publish digest entry) := by
  refine ⟨fun digest' e manifest payload found => ?_, clean.linked, clean.accepted⟩
  by_cases same : digest' = digest
  · subst same
    have new : entry = some e := by simpa [Store.publish] using found
    exact addressed e manifest payload new
  · have old : s.cache digest' = some e := by simpa [Store.publish, same] using found
    exact clean.cached digest' e manifest payload old

theorem importSource (clean : Clean h definition s)
    (copies : ∀ directory source copy, w.source directory = some source →
      w.copied directory = .ok copy → copy.byName.keys ⊆ source.byName.keys)
    (spec : StaticArtifactSpec) : Clean h definition (s.importSource h w spec).2 := by
  unfold Store.importSource
  split
  · exact clean
  · rename_i manifest built
    split
    · exact clean
    · exact clean.validateCache _
    · split
      · exact clean
      · rename_i payload copied
        split
        · exact clean.validateCache _
        · apply Clean.validateCache
          apply clean.publish
          rintro e manifest' payload' ⟨⟩ ⟨⟩ ⟨⟩
          obtain ⟨source, listed, digest_eq, files⟩ := buildManifest_ok built
          refine ⟨digest_eq, fun item member => ?_, fun path member => ?_⟩
          · obtain ⟨file, held, rfl⟩ := (files item).mp member
            exact source.plain _ (List.mem_map_of_mem held)
          · obtain ⟨file, held, rfl⟩ := List.mem_map.mp (copies _ _ _ listed copied member)
            exact ⟨_, (files _).mpr ⟨file, held, rfl⟩, rfl⟩

omit [DecidableEq FileHash] in
theorem receive (clean : Clean h definition s) (migrationId : MigrationId) (digest : Digest)
    (entry : Option (Entry Content FileHash Digest)) :
    Clean h definition (s.receive migrationId digest entry) :=
  ⟨clean.cached, clean.linked, clean.accepted⟩

/-- A commit that validation refuses is taken back, so only an accepted one has to be addressed. -/
theorem commitIncoming (clean : Clean h definition s) (migrationId : MigrationId)
    (delivered : ∀ entry manifest payload, s.incoming migrationId digest = some entry →
      s.cache digest = none → entry.validated h w true digest = .ok (manifest, payload) →
        Addressed h digest manifest payload) :
    Clean h definition (s.commitIncoming h w migrationId digest).2 := by
  unfold Store.commitIncoming
  split
  · exact clean
  · rename_i entry found
    have taken := clean.receive migrationId digest none
    dsimp only
    split_ifs with present
    · exact taken.validateCache digest
    · have free : s.cache digest = none := Option.not_isSome_iff_eq_none.mp present
      have here : ((s.receive migrationId digest none).publish digest (some entry)).validated
          h w true digest = entry.validated h w true digest := by
        simp [Store.validated, Store.publish]
      unfold Store.validateCache
      rw [here]
      cases valid : entry.validated h w true digest with
      | error e =>
          have withdrawn : ((s.receive migrationId digest none).publish digest (some entry)).publish
              digest none = (s.receive migrationId digest none).publish digest none := by
            simp [Store.publish]
          dsimp only
          rw [withdrawn]
          apply taken.publish
          intro e manifest payload impossible
          cases impossible
      | ok accepted =>
          obtain ⟨manifest, payload⟩ := accepted
          have addressed := delivered entry manifest payload found free valid
          obtain ⟨manifest_eq, payload_eq, -⟩ := Entry.validated_ok valid
          have published : Clean h definition
              ((s.receive migrationId digest none).publish digest (some entry)) := by
            apply taken.publish
            rintro e manifest' payload' ⟨⟩ manifest_eq' payload_eq'
            cases manifest_eq.symm.trans manifest_eq'
            cases payload_eq.symm.trans payload_eq'
            exact addressed
          refine ⟨published.cached, published.linked, List.forall_mem_cons.mpr ⟨?_, published.accepted⟩⟩
          exact (Entry.genuine_iff valid).mpr addressed

omit [DecidableEq FileHash] in
theorem link (clean : Clean h definition s) {taskId : TaskId} {spec : StaticArtifactSpec}
    (own : spec ∈ definition taskId)
    (apart : ∀ a ∈ definition taskId, ∀ b ∈ definition taskId,
      ¬ Below a.targetRelativeDirectory b.targetRelativeDirectory) :
    Clean h definition (s.link w taskId spec.targetRelativeDirectory digest) := by
  unfold Store.link
  split
  · rename_i outer held above
    have linked := clean.linked taskId _ (List.mem_of_find?_eq_some above)
    obtain ⟨a, member, target⟩ := linked
    have below := List.find?_some above
    rw [decide_eq_true_iff, ← target] at below
    exact absurd below (apart a member spec own)
  · refine ⟨clean.cached, fun taskId' link member => ?_, clean.accepted⟩
    by_cases same : taskId' = taskId
    · subst same
      simp only [Function.update_self, List.mem_cons] at member
      rcases member with rfl | old
      · exact ⟨spec, own, rfl⟩
      · exact clean.linked taskId' link (List.mem_of_mem_filter old)
    · simp only [ne_eq, same, not_false_eq_true, Function.update_of_ne] at member
      exact clean.linked taskId' link member

theorem stage (clean : Clean h definition s) {taskId : TaskId}
    (apart : ∀ a ∈ definition taskId, ∀ b ∈ definition taskId,
      ¬ Below a.targetRelativeDirectory b.targetRelativeDirectory)
    (bindings : List (ArtifactBinding Digest)) (artifactDigests : Dict String Digest) :
    Clean h definition (Store.stage h w taskId (definition taskId) bindings artifactDigests s).2 := by
  induction bindings generalizing artifactDigests s with
  | nil => exact ⟨clean.cached, clean.linked, clean.accepted⟩
  | cons binding bindings ih =>
      unfold Store.stage
      split
      · exact clean
      · rename_i spec found
        have own := List.mem_reverse.mp (List.mem_of_find?_eq_some found)
        have validated := clean.validateCache (w := w) binding.digest
        split
        · rename_i e s' result
          rw [result] at validated
          exact validated
        · rename_i manifest s' result
          rw [result] at validated
          exact ih (validated.link own apart) _

theorem stageBindings (clean : Clean h definition s)
    (known : ∀ taskId specs, w.definition taskId = some specs → definition taskId = specs)
    (targets : ∀ taskId specs, w.definition taskId = some specs → ∀ a ∈ specs, ∀ b ∈ specs,
      ¬ Below a.targetRelativeDirectory b.targetRelativeDirectory)
    (taskId : TaskId) (bindings : List (ArtifactBinding Digest)) :
    Clean h definition (s.stageBindings h w taskId bindings).2 := by
  unfold Store.stageBindings
  split
  · exact clean
  · rename_i specs defined
    have apart := targets taskId specs defined
    have own := known taskId specs defined
    rw [← own] at apart ⊢
    exact clean.stage apart bindings .empty

theorem ensureArtifact (clean : Clean h definition s)
    (copies : ∀ directory source copy, w.source directory = some source →
      w.copied directory = .ok copy → copy.byName.keys ⊆ source.byName.keys)
    (recorded : Option Digest) (spec : StaticArtifactSpec) :
    Clean h definition (s.ensureArtifact h w recorded spec).2 := by
  unfold Store.ensureArtifact
  split
  · exact clean.importSource copies spec
  · split
    · exact clean
    · exact clean.importSource copies spec
    · split
      · exact clean
      · exact clean

theorem ensureArtifacts (clean : Clean h definition s)
    (copies : ∀ directory source copy, w.source directory = some source →
      w.copied directory = .ok copy → copy.byName.keys ⊆ source.byName.keys)
    (recorded : Dict String Digest) (specs : List StaticArtifactSpec) :
    Clean h definition (Store.ensureArtifacts h w recorded specs s).2 := by
  induction specs generalizing s with
  | nil => exact clean
  | cons spec specs ih =>
      have ensured := clean.ensureArtifact copies (recorded.get? spec.artifactId) spec
      unfold Store.ensureArtifacts
      split
      · rename_i e s' result
        rw [result] at ensured
        exact ensured
      · rename_i manifest s' result
        rw [result] at ensured
        have rest := ih ensured
        split
        · rename_i e s'' result
          rw [result] at rest
          exact rest
        · rename_i bindings s'' result
          rw [result] at rest
          exact rest

theorem ensureTaskArtifacts (clean : Clean h definition s)
    (known : ∀ taskId specs, w.definition taskId = some specs → definition taskId = specs)
    {op : Operation Content FileHash Digest} (careful : Careful h w s op) (taskId : TaskId) :
    Clean h definition (s.ensureTaskArtifacts h w taskId).2 := by
  unfold Store.ensureTaskArtifacts
  split
  · exact clean
  · rename_i specs defined
    have ensured := clean.ensureArtifacts careful.copies (s.artifactDigests taskId) specs
    split
    · rename_i e s' result
      rw [result] at ensured
      exact ensured
    · rename_i bindings s' result
      rw [result] at ensured
      have staged := ensured.stageBindings known careful.targets taskId bindings
      split
      · rename_i e s'' result
        rw [result] at staged
        exact staged
      · rename_i s'' result
        rw [result] at staged
        exact staged

theorem step (clean : Clean h definition s)
    (known : ∀ taskId specs, w.definition taskId = some specs → definition taskId = specs)
    {op : Operation Content FileHash Digest} (careful : Careful h w s op) :
    Clean h definition (s.step h w op) := by
  cases op with
  | importSource spec => exact clean.importSource careful.copies spec
  | commitIncoming migrationId digest =>
      exact clean.commitIncoming migrationId fun entry manifest payload =>
        careful.delivered migrationId digest entry manifest payload rfl
  | ensureTaskArtifacts taskId => exact clean.ensureTaskArtifacts known careful taskId
  | stageBindings taskId bindings => exact clean.stageBindings known careful.targets taskId bindings
  | validateCache digest => exact clean.validateCache digest
  | receive migrationId digest entry => exact clean.receive migrationId digest entry
  | setArtifactDigests taskId artifactDigests => exact ⟨clean.cached, clean.linked, clean.accepted⟩

end Clean

/-! ## Whole runs -/

theorem Runs.clean {h : Hashes Content FileHash Digest}
    {definition : TaskId → List StaticArtifactSpec} {s : Store Content FileHash Digest}
    (run : Runs h (Careful h) definition s) : Clean h definition s := by
  induction run with
  | fresh =>
      constructor
      · intro digest entry manifest payload impossible
        cases impossible
      · intro taskId link impossible
        cases impossible
      · intro a impossible
        cases impossible
  | step w op before known careful ih => exact ih.step known careful

/-- What two nodes accept is what the digests name, and of one digest it is the same files. -/
theorem cache_content_addressed (h : Hashes Content FileHash Digest)
    {definition definition' : TaskId → List StaticArtifactSpec}
    {s s' : Store Content FileHash Digest} (run : Runs h (Careful h) definition s)
    (run' : Runs h (Careful h) definition' s') :
    (∀ a ∈ s.accepted, Genuine h a.1 a.2.1 a.2.2) ∧
      (Function.Injective h.sha256File → Function.Injective h.canonical →
        ∀ a ∈ s.accepted, ∀ a' ∈ s'.accepted, a.1 = a'.1 → ∀ path,
          a.2.2.byName.get? path = a'.2.2.byName.get? path) := by
  have accepted := run.clean.accepted
  refine ⟨accepted, fun files identities => ?_⟩
  rintro ⟨digest, manifest, payload⟩ member ⟨digest', manifest', payload'⟩ member' same path
  cases same
  have genuine' := run'.clean.accepted (digest, manifest', payload') member'
  exact (accepted (digest, manifest, payload) member).same_files files identities genuine' path

end

/-! ## A model of one file -/

def sampleHashes : Hashes String String (Identity String) := ⟨String.length, id, id⟩

def sampleSpec : StaticArtifactSpec := ⟨"base", .model, "/models/base", ["model"], by decide⟩

def sampleFiles : Files String where
  byName := ⟨[("weights", "abc")], by decide⟩
  plain := by decide +kernel

def sampleWorld : Surroundings String (Identity String) where
  definition := fun _ => some [sampleSpec]
  source := fun _ => some sampleFiles
  copied := fun _ => .ok sampleFiles
  outside := fun _ _ => none
  through := fun files _ _ => files

def sampleIdentity : Identity String := ⟨"base", "model", [⟨"weights", 3, "abc"⟩]⟩

def sampleEntry : Entry String String (Identity String) where
  manifest := .valid { sampleIdentity with digest := sampleIdentity, sizeBytes := 3 }
  payload := some sampleFiles

/-- The node that starts a task imports the model. -/
def sampleImported : Store String String (Identity String) :=
  Store.fresh.step sampleHashes sampleWorld (.ensureTaskArtifacts "t")

/-- The other node receives what was delivered for `digest` and commits it. -/
def sampleCommitted (digest : Identity String) : Store String String (Identity String) :=
  (Store.fresh.step sampleHashes sampleWorld (.receive "m" digest (some sampleEntry))).step sampleHashes
    sampleWorld (.commitIncoming "m" digest)

theorem sample_careful {s : Store String String (Identity String)}
    {op : Operation String String (Identity String)}
    (delivered : ∀ migrationId digest, op = .commitIncoming migrationId digest →
      ∀ entry, s.incoming migrationId digest = some entry → entry = sampleEntry ∧ digest = sampleIdentity) :
    Careful sampleHashes sampleWorld s op where
  delivered := by
    intro migrationId digest entry manifest payload commit found _ valid
    obtain ⟨rfl, rfl⟩ := delivered migrationId digest commit entry found
    obtain ⟨⟨⟩, ⟨⟩, -⟩ := Entry.validated_ok valid
    refine ⟨rfl, ?_, ?_⟩
    · decide +kernel
    · decide +kernel
  copies := by
    rintro directory source copy ⟨⟩ ⟨⟩
    exact List.Subset.refl _
  targets := by
    rintro taskId specs ⟨⟩ a here b there
    rw [List.mem_singleton.mp here, List.mem_singleton.mp there]
    exact fun below => below.2 rfl

theorem sample_known (taskId : TaskId) (specs : List StaticArtifactSpec)
    (defined : sampleWorld.definition taskId = some specs) : [sampleSpec] = specs :=
  Option.some.inj defined

theorem cache_content_addressed_sample :
    sampleImported.accepted.length = 2 ∧ (sampleCommitted sampleIdentity).accepted.length = 1 ∧
    ∀ a ∈ sampleImported.accepted, ∀ a' ∈ (sampleCommitted sampleIdentity).accepted, a.1 = a'.1 →
      ∀ path, a.2.2.byName.get? path = a'.2.2.byName.get? path := by
  have imported : Runs sampleHashes (Careful sampleHashes) (fun _ => [sampleSpec]) sampleImported := by
    apply Runs.step sampleWorld _ .fresh sample_known
    apply sample_careful
    intro migrationId digest impossible
    cases impossible
  have committed : Runs sampleHashes (Careful sampleHashes) (fun _ => [sampleSpec])
      (sampleCommitted sampleIdentity) := by
    apply Runs.step sampleWorld _ (.step sampleWorld _ .fresh sample_known _) sample_known
    · apply sample_careful
      rintro migrationId digest ⟨⟩ entry found
      exact ⟨(Option.some.inj found).symm, rfl⟩
    · apply sample_careful
      intro migrationId digest impossible
      cases impossible
  refine ⟨by decide +kernel, by decide +kernel, ?_⟩
  exact (cache_content_addressed sampleHashes imported committed).2 Function.injective_id
    Function.injective_id

/-- A commit accepts another artifact than the one its digest names. -/
theorem commit_of_another_artifact :
    Runs sampleHashes (fun _ _ _ => True) (fun _ => [sampleSpec])
        (sampleCommitted ⟨"other", "model", []⟩) ∧
      ¬ ∀ a ∈ (sampleCommitted ⟨"other", "model", []⟩).accepted,
        Genuine sampleHashes a.1 a.2.1 a.2.2 := by
  constructor
  · exact .step sampleWorld _ (.step sampleWorld _ .fresh sample_known trivial) sample_known trivial
  · intro genuine
    have accepted := (genuine (⟨"other", "model", []⟩, _, sampleFiles) (List.mem_singleton.mpr rfl)).digest
    revert accepted
    decide +kernel

end Magellan.Artifacts
