import Magellan.Artifacts.Healing

/-!
# Caches of nodes that import from sources at rest

While a source directory is listed and copied it holds still, and no target of a task lies below
another one. Then every entry of a cache is what its digest names and is there for good.
-/

namespace Magellan.Artifacts

variable {Content FileHash Digest : Type}

/-- What an import makes of a source with the files `payload`. -/
structure Imported (h : Hashes Content FileHash Digest) (digest : Digest)
    (manifest : ArtifactManifest FileHash Digest) (payload : Files Content) : Prop where
  named : manifest.digest = digest
  canonical : h.canonical manifest.toIdentity = digest
  files : manifest.files = (sortedFiles payload.byName.entries).map (fileRecord h)
  size : manifest.sizeBytes = (manifest.files.map ArtifactFile.sizeBytes).sum

def Entry.Whole (h : Hashes Content FileHash Digest) (digest : Digest)
    (entry : Entry Content FileHash Digest) : Prop :=
  ∃ manifest payload, entry = ⟨.valid manifest, some payload⟩ ∧ Imported h digest manifest payload

/-- Targets of one task are not nested. -/
def Apart (definition : TaskId → List StaticArtifactSpec) : Prop :=
  ∀ taskId, ∀ a ∈ definition taskId, ∀ b ∈ definition taskId,
    ¬ Below a.targetRelativeDirectory b.targetRelativeDirectory

structure Steady (definition : TaskId → List StaticArtifactSpec)
    (w : Surroundings Content Digest) : Prop where
  known : ∀ taskId specs, w.definition taskId = some specs → definition taskId = specs
  still : ∀ directory source copy, w.source directory = some source →
    w.copied directory = .ok copy → copy = source

structure Intact (h : Hashes Content FileHash Digest)
    (definition : TaskId → List StaticArtifactSpec) (s : Store Content FileHash Digest) : Prop where
  cached : ∀ digest entry, s.cache digest = some entry → entry.Whole h digest
  linked : ∀ taskId, ∀ link ∈ s.links taskId,
    ∃ spec ∈ definition taskId, spec.targetRelativeDirectory = link.1

/-- What an operation of the manager keeps. -/
structure Advances (h : Hashes Content FileHash Digest)
    (definition : TaskId → List StaticArtifactSpec) (s s' : Store Content FileHash Digest) : Prop where
  intact : Intact h definition s'
  cache : ∀ digest entry, s.cache digest = some entry → s'.cache digest = some entry
  incoming : s'.incoming = s.incoming

/-- The cache holds what the binding says. -/
def Store.Backs (s : Store Content FileHash Digest) (binding : ArtifactBinding Digest) : Prop :=
  ∃ manifest payload, s.cache binding.digest = some ⟨.valid manifest, some payload⟩ ∧
    manifest.sizeBytes = binding.sizeBytes

section

variable {h : Hashes Content FileHash Digest} {w : Surroundings Content Digest}
  {definition : TaskId → List StaticArtifactSpec} {s s' s'' : Store Content FileHash Digest}
  {digest : Digest} {manifest : ArtifactManifest FileHash Digest} {payload : Files Content}
  {binding : ArtifactBinding Digest} {spec : StaticArtifactSpec} {verifyHashes : Bool}

theorem Advances.refl (intact : Intact h definition s) : Advances h definition s s :=
  ⟨intact, fun _ _ found => found, rfl⟩

theorem Advances.trans (first : Advances h definition s s') (next : Advances h definition s' s'') :
    Advances h definition s s'' where
  intact := next.intact
  cache digest entry found := next.cache digest entry (first.cache digest entry found)
  incoming := next.incoming.trans first.incoming

theorem Store.Backs.later (backs : s.Backs binding)
    (cache : ∀ digest entry, s.cache digest = some entry → s'.cache digest = some entry) :
    s'.Backs binding := by
  obtain ⟨manifest, payload, found, size⟩ := backs
  exact ⟨manifest, payload, cache _ _ found, size⟩

theorem Imported.genuine (imported : Imported h digest manifest payload) :
    Genuine h digest manifest payload := by
  refine ⟨imported.canonical, fun item => ?_⟩
  rw [imported.files]
  simp

variable [DecidableEq FileHash]

/-! ## Validation -/

theorem Imported.validated (imported : Imported h digest manifest payload) :
    (⟨.valid manifest, some payload⟩ : Entry Content FileHash Digest).validated h w verifyHashes
      digest = .ok (manifest, payload) := by
  have files : validateFiles h w verifyHashes digest payload manifest.files = .ok () := by
    apply validateFiles_of
    intro item member
    rw [imported.files] at member
    obtain ⟨⟨path, content⟩, held, rfl⟩ := List.mem_map.mp member
    rw [mem_sortedFiles] at held
    have there : fileAt w digest payload path = some content := by
      rw [fileAt, if_pos (payload.plain path (List.mem_map_of_mem held))]
      exact Dict.mem_entries_iff.mp held
    simp [validateFile, fileRecord, there]
  simp [Entry.validated, files]

omit [DecidableEq FileHash] in
theorem buildManifest_imported (built : buildManifest h w spec = .ok manifest) :
    ∃ source, w.source spec.sourceDirectory = some source ∧
      Imported h manifest.digest manifest source := by
  unfold buildManifest at built
  split at built
  · cases built
  · rename_i source listed
    dsimp only at built
    split_ifs at built
    cases built
    exact ⟨source, listed, rfl, rfl, rfl, rfl⟩

namespace Intact

theorem validated (intact : Intact h definition s) {entry : Entry Content FileHash Digest}
    (found : s.cache digest = some entry) (w : Surroundings Content Digest) (verifyHashes : Bool) :
    ∃ manifest payload, entry = ⟨.valid manifest, some payload⟩ ∧ Imported h digest manifest payload ∧
      s.validated h w verifyHashes digest = .ok (manifest, payload) := by
  obtain ⟨manifest, payload, rfl, imported⟩ := intact.cached digest entry found
  refine ⟨manifest, payload, rfl, imported, ?_⟩
  simp [Store.validated, found, imported.validated]

theorem hasArtifact (intact : Intact h definition s) (digest : Digest) :
    s.hasArtifact h w digest = .ok (s.cache digest).isSome := by
  cases found : s.cache digest with
  | none => simp [Store.hasArtifact_absent found]
  | some entry =>
      obtain ⟨manifest, payload, -, -, ok⟩ := intact.validated found w false
      simp [Store.hasArtifact, ok]

theorem validateCache (intact : Intact h definition s) (digest : Digest) :
    Advances h definition s (s.validateCache h w digest).2 := by
  unfold Store.validateCache
  split
  · exact .refl intact
  · exact ⟨⟨intact.cached, intact.linked⟩, fun _ _ found => found, rfl⟩

theorem validateCache_ok (intact : Intact h definition s) {entry : Entry Content FileHash Digest}
    (found : s.cache digest = some entry) : ∃ manifest payload,
    entry = ⟨.valid manifest, some payload⟩ ∧ Imported h digest manifest payload ∧
      (s.validateCache h w digest).1 = .ok manifest := by
  obtain ⟨manifest, payload, same, imported, ok⟩ :=
    intact.validated found w true
  refine ⟨manifest, payload, same, imported, ?_⟩
  simp [Store.validateCache, ok]

variable [DecidableEq Digest]

/-! ## Imports -/

omit [DecidableEq FileHash] in
theorem publish (intact : Intact h definition s) (free : s.cache digest = none)
    {entry : Entry Content FileHash Digest} (whole : entry.Whole h digest) :
    Advances h definition s (s.publish digest (some entry)) := by
  have cached (other : Digest) : (s.publish digest (some entry)).cache other =
      if other = digest then some entry else s.cache other := by
    by_cases same : other = digest <;> simp [Store.publish, same]
  refine ⟨⟨fun other e found => ?_, intact.linked⟩, fun other e found => ?_, rfl⟩
  · rw [cached] at found
    split_ifs at found with same
    · cases found
      exact same ▸ whole
    · exact intact.cached other e found
  · rw [cached, if_neg, found]
    intro same
    rw [same, free] at found
    cases found

theorem importSource (intact : Intact h definition s) (steady : Steady definition w)
    (spec : StaticArtifactSpec) : Advances h definition s (s.importSource h w spec).2 ∧
      ∀ manifest, (s.importSource h w spec).1 = .ok manifest →
        (s.importSource h w spec).2.Backs ⟨spec.artifactId, manifest.digest, manifest.sizeBytes⟩ := by
  cases built : buildManifest h w spec with
  | error e => simp [Store.importSource, built, Advances.refl intact]
  | ok manifest =>
      obtain ⟨source, listed, imported⟩ := buildManifest_imported built
      cases found : s.cache manifest.digest with
      | some entry =>
          obtain ⟨kept, payload, rfl, imported', ok⟩ := intact.validateCache_ok (w := w) found
          have result : s.importSource h w spec = s.validateCache h w manifest.digest := by
            simp [Store.importSource, built, intact.hasArtifact, found]
          rw [result, ok]
          refine ⟨intact.validateCache _, ?_⟩
          rintro _ ⟨⟩
          have later := (intact.validateCache (w := w) manifest.digest).cache _ _ found
          exact ⟨kept, payload, by rw [imported'.named, later], rfl⟩
      | none =>
          cases copied : w.copied spec.sourceDirectory with
          | error e => simp [Store.importSource, built, intact.hasArtifact, found, copied, Advances.refl intact]
          | ok payload =>
              cases steady.still _ _ _ listed copied
              have result : s.importSource h w spec =
                  (s.publish manifest.digest (some ⟨.valid manifest, some source⟩)).validateCache h w
                    manifest.digest := by
                simp [Store.importSource, built, intact.hasArtifact, found, copied]
              have published := intact.publish found ⟨manifest, source, rfl, imported⟩
              have here : (s.publish manifest.digest (some ⟨.valid manifest, some source⟩)).cache
                  manifest.digest = some ⟨.valid manifest, some source⟩ := by simp [Store.publish]
              obtain ⟨kept, payload, same, -, ok⟩ := published.intact.validateCache_ok (w := w) here
              cases same
              rw [result, ok]
              refine ⟨published.trans (published.intact.validateCache _), ?_⟩
              rintro _ ⟨⟩
              exact ⟨manifest, source,
                (published.intact.validateCache (w := w) manifest.digest).cache _ _ here, rfl⟩

/-! ## Staging -/

omit [DecidableEq FileHash] in
theorem link (intact : Intact h definition s) (apart : Apart definition) {taskId : TaskId}
    (own : spec ∈ definition taskId) (digest : Digest) :
    Advances h definition s (s.link w taskId spec.targetRelativeDirectory digest) := by
  unfold Store.link
  split
  · rename_i outer held above
    obtain ⟨a, member, target⟩ := intact.linked taskId _ (List.mem_of_find?_eq_some above)
    have below := List.find?_some above
    rw [decide_eq_true_iff, ← target] at below
    exact absurd below (apart taskId a member spec own)
  · refine ⟨⟨intact.cached, fun taskId' link member => ?_⟩, fun _ _ found => found, rfl⟩
    by_cases same : taskId' = taskId
    · subst same
      simp only [Function.update_self, List.mem_cons] at member
      rcases member with rfl | old
      · exact ⟨spec, own, rfl⟩
      · exact intact.linked taskId' link (List.mem_of_mem_filter old)
    · simp only [ne_eq, same, not_false_eq_true, Function.update_of_ne] at member
      exact intact.linked taskId' link member

theorem stage (intact : Intact h definition s) (apart : Apart definition) (taskId : TaskId)
    (bindings : List (ArtifactBinding Digest)) (artifactDigests : Dict String Digest) :
    Advances h definition s
      (Store.stage h w taskId (definition taskId) bindings artifactDigests s).2 := by
  induction bindings generalizing artifactDigests s with
  | nil => exact ⟨⟨intact.cached, intact.linked⟩, fun _ _ found => found, rfl⟩
  | cons binding bindings ih =>
      unfold Store.stage
      split
      · exact .refl intact
      · rename_i spec found
        have own := List.mem_reverse.mp (List.mem_of_find?_eq_some found)
        have validated := intact.validateCache (w := w) binding.digest
        split
        · rename_i e s' result
          rw [result] at validated
          exact validated
        · rename_i manifest s' result
          rw [result] at validated
          have linked := validated.intact.link (w := w) apart own binding.digest
          exact (validated.trans linked).trans (ih linked.intact _)

/-- Bindings of the task's own artifacts that the cache holds can be staged. -/
theorem stage_ok (intact : Intact h definition s) (apart : Apart definition) (taskId : TaskId)
    {bindings : List (ArtifactBinding Digest)} (artifactDigests : Dict String Digest)
    (held : ∀ binding ∈ bindings, ∃ entry, s.cache binding.digest = some entry)
    (known : ∀ binding ∈ bindings, ∃ spec ∈ definition taskId, spec.artifactId = binding.artifactId) :
    (Store.stage h w taskId (definition taskId) bindings artifactDigests s).1 = .ok () := by
  induction bindings generalizing artifactDigests s with
  | nil => rfl
  | cons binding bindings ih =>
      obtain ⟨⟨entry, found⟩, held⟩ := List.forall_mem_cons.mp held
      obtain ⟨⟨spec', own', named⟩, known⟩ := List.forall_mem_cons.mp known
      obtain ⟨manifest, payload, -, -, ok⟩ := intact.validateCache_ok (w := w) found
      have validated := intact.validateCache (w := w) binding.digest
      unfold Store.stage
      split
      · rename_i missing
        have absent := List.find?_eq_none.mp missing spec' (List.mem_reverse.mpr own')
        simp [named] at absent
      · rename_i spec chosen
        have own := List.mem_reverse.mp (List.mem_of_find?_eq_some chosen)
        split
        · rename_i e s' result
          rw [result] at ok
          cases ok
        · rename_i manifest' s' result
          rw [result] at validated
          have linked := validated.intact.link (w := w) apart own binding.digest
          have advanced := validated.trans linked
          exact ih linked.intact _ (fun b member => (held b member).imp fun _ => advanced.cache _ _) known

theorem stageBindings (intact : Intact h definition s) (apart : Apart definition)
    (steady : Steady definition w) (taskId : TaskId) (bindings : List (ArtifactBinding Digest)) :
    Advances h definition s (s.stageBindings h w taskId bindings).2 := by
  unfold Store.stageBindings
  split
  · exact .refl intact
  · rename_i specs defined
    rw [← steady.known taskId specs defined]
    exact intact.stage apart taskId bindings .empty

/-! ## The artifacts of a task -/

theorem ensureArtifact (intact : Intact h definition s) (steady : Steady definition w)
    (recorded : Option Digest) (spec : StaticArtifactSpec) :
    Advances h definition s (s.ensureArtifact h w recorded spec).2 ∧
      ∀ manifest, (s.ensureArtifact h w recorded spec).1 = .ok manifest →
        (s.ensureArtifact h w recorded spec).2.Backs
          ⟨spec.artifactId, manifest.digest, manifest.sizeBytes⟩ := by
  cases recorded with
  | none => exact intact.importSource steady spec
  | some digest =>
      cases found : s.cache digest with
      | none => simpa [Store.ensureArtifact, intact.hasArtifact, found] using intact.importSource steady spec
      | some entry =>
          obtain ⟨manifest, payload, rfl, imported, ok⟩ :=
            intact.validated found w false
          have result : s.ensureArtifact h w (some digest) spec = (.ok manifest, s) := by
            simp [Store.ensureArtifact, intact.hasArtifact, found, ok]
          rw [result]
          refine ⟨.refl intact, ?_⟩
          rintro _ ⟨⟩
          exact ⟨manifest, payload, by rw [imported.named, found], rfl⟩

theorem ensureArtifacts (intact : Intact h definition s) (steady : Steady definition w)
    (recorded : Dict String Digest) (specs : List StaticArtifactSpec) :
    Advances h definition s (Store.ensureArtifacts h w recorded specs s).2 ∧
      ∀ bindings, (Store.ensureArtifacts h w recorded specs s).1 = .ok bindings →
        bindings.map ArtifactBinding.artifactId = specs.map StaticArtifactSpec.artifactId ∧
          ∀ binding ∈ bindings, (Store.ensureArtifacts h w recorded specs s).2.Backs binding := by
  induction specs generalizing s with
  | nil =>
      refine ⟨.refl intact, ?_⟩
      rintro _ ⟨⟩
      simp
  | cons spec specs ih =>
      have ensured := intact.ensureArtifact steady (recorded.get? spec.artifactId) spec
      unfold Store.ensureArtifacts
      split
      · rename_i e s' result
        rw [result] at ensured
        exact ⟨ensured.1, by simp⟩
      · rename_i manifest s' result
        rw [result] at ensured
        obtain ⟨advanced, backs⟩ := ensured
        have rest := ih advanced.intact
        split
        · rename_i e s'' result
          rw [result] at rest
          exact ⟨advanced.trans rest.1, by simp⟩
        · rename_i bindings s'' result
          rw [result] at rest
          obtain ⟨more, backed⟩ := rest
          obtain ⟨ids, backed⟩ := backed bindings rfl
          refine ⟨advanced.trans more, ?_⟩
          rintro _ ⟨⟩
          refine ⟨by simp [ids], List.forall_mem_cons.mpr ⟨?_, backed⟩⟩
          exact (backs manifest rfl).later more.cache

theorem ensureTaskArtifacts (intact : Intact h definition s) (apart : Apart definition)
    (steady : Steady definition w) (taskId : TaskId) :
    Advances h definition s (s.ensureTaskArtifacts h w taskId).2 ∧
      ∀ bindings, (s.ensureTaskArtifacts h w taskId).1 = .ok bindings →
        bindings.map ArtifactBinding.artifactId =
            (definition taskId).map StaticArtifactSpec.artifactId ∧
          ∀ binding ∈ bindings, (s.ensureTaskArtifacts h w taskId).2.Backs binding := by
  unfold Store.ensureTaskArtifacts
  split
  · exact ⟨.refl intact, by simp⟩
  · rename_i specs defined
    rw [steady.known taskId specs defined]
    have ensured := intact.ensureArtifacts steady (s.artifactDigests taskId) specs
    split
    · rename_i e s' result
      rw [result] at ensured
      exact ⟨ensured.1, by simp⟩
    · rename_i bindings s' result
      rw [result] at ensured
      obtain ⟨advanced, backed⟩ := ensured
      obtain ⟨ids, backed⟩ := backed bindings rfl
      have staged := advanced.intact.stageBindings (w := w) apart steady taskId bindings
      split
      · rename_i e s'' result
        rw [result] at staged
        exact ⟨advanced.trans staged, by simp⟩
      · rename_i s'' result
        rw [result] at staged
        refine ⟨advanced.trans staged, ?_⟩
        rintro _ ⟨⟩
        exact ⟨ids, fun binding member => (backed binding member).later staged.cache⟩

end Intact

end

end Magellan.Artifacts
