import Magellan.Runtime.Dendro

/-!
# Discovery and validation of Dendro checkpoints

A manifest is kept for files whose sizes it has. Validation compares digests, so it refuses what
discovery has just selected where a file was rewritten in its size.
-/

namespace Magellan.Dendro

open Checkpoint

variable {Content Digest : Type} {p : Patterns} {r : DendroReading Content Digest}
  {spec : DendroCheckpointDiscoverySpec} {manifestPath root : String} {now : Int}
  {directory : Directory Content} {selected : Selection}

/-! ## What is selected -/

/-- The selected files are there. -/
structure Selectable (directory : Directory Content) (selected : Selection) : Prop where
  nonempty : selected.files ≠ []
  present : ∀ item ∈ selected.files, ∃ file, directory.get? item.1 = some file

theorem mem_sortedByName {items : List (String × Option Int)} {item : String × Option Int} :
    item ∈ sortedByName items ↔ item ∈ items :=
  List.mem_insertionSort _

theorem sortedByName_ne_nil {items : List (String × Option Int)} (nonempty : items ≠ []) :
    sortedByName items ≠ [] := by
  obtain ⟨item, member⟩ := List.exists_mem_of_ne_nil items nonempty
  exact List.ne_nil_of_mem (mem_sortedByName.mpr member)

theorem candidates_present {files : List (String × StoredFile Content)}
    {found found' : Dict String (Int × Option Int)} {q : String → Prop}
    (ok : candidates p spec manifestPath now files found = .ok found')
    (listed : ∀ file ∈ files, q file.1) (old : ∀ item ∈ found.entries, q item.1) :
    ∀ item ∈ found'.entries, q item.1 := by
  induction files generalizing found with
  | nil =>
      cases ok
      exact old
  | cons file files ih =>
      obtain ⟨here, rest⟩ := List.forall_mem_cons.mp listed
      unfold candidates at ok
      split at ok
      · cases ok
      · exact ih ok rest old
      · rename_i numbers _
        exact ih ok rest (Dict.forall_set (p := fun item => q item.1) old here)

theorem selectGeneric_selectable
    (ok : selectGeneric p spec manifestPath now directory = .ok (some selected)) :
    Selectable directory selected := by
  unfold selectGeneric at ok
  split at ok
  · cases ok
  · rename_i found searched
    have present : ∀ item ∈ found.entries, ∃ file, directory.get? item.1 = some file := by
      refine candidates_present (q := fun path => ∃ file, directory.get? path = some file) searched
        (fun file member => ?_) (fun item impossible => by cases impossible)
      obtain ⟨pattern, -, matched⟩ := List.mem_flatMap.mp member
      exact ⟨file.2, Dict.mem_entries_iff.mp (List.mem_of_mem_filter matched)⟩
    dsimp only at ok
    split at ok
    · cases ok
    · rename_i selected' chosen
      split_ifs at ok with empty
      · cases ok
      · cases ok
        refine ⟨empty, fun item member => ?_⟩
        obtain ⟨step, -, group⟩ := List.exists_of_findSome?_eq_some chosen
        unfold completeGroup at group
        dsimp only at group
        split_ifs at group
        cases group
        obtain ⟨entry, listed, rfl⟩ := List.mem_map.mp (mem_sortedByName.mp member)
        exact present entry (List.mem_of_mem_filter listed)

theorem nativeCandidate_selectable {bssn stepPath : String} {file : StoredFile Content}
    (ok : nativeCandidate p r spec bssn now directory stepPath file = .ok (some selected)) :
    Selectable directory selected := by
  unfold nativeCandidate at ok
  split at ok
  · cases ok
  · split at ok
    · cases ok
    · cases ok
    · dsimp only at ok
      split_ifs at ok with none_ stable count
      · cases ok
      · cases ok
      · cases ok
        refine ⟨List.cons_ne_nil _ _, fun item member => ?_⟩
        have there := List.all_eq_true.mp stable item member
        unfold stableFile at there
        split at there
        · cases there
        · rename_i file _
          exact ⟨file, ‹_›⟩
      · cases ok

theorem nativeCandidates_selectable {bssn : String} {files : List (String × StoredFile Content)}
    {best : Option Selection} (old : ∀ b, best = some b → Selectable directory b)
    (ok : nativeCandidates p r spec bssn now directory files best = .ok (some selected)) :
    Selectable directory selected := by
  induction files generalizing best with
  | nil =>
      cases ok
      exact old selected rfl
  | cons file files ih =>
      unfold nativeCandidates at ok
      split at ok
      · cases ok
      · exact ih old ok
      · rename_i new candidate
        have newOk := nativeCandidate_selectable candidate
        refine ih (fun b chosen => ?_) ok
        cases best with
        | none =>
            cases chosen
            exact newOk
        | some a =>
            cases chosen
            show Selectable directory (later a new)
            unfold later
            split_ifs
            · exact newOk
            · exact old a rfl

theorem select_selectable
    (ok : select p r spec manifestPath now directory = .ok (some selected)) :
    Selectable directory selected := by
  unfold select at ok
  split at ok
  · unfold selectNative at ok
    dsimp only at ok
    split at ok
    · cases ok
    · rename_i chosen searched
      cases chosen with
      | none => cases ok
      | some s =>
          cases ok
          have found := nativeCandidates_selectable
            (fun b impossible => by cases impossible) searched
          exact ⟨sortedByName_ne_nil found.nonempty,
            fun item member => found.present item (mem_sortedByName.mp member)⟩
  · exact selectGeneric_selectable ok

/-! ## Runs -/

/-- The checkpoint directory, the validator's cache, and the validations so far in which discovery
has selected something. -/
structure Site (Content Digest : Type) where
  directory : Directory Content
  cache : DigestCache Digest
  validations : List (Selection × Except Exn CheckpointSummary)

inductive Operation (Content : Type) where
  | write (path : String) (file : StoredFile Content)
  | remove (path : String)
  | discover (now : Int)
  | validate (now : Int)

variable [DecidableEq Digest]

def Site.step (p : Patterns) (r : DendroReading Content Digest)
    (spec : DendroCheckpointDiscoverySpec) (manifestPath root : String) (s : Site Content Digest) :
    Operation Content → Site Content Digest
  | .write path file => { s with directory := s.directory.set path file }
  | .remove path => { s with directory := s.directory.erase path }
  | .discover now => { s with directory := (discover p r spec manifestPath now s.directory).2 }
  | .validate now =>
      let (result, directory, cache) := validate p r spec manifestPath root now s.directory s.cache
      let validations := match select p r spec manifestPath now s.directory with
        | .ok (some selected) => (selected, result) :: s.validations
        | _ => s.validations
      ⟨directory, cache, validations⟩

/-- The workload writes checkpoints, not the manifest. -/
def Operation.Possible (manifestPath : String) : Operation Content → Prop
  | .write path _ | .remove path => path ≠ manifestPath
  | _ => True

/-- What a validation has to find: the selected paths are safe and none is the manifest's, a manifest
that is kept has the digests of the files as they are, and no refusal of them is remembered. -/
structure Current (p : Patterns) (r : DendroReading Content Digest)
    (spec : DendroCheckpointDiscoverySpec) (manifestPath : String) (now : Int)
    (s : Site Content Digest) (selected : Selection) : Prop where
  paths : ∀ item ∈ selected.files, SafePath item.1 ∧ item.1 ≠ manifestPath
  kept : ∀ existing, reused r spec manifestPath s.directory selected = some existing →
    ∀ item ∈ existing.files, ∀ file, s.directory.get? item.path = some file →
      ∀ expected, item.sha256 = some expected → r.sha256 file.content = expected
  believed : ∀ item ∈ selected.files, ∀ file, s.directory.get? item.1 = some file →
    s.cache (cacheKey r.toReading item.1 file (r.sha256 file.content)) ≠ some false

def Careful (p : Patterns) (r : DendroReading Content Digest) (spec : DendroCheckpointDiscoverySpec)
    (manifestPath : String) (s : Site Content Digest) : Operation Content → Prop
  | .validate now => ∀ selected, select p r spec manifestPath now s.directory = .ok (some selected) →
      Current p r spec manifestPath now s selected
  | _ => True

inductive Runs (p : Patterns) (r : DendroReading Content Digest)
    (spec : DendroCheckpointDiscoverySpec) (manifestPath root : String)
    (allowed : Site Content Digest → Operation Content → Prop) (start : Directory Content) :
    Site Content Digest → Prop
  | start : Runs p r spec manifestPath root allowed start ⟨start, fun _ => none, []⟩
  | step {s : Site Content Digest} (op : Operation Content)
      (before : Runs p r spec manifestPath root allowed start s)
      (possible : op.Possible manifestPath) (ok : allowed s op) :
      Runs p r spec manifestPath root allowed start (s.step p r spec manifestPath root op)

theorem Runs.foldl {start : Directory Content} {s : Site Content Digest}
    {ops : List (Operation Content)} (possible : ∀ op ∈ ops, op.Possible manifestPath)
    (run : Runs p r spec manifestPath root (fun _ _ => True) start s) :
    Runs p r spec manifestPath root (fun _ _ => True) start
      (ops.foldl (Site.step p r spec manifestPath root) s) := by
  induction ops generalizing s with
  | nil => exact run
  | cons op ops ih =>
      obtain ⟨here, rest⟩ := List.forall_mem_cons.mp possible
      exact ih rest (run.step op here trivial)

/-- Validation accepts, and reports the step that was selected. -/
def Agrees (v : Selection × Except Exn CheckpointSummary) : Prop :=
  ∃ summary, v.2 = .ok summary ∧ summary.checkpointStep = some v.1.step

/-! ## The manifest in place -/

/-- Entries of one path have one size. -/
def Uniform (m : CheckpointManifest Digest) : Prop :=
  ∀ a ∈ m.files, ∀ b ∈ m.files, a.path = b.path → a.sizeBytes = b.sizeBytes

/-- What is in the manifest's place was written by discovery. -/
def Written (r : DendroReading Content Digest) (manifestPath : String)
    (directory : Directory Content) : Prop :=
  ∀ file m, directory.get? manifestPath = some file → r.manifest file.content = .ok m → Uniform m

omit [DecidableEq Digest] in
theorem uniform_newManifest (directory : Directory Content) (selected : Selection) :
    Uniform (newManifest r spec directory selected) := by
  intro a here b there same
  obtain ⟨item, -, rfl⟩ := List.mem_map.mp here
  obtain ⟨item', -, rfl⟩ := List.mem_map.mp there
  exact congrArg (currentSize r directory) same

omit [DecidableEq Digest] in
theorem Written.discover (written : Written r manifestPath directory) :
    Written r manifestPath (discover p r spec manifestPath now directory).2 := by
  unfold Dendro.discover
  split
  · exact written
  · exact written
  · split
    · exact written
    · intro file m found parsed
      rw [Dict.get?_set, if_pos rfl] at found
      cases found
      rw [r.manifest_render] at parsed
      cases parsed
      exact uniform_newManifest directory _

omit [DecidableEq Digest] in
theorem reused_manifest (written : Written r manifestPath directory)
    (selectable : Selectable directory selected) {m : CheckpointManifest Digest}
    (keeps : reused r spec manifestPath directory selected = some m) :
    (∃ file, directory.get? manifestPath = some file ∧ r.manifest file.content = .ok m) ∧
      m.checkpointStep = some selected.step ∧ m.files ≠ [] ∧
        ∀ item ∈ m.files, (∃ rank, (item.path, rank) ∈ selected.files) ∧
          ∃ file, directory.get? item.path = some file ∧ r.size file.content = item.sizeBytes := by
  unfold reused at keeps
  split at keeps
  · cases keeps
  · rename_i file found
    split at keeps
    · cases keeps
    · rename_i existing parsed
      split_ifs at keeps with same
      cases keeps
      obtain ⟨step, -, sizes, -⟩ := same
      refine ⟨⟨file, found, parsed⟩, step, fun empty => ?_, fun item member => ?_⟩
      · -- of the files that are selected one is listed
        obtain ⟨item, listed⟩ := List.exists_mem_of_ne_nil _ selectable.nonempty
        have entry : (item.1, currentSize r directory item.1) ∈
            selected.files.map fun item => (item.1, currentSize r directory item.1) :=
          List.mem_map_of_mem listed
        have absent := sizes item.1 (List.mem_append_right _ (List.mem_map_of_mem entry))
        have present := Dict.get?_ofList_isSome entry
        rw [← absent, empty] at present
        cases present
      · have entry : (item.path, item.sizeBytes) ∈
            m.files.map fun item => (item.path, item.sizeBytes) := List.mem_map_of_mem member
        have agree := sizes item.path (List.mem_append_left _ (List.mem_map_of_mem entry))
        obtain ⟨size, listed⟩ := Option.isSome_iff_exists.mp (Dict.get?_ofList_isSome entry)
        -- the dictionary has the size of one of the entries of this path, and they are all equal
        obtain ⟨item', member', here⟩ := List.mem_map.mp (Dict.mem_of_get?_ofList listed)
        simp only [Prod.mk.injEq] at here
        have same := written file m found parsed item' member' item member here.1
        rw [agree] at listed
        obtain ⟨chosen, member'', there⟩ := List.mem_map.mp (Dict.mem_of_get?_ofList listed)
        simp only [Prod.mk.injEq] at there
        obtain ⟨name, current⟩ := there
        obtain ⟨stored, present⟩ := selectable.present chosen member''
        refine ⟨⟨chosen.2, by rw [← name]; exact member''⟩, stored, by rw [← name]; exact present, ?_⟩
        rw [← same, here.2, ← current, currentSize, present]
        rfl

/-- A digest that is right and not refused before is accepted. -/
theorem verdict_current {cache : DigestCache Digest} {path : String} {file : StoredFile Content}
    (believed : cache (cacheKey r.toReading path file (r.sha256 file.content)) ≠ some false) :
    verdict r.toReading cache path file (r.sha256 file.content) = true := by
  unfold verdict
  cases known : cache (cacheKey r.toReading path file (r.sha256 file.content)) with
  | none => simp
  | some answer =>
      cases answer with
      | false => exact absurd known believed
      | true => rfl

/-- The manifest that discovery leaves is one that validation accepts, of the selected step. -/
theorem discover_passes {s : Site Content Digest} (written : Written r manifestPath s.directory)
    (ok : select p r spec manifestPath now s.directory = .ok (some selected))
    (current : Current p r spec manifestPath now s selected) :
    ∃ file m, (discover p r spec manifestPath now s.directory).2.get? manifestPath = some file ∧
      r.manifest file.content = .ok m ∧ m.checkpointStep = some selected.step ∧ m.files ≠ [] ∧
        ∀ item ∈ m.files,
          Passes r.toReading (discover p r spec manifestPath now s.directory).2 s.cache item := by
  have selectable := select_selectable ok
  unfold discover
  rw [ok]
  dsimp only
  cases keeps : reused r spec manifestPath s.directory selected with
  | some m =>
      obtain ⟨⟨file, found, parsed⟩, step, nonempty, files⟩ :=
        reused_manifest written selectable keeps
      refine ⟨file, m, found, parsed, step, nonempty, fun item member => ?_⟩
      obtain ⟨⟨rank, chosen⟩, stored, present, size⟩ := files item member
      refine ⟨(current.paths _ chosen).1, stored, present, size, fun expected listed => ?_⟩
      have digest := current.kept m keeps item member stored present expected listed
      rw [← digest]
      exact verdict_current (current.believed _ chosen stored present)
  | none =>
      refine ⟨_, _, by rw [Dict.get?_set, if_pos rfl], r.manifest_render _, rfl, ?_,
        fun item member => ?_⟩
      · exact List.map_eq_nil_iff.not.mpr selectable.nonempty
      · obtain ⟨chosen, listed, rfl⟩ := List.mem_map.mp member
        obtain ⟨safe, apart⟩ := current.paths chosen listed
        obtain ⟨stored, present⟩ := selectable.present chosen listed
        refine ⟨safe, stored, ?_, ?_, fun expected digest => ?_⟩
        · rw [Dict.get?_set, if_neg apart, present]
        · simp [currentSize, present]
        · have right : r.sha256 stored.content = expected := by
            dsimp only at digest
            split_ifs at digest
            simpa [currentDigest, present] using digest
          rw [← right]
          exact verdict_current (current.believed chosen listed stored present)

theorem validate_agrees {s : Site Content Digest} (written : Written r manifestPath s.directory)
    (ok : select p r spec manifestPath now s.directory = .ok (some selected))
    (current : Current p r spec manifestPath now s selected) :
    Agrees (selected, (validate p r spec manifestPath root now s.directory s.cache).1) := by
  obtain ⟨file, m, found, parsed, step, nonempty, passes⟩ := discover_passes written ok current
  obtain ⟨summary, accepted, reported⟩ : ∃ summary,
      (validateManifest r.toReading root manifestPath
        (discover p r spec manifestPath now s.directory).2 s.cache).1 = .ok summary ∧
          summary.checkpointStep = some selected.step :=
    ⟨_, validateManifest_ok_iff.mpr ⟨file, m, found, parsed, nonempty, passes, rfl⟩, step⟩
  have returned : ∃ path, (discover p r spec manifestPath now s.directory).1 = .ok path := by
    unfold discover
    rw [ok]
    dsimp only
    split
    · exact ⟨_, rfl⟩
    · exact ⟨_, rfl⟩
  obtain ⟨path, returned⟩ := returned
  refine ⟨summary, ?_, reported⟩
  unfold validate
  dsimp only
  split
  · rename_i e directory' result
    rw [result] at returned
    cases returned
  · rename_i path' directory' result
    rw [result] at accepted
    exact accepted

/-! ## Whole runs -/

theorem Written.step {s : Site Content Digest} (written : Written r manifestPath s.directory)
    {op : Operation Content} (possible : op.Possible manifestPath) :
    Written r manifestPath (s.step p r spec manifestPath root op).directory := by
  cases op with
  | write path file =>
      intro file' m found parsed
      have other : manifestPath ≠ path := fun same => possible same.symm
      rw [Site.step, Dict.get?_set, if_neg other] at found
      exact written file' m found parsed
  | remove path =>
      intro file' m found parsed
      have other : manifestPath ≠ path := fun same => possible same.symm
      rw [Site.step, Dict.get?_erase, if_neg other] at found
      exact written file' m found parsed
  | discover now => exact written.discover
  | validate now =>
      have discovered : Written r manifestPath (Dendro.discover p r spec manifestPath now s.directory).2 :=
        written.discover
      show Written r manifestPath (validate p r spec manifestPath root now s.directory s.cache).2.1
      unfold validate
      split
      · rename_i e directory' result
        rw [result] at discovered
        exact discovered
      · rename_i path' directory' result
        rw [result] at discovered
        exact discovered

/-- Every validation of a run agrees with the discovery before it. -/
theorem discovery_agrees {start : Directory Content} (fresh : start.get? manifestPath = none)
    {s : Site Content Digest}
    (run : Runs p r spec manifestPath root (Careful p r spec manifestPath) start s) :
    ∀ v ∈ s.validations, Agrees v := by
  have kept : Written r manifestPath s.directory ∧ ∀ v ∈ s.validations, Agrees v := by
    induction run with
    | start =>
        constructor
        · intro file m found
          rw [fresh] at found
          cases found
        · intro v impossible
          cases impossible
    | step op before possible careful ih =>
        obtain ⟨written, agrees⟩ := ih
        refine ⟨written.step possible, ?_⟩
        cases op with
        | write path file => exact agrees
        | remove path => exact agrees
        | discover now => exact agrees
        | validate now =>
            rename_i s
            show ∀ v ∈ (match select p r spec manifestPath now s.directory with
              | .ok (some selected) =>
                  (selected, (validate p r spec manifestPath root now s.directory s.cache).1) ::
                    s.validations
              | _ => s.validations), Agrees v
            split
            · rename_i selected ok
              exact List.forall_mem_cons.mpr
                ⟨validate_agrees written ok (careful selected ok), agrees⟩
            · exact agrees
  exact kept.2

/-! ## A file rewritten in its size -/

inductive SampleContent where
  | text (text : String)
  | manifest (m : CheckpointManifest String)

def sampleReading : DendroReading SampleContent String where
  size := fun content => match content with
    | .text text => text.length
    | .manifest _ => 100
  sha256 := fun content => match content with
    | .text text => text
    | .manifest _ => "manifest"
  manifest := fun content => match content with
    | .text _ => .error "Expecting value"
    | .manifest m => .ok m
  render := .manifest
  manifest_render := fun _ => rfl
  stepIn := fun _ _ => .ok none

def samplePatterns : Patterns where
  glob := fun _ path => path.length = 4
  search := fun _ _ _ => .ok (some 5)

def sampleSpec : DendroCheckpointDiscoverySpec where
  fileGlobs := ["*.cp"]
  stepRegex := some "(?P<step>[0-9]+)"

/-- The run of the operations on an empty directory. -/
def sampleSite (ops : List (Operation SampleContent)) : Site SampleContent String :=
  ops.foldl (Site.step samplePatterns sampleReading sampleSpec "manifest.json" "checkpoint")
    ⟨.empty, fun _ => none, []⟩

/-- The file is written, found, validated, rewritten with another step's bytes and validated. -/
def sampleRewritten : Site SampleContent String :=
  sampleSite [.write "5.cp" ⟨.text "abc", 0⟩, .discover 3000000000, .validate 3000000000,
    .write "5.cp" ⟨.text "abd", 4000000000⟩, .validate 9000000000]

theorem sample_current (selected : Selection)
    (ok : select samplePatterns sampleReading sampleSpec "manifest.json" 3000000000
      (sampleSite [.write "5.cp" ⟨.text "abc", 0⟩]).directory = .ok (some selected)) :
    Current samplePatterns sampleReading sampleSpec "manifest.json" 3000000000
      (sampleSite [.write "5.cp" ⟨.text "abc", 0⟩]) selected := by
  have chosen : select samplePatterns sampleReading sampleSpec "manifest.json" 3000000000
      (sampleSite [.write "5.cp" ⟨.text "abc", 0⟩]).directory =
        .ok (some ⟨5, none, [("5.cp", none)]⟩) := by
    decide +kernel
  rw [chosen] at ok
  cases ok
  constructor
  · decide +kernel
  · intro existing impossible
    cases impossible
  · intro item _ file _ refused
    cases refused

theorem discovery_agrees_sample :
    (sampleSite [.write "5.cp" ⟨.text "abc", 0⟩, .validate 3000000000]).validations.length = 1 ∧
      ∀ v ∈ (sampleSite [.write "5.cp" ⟨.text "abc", 0⟩, .validate 3000000000]).validations,
        Agrees v := by
  refine ⟨by decide +kernel, ?_⟩
  have written : Runs samplePatterns sampleReading sampleSpec "manifest.json" "checkpoint"
      (Careful samplePatterns sampleReading sampleSpec "manifest.json") .empty
        (sampleSite [.write "5.cp" ⟨.text "abc", 0⟩]) :=
    .step (.write "5.cp" ⟨SampleContent.text "abc", 0⟩) .start (show "5.cp" ≠ "manifest.json" by decide) trivial
  have validated := written.step (.validate 3000000000) trivial sample_current
  exact discovery_agrees rfl validated

/-- The second validation is refused by the digest that the manifest has from the first bytes. -/
theorem rewritten_refused :
    Runs samplePatterns sampleReading sampleSpec "manifest.json" "checkpoint" (fun _ _ => True) .empty
        sampleRewritten ∧ ¬ ∀ v ∈ sampleRewritten.validations, Agrees v := by
  constructor
  · apply Runs.foldl _ .start
    simp [Operation.Possible]
  · intro agrees
    have refused : sampleRewritten.validations.head?.map Prod.snd =
        some (.error (checkpointValidationError "Checkpoint digest mismatch for checkpoint/5.cp")) := by
      decide +kernel
    obtain ⟨v, latest, result⟩ := Option.map_eq_some_iff.mp refused
    obtain ⟨summary, accepted, -⟩ := agrees v (List.mem_of_mem_head? latest)
    rw [result] at accepted
    cases accepted

end Magellan.Dendro
