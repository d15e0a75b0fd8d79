import Magellan.Data.Fallible
import Magellan.Runtime.Outputs

/-!
# What is listed is what is served

The manifest has the files of the output directory, and a request gets nothing but a file of the
manifest: links out of the directory are listed with what they lead to and are not served.
-/

namespace Magellan.Completion

open Confinement (StateRoot)

variable {Content : Type} {r : Reading Content} {v : Volume Content} {paths : OutputPaths}
  {directory place root : AbsolutePath} {path : List (List Char)} {content : Content}

/-! ## Paths as texts -/

theorem pathParts_posix (parts : ∀ part ∈ path, IsPart part) (nonempty : path ≠ []) :
    pathParts (posix path) = path := by
  simp only [pathParts, posix, String.toList_ofList]
  exact List.splitOn_intercalate '/' (fun part member => (parts part member).slash) nonempty

theorem components_posix (parts : ∀ part ∈ path, IsPart part) (nonempty : path ≠ []) :
    components (posix path) = path := by
  rw [components, pathParts_posix parts nonempty, List.filter_eq_self]
  intro part member
  simp [(parts part member).nonempty, (parts part member).other]

theorem safePath_posix (parts : ∀ part ∈ path, IsPart part ∧ part ≠ up) (nonempty : path ≠ []) :
    SafePath (posix path) := by
  have isPart : ∀ part ∈ path, IsPart part := fun part member => (parts part member).1
  constructor
  · intro absolute
    cases path with
    | nil => contradiction
    | cons first rest =>
        obtain ⟨c, more, rfl⟩ := List.exists_cons_of_ne_nil (isPart first (by simp)).nonempty
        have slash : c ≠ '/' := by
          rintro rfl
          exact (isPart ('/' :: more) (by simp)).slash (by simp)
        apply slash
        cases rest <;> simpa [posix, List.intercalate] using absolute
  · rw [pathParts_posix isPart nonempty]
    exact fun member => (parts up member).2 rfl

/-! ## The listing -/

theorem mem_listing : path ∈ listing v directory ↔
    ∃ place, v.stat directory = some place ∧ path ≠ [] ∧ v.node (place ++ path) ≠ none := by
  unfold listing
  cases found : v.stat directory with
  | none => simp
  | some place =>
      simp only [List.mem_insertionSort, List.mem_map, List.mem_filter, decide_eq_true_eq, Option.some.injEq,
        exists_eq_left']
      constructor
      · rintro ⟨l, ⟨-, there, ⟨rest, rfl⟩, other⟩, rfl⟩
        rw [List.drop_left]
        refine ⟨?_, Option.isSome_iff_ne_none.mp there⟩
        rintro rfl
        exact other (List.append_nil place)
      · rintro ⟨nonempty, there⟩
        refine ⟨place ++ path, ⟨v.listed _ there, Option.isSome_iff_ne_none.mpr there, List.prefix_append _ _, ?_⟩,
          List.drop_left⟩
        simpa using nonempty

theorem listing_ascending : (listing v directory).Pairwise (· < ·) := by
  unfold listing
  cases v.stat directory with
  | none => exact .nil
  | some place =>
      have distinct : ((v.locations.filter fun l => (v.node l).isSome ∧ place <+: l ∧ l ≠ place).map
          (·.drop place.length)).Nodup := by
        apply List.Nodup.map_on ?_ (v.nodup.filter _)
        intro l member l' member' same
        obtain ⟨-, -, ⟨rest, rfl⟩, -⟩ := by simpa using member
        obtain ⟨-, -, ⟨rest', rfl⟩, -⟩ := by simpa using member'
        simpa using same
      have sorted := (List.pairwise_insertionSort (· ≤ ·) _).and
        (distinct.perm (List.perm_insertionSort (· ≤ ·) _).symm)
      exact sorted.imp fun both => lt_of_le_of_ne both.1 both.2

/-! ## Reading -/

theorem node_of_read (straight : v.Straight place) (found : v.read place = some content) :
    v.node place = some (.file content) := by
  unfold Volume.read at found
  cases reached : v.stat place with
  | none => simp [reached] at found
  | some there =>
      cases Volume.stat_straight straight reached
      rw [reached, Option.bind_some] at found
      split at found
      · cases found
        assumption
      · cases found

/-- A file below the directory is read through the directory. -/
theorem read_below (found : v.stat directory = some root) (isDirectory : v.node root = some .directory)
    (file : v.node (root ++ path) = some (.file content)) :
    v.stat (directory ++ path) = some (root ++ path) ∧ v.read (directory ++ path) = some content := by
  have reached : v.stat (directory ++ path) = some (root ++ path) :=
    Volume.walk_append found isDirectory (by simp [file]) (by simp [file])
  simp [Volume.read, reached, file]

theorem read_of_node (file : v.node place = some (.file content)) : v.read place = some content := by
  have reached : v.stat place = some place := Volume.stat_of_node (by simp [file]) (by simp [file])
  simp [Volume.read, reached, file]

theorem node_of_isDir (isDir : v.isDir directory = true) :
    ∃ root, v.stat directory = some root ∧ v.node root = some .directory := by
  unfold Volume.isDir at isDir
  cases reached : v.stat directory with
  | none => simp [reached] at isDir
  | some root =>
      rw [reached, Option.bind_some] at isDir
      split at isDir
      · exact ⟨root, rfl, by assumption⟩
      · cases isDir

theorem place_of_read (found : v.read directory = some content) :
    ∃ place, v.stat directory = some place ∧ v.node place = some (.file content) := by
  unfold Volume.read at found
  cases reached : v.stat directory with
  | none => simp [reached] at found
  | some place =>
      rw [reached, Option.bind_some] at found
      split at found
      · cases found
        exact ⟨place, rfl, by assumption⟩
      · cases found

/-! ## Requests -/

variable {text : String} {candidate : AbsolutePath}

/-- What a request gets is a file of its own, below the place of the directory. -/
theorem resolveOutputFile_ok (output : paths.outputDirectory = some directory)
    (reached : v.stat directory = some root)
    (resolved : resolveOutputFile v paths text = .ok candidate) :
    ∃ below content, candidate = root ++ below ∧ v.node candidate = some (.file content) ∧
      v.read candidate = some content := by
  simp only [resolveOutputFile, output, Volume.realPath_of_stat reached] at resolved
  split_ifs at resolved with safe
  cases real : v.realPath (directory ++ components text) with
  | error path => simp [real] at resolved
  | ok place =>
      simp only [real] at resolved
      split_ifs at resolved with outside missing
      cases resolved
      obtain ⟨below, rfl⟩ := outside
      obtain ⟨content, found⟩ : ∃ content, v.read (root ++ below) = some content := by
        simpa [Option.eq_none_iff_forall_not_mem] using missing
      exact ⟨below, content, rfl, node_of_read (Volume.realPath_straight real) found, found⟩

/-- A path that the kernel follows to a file is served where the file lies below the directory. -/
theorem resolveOutputFile_eq (output : paths.outputDirectory = some directory)
    (reached : v.stat directory = some root) (safe : SafePath text)
    (found : v.stat (directory ++ components text) = some place)
    (file : v.node place = some (.file content)) :
    resolveOutputFile v paths text =
      if root <+: place then .ok place
      else .error (.completionValidationError "Output path escapes the task output directory") := by
  simp only [resolveOutputFile, output, Volume.realPath_of_stat reached, Volume.realPath_of_stat found,
    read_of_node file, not_not.mpr safe]
  by_cases inside : root <+: place <;> simp [inside]

theorem taskOutputFile_eq {localNodeId : NodeId} {state : TaskRuntimeState}
    (owned : state.ownerNodeId = localNodeId) (output : paths.outputDirectory = some directory)
    (reached : v.stat directory = some root) (safe : SafePath text)
    (found : v.stat (directory ++ components text) = some place)
    (file : v.node place = some (.file content)) :
    taskOutputFile v paths localNodeId (.ok state) text =
      if root <+: place then .ok content
      else .error (400, "Output path escapes the task output directory") := by
  simp only [taskOutputFile, owned, resolveOutputFile_eq output reached safe found file]
  by_cases inside : root <+: place <;> simp [inside, read_of_node file, OutputError.answer]

theorem taskOutputFile_ok {localNodeId : NodeId} {state : TaskRuntimeState}
    (output : paths.outputDirectory = some directory) (reached : v.stat directory = some root)
    (served : taskOutputFile v paths localNodeId (.ok state) text = .ok content) :
    ∃ below, v.node (root ++ below) = some (.file content) := by
  unfold taskOutputFile at served
  dsimp only at served
  split_ifs at served
  cases resolved : resolveOutputFile v paths text with
  | error e => simp [resolved] at served
  | ok candidate =>
      obtain ⟨below, found, rfl, file, read⟩ := resolveOutputFile_ok output reached resolved
      simp only [resolved, read] at served
      cases served
      exact ⟨below, file⟩

/-! ## The manifest -/

theorem outputFiles_ok {files : List FinalOutputFile} (output : paths.outputDirectory = some directory)
    (listed : outputFiles r v paths = .ok files) :
    v.isDir directory = true ∧ files = (listing v directory).filterMap (outputFile r v directory) := by
  simp only [outputFiles, output] at listed
  split_ifs at listed with isDir
  cases listed
  exact ⟨isDir, rfl⟩

theorem finalize_ok {localNodeId : NodeId} {exitCode : Option Int} {now : Timestamp}
    {state completed : TaskRuntimeState} {manifest : FinalOutputManifest}
    (finalized : finalize r v paths localNodeId exitCode now state = .ok (manifest, completed)) :
    outputFiles r v paths = .ok manifest.files ∧
      manifest.totalSizeBytes = (manifest.files.map (·.sizeBytes)).sum ∧
      completed.status = .completed ∧ completed.finalOutputBytes = manifest.totalSizeBytes := by
  unfold finalize at finalized
  obtain ⟨marker, -, finalized⟩ := Except.bind_eq_ok.mp finalized
  obtain ⟨files, listed, finalized⟩ := Except.bind_eq_ok.mp finalized
  obtain ⟨record, marked, finalized⟩ := Except.bind_eq_ok.mp finalized
  cases finalized
  unfold Registry.markCompleted at marked
  split_ifs at marked
  · cases marked
  · cases marked
    exact ⟨listed, rfl, rfl, rfl⟩

/-- An entry of the manifest has a name of its own and the size and digest of a file. -/
theorem mem_files {files : List FinalOutputFile} (item : FinalOutputFile)
    (reached : v.stat directory = some root)
    (same : files = (listing v directory).filterMap (outputFile r v directory)) :
    item ∈ files ↔ ∃ path content, path ≠ [] ∧ v.node (root ++ path) ≠ none ∧
      v.read (directory ++ path) = some content ∧
      item = ⟨posix path, r.size content, r.sha256.hexdigest content⟩ := by
  subst same
  simp only [List.mem_filterMap, mem_listing, reached, Option.some.injEq, exists_eq_left', outputFile,
    Option.map_eq_some_iff]
  constructor
  · rintro ⟨path, ⟨nonempty, there⟩, content, found, rfl⟩
    exact ⟨path, content, nonempty, there, found, rfl⟩
  · rintro ⟨path, content, nonempty, there, found, rfl⟩
    exact ⟨path, ⟨nonempty, there⟩, content, found, rfl⟩

theorem names_of_listed (there : v.node (root ++ path) ≠ none) : ∀ part ∈ path, IsPart part ∧ part ≠ up :=
  fun _ member => Volume.isName_of_mem there (List.mem_append_right _ member)

theorem files_ascending :
    (((listing v directory).filterMap (outputFile r v directory)).map fun item =>
      pathParts item.path).Pairwise (· < ·) := by
  rw [List.pairwise_map, List.pairwise_filterMap]
  apply listing_ascending.imp_of_mem
  have parts {path : List (List Char)} (member : path ∈ listing v directory) {item : FinalOutputFile}
      (entry : outputFile r v directory path = some item) : pathParts item.path = path := by
    obtain ⟨content, -, rfl⟩ := Option.map_eq_some_iff.mp entry
    obtain ⟨place, -, nonempty, there⟩ := mem_listing.mp member
    exact pathParts_posix (fun part inside => (names_of_listed there part inside).1) nonempty
  intro path path' member member' before item entry item' entry'
  rwa [parts member entry, parts member' entry']

/-- What has happened to the volume since the outputs were listed is not about the outputs. -/
structure Unchanged (v later : Volume Content) (directory : AbsolutePath) : Prop where
  reached : later.stat directory = v.stat directory
  below : ∀ root, v.stat directory = some root → ∀ path, later.node (root ++ path) = v.node (root ++ path)

def sampleReading : Reading (Fin 16) where
  size := fun content => content
  sha256 := {
    hexdigest := fun content => List.replicate 64 ("0123456789abcdef".toList.get content)
    hex := by
      intro content c member
      rw [List.eq_of_mem_replicate member]
      exact List.get_mem _ _
    length := fun _ => List.length_replicate }
  marker := fun content => if content = 9 then .ok ⟨"t", true, 100, .empty⟩ else .error "Invalid JSON"
  dump := fun _ => 0

/-- The first link leads to a file beside it, the second one out of the task. -/
def sampleEntries : List (AbsolutePath × Inode (Fin 16)) :=
  [("m", Inode.directory), ("m/tasks", .directory), ("m/tasks/t", .directory), ("m/tasks/t/done", .file 9),
    ("m/tasks/t/output", .directory), ("m/tasks/t/output/a", .file 1), ("m/tasks/t/output/deep", .directory),
    ("m/tasks/t/output/deep/b", .file 2), ("m/tasks/t/output/inside", .link "../output/./deep/b"),
    ("m/tasks/t/output/outside", .link "/secret"), ("secret", .file 5)].map fun entry =>
      (components entry.1, entry.2)

def sampleVolume : Volume (Fin 16) := .ofEntries sampleEntries (by decide +kernel) (by decide +kernel)

def samplePaths : OutputPaths where
  root := ⟨["m".toList], fun part member => List.mem_singleton.mp member ▸ (by decide : IsName "m")⟩
  taskId := "t"
  completionRelativePath := some "done"
  outputRelativeDirectory := some "output"

def sampleState : TaskRuntimeState := { taskId := "t", ownerNodeId := "n", status := .running }

end Magellan.Completion
