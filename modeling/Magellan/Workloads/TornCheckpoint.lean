import Magellan.Workloads.LlmTrain

/-!
# Torn checkpoints

The manifest of an earlier call stays in place while a later one replaces the files that it lists.
Validation compares sizes only, and the identifiers say nothing about the weights.
-/

namespace Magellan.LlmTrain

open Checkpoint

/-- Weights, optimizer state, random state and step count come from one call. -/
def Resumed.Whole (r : Resumed) : Prop :=
  ∃ optimizer checkpointId, r.optimizer = some optimizer ∧
    optimizer.data = .trainingState r.completedSteps checkpointId ∧
      r.weights.savedBy = optimizer.savedBy

/-- What is accepted and resumed from is whole. -/
def NotTorn (root : String) (cache : DigestCache Unit) (directory : Checkpoint.Directory Content) : Prop :=
  ∀ summary, (validateManifest reading root "complete.json" directory cache).1 = .ok summary →
    ∀ r, resume directory = .ok (some r) → r.Whole

/-! ## The latest calls -/

/-- The latest call that has come so far, with its number. -/
def lastSave (reached : SaveCall → Nat → Prop) [∀ c k, Decidable (reached c k)] :
    History → Option (SaveCall × Nat)
  | [] => none
  | (c, k) :: earlier => if reached c k then some (c, earlier.length) else lastSave reached earlier

instance (c : SaveCall) (k : Nat) : Decidable (c.ReplacedWeights k) := Nat.decLt _ _
instance (c : SaveCall) (k : Nat) : Decidable (c.SavedOptimizer k) := Nat.decLt _ _
instance (c : SaveCall) (k : Nat) : Decidable (c.SavedMeta k) := Nat.decLt _ _
instance (c : SaveCall) (k : Nat) : Decidable (c.Completed k) := Nat.decLt _ _

/-- The history up to the latest complete call. -/
def lastComplete : History → Option History
  | [] => none
  | (c, k) :: earlier => if c.Completed k then some ((c, k) :: earlier) else lastComplete earlier

def sizeAt (directory : Checkpoint.Directory Content) (path : String) : Option Nat :=
  (directory.get? path).map fun file => file.content.sizeBytes

/-- The sizes of all files that the manifest in place lists are what they were. -/
def SizesKept (h : History) : Prop :=
  ∃ upTo, lastComplete h = some upTo ∧ ∀ path sizeBytes, Listed path →
    sizeAt (left upTo) path = some sizeBytes → sizeAt (left h) path = some sizeBytes

/-- The latest call that has replaced the weights was killed before the optimizer's file, the file
that is there belongs to the same call as `meta.json`, and every file that the manifest in place
lists has the size that it has there. -/
structure Torn (h : History) : Prop where
  killed : lastSave SaveCall.ReplacedWeights h ≠ lastSave SaveCall.SavedOptimizer h
  marked : lastSave SaveCall.SavedMeta h = lastSave SaveCall.SavedOptimizer h
  sizes : SizesKept h
  config : ((left h).get? "config.json").isSome

section

variable {reached reached' : SaveCall → Nat → Prop} [∀ c k, Decidable (reached c k)]
  [∀ c k, Decidable (reached' c k)]

theorem lastSave_eq_some {h : History} {c : SaveCall} {n : Nat}
    (found : lastSave reached h = some (c, n)) :
    ∃ newer k earlier, h = newer ++ (c, k) :: earlier ∧ n = earlier.length := by
  induction h with
  | nil => cases found
  | cons step earlier ih =>
      obtain ⟨c', k⟩ := step
      unfold lastSave at found
      split_ifs at found with here
      · cases found
        exact ⟨[], k, earlier, rfl, rfl⟩
      · obtain ⟨newer, k', earlier', rfl, number⟩ := ih found
        exact ⟨(c', k) :: newer, k', earlier', rfl, number⟩

theorem lastSave_of_lastComplete (reached : SaveCall → Nat → Prop) [∀ c k, Decidable (reached c k)]
    (further : ∀ c k, SaveCall.Completed c k → reached c k)
    {h upTo : History} (found : lastComplete h = some upTo) : (lastSave reached h).isSome := by
  induction h with
  | nil => cases found
  | cons step earlier ih =>
      obtain ⟨c, k⟩ := step
      rw [lastSave]
      by_cases there : reached c k
      · rw [if_pos there]
        rfl
      · rw [lastComplete, if_neg fun here => there (further c k here)] at found
        rw [if_neg there]
        exact ih found

theorem lastSave_eq_of_checkpointId {h : History}
    (fresh : (h.map fun step => step.1.checkpointId).Nodup) {c c' : SaveCall} {n n' : Nat}
    (found : lastSave reached h = some (c, n)) (found' : lastSave reached' h = some (c', n'))
    (same : c.checkpointId = c'.checkpointId ∨ n = n') : (c, n) = (c', n') := by
  obtain ⟨newer, k, earlier, split, rfl⟩ := lastSave_eq_some found
  obtain ⟨newer', k', earlier', split', rfl⟩ := lastSave_eq_some found'
  have lengths := congrArg List.length (split.symm.trans split')
  simp only [List.length_append, List.length_cons] at lengths
  have position : newer.length = newer'.length := by
    rcases same with id | number
    · rw [List.nodup_iff_injective_getElem] at fresh
      have at_ : (h.map fun step => step.1.checkpointId)[newer.length]? = some c.checkpointId := by
        simp [split]
      have at_' : (h.map fun step => step.1.checkpointId)[newer'.length]? = some c'.checkpointId := by
        simp [split']
      rw [List.getElem?_eq_some_iff] at at_ at_'
      obtain ⟨bound, value⟩ := at_
      obtain ⟨bound', value'⟩ := at_'
      have equal := @fresh ⟨_, bound⟩ ⟨_, bound'⟩ (value.trans (id ▸ value'.symm))
      exact congrArg Fin.val equal
    · omega
  obtain ⟨-, rest⟩ := List.append_inj (split.symm.trans split') position
  cases rest
  rfl

end

/-! ## What the directory holds -/

theorem reserved_not_mem (c : SaveCall) (n : Nat) (name : String) (reserved : name ∈ reservedNames) :
    name ∉ (c.pretrained n c.before).map Prod.fst ∧ name ∉ (c.pretrained n c.after).map Prod.fst := by
  have other (files : List (String × Nat)) (own : ∀ file ∈ files, file.1 ∉ reservedNames) :
      name ∉ (c.pretrained n files).map Prod.fst := by
    unfold SaveCall.pretrained
    rw [List.map_map, List.mem_map]
    rintro ⟨file, member, rfl⟩
    exact own file member reserved
  constructor
  · exact other _ fun file member => c.own file (List.mem_append_left _ member)
  · exact other _ fun file member => c.own file (List.mem_append_right _ member)

@[simp] theorem length_pretrained (c : SaveCall) (n : Nat) (files : List (String × Nat)) :
    (c.pretrained n files).length = files.length :=
  List.length_map _

/-- A file that each call replaces once is the one of the latest call that has come to it. -/
theorem left_once {reached : SaveCall → Nat → Prop} [∀ c k, Decidable (reached c k)] {name : String}
    (value : SaveCall → Nat → StoredFile Content)
    (once : ∀ c n, ∃ before after, c.writes n = before ++ (name, fun _ => value c n) :: after ∧
      name ∉ before.map Prod.fst ∧ name ∉ after.map Prod.fst ∧
        ∀ k, before.length < k ↔ reached c k) (h : History) :
    (left h).get? name = (lastSave reached h).map fun s => value s.1 s.2 := by
  induction h with
  | nil => rfl
  | cons step earlier ih =>
      obtain ⟨c, k⟩ := step
      obtain ⟨before, after, split, notBefore, notAfter, position⟩ := once c earlier.length
      rw [left, lastSave, split, Write.run_take_once notBefore notAfter, ih]
      by_cases here : reached c k
      · rw [if_pos ((position k).mpr here), if_pos here]
        rfl
      · rw [if_neg fun there => here ((position k).mp there), if_neg here]

theorem left_weights (h : History) : (left h).get? "model.safetensors" =
    (lastSave SaveCall.ReplacedWeights h).map fun s => s.1.file s.2 s.1.weightsBytes .pretrained := by
  apply left_once fun c n => c.file n c.weightsBytes .pretrained
  intro c n
  obtain ⟨notBefore, notAfter⟩ := reserved_not_mem c n "model.safetensors" (by decide)
  refine ⟨c.pretrained n c.before, _, rfl, notBefore, ?_, fun k => ?_⟩
  · simpa [SaveCall.optimizerWrite, SaveCall.metaWrite, SaveCall.completeWrite] using notAfter
  · rw [length_pretrained]
    exact Iff.rfl

theorem left_optimizer (h : History) : (left h).get? "optimizer.pt" =
    (lastSave SaveCall.SavedOptimizer h).map fun s =>
      s.1.file s.2 s.1.optimizerBytes (.trainingState s.1.completedSteps s.1.checkpointId) := by
  apply left_once fun c n =>
    c.file n c.optimizerBytes (.trainingState c.completedSteps c.checkpointId)
  intro c n
  obtain ⟨notBefore, notAfter⟩ := reserved_not_mem c n "optimizer.pt" (by decide)
  refine ⟨c.pretrained n c.before ++ c.weightsWrite n :: c.pretrained n c.after,
    [c.metaWrite n, c.completeWrite n], ?_, ?_, ?_, fun k => ?_⟩
  · simp [SaveCall.writes, SaveCall.optimizerWrite]
  · simp only [List.map_append, List.map_cons, List.mem_append, List.mem_cons, not_or]
    exact ⟨notBefore, by simp [SaveCall.weightsWrite], notAfter⟩
  · simp [SaveCall.metaWrite, SaveCall.completeWrite]
  · simp [SaveCall.SavedOptimizer, Nat.add_assoc]

theorem left_meta (h : History) : (left h).get? "meta.json" =
    (lastSave SaveCall.SavedMeta h).map fun s =>
      s.1.file s.2 s.1.metaBytes (.metadata s.1.completedSteps s.1.checkpointId) := by
  apply left_once fun c n => c.file n c.metaBytes (.metadata c.completedSteps c.checkpointId)
  intro c n
  obtain ⟨notBefore, notAfter⟩ := reserved_not_mem c n "meta.json" (by decide)
  refine ⟨c.pretrained n c.before ++ c.weightsWrite n :: (c.pretrained n c.after ++
    [c.optimizerWrite n]), [c.completeWrite n], ?_, ?_, ?_, fun k => ?_⟩
  · simp [SaveCall.writes, SaveCall.metaWrite]
  · simp only [List.map_append, List.map_cons, List.mem_append, List.mem_cons, not_or]
    exact ⟨notBefore, by simp [SaveCall.weightsWrite], notAfter, by simp [SaveCall.optimizerWrite]⟩
  · simp [SaveCall.completeWrite]
  · simp [SaveCall.SavedMeta, Nat.add_assoc]

theorem left_pytorch_model (h : History) : (left h).get? "pytorch_model.bin" = none := by
  induction h with
  | nil => rfl
  | cons step earlier ih =>
      obtain ⟨c, k⟩ := step
      rw [left, Write.run_take_other, ih]
      obtain ⟨notBefore, notAfter⟩ :=
        reserved_not_mem c earlier.length "pytorch_model.bin" (by decide)
      simp only [SaveCall.writes, List.map_append, List.map_cons, List.mem_append, List.mem_cons,
        not_or]
      refine ⟨notBefore, by simp [SaveCall.weightsWrite], notAfter, ?_⟩
      simp [SaveCall.optimizerWrite, SaveCall.metaWrite, SaveCall.completeWrite]

theorem left_safe (h : History) : ∀ path ∈ (left h).keys, SafePath path := by
  induction h with
  | nil =>
      intro path impossible
      cases impossible
  | cons step earlier ih =>
      obtain ⟨c, k⟩ := step
      apply Write.run_keys _ ih
      intro w taken
      have pretrained (files : List (String × Nat)) (safe : ∀ file ∈ files, SafePath file.1)
          (member : w ∈ c.pretrained earlier.length files) : SafePath w.1 := by
        obtain ⟨file, listed, rfl⟩ := List.mem_map.mp member
        exact safe file listed
      have member := List.mem_of_mem_take taken
      simp only [SaveCall.writes, List.mem_append, List.mem_cons, List.not_mem_nil, or_false] at member
      rcases member with before | rfl | after | rfl | rfl | rfl
      · exact pretrained _ (fun file listed => c.safe file (List.mem_append_left _ listed)) before
      · show SafePath "model.safetensors"
        decide +kernel
      · exact pretrained _ (fun file listed => c.safe file (List.mem_append_right _ listed)) after
      · show SafePath "optimizer.pt"
        decide +kernel
      · show SafePath "meta.json"
        decide +kernel
      · show SafePath "complete.json"
        decide +kernel

theorem mem_manifestFiles {directory : Checkpoint.Directory Content} {item : ManifestItem Unit} :
    item ∈ manifestFiles directory ↔ Listed item.path ∧
      sizeAt directory item.path = some item.sizeBytes ∧ item.rank = none ∧ item.sha256 = none := by
  unfold manifestFiles sizeAt
  simp only [List.mem_map, mem_sortedFiles, List.mem_filter, decide_eq_true_iff,
    Option.map_eq_some_iff]
  constructor
  · rintro ⟨⟨path, file⟩, ⟨member, listed⟩, rfl⟩
    exact ⟨listed, ⟨file, Dict.mem_entries_iff.mp member, rfl⟩, rfl, rfl⟩
  · rintro ⟨listed, ⟨file, found, size⟩, rank, digest⟩
    refine ⟨(item.path, file), ⟨Dict.mem_entries_iff.mpr found, listed⟩, ?_⟩
    obtain ⟨path, sizeBytes, rank', digest'⟩ := item
    cases rank
    cases digest
    cases size
    rfl

/-- What a call replaces before its manifest. -/
def SaveCall.filesBefore (c : SaveCall) (n : Nat) : List (Write String (StoredFile Content)) :=
  c.pretrained n c.before ++ c.weightsWrite n :: (c.pretrained n c.after ++
    [c.optimizerWrite n, c.metaWrite n])

theorem writes_eq (c : SaveCall) (n : Nat) : c.writes n = c.filesBefore n ++ [c.completeWrite n] := by
  simp [SaveCall.writes, SaveCall.filesBefore]

theorem completed_iff (c : SaveCall) (n k : Nat) :
    (c.filesBefore n).length < k ↔ c.Completed k := by
  simp [SaveCall.filesBefore, SaveCall.Completed, Nat.add_assoc]

theorem complete_not_mem (c : SaveCall) (n : Nat) :
    "complete.json" ∉ (c.filesBefore n).map Prod.fst := by
  obtain ⟨notBefore, notAfter⟩ := reserved_not_mem c n "complete.json" (by decide)
  simp only [SaveCall.filesBefore, List.map_append, List.map_cons, List.mem_append, List.mem_cons,
    not_or]
  refine ⟨notBefore, by simp [SaveCall.weightsWrite], notAfter, ?_⟩
  simp [SaveCall.optimizerWrite, SaveCall.metaWrite]

theorem left_manifest (c : SaveCall) (k : Nat) (earlier : History) :
    (left ((c, k) :: earlier)).get? "complete.json" =
      if c.Completed k then
        some ((c.completeWrite earlier.length).2 (Write.run (c.filesBefore earlier.length) (left earlier)))
      else (left earlier).get? "complete.json" := by
  rw [left, writes_eq]
  refine (Write.run_take_once (complete_not_mem c earlier.length) ?_ k (left earlier)).trans ?_
  · simp
  by_cases complete : c.Completed k
  · rw [if_pos ((completed_iff c _ k).mpr complete), if_pos complete]
    rfl
  · rw [if_neg fun reached => complete ((completed_iff c _ k).mp reached), if_neg complete]

theorem sizeAt_complete {c : SaveCall} {k : Nat} (complete : c.Completed k) (earlier : History)
    {path : String} (listed : Listed path) :
    sizeAt (left ((c, k) :: earlier)) path =
      sizeAt (Write.run (c.filesBefore earlier.length) (left earlier)) path := by
  have all : (c.writes earlier.length).take k = c.filesBefore earlier.length ++
      [c.completeWrite earlier.length] := by
    have reached := (completed_iff c earlier.length k).mpr complete
    rw [← writes_eq, List.take_of_length_le]
    rw [writes_eq, List.length_append, List.length_singleton]
    omega
  have other : path ≠ "complete.json" := by
    rintro rfl
    exact listed.1 (by decide +kernel)
  unfold sizeAt
  rw [left, all, Write.run_append]
  congr 1
  apply Write.run_other
  simpa [SaveCall.completeWrite] using other

/-- The manifest in place lists the files of the latest complete call with the sizes that they had
then. -/
theorem left_complete {h upTo : History} (complete : lastComplete h = some upTo) :
    ∃ file completedSteps checkpointId files, (left h).get? "complete.json" = some file ∧
      file.content.data = .complete completedSteps checkpointId files ∧
        ∀ item, item ∈ files ↔ Listed item.path ∧
          sizeAt (left upTo) item.path = some item.sizeBytes ∧ item.rank = none ∧
            item.sha256 = none := by
  induction h with
  | nil => cases complete
  | cons step earlier ih =>
      obtain ⟨c, k⟩ := step
      rw [lastComplete] at complete
      rw [left_manifest]
      by_cases here : c.Completed k
      · rw [if_pos here] at complete ⊢
        cases complete
        refine ⟨_, _, _, _, rfl, rfl, fun item => ?_⟩
        rw [mem_manifestFiles]
        apply and_congr_right
        intro listed
        rw [sizeAt_complete here earlier listed]
      · rw [if_neg here] at complete ⊢
        exact ih complete

theorem left_incomplete {h : History} (incomplete : lastComplete h = none) :
    (left h).get? "complete.json" = none := by
  induction h with
  | nil => rfl
  | cons step earlier ih =>
      obtain ⟨c, k⟩ := step
      rw [lastComplete] at incomplete
      rw [left_manifest]
      by_cases here : c.Completed k
      · rw [if_pos here] at incomplete
        cases incomplete
      · rw [if_neg here] at incomplete ⊢
        exact ih incomplete

/-! ## Validation and resumption -/

theorem lastComplete_self {h upTo : History} (complete : lastComplete h = some upTo) :
    lastComplete upTo = some upTo := by
  induction h with
  | nil => cases complete
  | cons step earlier ih =>
      obtain ⟨c, k⟩ := step
      rw [lastComplete] at complete
      split_ifs at complete with here
      · cases complete
        rw [lastComplete, if_pos here]
      · exact ih complete

theorem sizesKept_of_accepted {h : History} {root : String} {cache : DigestCache Unit}
    {summary : CheckpointSummary}
    (accepted : (validateManifest reading root "complete.json" (left h) cache).1 = .ok summary) :
    SizesKept h := by
  obtain ⟨file, manifest, found, parsed, -, passes, -⟩ := validateManifest_ok_iff.mp accepted
  cases complete : lastComplete h with
  | none =>
      rw [left_incomplete complete] at found
      cases found
  | some upTo =>
      obtain ⟨file', completedSteps, checkpointId, files, found', data, listed⟩ :=
        left_complete complete
      rw [found'] at found
      cases found
      simp only [reading, data] at parsed
      cases parsed
      refine ⟨upTo, complete, fun path sizeBytes here size => ?_⟩
      obtain ⟨-, file, found, same, -⟩ :=
        passes ⟨path, sizeBytes, none, none⟩ ((listed _).mpr ⟨here, size, rfl, rfl⟩)
      rw [sizeAt, found]
      exact congrArg some same

theorem accepted_of_sizesKept {h : History} (kept : SizesKept h) (root : String)
    (cache : DigestCache Unit) : ∃ summary,
      (validateManifest reading root "complete.json" (left h) cache).1 = .ok summary := by
  obtain ⟨upTo, complete, sizes⟩ := kept
  obtain ⟨file, completedSteps, checkpointId, files, found, data, listed⟩ := left_complete complete
  have nonempty : files ≠ [] := by
    obtain ⟨⟨c, n⟩, saved⟩ := Option.isSome_iff_exists.mp
      (lastSave_of_lastComplete SaveCall.SavedOptimizer (fun c k here => by
        unfold SaveCall.Completed at here
        unfold SaveCall.SavedOptimizer
        omega) (lastComplete_self complete))
    have size : sizeAt (left upTo) "optimizer.pt" = some c.optimizerBytes := by
      rw [sizeAt, left_optimizer, saved]
      rfl
    have name : Listed "optimizer.pt" := by decide +kernel
    have member := (listed ⟨"optimizer.pt", c.optimizerBytes, none, none⟩).mpr ⟨name, size, rfl, rfl⟩
    exact List.ne_nil_of_mem member
  refine ⟨_, validateManifest_ok_iff.mpr ⟨file, { files }, found, ?_, nonempty, fun item member => ?_,
    rfl⟩⟩
  · simp only [reading, data]
  · obtain ⟨here, size, rank, digest⟩ := (listed item).mp member
    have now := sizes item.path item.sizeBytes here size
    obtain ⟨file, found, same⟩ := Option.map_eq_some_iff.mp now
    refine ⟨left_safe h _ ?_, file, found, same, fun expected impossible => ?_⟩
    · by_contra absent
      rw [Dict.get?_eq_none_iff.mpr absent] at found
      cases found
    · rw [digest] at impossible
      cases impossible

/-- What the workload resumes from, by the latest calls. -/
theorem resume_left {h : History} {r : Resumed} {w o m : SaveCall × Nat}
    (weights : lastSave SaveCall.ReplacedWeights h = some w)
    (optimizer : lastSave SaveCall.SavedOptimizer h = some o)
    (marked : lastSave SaveCall.SavedMeta h = some m) :
    resume (left h) = .ok (some r) ↔ ((left h).get? "config.json").isSome ∧
      m.1.checkpointId = o.1.checkpointId ∧
        r = ⟨(w.1.file w.2 w.1.weightsBytes .pretrained).content,
          some (o.1.file o.2 o.1.optimizerBytes
            (.trainingState o.1.completedSteps o.1.checkpointId)).content, o.1.completedSteps⟩ := by
  unfold resume localModelExists weightsFile resumedCheckpointId
  rw [left_weights, left_optimizer, left_meta, left_pytorch_model, weights, optimizer, marked]
  simp only [Option.map_some, Option.isSome_some, Option.isSome_none, SaveCall.file]
  by_cases config : ((left h).get? "config.json").isSome = true
  · by_cases same : m.1.checkpointId = o.1.checkpointId
    · simp [config, same, eq_comm]
    · simp [config, same]
  · simp [config]

theorem saves_of_sizesKept {h : History} (kept : SizesKept h) :
    ∃ w o m, lastSave SaveCall.ReplacedWeights h = some w ∧
      lastSave SaveCall.SavedOptimizer h = some o ∧ lastSave SaveCall.SavedMeta h = some m := by
  obtain ⟨upTo, complete, -⟩ := kept
  have weights := lastSave_of_lastComplete SaveCall.ReplacedWeights (fun c k here => by
    unfold SaveCall.Completed at here
    unfold SaveCall.ReplacedWeights
    omega) complete
  have optimizer := lastSave_of_lastComplete SaveCall.SavedOptimizer (fun c k here => by
    unfold SaveCall.Completed at here
    unfold SaveCall.SavedOptimizer
    omega) complete
  have marked := lastSave_of_lastComplete SaveCall.SavedMeta (fun c k here => by
    unfold SaveCall.Completed at here
    unfold SaveCall.SavedMeta
    omega) complete
  obtain ⟨w, weights⟩ := Option.isSome_iff_exists.mp weights
  obtain ⟨o, optimizer⟩ := Option.isSome_iff_exists.mp optimizer
  obtain ⟨m, marked⟩ := Option.isSome_iff_exists.mp marked
  exact ⟨w, o, m, weights, optimizer, marked⟩

/-- What is accepted and resumed from is whole exactly where the calls have not torn it. -/
theorem checkpoint_not_torn_iff {h : History}
    (fresh : (h.map fun step => step.1.checkpointId).Nodup) (root : String)
    (cache : DigestCache Unit) : NotTorn root cache (left h) ↔ ¬ Torn h := by
  constructor
  · intro notTorn torn
    obtain ⟨summary, accepted⟩ := accepted_of_sizesKept torn.sizes root cache
    obtain ⟨⟨w, n⟩, o, m, weights, optimizer, marked⟩ := saves_of_sizesKept torn.sizes
    have same : m = o := by
      have marked' := torn.marked
      rw [marked, optimizer] at marked'
      exact Option.some.inj marked'
    have resumed := (resume_left weights optimizer marked).mpr ⟨torn.config, by rw [same], rfl⟩
    obtain ⟨_, _, ⟨⟩, -, number⟩ := notTorn summary accepted _ resumed
    apply torn.killed
    rw [weights, optimizer]
    exact congrArg some (lastSave_eq_of_checkpointId fresh weights optimizer (.inr number))
  · intro whole summary accepted r resumed
    have kept := sizesKept_of_accepted accepted
    obtain ⟨w, ⟨o, n⟩, ⟨m, n'⟩, weights, optimizer, marked⟩ := saves_of_sizesKept kept
    obtain ⟨config, ids, rfl⟩ := (resume_left weights optimizer marked).mp resumed
    have same := lastSave_eq_of_checkpointId fresh marked optimizer (.inl ids)
    have untouched : w = (o, n) := by
      by_contra other
      apply whole
      refine ⟨fun killed => other ?_, by rw [marked, optimizer, same], kept, config⟩
      rw [weights, optimizer] at killed
      exact Option.some.inj killed
    exact ⟨_, o.checkpointId, rfl, rfl, by rw [untouched]; rfl⟩

/-! ## A kill between the weights and the optimizer's file -/

def sampleSave (checkpointId : String) (completedSteps : Nat) : SaveCall where
  checkpointId := checkpointId
  completedSteps := completedSteps
  before := [("config.json", 100)]
  weightsBytes := 4000
  after := [("tokenizer.json", 50)]
  optimizerBytes := 8000
  metaBytes := 200
  completeBytes := 300
  savedAtNs := 0
  safe := by decide +kernel
  own := by decide +kernel

/-- The second call was killed before the weights. -/
theorem checkpoint_not_torn_sample : NotTorn "checkpoint" (fun _ => none)
    (left [(sampleSave "b" 10, 1), (sampleSave "a" 5, 6)]) := by
  rw [checkpoint_not_torn_iff (by decide)]
  exact fun torn => torn.killed rfl

/-- The second call is killed after it has replaced the weights: the optimizer's file of the first
call is taken with them. -/
theorem torn_checkpoint_accepted : ¬ NotTorn "checkpoint" (fun _ => none)
    (left [(sampleSave "b" 10, 2), (sampleSave "a" 5, 6)]) := by
  intro notTorn
  have accepted : (validateManifest reading "checkpoint" "complete.json"
      (left [(sampleSave "b" 10, 2), (sampleSave "a" 5, 6)]) fun _ => none).1 =
        .ok ⟨12650, 5, some "checkpoint/complete.json", none⟩ := by
    decide +kernel
  obtain ⟨_, _, ⟨⟩, -, number⟩ := notTorn _ accepted _ rfl
  cases number

end Magellan.LlmTrain
