import Magellan.Runtime.Validation

/-!
# The launch plan of a Dendro task

`DendroCommandAdapter` reads the manifest and the checkpoint files again and decides for itself
whether there is a checkpoint to resume from.
-/

namespace Magellan.DendroCommandAdapter

open CheckpointManager
open Checkpoint (StoredFile CheckpointSummary DigestCache)
open Dendro (Patterns)
open PyJson (get)

/-- What the adapter uses of a task's process. -/
structure LocalProcessSpec where
  command : List String
  arguments : List String := []
  resumeArguments : List String := []
  settings : CheckpointSettings

structure RuntimeLaunchPlan where
  adapter : String := "dendro"
  command : List String
  resumedFromCheckpoint : Bool
  environment : List (String × String)

section

variable {Content : Type} (r : Encoding Content) (tooLong : String → Bool)
  (outside : String → Option (StoredFile Content)) (render : String → Except Raised String)

/-- `path.is_file()` of a path that may lead out of the directory. -/
def isFile (tree : CheckpointManager.Tree Content) (relative : String) :
    Except Raised (Option (StoredFile Content)) :=
  if SafePath relative then tree.isFile tooLong relative else .ok (outside relative)

def itemsReady (tree : CheckpointManager.Tree Content) : List PyJson → Except Raised Bool
  | [] => .ok true
  | .object entries :: items =>
      match (get entries "path").string?, (get entries "size_bytes").int? with
      | some relative, some expectedSize =>
          match isFile tooLong outside tree relative with
          | .error e => .error e
          | .ok none => .ok false
          | .ok (some file) =>
              if (r.size file.content : Int) ≠ expectedSize then .ok false else itemsReady tree items
      | _, _ => .ok false
  | _ :: _ => .ok false

/-- `_checkpoint_ready` with a manifest. -/
def manifestReady (manifest : ManifestPath) (tree : CheckpointManager.Tree Content) :
    Except Raised (Bool × Option PyJson) :=
  match tree.files.get? manifest.text with
  | none => .ok (false, none)
  | some file =>
      match r.loads file.content with
      | .error (.jsonDecodeError _) => .ok (false, none)
      | .error (.other cls message) => .error (.other cls message)
      | .ok (.object entries) =>
          let files := listedFiles (get entries "files")
          if files = [] then .ok (false, none)
          else
            match itemsReady r tooLong outside tree files with
            | .error e => .error e
            | .ok false => .ok (false, none)
            | .ok true =>
                let step := get entries "checkpoint_step"
                .ok (true, if step.int?.isSome then some step else none)
      | .ok j => .error (attributeError j)

def isFilled (file : StoredFile Content) : Bool := 0 < r.size file.content

def checkpointReady (settings : CheckpointSettings) :
    Option (CheckpointManager.Tree Content) → Except Raised (Bool × Option PyJson)
  | none => .ok (false, none)
  | some tree =>
      match settings.manifest with
      | some manifest => manifestReady r tooLong outside manifest tree
      | none =>
          .ok ((tree.files.get? settings.checkpointFile).any (isFilled r) ||
            tree.files.values.any (isFilled r), none)

def renderAll : List String → Except Raised (List String)
  | [] => .ok []
  | text :: texts =>
      match render text, renderAll texts with
      | .ok argument, .ok arguments => .ok (argument :: arguments)
      | .error e, _ | _, .error e => .error e

def stepText (checkpointStep : Option PyJson) : String := checkpointStep.elim "" r.str

def buildLaunchPlan (spec : LocalProcessSpec) (directory : String)
    (place : Option (CheckpointManager.Tree Content)) :
    Except Raised RuntimeLaunchPlan :=
  match checkpointReady r tooLong outside spec.settings place with
  | .error e => .error e
  | .ok (resumed, checkpointStep) =>
      let arguments := if resumed then spec.arguments ++ spec.resumeArguments else spec.arguments
      match renderAll render (spec.command ++ arguments) with
      | .error e => .error e
      | .ok command => .ok {
          command := command
          resumedFromCheckpoint := resumed
          environment := [
            ("MAGELLAN_DENDRO_RESUME", if resumed then "1" else "0"),
            ("MAGELLAN_DENDRO_CHECKPOINT_DIRECTORY", directory),
            ("MAGELLAN_DENDRO_CHECKPOINT_STEP", stepText r checkpointStep)] }

end

/-! ## What validation has accepted -/

variable {Content : Type} {p : Patterns} {r : Encoding Content} {tooLong : String → Bool}
  {outside : String → Option (StoredFile Content)} {render : String → Except Raised String}
  {root : String} {tree : CheckpointManager.Tree Content} {cache : DigestCache String}
  {manifest : ManifestPath}
  {now : Int} {summary : CheckpointSummary}

/-- Entries that pass the validation are ready for the adapter. -/
theorem itemsReady_of_passed {items : List PyJson}
    (passed : (validateItems r tooLong root tree items cache).1 = .ok ()) :
    itemsReady r tooLong outside tree items = .ok true := by
  induction items generalizing cache with
  | nil => rfl
  | cons item items ih =>
      have located : ∃ entries text file, Locates r tree item entries text file ∧
          itemsReady r tooLong outside tree items = .ok true := by
        rw [validateItems] at passed
        cases result : validateItem r tooLong root tree cache item with
        | mk outcome cache' =>
          have expected : ItemOutcome r tooLong tree cache item
              (validateItem r tooLong root tree cache item) := validateItem_outcome item
          rw [result] at passed expected
          cases expected with
          | refused error _ =>
              obtain ⟨message, rfl⟩ := error
              cases passed
          | failed cls message error _ =>
              cases error
              cases passed
          | unlisted entries text file located _ ok =>
              cases ok
              exact ⟨entries, text, file, located, ih passed⟩
          | verified entries text file located _ _ ok =>
              cases ok
              exact ⟨entries, text, file, located, ih passed⟩
      obtain ⟨entries, text, file, located, rest⟩ := located
      rw [located.object, itemsReady, located.path, located.size]
      simp only [isFile, if_pos located.safe, CheckpointManager.Tree.isFile, located.found, ne_eq, not_true_eq_false,
        if_false]
      exact rest

theorem validateManifest_accepted {entries : List (String × PyJson)}
    (accepted : (validateManifest r tooLong root manifest tree cache (.object entries)).1 =
      .ok summary) :
    listedFiles (get entries "files") ≠ [] ∧
      (validateItems r tooLong root tree (listedFiles (get entries "files")) cache).1 = .ok () ∧
        summary.checkpointStep = (get entries "checkpoint_step").int? := by
  unfold validateManifest at accepted
  dsimp only at accepted
  by_cases empty : listedFiles (get entries "files") = []
  · rw [if_pos empty] at accepted
    cases accepted
  rw [if_neg empty] at accepted
  refine ⟨empty, ?_⟩
  cases passed : validateItems r tooLong root tree (listedFiles (get entries "files")) cache with
  | mk outcome cache' =>
    rw [passed] at accepted
    cases outcome with
    | error e => cases accepted
    | ok _ =>
        cases fits : stepFits entries with
        | false =>
            rw [fits] at accepted
            cases accepted
        | true =>
            rw [fits] at accepted
            cases accepted
            exact ⟨rfl, rfl⟩

theorem manifestReady_of_accepted (outside : String → Option (StoredFile Content))
    (accepted : (readManifest r tooLong root manifest tree cache).1 = .ok summary) :
    ∃ step, manifestReady r tooLong outside manifest tree = .ok (true, step) ∧
      step.bind PyJson.int? = summary.checkpointStep := by
  unfold readManifest at accepted
  cases found : tree.files.get? manifest.text with
  | none =>
      rw [found] at accepted
      cases accepted
  | some file =>
      rw [found] at accepted
      dsimp only at accepted
      cases loaded : r.loads file.content with
      | error e =>
          rw [loaded] at accepted
          cases e <;> cases accepted
      | ok j =>
          rw [loaded] at accepted
          cases j with
          | object entries =>
              obtain ⟨listed, passed, step⟩ := validateManifest_accepted accepted
              refine ⟨if (get entries "checkpoint_step").int?.isSome then
                some (get entries "checkpoint_step") else none, ?_, ?_⟩
              · simp only [manifestReady, found, loaded, if_neg listed, itemsReady_of_passed passed]
              · rw [step]
                cases fits : (get entries "checkpoint_step").int? with
                | none => rfl
                | some z => simp [fits]
          | _ => cases accepted

theorem renderAll_ok_iff {texts : List String} :
    (∃ arguments, renderAll render texts = .ok arguments) ↔
      ∀ text ∈ texts, ∃ argument, render text = .ok argument := by
  induction texts with
  | nil => simp [renderAll]
  | cons text texts ih =>
      rw [List.forall_mem_cons, ← ih, renderAll]
      cases render text with
      | error e => simp
      | ok argument =>
          cases renderAll render texts with
          | error e => simp
          | ok arguments => simp

/-- The plan resumes from the checkpoint of the summary: it names a step of this value, if there is
one. -/
def Resumes (r : Encoding Content) (summary : CheckpointSummary)
    (built : Except Raised RuntimeLaunchPlan) : Prop :=
  ∃ plan step, built = .ok plan ∧ plan.resumedFromCheckpoint = true ∧
    plan.environment.lookup "MAGELLAN_DENDRO_CHECKPOINT_STEP" = some (stepText r step) ∧
      step.bind PyJson.int? = summary.checkpointStep

theorem buildLaunchPlan_resumes_iff {spec : LocalProcessSpec} {directory : String}
    {place : Option (CheckpointManager.Tree Content)} {ready : Bool} {step : Option PyJson}
    (read : checkpointReady r tooLong outside spec.settings place = .ok (ready, step))
    (same : step.bind PyJson.int? = summary.checkpointStep) :
    Resumes r summary (buildLaunchPlan r tooLong outside render spec directory place) ↔
      ready = true ∧ ∀ text ∈ spec.command ++ (spec.arguments ++ spec.resumeArguments),
        ∃ argument, render text = .ok argument := by
  unfold buildLaunchPlan
  rw [read]
  cases ready with
  | false =>
      refine iff_of_false ?_ (by simp)
      rintro ⟨plan, step', built, resumed, -⟩
      dsimp only at built
      split at built
      · cases built
      · cases built
        cases resumed
  | true =>
      rw [← renderAll_ok_iff]
      simp only [if_true, true_and]
      constructor
      · rintro ⟨plan, step', built, -⟩
        split at built
        · cases built
        · exact ⟨_, ‹_›⟩
      · rintro ⟨command, rendered⟩
        rw [rendered]
        exact ⟨_, step, rfl, rfl, rfl, same⟩

/-- A checkpoint that validation accepts is the one that the plan resumes from, unless there is no
manifest and nothing in the files, or an argument cannot be rendered. -/
theorem accepted_resumes_iff {spec : LocalProcessSpec} {directory : String}
    {place after : Option (CheckpointManager.Tree Content)} {cache' : DigestCache String}
    (accepted : validate p r tooLong root spec.settings now cache place =
      (.ok summary, after, cache')) :
    Resumes r summary (buildLaunchPlan r tooLong outside render spec directory after) ↔
      (spec.settings.manifest = none → ∃ tree, place = some tree ∧
        ∃ file ∈ tree.files.values, 0 < r.size file.content) ∧
      ∀ text ∈ spec.command ++ (spec.arguments ++ spec.resumeArguments),
        ∃ argument, render text = .ok argument := by
  cases place with
  | none => cases accepted
  | some tree =>
      cases configured : spec.settings.manifest with
      | none =>
          simp only [validate, configured, validateFile] at accepted
          cases stored : tree.files.get? spec.settings.checkpointFile with
          | none =>
              rw [stored] at accepted
              cases accepted
          | some file =>
              rw [stored] at accepted
              cases accepted
              have read : checkpointReady r tooLong outside spec.settings (some tree) =
                  .ok (isFilled r file || tree.files.values.any (isFilled r), none) := by
                simp only [checkpointReady, configured, stored, Option.any_some]
              rw [buildLaunchPlan_resumes_iff read rfl]
              have listed : file ∈ tree.files.values := Dict.mem_values_iff.mpr ⟨_, stored⟩
              have filled : (isFilled r file || tree.files.values.any (isFilled r)) = true ↔
                  ∃ file ∈ tree.files.values, 0 < r.size file.content := by
                rw [Bool.or_eq_true, List.any_eq_true]
                constructor
                · rintro (here | ⟨other, mem, here⟩)
                  · exact ⟨file, listed, of_decide_eq_true here⟩
                  · exact ⟨other, mem, of_decide_eq_true here⟩
                · rintro ⟨other, mem, here⟩
                  exact .inr ⟨other, mem, decide_eq_true here⟩
              rw [filled]
              simp only [Option.some.injEq, exists_eq_left', forall_const]
      | some manifest =>
          have read : ∃ tree', after = some tree' ∧
              (readManifest r tooLong root manifest tree' cache).1 = .ok summary := by
            simp only [validate, configured] at accepted
            cases discovery : spec.settings.discovery with
            | none =>
                rw [discovery] at accepted
                simp only [Prod.mk.injEq] at accepted
                obtain ⟨ok, rfl, -⟩ := accepted
                exact ⟨tree, rfl, ok⟩
            | some found =>
                rw [discovery] at accepted
                dsimp only at accepted
                cases discovered : discover p r found manifest now tree with
                | mk outcome tree' =>
                  rw [discovered] at accepted
                  cases outcome with
                  | error e => cases accepted
                  | ok path =>
                      simp only [Prod.mk.injEq] at accepted
                      obtain ⟨ok, rfl, -⟩ := accepted
                      exact ⟨tree', rfl, ok⟩
          obtain ⟨tree', rfl, read⟩ := read
          obtain ⟨step, ready, same⟩ := manifestReady_of_accepted outside read
          have ready' : checkpointReady r tooLong outside spec.settings (some tree') =
              .ok (true, step) := by
            simp only [checkpointReady, configured, ready]
          rw [buildLaunchPlan_resumes_iff ready' same]
          simp

/-! ## A checkpoint file with nothing in it -/

def sampleSpec : LocalProcessSpec where
  command := ["solver"]
  resumeArguments := ["--resume"]
  settings := { checkpointFile := "state.json" }

def sampleFile : ManifestPath := ⟨"state.json", by decide⟩

def samplePlan (content : SampleBytes) : Except Raised RuntimeLaunchPlan :=
  buildLaunchPlan sampleEncoding (fun _ => false) (fun _ => none) .ok sampleSpec "checkpoint"
    (some (sampleTree sampleFile content))

def sampleValidated (content : SampleBytes) :
    Except Raised CheckpointSummary × Option (CheckpointManager.Tree SampleBytes) ×
      DigestCache String :=
  validate samplePatterns sampleEncoding (fun _ => false) "checkpoint" sampleSpec.settings 0
    (fun _ => none) (some (sampleTree sampleFile content))

theorem filledCheckpoint_resumes : ∃ summary, (sampleValidated (.json .null)).1 = .ok summary ∧
    Resumes sampleEncoding summary (samplePlan (.json .null)) := by
  have accepted : sampleValidated (.json .null) =
      (.ok ⟨10, 1, none, none⟩, some (sampleTree sampleFile (.json .null)), fun _ => none) := rfl
  refine ⟨⟨10, 1, none, none⟩, rfl, (accepted_resumes_iff accepted).mpr ⟨fun _ => ?_, ?_⟩⟩
  · exact ⟨_, rfl, ⟨.json .null, 0⟩, List.mem_singleton_self _, by decide⟩
  · exact fun text _ => ⟨text, rfl⟩

/-- Validation accepts the empty file, and the task starts from the beginning. -/
theorem emptyCheckpoint_restarts : ∃ summary, (sampleValidated .empty).1 = .ok summary ∧
    (samplePlan .empty).toOption.map (·.resumedFromCheckpoint) = some false ∧
      ¬ Resumes sampleEncoding summary (samplePlan .empty) := by
  refine ⟨⟨0, 1, none, none⟩, rfl, rfl, ?_⟩
  rintro ⟨plan, step, built, resumed, -⟩
  cases built
  cases resumed

end Magellan.DendroCommandAdapter
