import Mathlib.Data.List.Infix
import Magellan.Data.Fallible
import Magellan.Runtime.Manifest

/-!
# Progress files

`DendroProgressSynchronizer.refresh` takes the last step that the log names and writes it to the
progress file; `load_progress` reads the file, whoever has written it.
-/

namespace Magellan.Progress

open CheckpointManager (Raised LoadError)
open PyJson (get get?)

/-! ## Texts, numbers and dates -/

structure DendroProgressSpec where
  logRelativePath : String := "logs/process.log"
  stepRegex : String
  totalSteps : Option PyFloat := none
  maxLogBytes : Nat := 1048576

/-- The record that is written. -/
def progressEntries (taskId : TaskId) (spec : DendroProgressSpec) (step : PyFloat)
    (updatedAt : String) : List (String × PyJson) :=
  [ ("completed_units", .number (.float step)),
    ("details", .object [("log_relative_path", .string spec.logRelativePath),
      ("source", .string "dendro_log_parser")]),
    ("format_version", .number (.int 1)),
    ("task_id", .string taskId),
    ("total_units", PyJson.ofOption (fun total => .number (.float total)) spec.totalSteps),
    ("updated_at_utc", .string updatedAt)]

def progressJson (taskId : TaskId) (spec : DendroProgressSpec) (step : PyFloat)
    (updatedAt : String) : PyJson :=
  .object (progressEntries taskId spec step updatedAt)

/-- A match of the step pattern: the group of the name `step`, and all groups. -/
structure Match where
  step : Option String := none
  groups : List (Option String) := []

/-- `match.groupdict().get("step")`, or else the first group. -/
def Match.raw (m : Match) : Option String :=
  match m.step, m.groups with
  | none, group :: _ => group
  | step, _ => step

/-- What the progress files rest on of the language and its libraries. -/
structure Language (Content : Type) where
  loads : Content → Except LoadError PyJson
  dumps : PyJson → Content
  /-- `payload.decode("utf-8", errors="replace")`. -/
  decode : List UInt8 → String
  splitlines : String → List String
  finditer : String → String → List Match
  /-- `float(value)`. -/
  float : PyJson → Except Raised PyFloat
  /-- `datetime.fromtimestamp(value, tz=timezone.utc).isoformat()`. -/
  fromtimestamp : PyFloat → Except Raised String
  /-- A validated float, integer or time, where the value can be taken for one. -/
  float? : PyJson → Option PyFloat
  int? : PyJson → Option Int
  datetime? : PyJson → Option Timestamp
  /-- `value.astimezone(timezone.utc)`, which raises beyond the last and before the first year. -/
  astimezone : Timestamp → Except Raised Timestamp
  /-- Whether a NaN passes a lower bound. -/
  nanPasses : Bool
  float?_float : ∀ x, float? (.number (.float x)) = some x
  int?_int : ∀ z, int? (.number (.int z)) = some z
  loads_progress : ∀ taskId spec step updatedAt,
    loads (dumps (progressJson taskId spec step updatedAt)) =
      .ok (progressJson taskId spec step updatedAt)
  datetime?_isoformat : ∀ x text, fromtimestamp x = .ok text →
    ∃ t, datetime? (.string text) = some t ∧ ∃ u, astimezone t = .ok u

section

variable {Content : Type} (l : Language Content)

/-- `ge=0`. -/
def Language.atLeastZero : PyFloat → Bool
  | .finite q => 0 ≤ q
  | .inf => true
  | .negInf => false
  | .nan => l.nanPasses

/-- `gt=0`. -/
def Language.aboveZero : PyFloat → Bool
  | .finite q => 0 < q
  | .inf => true
  | .negInf => false
  | .nan => l.nanPasses

/-! ## Reading -/

structure ProgressSnapshot where
  formatVersion : Int := 1
  taskId : TaskId
  completedUnits : PyFloat
  totalUnits : Option PyFloat := none
  updatedAtUtc : Timestamp
  nodeId : Option String := none
  details : List (String × PyJson) := []

def validationError (field : String) : Raised := .other "ValidationError" field

def formatVersionField (entries : List (String × PyJson)) : Except Raised Int :=
  match get? entries "format_version" with
  | none => .ok 1
  | some j =>
      match l.int? j with
      | some z => if 1 ≤ z then .ok z else .error (validationError "format_version")
      | none => .error (validationError "format_version")

def taskIdField (entries : List (String × PyJson)) : Except Raised TaskId :=
  match (get entries "task_id").string? with
  | some taskId => if taskId ≠ "" then .ok taskId else .error (validationError "task_id")
  | none => .error (validationError "task_id")

def completedUnitsField (entries : List (String × PyJson)) : Except Raised PyFloat :=
  match (get? entries "completed_units").bind l.float? with
  | some x => if l.atLeastZero x then .ok x else .error (validationError "completed_units")
  | none => .error (validationError "completed_units")

def totalUnitsField (entries : List (String × PyJson)) : Except Raised (Option PyFloat) :=
  match get entries "total_units" with
  | .null => .ok none
  | j =>
      match l.float? j with
      | some x => if l.aboveZero x then .ok (some x) else .error (validationError "total_units")
      | none => .error (validationError "total_units")

def updatedAtField (entries : List (String × PyJson)) : Except Raised Timestamp :=
  match (get? entries "updated_at_utc").bind l.datetime? with
  | some t => .ok t
  | none => .error (validationError "updated_at_utc")

def nodeIdField (entries : List (String × PyJson)) : Except Raised (Option String) :=
  match get entries "node_id" with
  | .null => .ok none
  | .string s => .ok (some s)
  | _ => .error (validationError "node_id")

def detailsField (entries : List (String × PyJson)) : Except Raised (List (String × PyJson)) :=
  match get? entries "details" with
  | none => .ok []
  | some (.object details) => .ok details
  | some _ => .error (validationError "details")

/-- `ProgressSnapshot.model_validate` of an object. -/
def modelValidate (entries : List (String × PyJson)) : Except Raised ProgressSnapshot := do
  let formatVersion ← formatVersionField l entries
  let taskId ← taskIdField entries
  let completedUnits ← completedUnitsField l entries
  let totalUnits ← totalUnitsField l entries
  let updatedAtUtc ← updatedAtField l entries
  let nodeId ← nodeIdField entries
  let details ← detailsField entries
  if totalUnits.any (·.lt completedUnits) then
    .error (validationError "completed_units cannot exceed total_units")
  else
    .ok { formatVersion, taskId, completedUnits, totalUnits, updatedAtUtc, nodeId, details }

/-- The record with its time, which may be given in seconds. -/
def withTimestamp (entries : List (String × PyJson)) : Except Raised (List (String × PyJson)) :=
  match get? entries "updated_at_utc", get? entries "updated_at_unix" with
  | none, some seconds => do
      let seconds ← l.float seconds
      let text ← l.fromtimestamp seconds
      .ok (entries ++ [("updated_at_utc", .string text)])
  | _, _ => .ok entries

def typeError (message : String) : Raised := .other "TypeError" message

/-- Of a value that is no object: the tests for its keys, or the validation, raise. -/
def notAnObject : PyJson → Raised
  | .array items =>
      if ¬ items.any (PyJson.string? · = some "updated_at_utc") ∧
          items.any (PyJson.string? · = some "updated_at_unix") then
        typeError "list indices must be integers or slices, not str"
      else validationError "ProgressSnapshot"
  | .string s =>
      if ¬ "updated_at_utc".toList <:+: s.toList ∧ "updated_at_unix".toList <:+: s.toList then
        typeError "string indices must be integers, not 'str'"
      else validationError "ProgressSnapshot"
  | j => typeError s!"argument of type '{j.typeName}' is not iterable"

/-- `load_progress`; there is no file where there is no content. -/
def loadProgress (taskId : TaskId) : Option Content → Except Raised (Option ProgressSnapshot)
  | none => .ok none
  | some content =>
      match l.loads content with
      | .error (.jsonDecodeError message) => .error (.other "JSONDecodeError" message)
      | .error (.other cls message) => .error (.other cls message)
      | .ok (.object entries) => do
          let entries ← withTimestamp l entries
          let snapshot ← modelValidate l entries
          if snapshot.taskId ≠ taskId then
            .error (.other "ValueError"
              s!"Progress record task_id={snapshot.taskId} does not match {taskId}")
          else .ok (some snapshot)
      | .ok j => .error (notAnObject j)

/-- What validation takes for a snapshot of the task, with a time that has a date. -/
structure ValidRecord (taskId : TaskId) (entries : List (String × PyJson)) : Prop where
  formatVersion : ∀ j, get? entries "format_version" = some j → ∃ z, l.int? j = some z ∧ 1 ≤ z
  identity : taskId ≠ "" ∧ (get entries "task_id").string? = some taskId
  units : ∃ j completed, get? entries "completed_units" = some j ∧ l.float? j = some completed ∧
    l.atLeastZero completed = true ∧ (get entries "total_units" = .null ∨
      ∃ total, l.float? (get entries "total_units") = some total ∧ l.aboveZero total = true ∧
        total.lt completed = false)
  updatedAt : ∃ j t, get? entries "updated_at_utc" = some j ∧ l.datetime? j = some t ∧
    ∃ u, l.astimezone t = .ok u
  nodeId : get entries "node_id" = .null ∨ ∃ s, get entries "node_id" = .string s
  details : ∀ j, get? entries "details" = some j → ∃ entries, j = .object entries

/-- There is no file, or there is a valid record of the task in it. -/
def Readable (taskId : TaskId) : Option Content → Prop
  | none => True
  | some content => ∃ entries dated, l.loads content = .ok (.object entries) ∧
      withTimestamp l entries = .ok dated ∧ ValidRecord l taskId dated

/-! ## Writing -/

structure LogFile where
  bytes : List UInt8
  mtime : PyFloat

def readLogTail (maximumBytes : Nat) (log : LogFile) : String :=
  l.decode (log.bytes.drop (log.bytes.length - maximumBytes))

def stepMatches (spec : DendroProgressSpec) (log : LogFile) : List Match :=
  (l.splitlines (readLogTail l spec.maxLogBytes log)).flatMap (l.finditer spec.stepRegex)

/-- What the last match of the step pattern in the tail of the log has for a step. -/
def lastStep (spec : DendroProgressSpec) (log : LogFile) : Option String :=
  (stepMatches l spec log).getLast?.bind Match.raw

/-- `DendroProgressSynchronizer.refresh` of a task with a progress file: what it writes, if it
writes. -/
def refresh (taskId : TaskId) (spec : Option DendroProgressSpec) (log : Option LogFile) :
    Except Raised (Option PyJson) :=
  match spec, log with
  | some spec, some log =>
      match lastStep l spec log with
      | none => .ok none
      | some raw => do
          let step ← l.float (.string raw)
          let updatedAt ← l.fromtimestamp log.mtime
          .ok (some (progressJson taskId spec step updatedAt))
  | _, _ => .ok none

end

/-! ## What is readable -/

section

variable {Content : Type} {l : Language Content} {entries : List (String × PyJson)}

theorem formatVersionField_ok :
    (∃ z, formatVersionField l entries = .ok z) ↔
      ∀ j, get? entries "format_version" = some j → ∃ z, l.int? j = some z ∧ 1 ≤ z := by
  unfold formatVersionField
  cases get? entries "format_version" with
  | none => simp
  | some j =>
      cases number : l.int? j with
      | none => simp [number]
      | some z => by_cases positive : 1 ≤ z <;> simp [number, positive]

theorem taskIdField_ok {taskId : TaskId} :
    taskIdField entries = .ok taskId ↔
      taskId ≠ "" ∧ (get entries "task_id").string? = some taskId := by
  unfold taskIdField
  cases (get entries "task_id").string? with
  | none => simp
  | some name => by_cases named : name = "" <;> grind

theorem completedUnitsField_ok {completed : PyFloat} :
    completedUnitsField l entries = .ok completed ↔
      ∃ j, get? entries "completed_units" = some j ∧ l.float? j = some completed ∧
        l.atLeastZero completed = true := by
  unfold completedUnitsField
  cases get? entries "completed_units" with
  | none => simp
  | some j =>
      cases number : l.float? j with
      | none => simp [number]
      | some x => by_cases positive : l.atLeastZero x = true <;> simp [number] <;> grind

theorem totalUnitsField_ok {total : Option PyFloat} :
    totalUnitsField l entries = .ok total ↔
      get entries "total_units" = .null ∧ total = none ∨
        get entries "total_units" ≠ .null ∧ ∃ x, l.float? (get entries "total_units") = some x ∧
          l.aboveZero x = true ∧ total = some x := by
  unfold totalUnitsField
  generalize get entries "total_units" = units
  by_cases absent : units = .null
  · subst absent
    simp only [Except.ok.injEq, true_and, ne_eq, not_true_eq_false, false_and, or_false]
    exact eq_comm
  · have present : (match units with
        | .null => Except.ok none
        | j => match l.float? j with
          | some x => if l.aboveZero x then .ok (some x) else .error (validationError "total_units")
          | none => .error (validationError "total_units")) =
        (match l.float? units with
          | some x => if l.aboveZero x then .ok (some x) else .error (validationError "total_units")
          | none => .error (validationError "total_units")) := by
      cases units <;> first | rfl | exact absurd rfl absent
    rw [present]
    cases number : l.float? units with
    | none => simp [absent]
    | some x =>
        by_cases positive : l.aboveZero x = true
        · simp [absent, positive, @eq_comm _ (some x) total]
        · simp [absent, positive]

theorem updatedAtField_ok {t : Timestamp} :
    updatedAtField l entries = .ok t ↔
      ∃ j, get? entries "updated_at_utc" = some j ∧ l.datetime? j = some t := by
  unfold updatedAtField
  cases get? entries "updated_at_utc" with
  | none => simp
  | some j => cases time : l.datetime? j <;> simp [time]

theorem nodeIdField_ok :
    (∃ nodeId, nodeIdField entries = .ok nodeId) ↔
      get entries "node_id" = .null ∨ ∃ s, get entries "node_id" = .string s := by
  unfold nodeIdField
  cases get entries "node_id" <;> simp

theorem detailsField_ok :
    (∃ details, detailsField entries = .ok details) ↔
      ∀ j, get? entries "details" = some j → ∃ entries, j = .object entries := by
  unfold detailsField
  cases get? entries "details" with
  | none => simp
  | some j => cases j <;> simp

theorem modelValidate_ok {snapshot : ProgressSnapshot} :
    modelValidate l entries = .ok snapshot ↔
      formatVersionField l entries = .ok snapshot.formatVersion ∧
      taskIdField entries = .ok snapshot.taskId ∧
      completedUnitsField l entries = .ok snapshot.completedUnits ∧
      totalUnitsField l entries = .ok snapshot.totalUnits ∧
      updatedAtField l entries = .ok snapshot.updatedAtUtc ∧
      nodeIdField entries = .ok snapshot.nodeId ∧
      detailsField entries = .ok snapshot.details ∧
      snapshot.totalUnits.any (·.lt snapshot.completedUnits) = false := by
  constructor
  · intro validated
    obtain ⟨version, h1, validated⟩ := Except.bind_eq_ok.mp validated
    obtain ⟨name, h2, validated⟩ := Except.bind_eq_ok.mp validated
    obtain ⟨completed, h3, validated⟩ := Except.bind_eq_ok.mp validated
    obtain ⟨total, h4, validated⟩ := Except.bind_eq_ok.mp validated
    obtain ⟨time, h5, validated⟩ := Except.bind_eq_ok.mp validated
    obtain ⟨node, h6, validated⟩ := Except.bind_eq_ok.mp validated
    obtain ⟨details, h7, validated⟩ := Except.bind_eq_ok.mp validated
    split at validated
    · cases validated
    · next within =>
      cases validated
      exact ⟨h1, h2, h3, h4, h5, h6, h7, Bool.eq_false_of_not_eq_true within⟩
  · rintro ⟨h1, h2, h3, h4, h5, h6, h7, within⟩
    refine Except.bind_eq_ok.mpr ⟨_, h1, Except.bind_eq_ok.mpr ⟨_, h2, Except.bind_eq_ok.mpr ⟨_, h3,
      Except.bind_eq_ok.mpr ⟨_, h4, Except.bind_eq_ok.mpr ⟨_, h5, Except.bind_eq_ok.mpr ⟨_, h6,
      Except.bind_eq_ok.mpr ⟨_, h7, ?_⟩⟩⟩⟩⟩⟩⟩
    rw [if_neg (by rw [within]; decide)]

/-- A valid record, and no other, is taken for a snapshot of the task whose time has a date. -/
theorem validRecord_iff {taskId : TaskId} :
    ValidRecord l taskId entries ↔ ∃ snapshot, modelValidate l entries = .ok snapshot ∧
      snapshot.taskId = taskId ∧ ∃ u, l.astimezone snapshot.updatedAtUtc = .ok u := by
  constructor
  · intro valid
    obtain ⟨version, h1⟩ := formatVersionField_ok.mpr valid.formatVersion
    obtain ⟨j, completed, present, number, positive, within⟩ := valid.units
    obtain ⟨j', t, stamped, time, zone⟩ := valid.updatedAt
    obtain ⟨node, h6⟩ := nodeIdField_ok.mpr valid.nodeId
    obtain ⟨details, h7⟩ := detailsField_ok.mpr valid.details
    have h2 := taskIdField_ok.mpr valid.identity
    have h3 := completedUnitsField_ok.mpr ⟨j, present, number, positive⟩
    have h5 := updatedAtField_ok.mpr ⟨j', stamped, time⟩
    obtain ⟨total, h4, limit⟩ : ∃ total, totalUnitsField l entries = .ok total ∧
        total.any (·.lt completed) = false := by
      by_cases absent : get entries "total_units" = .null
      · exact ⟨none, totalUnitsField_ok.mpr (.inl ⟨absent, rfl⟩), rfl⟩
      · obtain ⟨total, number', positive', fits⟩ := within.resolve_left absent
        exact ⟨some total, totalUnitsField_ok.mpr (.inr ⟨absent, total, number', positive', rfl⟩), fits⟩
    exact ⟨⟨version, taskId, completed, total, t, node, details⟩,
      modelValidate_ok.mpr ⟨h1, h2, h3, h4, h5, h6, h7, limit⟩, rfl, zone⟩
  · rintro ⟨snapshot, validated, rfl, zone⟩
    obtain ⟨h1, h2, h3, h4, h5, h6, h7, limit⟩ := modelValidate_ok.mp validated
    obtain ⟨j, present, number, positive⟩ := completedUnitsField_ok.mp h3
    obtain ⟨j', stamped, time⟩ := updatedAtField_ok.mp h5
    refine {
      formatVersion := formatVersionField_ok.mp ⟨_, h1⟩
      identity := taskIdField_ok.mp h2
      units := ⟨j, _, present, number, positive, ?_⟩
      updatedAt := ⟨j', _, stamped, time, zone⟩
      nodeId := nodeIdField_ok.mp ⟨_, h6⟩
      details := detailsField_ok.mp ⟨_, h7⟩ }
    rcases totalUnitsField_ok.mp h4 with ⟨absent, -⟩ | ⟨-, total, number', positive', some_⟩
    · exact .inl absent
    · rw [some_] at limit
      exact .inr ⟨total, number', positive', limit⟩

theorem readable_iff {taskId : TaskId} {file : Option Content} :
    Readable l taskId file ↔ ∃ read, loadProgress l taskId file = .ok read ∧
      ∀ snapshot, read = some snapshot → ∃ u, l.astimezone snapshot.updatedAtUtc = .ok u := by
  cases file with
  | none => exact iff_of_true trivial ⟨none, rfl, by simp⟩
  | some content =>
    constructor
    · rintro ⟨entries, dated, object, stamped, valid⟩
      obtain ⟨snapshot, validated, named, zone⟩ := validRecord_iff.mp valid
      refine ⟨some snapshot, ?_, by rintro _ ⟨⟩; exact zone⟩
      simp only [loadProgress, object]
      refine Except.bind_eq_ok.mpr ⟨dated, stamped, Except.bind_eq_ok.mpr ⟨snapshot, validated, ?_⟩⟩
      exact if_neg (not_not.mpr named)
    · rintro ⟨read, loaded, zone⟩
      rw [loadProgress] at loaded
      split at loaded
      · cases loaded
      · cases loaded
      · next entries object =>
        obtain ⟨dated, stamped, loaded⟩ := Except.bind_eq_ok.mp loaded
        obtain ⟨snapshot, validated, loaded⟩ := Except.bind_eq_ok.mp loaded
        split at loaded
        · cases loaded
        · next named =>
          cases loaded
          exact ⟨entries, dated, object, stamped,
            validRecord_iff.mpr ⟨snapshot, validated, not_not.mp named, zone snapshot rfl⟩⟩
      · cases loaded

end

/-! ## What is written and read -/

section

variable {Content : Type} {l : Language Content} {taskId : TaskId} {spec : DendroProgressSpec}

/-- A record that is written is read where its step is not negative and not above the total. -/
theorem loadProgress_written (named : taskId ≠ "")
    (admitted : ∀ total, spec.totalSteps = some total → l.aboveZero total = true) (step : PyFloat)
    {x : PyFloat} {text : String} (date : l.fromtimestamp x = .ok text) :
    ((l.atLeastZero step = true ∧ ∀ total, spec.totalSteps = some total → total.lt step = false) ∧
      ∃ snapshot, loadProgress l taskId (some (l.dumps (progressJson taskId spec step text))) =
        .ok (some snapshot) ∧ snapshot.completedUnits = step ∧
          ∃ u, l.astimezone snapshot.updatedAtUtc = .ok u) ∨
    (¬ (l.atLeastZero step = true ∧ ∀ total, spec.totalSteps = some total → total.lt step = false) ∧
      ∃ message, loadProgress l taskId (some (l.dumps (progressJson taskId spec step text))) =
        .error (validationError message)) := by
  obtain ⟨t, time, zone⟩ := l.datetime?_isoformat x text date
  have entries : loadProgress l taskId (some (l.dumps (progressJson taskId spec step text))) =
      (modelValidate l (progressEntries taskId spec step text)).bind fun snapshot =>
        if snapshot.taskId ≠ taskId then .error (.other "ValueError"
          s!"Progress record task_id={snapshot.taskId} does not match {taskId}")
        else .ok (some snapshot) := by
    rw [loadProgress, l.loads_progress]
    rfl
  have version : formatVersionField l (progressEntries taskId spec step text) = .ok 1 := by
    show (match l.int? (.number (.int 1)) with
      | some z => if 1 ≤ z then Except.ok z else .error (validationError "format_version")
      | none => .error (validationError "format_version")) = .ok 1
    rw [l.int?_int]
    rfl
  have identity : taskIdField (progressEntries taskId spec step text) = .ok taskId := if_pos named
  have completed : completedUnitsField l (progressEntries taskId spec step text) =
      if l.atLeastZero step then .ok step else .error (validationError "completed_units") := by
    show (match l.float? (.number (.float step)) with
      | some x => if l.atLeastZero x then Except.ok x else .error (validationError "completed_units")
      | none => .error (validationError "completed_units")) = _
    rw [l.float?_float]
  have total : totalUnitsField l (progressEntries taskId spec step text) = .ok spec.totalSteps := by
    have units : get (progressEntries taskId spec step text) "total_units" =
        PyJson.ofOption (fun total => .number (.float total)) spec.totalSteps := rfl
    rw [totalUnitsField, units]
    cases limit : spec.totalSteps with
    | none => rfl
    | some total =>
        show (match l.float? (.number (.float total)) with
          | some x => if l.aboveZero x then Except.ok (some x) else .error (validationError "total_units")
          | none => .error (validationError "total_units")) = .ok (some total)
        rw [l.float?_float]
        exact if_pos (admitted total limit)
  have updated : updatedAtField l (progressEntries taskId spec step text) = .ok t := by
    show (match l.datetime? (.string text) with
      | some t => Except.ok t
      | none => .error (validationError "updated_at_utc")) = .ok t
    rw [time]
  rw [entries, modelValidate, version, identity, completed, total, updated]
  by_cases positive : l.atLeastZero step = true
  swap
  · rw [if_neg positive]
    exact .inr ⟨fun h => positive h.1, _, rfl⟩
  rw [if_pos positive]
  by_cases above : spec.totalSteps.any (·.lt step) = true
  · refine .inr ⟨fun h => ?_, "completed_units cannot exceed total_units", ?_⟩
    · obtain ⟨total, limit, exceeded⟩ := Option.any_eq_true _ _ |>.mp above
      rw [h.2 total limit] at exceeded
      cases exceeded
    · show Except.bind (if spec.totalSteps.any (·.lt step) then _ else _) _ = _
      rw [if_pos above]
      rfl
  · refine .inl ⟨⟨positive, fun total limit => ?_⟩, {
      taskId := taskId
      completedUnits := step
      totalUnits := spec.totalSteps
      updatedAtUtc := t
      details := [("log_relative_path", .string spec.logRelativePath),
        ("source", .string "dendro_log_parser")] }, ?_, rfl, zone⟩
    · refine Bool.eq_false_of_not_eq_true fun exceeded => above ?_
      rw [limit]
      exact exceeded
    · show Except.bind (if spec.totalSteps.any (·.lt step) then _ else _) _ = _
      rw [if_neg above]
      exact if_neg (not_not.mpr rfl)

/-- What `refresh` does is no surprise to `load_progress`: it does not raise, and a file that it
writes is read for the task with the last step of the log. -/
def Agrees (l : Language Content) (taskId : TaskId) (spec : Option DendroProgressSpec)
    (log : Option LogFile) : Prop :=
  ∃ written, refresh l taskId spec log = .ok written ∧ ∀ payload, written = some payload →
    ∃ snapshot spec' log' raw, spec = some spec' ∧ log = some log' ∧
      loadProgress l taskId (some (l.dumps payload)) = .ok (some snapshot) ∧
        lastStep l spec' log' = some raw ∧ l.float (.string raw) = .ok snapshot.completedUnits

/-- The step is a number that the reader accepts. -/
def Acceptable (l : Language Content) (spec : DendroProgressSpec) (log : LogFile) (raw : String) :
    Prop :=
  ∃ step text, l.float (.string raw) = .ok step ∧ l.fromtimestamp log.mtime = .ok text ∧
    l.atLeastZero step = true ∧ ∀ total, spec.totalSteps = some total → total.lt step = false

theorem refresh_agrees_iff {spec : Option DendroProgressSpec} {log : Option LogFile}
    (named : taskId ≠ "") (admitted : ∀ spec', spec = some spec' → ∀ total,
      spec'.totalSteps = some total → l.aboveZero total = true) :
    Agrees l taskId spec log ↔ ∀ spec' log' raw, spec = some spec' → log = some log' →
      lastStep l spec' log' = some raw → Acceptable l spec' log' raw := by
  cases spec with
  | none => exact iff_of_true ⟨none, rfl, by simp⟩ (by simp)
  | some spec =>
    cases log with
    | none => exact iff_of_true ⟨none, rfl, by simp⟩ (by simp)
    | some log =>
      cases last : lastStep l spec log with
      | none =>
          refine iff_of_true ⟨none, by simp only [refresh, last], by simp⟩ ?_
          rintro _ _ raw ⟨⟩ ⟨⟩ some_
          rw [last] at some_
          cases some_
      | some raw =>
          have only : (∀ spec' log' raw', some spec = some spec' → some log = some log' →
              lastStep l spec' log' = some raw' → Acceptable l spec' log' raw') ↔
              Acceptable l spec log raw := by
            constructor
            · exact fun h => h spec log raw rfl rfl last
            · rintro h _ _ raw' ⟨⟩ ⟨⟩ last'
              rw [last] at last'
              cases last'
              exact h
          rw [only]
          simp only [Agrees, refresh, last]
          cases number : l.float (.string raw) with
          | error e =>
              refine iff_of_false ?_ ?_
              · rintro ⟨_, impossible, -⟩
                cases impossible
              · rintro ⟨step, text, impossible, -⟩
                rw [number] at impossible
                cases impossible
          | ok step =>
              cases date : l.fromtimestamp log.mtime with
              | error e =>
                  refine iff_of_false ?_ ?_
                  · rintro ⟨_, impossible, -⟩
                    cases impossible
                  · rintro ⟨_, text, -, impossible, -⟩
                    rw [date] at impossible
                    cases impossible
              | ok text =>
                  rcases loadProgress_written named (admitted spec rfl) step date with
                    ⟨fits, snapshot, read, units, -⟩ | ⟨unfit, message, read⟩
                  · refine iff_of_true ⟨_, rfl, ?_⟩ ⟨step, text, number, date, fits⟩
                    rintro payload ⟨⟩
                    exact ⟨snapshot, spec, log, raw, rfl, rfl, read, last, by rw [units, number]⟩
                  · refine iff_of_false ?_ ?_
                    · rintro ⟨_, ⟨⟩, reads⟩
                      obtain ⟨snapshot, _, _, _, -, -, read', -⟩ := reads _ rfl
                      rw [read] at read'
                      cases read'
                    · rintro ⟨step', _, number', -, fits⟩
                      rw [number] at number'
                      cases number'
                      exact unfit fits

end

/-! ## A step above the total -/

/-- Decimal numbers below 100, and dates that are all alike. -/
def sampleLanguage : Language PyJson where
  loads := .ok
  dumps j := j
  decode bytes := String.ofList (bytes.map fun b => Char.ofNat b.toNat)
  splitlines text := [text]
  finditer _ line := [{ step := some (String.ofList (line.toList.drop 5)) }]
  float
    | .string s => if s = "12" then .ok (.finite 12)
        else .error (.other "ValueError" s!"could not convert string to float: '{s}'")
    | _ => .error (typeError "float() argument must be a string or a real number")
  fromtimestamp _ := .ok "2026-01-01T00:00:00+00:00"
  float?
    | .number (.float x) => some x
    | _ => none
  int?
    | .number (.int z) => some z
    | _ => none
  datetime?
    | .string _ => some 0
    | _ => none
  astimezone t := .ok t
  nanPasses := true
  float?_float _ := rfl
  int?_int _ := rfl
  loads_progress _ _ _ _ := rfl
  datetime?_isoformat _ _ _ := ⟨0, rfl, 0, rfl⟩

def sampleLog (line : String) : LogFile where
  bytes := line.toList.map fun c => c.toNat.toUInt8
  mtime := .finite 0

def sampleSpec (total : Nat) : DendroProgressSpec where
  stepRegex := "step (?P<step>\\S+)"
  totalSteps := some (.finite total)

theorem stepWithinTotal_agrees :
    Agrees sampleLanguage "t" (some (sampleSpec 20)) (some (sampleLog "step 12")) := by
  refine (refresh_agrees_iff (by decide) ?_).mpr ?_
  · rintro _ ⟨⟩ _ ⟨⟩
    decide
  · rintro _ _ raw ⟨⟩ ⟨⟩ last
    have twelve : lastStep sampleLanguage (sampleSpec 20) (sampleLog "step 12") = some "12" := by decide
    rw [twelve] at last
    cases last
    refine ⟨.finite 12, _, rfl, rfl, by decide, ?_⟩
    rintro _ ⟨⟩
    decide

/-- The reader refuses what the writer has written for step 12 of 10, and the writer raises where the
group is not a number. -/
theorem stepAboveTotal_refused :
    ¬ Agrees sampleLanguage "t" (some (sampleSpec 10)) (some (sampleLog "step 12")) ∧
      ¬ Agrees sampleLanguage "t" (some (sampleSpec 10)) (some (sampleLog "step =")) := by
  constructor
  · rintro ⟨_, ⟨⟩, reads⟩
    obtain ⟨snapshot, _, _, _, -, -, impossible, -⟩ := reads _ rfl
    cases impossible
  · rintro ⟨_, impossible, -⟩
    cases impossible

end Magellan.Progress
