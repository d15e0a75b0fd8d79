import Magellan.Runtime.Accounting
import Magellan.Runtime.Progress

/-!
# A round of the accounting service

The tasks are settled one after the other, each with what its progress file says. The clock, the
prices and the carbon intensities do not fail here.
-/

namespace Magellan.Accounting

open CheckpointManager (Raised)
open Progress

/-- The results of `_progress_update`. -/
structure ProgressFields where
  estimatedRemainingSeconds : Option Rat := none
  progressCompletedUnits : Option Rat := none
  progressTotalUnits : Option Rat := none
  progressFraction : Option Rat := none
  progressRateUnitsPerSecond : Option Rat := none
  progressUpdatedAtUtc : Option Timestamp := none

def SettleInput.withProgress (i : SettleInput) (fields : ProgressFields) : SettleInput :=
  { i with
    estimatedRemainingSeconds := fields.estimatedRemainingSeconds
    progressCompletedUnits := fields.progressCompletedUnits
    progressTotalUnits := fields.progressTotalUnits
    progressFraction := fields.progressFraction
    progressRateUnitsPerSecond := fields.progressRateUnitsPerSecond
    progressUpdatedAtUtc := fields.progressUpdatedAtUtc }

section

variable {Content : Type} (l : Progress.Language Content)

/-- What a task has of progress files. -/
structure ProgressSource where
  /-- `progress_relative_path` is set. -/
  configured : Bool
  spec : Option DendroProgressSpec := none
  admitted : ∀ spec', spec = some spec' → ∀ total, spec'.totalSteps = some total →
    l.aboveZero total = true
  file : Option Content := none
  log : Option LogFile := none

/-- What a round finds outside the registry. -/
structure Round where
  localNodeId : NodeId
  alive : Pid → Bool
  input : TaskId → SettleInput
  source : TaskId → ProgressSource l
  /-- The progress, its rate and the remaining time, from a snapshot and its time. -/
  estimate : TaskRuntimeState → ProgressSnapshot → Timestamp → ProgressFields

end

section

variable {Content : Type} {l : Progress.Language Content} (round : Round l)

/-- `_progress_update`. -/
def progressUpdate (s : TaskRuntimeState) : Except Raised ProgressFields :=
  let source := round.source s.taskId
  if source.configured = false then .ok {}
  else
    match refresh l s.taskId source.spec source.log with
    | .error e => .error e
    | .ok written =>
        match loadProgress l s.taskId ((written.map l.dumps) <|> source.file) with
        | .error e => .error e
        | .ok none => .ok {}
        | .ok (some snapshot) =>
            match l.astimezone snapshot.updatedAtUtc with
            | .error e => .error e
            | .ok snapshotTime =>
                if s.accounting.progressUpdatedAtUtc.any (snapshotTime ≤ ·) then .ok {}
                else .ok (round.estimate s snapshot snapshotTime)

/-- `settle_task` with the progress fields. -/
def settledWith (s : TaskRuntimeState) (fields : ProgressFields) : TaskRuntimeState :=
  settleTask round.localNodeId round.alive ((round.input s.taskId).withProgress fields) s

def settle (s : TaskRuntimeState) : Except Raised TaskRuntimeState :=
  if s.ownerNodeId ≠ round.localNodeId then .ok s
  else
    match progressUpdate round s with
    | .error e => .error e
    | .ok fields => .ok (settledWith round s fields)

def isDue (s : TaskRuntimeState) : Bool :=
  s.ownerNodeId = round.localNodeId ∧ (s.status = .running ∨ s.status = .paused)

/-- `run_once` on the states of all tasks: the states afterwards, and how many were processed. -/
def runOnce : List TaskRuntimeState → List TaskRuntimeState × Except Raised Nat
  | [] => ([], .ok 0)
  | s :: states =>
      if isDue round s then
        match settle round s with
        | .error e => (s :: states, .error e)
        | .ok s' =>
            match runOnce states with
            | (states, processed) => (s' :: states, processed.map (· + 1))
      else
        match runOnce states with
        | (states, processed) => (s :: states, processed)

/-- `run`, for as many rounds as there are until the service is stopped. -/
def run : List (Round l) → List TaskRuntimeState → List TaskRuntimeState × Except Raised Unit
  | [], states => (states, .ok ())
  | round :: rounds, states =>
      match runOnce round states with
      | (states, .error e) => (states, .error e)
      | (states, .ok _) => run rounds states

end

/-! ## What one task's files can stop -/

section

variable {Content : Type} {l : Progress.Language Content} {round : Round l} {s : TaskRuntimeState}
  {states : List TaskRuntimeState}

/-- The step that the log of the task names last, where it is written to the progress file. -/
def ProgressSource.step (source : ProgressSource l) :
    Option (DendroProgressSpec × LogFile × String) :=
  match source.spec, source.log with
  | some spec, some log => (lastStep l spec log).map fun raw => (spec, log, raw)
  | _, _ => none

/-- The last step of the log can be written and read, or the file that is there can. -/
def Harmless (round : Round l) (s : TaskRuntimeState) : Prop :=
  let source := round.source s.taskId
  source.configured = true →
    match source.step with
    | some (spec, log, raw) => Acceptable l spec log raw
    | none => Readable l s.taskId source.file

theorem refresh_step (taskId : TaskId) (source : ProgressSource l) :
    refresh l taskId source.spec source.log = match source.step with
      | none => .ok none
      | some (spec, log, raw) =>
          l.float (.string raw) >>= fun step => l.fromtimestamp log.mtime >>= fun updatedAt =>
            .ok (some (progressJson taskId spec step updatedAt)) := by
  unfold refresh ProgressSource.step
  cases source.spec with
  | none => rfl
  | some spec =>
    cases source.log with
    | none => rfl
    | some log => cases last : lastStep l spec log <;> simp [last]

theorem ProgressSource.step_spec {source : ProgressSource l} {spec : DendroProgressSpec}
    {log : LogFile} {raw : String} (last : source.step = some (spec, log, raw)) :
    source.spec = some spec := by
  unfold ProgressSource.step at last
  split at last
  · next h _ =>
    obtain ⟨_, -, same⟩ := Option.map_eq_some_iff.mp last
    cases same
    exact h
  · cases last

/-- What is read is dated, or nothing is read: the rest of the update does not raise. -/
theorem progressUpdate_reads {written : Option PyJson}
    (configured : (round.source s.taskId).configured = true)
    (refreshed : refresh l s.taskId (round.source s.taskId).spec (round.source s.taskId).log =
      .ok written) :
    (∃ fields, progressUpdate round s = .ok fields) ↔
      ∃ read, loadProgress l s.taskId (written.map l.dumps <|> (round.source s.taskId).file) =
        .ok read ∧ ∀ snapshot, read = some snapshot → ∃ u, l.astimezone snapshot.updatedAtUtc = .ok u := by
  simp only [progressUpdate, configured, Bool.true_eq_false, if_false, refreshed]
  cases loaded : loadProgress l s.taskId (written.map l.dumps <|> (round.source s.taskId).file) with
  | error e => simp
  | ok read =>
    cases read with
    | none => simp
    | some snapshot =>
      cases zone : l.astimezone snapshot.updatedAtUtc with
      | error e => simp [zone]
      | ok u => simp only [zone]; split <;> simp [zone]

theorem progressUpdate_ok (named : s.taskId ≠ "") :
    (∃ fields, progressUpdate round s = .ok fields) ↔ Harmless round s := by
  unfold Harmless
  by_cases configured : (round.source s.taskId).configured = true
  swap
  · exact iff_of_true ⟨{}, if_pos (Bool.eq_false_of_not_eq_true configured)⟩
      (fun h => absurd h configured)
  have refreshed := refresh_step s.taskId (round.source s.taskId)
  simp only [configured, true_implies]
  cases last : (round.source s.taskId).step with
  | none =>
      rw [last] at refreshed
      rw [progressUpdate_reads configured refreshed]
      exact readable_iff.symm
  | some written =>
      obtain ⟨spec, log, raw⟩ := written
      rw [last] at refreshed
      have limits := (round.source s.taskId).admitted spec (ProgressSource.step_spec last)
      simp only at refreshed ⊢
      cases number : l.float (.string raw) with
      | error e =>
          rw [number] at refreshed
          refine iff_of_false ?_ ?_
          · rintro ⟨fields, updated⟩
            simp only [progressUpdate, configured, Bool.true_eq_false, if_false, refreshed] at updated
            cases updated
          · rintro ⟨_, _, number', -⟩
            rw [number] at number'
            cases number'
      | ok step =>
          cases date : l.fromtimestamp log.mtime with
          | error e =>
              rw [number, date] at refreshed
              refine iff_of_false ?_ ?_
              · rintro ⟨fields, updated⟩
                simp only [progressUpdate, configured, Bool.true_eq_false, if_false, refreshed]
                  at updated
                cases updated
              · rintro ⟨_, _, -, date', -⟩
                rw [date] at date'
                cases date'
          | ok text =>
              rw [number, date] at refreshed
              rw [progressUpdate_reads configured refreshed]
              rcases loadProgress_written named limits step date with
                ⟨fits, snapshot, read, -, zone⟩ | ⟨unfit, message, read⟩
              · refine iff_of_true ⟨some snapshot, read, ?_⟩ ⟨step, text, number, date, fits⟩
                rintro _ ⟨⟩
                exact zone
              · refine iff_of_false ?_ ?_
                · rintro ⟨_, read', -⟩
                  cases read.symm.trans read'
                · rintro ⟨step', _, number', -, fits⟩
                  rw [number] at number'
                  cases number'
                  exact unfit fits

theorem settle_ok (due : isDue round s = true) (named : s.taskId ≠ "") :
    (∃ s', settle round s = .ok s') ↔ Harmless round s := by
  have owned : s.ownerNodeId = round.localNodeId := (of_decide_eq_true due).1
  rw [← progressUpdate_ok named]
  simp only [settle, owned, ne_eq, not_true_eq_false, if_false]
  cases progressUpdate round s <;> simp

theorem settle_settledWith (due : isDue round s = true) {s' : TaskRuntimeState}
    (settled : settle round s = .ok s') : ∃ fields, s' = settledWith round s fields := by
  have owned : s.ownerNodeId = round.localNodeId := (of_decide_eq_true due).1
  simp only [settle, owned, ne_eq, not_true_eq_false, if_false] at settled
  cases updated : progressUpdate round s with
  | error e =>
      rw [updated] at settled
      cases settled
  | ok fields =>
      rw [updated] at settled
      cases settled
      exact ⟨fields, rfl⟩

/-- The round comes to its end, and every task that is due is settled: it is charged what its time
costs, whatever its progress. -/
def Accounts (round : Round l) (states : List TaskRuntimeState) : Prop :=
  (∃ processed, (runOnce round states).2 = .ok processed) ∧
    List.Forall₂ (fun s s' => isDue round s = true → ∃ fields, s' = settledWith round s fields) states
      (runOnce round states).1

theorem runOnce_returns (named : ∀ s ∈ states, s.taskId ≠ "") :
    (∃ processed, (runOnce round states).2 = .ok processed) ↔
      ∀ s ∈ states, isDue round s = true → Harmless round s := by
  induction states with
  | nil => exact iff_of_true ⟨0, rfl⟩ (by simp)
  | cons s states ih =>
      have ih := ih fun s mem => named s (List.mem_cons_of_mem _ mem)
      rw [List.forall_mem_cons, ← ih]
      by_cases due : isDue round s = true
      · rw [← settle_ok due (named s List.mem_cons_self)]
        rw [runOnce, if_pos due]
        cases settled : settle round s with
        | error e => simp [due]
        | ok s' =>
            show (∃ processed, (runOnce round states).2.map (· + 1) = .ok processed) ↔ _
            cases (runOnce round states).2 <;> simp [Except.map]
      · rw [runOnce, if_neg due]
        simp [due]

theorem runOnce_settles
    (returned : ∃ processed, (runOnce round states).2 = .ok processed) :
    List.Forall₂ (fun s s' => isDue round s = true → ∃ fields, s' = settledWith round s fields) states
      (runOnce round states).1 := by
  induction states with
  | nil => exact .nil
  | cons s states ih =>
      by_cases due : isDue round s = true
      · rw [runOnce, if_pos due] at returned ⊢
        cases settled : settle round s with
        | error e =>
            rw [settled] at returned
            obtain ⟨_, impossible⟩ := returned
            cases impossible
        | ok s' =>
            rw [settled] at returned
            refine .cons (fun _ => settle_settledWith due settled) (ih ?_)
            cases rest : (runOnce round states).2 with
            | error e => simp [rest, Except.map] at returned
            | ok processed => exact ⟨processed, rfl⟩
      · rw [runOnce, if_neg due] at returned ⊢
        exact .cons (fun h => absurd h due) (ih returned)

theorem runOnce_accounts_iff (named : ∀ s ∈ states, s.taskId ≠ "") :
    Accounts round states ↔ ∀ s ∈ states, isDue round s = true → Harmless round s := by
  rw [← runOnce_returns named]
  exact ⟨And.left, fun returned => ⟨returned, runOnce_settles returned⟩⟩

/-! ## Rounds -/

/-- What settlement does not change of a state. -/
def SameTask (s s' : TaskRuntimeState) : Prop :=
  s'.taskId = s.taskId ∧ s'.ownerNodeId = s.ownerNodeId ∧ s'.status = s.status

theorem settledWith_same (fields : ProgressFields) : SameTask s (settledWith round s fields) := by
  unfold settledWith settleTask
  split <;> exact ⟨rfl, rfl, rfl⟩

theorem settle_same {s' : TaskRuntimeState} (settled : settle round s = .ok s') : SameTask s s' := by
  unfold settle at settled
  split at settled
  · cases settled
    exact ⟨rfl, rfl, rfl⟩
  · split at settled
    · cases settled
    · next fields _ =>
      cases settled
      exact settledWith_same fields

theorem runOnce_same (round : Round l) (states : List TaskRuntimeState) :
    List.Forall₂ SameTask states (runOnce round states).1 := by
  have unchanged : ∀ states, List.Forall₂ SameTask states states := by
    intro states
    exact List.forall₂_same.mpr fun _ _ => ⟨rfl, rfl, rfl⟩
  induction states with
  | nil => exact .nil
  | cons s states ih =>
      rw [runOnce]
      split
      · cases settled : settle round s with
        | error e => exact unchanged _
        | ok s' => exact .cons (settle_same settled) ih
      · exact .cons ⟨rfl, rfl, rfl⟩ ih

theorem SameTask.isDue_harmless {s' : TaskRuntimeState} (same : SameTask s s') (round : Round l) :
    (isDue round s' = true → Harmless round s') ↔ (isDue round s = true → Harmless round s) := by
  obtain ⟨id, owner, status⟩ := same
  simp only [isDue, Harmless, id, owner, status]

theorem forall_due_harmless {states' : List TaskRuntimeState}
    (same : List.Forall₂ SameTask states states') (round : Round l) :
    (∀ s ∈ states', isDue round s = true → Harmless round s) ↔
      ∀ s ∈ states, isDue round s = true → Harmless round s := by
  induction same with
  | nil => simp
  | cons head _ ih => simp only [List.forall_mem_cons, ih, head.isDue_harmless]

theorem forall_named {states' : List TaskRuntimeState} (same : List.Forall₂ SameTask states states')
    (named : ∀ s ∈ states, s.taskId ≠ "") : ∀ s ∈ states', s.taskId ≠ "" := by
  induction same with
  | nil => simp
  | cons head _ ih =>
      rw [List.forall_mem_cons] at named ⊢
      exact ⟨head.1 ▸ named.1, ih named.2⟩

/-- Every round settles what is due when it begins. -/
def RoundsAccount : List (Round l) → List TaskRuntimeState → Prop
  | [], _ => True
  | round :: rounds, states => Accounts round states ∧ RoundsAccount rounds (runOnce round states).1

/-- No round ends the loop, and every round settles all that is due. -/
def RunAccounts (rounds : List (Round l)) (states : List TaskRuntimeState) : Prop :=
  (run rounds states).2 = .ok () ∧ RoundsAccount rounds states

theorem roundsAccount_iff {rounds : List (Round l)} (named : ∀ s ∈ states, s.taskId ≠ "") :
    RoundsAccount rounds states ↔
      ∀ round ∈ rounds, ∀ s ∈ states, isDue round s = true → Harmless round s := by
  induction rounds generalizing states with
  | nil => simp [RoundsAccount]
  | cons round rounds ih =>
      have same := runOnce_same round states
      rw [RoundsAccount, runOnce_accounts_iff named, ih (forall_named same named),
        List.forall_mem_cons]
      simp only [forall_due_harmless same]

theorem RoundsAccount.run_ok {rounds : List (Round l)} (accounts : RoundsAccount rounds states) :
    (run rounds states).2 = .ok () := by
  induction rounds generalizing states with
  | nil => rfl
  | cons round rounds ih =>
      obtain ⟨⟨⟨processed, returned⟩, -⟩, rest⟩ := accounts
      rw [run]
      cases result : runOnce round states with
      | mk states' outcome =>
          rw [result] at returned rest
          subst returned
          exact ih rest

theorem run_accounts_iff {rounds : List (Round l)} (named : ∀ s ∈ states, s.taskId ≠ "") :
    RunAccounts rounds states ↔
      ∀ round ∈ rounds, ∀ s ∈ states, isDue round s = true → Harmless round s := by
  rw [← roundsAccount_iff named]
  exact ⟨And.right, fun accounts => ⟨accounts.run_ok, accounts⟩⟩

end

/-! ## A progress file with no record -/

/-- Contents are values already, apart from the null, which stands for a text that is no JSON. -/
def sampleReader : Progress.Language PyJson :=
  { sampleLanguage with
    loads := fun
      | .null => .error (.jsonDecodeError "Expecting value: line 1 column 1 (char 0)")
      | j => .ok j
    loads_progress := fun _ _ _ _ => rfl }

/-- The first task has the given progress file, the second has none. -/
def sampleRound (file : PyJson) : Round sampleReader where
  localNodeId := "boston"
  alive _ := true
  input _ := { nowWall := 10, elapsedEvalSeconds := 5, computeCostUsd := 1, computeCarbonGrams := 1 }
  source taskId := {
    configured := true
    admitted := by rintro _ ⟨⟩
    file := if taskId = "a" then some file else none }
  estimate _ _ _ := {}

def sampleTask (taskId : TaskId) : TaskRuntimeState where
  taskId := taskId
  ownerNodeId := "boston"
  status := .running
  pid := some 1
  lastAccountedAtUtc := some 5

def goodFile : PyJson := progressJson "a" { stepRegex := "" } (.finite 3) "2026-01-01T00:00:00+00:00"

theorem goodFile_accounts :
    RunAccounts [sampleRound goodFile, sampleRound goodFile] [sampleTask "a", sampleTask "b"] := by
  refine (run_accounts_iff ?_).mpr ?_
  · decide
  · have valid : ValidRecord sampleReader "a" (progressEntries "a" { stepRegex := "" } (.finite 3)
        "2026-01-01T00:00:00+00:00") := {
      formatVersion := by rintro _ ⟨⟩; exact ⟨1, rfl, le_rfl⟩
      identity := ⟨by decide, rfl⟩
      units := ⟨_, .finite 3, rfl, rfl, rfl, .inl rfl⟩
      updatedAt := ⟨_, 0, rfl, rfl, 0, rfl⟩
      nodeId := .inl rfl
      details := by rintro _ ⟨⟩; exact ⟨_, rfl⟩ }
    have harmless : ∀ s ∈ [sampleTask "a", sampleTask "b"], Harmless (sampleRound goodFile) s := by
      simp only [List.forall_mem_cons, List.not_mem_nil, false_implies, implies_true, and_true]
      exact ⟨fun _ => ⟨_, _, rfl, rfl, valid⟩, fun _ => trivial⟩
    simp only [List.forall_mem_cons (p := fun round : Round sampleReader => _)]
    exact ⟨fun s mem _ => harmless s mem, fun s mem _ => harmless s mem, by simp⟩

/-- The text of the first task is no JSON: the second task is not settled, and no round follows. -/
theorem tornFile_stopsAccounting :
    run [sampleRound .null, sampleRound goodFile] [sampleTask "a", sampleTask "b"] =
        ([sampleTask "a", sampleTask "b"],
          .error (.other "JSONDecodeError" "Expecting value: line 1 column 1 (char 0)")) ∧
      isDue (sampleRound .null) (sampleTask "b") = true ∧
      (∀ fields, settledWith (sampleRound .null) (sampleTask "b") fields ≠ sampleTask "b") ∧
      ¬ RunAccounts [sampleRound .null, sampleRound goodFile] [sampleTask "a", sampleTask "b"] := by
  refine ⟨rfl, rfl, fun fields same => ?_, ?_⟩
  · have stamp := congrArg TaskRuntimeState.lastAccountedAtUtc same
    cases stamp
  · rintro ⟨impossible, -⟩
    cases impossible

end Magellan.Accounting
