import Magellan.Node.World
import Magellan.State.Operations

/-!
# The shape of a record

Owner, status, process and pause fields are assigned one by one by each operation. Which of them
fit together, and which operations keep them so, is stated here once for all sequences.
-/

namespace Magellan.Registry

/-- A pause field is set exactly while the task is paused. -/
def PauseField {α : Type} (s : TaskRuntimeState) (field : Option α) : Prop :=
  field.isSome ↔ s.status = .paused

structure Shape (localNodeId : NodeId) (s : TaskRuntimeState) : Prop where
  remote : s.ownerNodeId ≠ localNodeId →
    s.pid = none ∧ s.processGroupId = none ∧ (s.status = .remote ∨ s.status = .completed)
  owned : s.ownerNodeId = localNodeId → s.status ≠ .remote
  process : s.status = .running ∨ s.status = .paused → s.pid ≠ none
  group : s.pid = none ↔ s.processGroupId = none
  pausedAt : PauseField s s.pausedAtUtc
  resumeAt : PauseField s s.resumeAtUtc
  resumeWallAt : PauseField s s.resumeWallAtUtc
  pauseReason : PauseField s s.pauseReason

/-- What an operation needs to keep the shape of the record `s`. -/
def Operation.Keeps (localNodeId : NodeId) (s : TaskRuntimeState) : Operation → Prop
  | .markStopped => s.ownerNodeId = localNodeId ∨ s.status = .completed
  | .markMigrating _ => s.status ≠ .paused
  | .markFailed .. => s.ownerNodeId = localNodeId
  | .markRecoveryExhausted _ => s.ownerNodeId = localNodeId ∧ s.status ≠ .paused
  | .markRemote owner generation _ _ => owner ≠ localNodeId ∨
      (s.generation = generation ∧ s.ownerNodeId = owner ∧ s.status = .completed)
  | .applyOwnership u => u.ownerNodeId = localNodeId → u.status ≠ some .completed →
      s.generation < u.generation → s.status ≠ .remote
  | _ => True

section

variable {localNodeId : NodeId} {s : TaskRuntimeState}

/-- The fields that have to fit together. -/
structure SameCore (s t : TaskRuntimeState) : Prop where
  owner : t.ownerNodeId = s.ownerNodeId
  status : t.status = s.status
  pid : t.pid = s.pid
  group : t.processGroupId = s.processGroupId
  pausedAt : t.pausedAtUtc = s.pausedAtUtc
  resumeAt : t.resumeAtUtc = s.resumeAtUtc
  resumeWallAt : t.resumeWallAtUtc = s.resumeWallAtUtc
  pauseReason : t.pauseReason = s.pauseReason

theorem Shape.congr {t : TaskRuntimeState} (h : Shape localNodeId s) (same : SameCore s t) :
    Shape localNodeId t := by
  obtain ⟨owner, status, pid, group, pausedAt, resumeAt, resumeWallAt, pauseReason⟩ := same
  have field {α : Type} {a b : Option α} (eq : b = a) (kept : PauseField s a) : PauseField t b := by
    unfold PauseField at kept ⊢
    rw [eq, status]
    exact kept
  refine ⟨?_, ?_, ?_, ?_, field pausedAt h.pausedAt, field resumeAt h.resumeAt,
    field resumeWallAt h.resumeWallAt, field pauseReason h.pauseReason⟩
  · rw [owner, pid, group, status]
    exact h.remote
  · rw [owner, status]
    exact h.owned
  · rw [status, pid]
    exact h.process
  · rw [pid, group]
    exact h.group

/-- There is no process, and nothing of a pause. -/
structure Idle (s : TaskRuntimeState) : Prop where
  pid : s.pid = none
  group : s.processGroupId = none
  pausedAt : s.pausedAtUtc = none
  resumeAt : s.resumeAtUtc = none
  resumeWallAt : s.resumeWallAtUtc = none
  pauseReason : s.pauseReason = none
  running : s.status ≠ .running
  paused : s.status ≠ .paused

theorem pauseField_none {α : Type} {field : Option α} (none_ : field = none) :
    PauseField s field ↔ s.status ≠ .paused := by
  unfold PauseField
  rw [none_]
  exact ⟨fun same paused => by simpa using same.mpr paused, fun other => by simpa using other⟩

theorem Idle.shape_iff (h : Idle s) : Shape localNodeId s ↔
    (s.ownerNodeId ≠ localNodeId → s.status = .remote ∨ s.status = .completed) ∧
      (s.ownerNodeId = localNodeId → s.status ≠ .remote) := by
  refine ⟨fun shape => ⟨fun other => (shape.remote other).2.2, shape.owned⟩, fun ⟨other, own⟩ => ?_⟩
  refine ⟨fun away => ⟨h.pid, h.group, other away⟩, own, ?_, iff_of_true h.pid h.group,
    (pauseField_none h.pausedAt).mpr h.paused, (pauseField_none h.resumeAt).mpr h.paused,
    (pauseField_none h.resumeWallAt).mpr h.paused, (pauseField_none h.pauseReason).mpr h.paused⟩
  rintro (running | paused)
  · exact absurd running h.running
  · exact absurd paused h.paused

theorem Idle.shape_of_owned (h : Idle s) (own : s.ownerNodeId = localNodeId)
    (status : s.status ≠ .remote) : Shape localNodeId s :=
  h.shape_iff.mpr ⟨fun other => absurd own other, fun _ => status⟩

theorem Shape.owner_of_active (h : Shape localNodeId s)
    (active : s.status ≠ .remote ∧ s.status ≠ .completed) : s.ownerNodeId = localNodeId := by
  by_contra other
  rcases (h.remote other).2.2 with remote | completed
  · exact active.1 remote
  · exact active.2 completed

theorem Shape.pause_none {α : Type} {field : Option α} (kept : PauseField s field)
    (running : s.status ≠ .paused) : field = none := by
  unfold PauseField at kept
  rw [← Option.not_isSome_iff_eq_none]
  exact mt kept.mp running

/-! ## One operation -/

theorem shape_markRunning {pid : Pid} {adapter : Option String} {command : Option (List String)}
    {resumed : Bool} {now : Timestamp} {t : TaskRuntimeState}
    (done : markRunning localNodeId pid adapter command resumed now s = .ok t) :
    Shape localNodeId t := by
  unfold markRunning at done
  split at done
  · cases done
  rename_i own
  split at done
  · cases done
  cases done
  exact ⟨fun other => absurd (not_not.mp own) other, fun _ => by simp, fun _ => by simp,
    by simp, by simp [PauseField], by simp [PauseField], by simp [PauseField], by simp [PauseField]⟩

theorem shape_markPaused {pausedAt resumeAt resumeWallAt : Timestamp} {reason : String}
    {now : Timestamp} {t : TaskRuntimeState} (h : Shape localNodeId s)
    (done : markPaused localNodeId pausedAt resumeAt resumeWallAt reason now s = .ok t) :
    Shape localNodeId t := by
  unfold markPaused at done
  split at done
  · cases done
  rename_i own
  split at done
  · cases done
  rename_i active
  cases done
  rw [not_or] at active
  exact ⟨fun other => absurd (not_not.mp own) other, fun _ => by simp, fun _ => active.2, h.group,
    by simp [PauseField], by simp [PauseField], by simp [PauseField], by simp [PauseField]⟩

theorem shape_markResumed {now : Timestamp} {t : TaskRuntimeState} (h : Shape localNodeId s)
    (done : markResumed localNodeId now s = .ok t) : Shape localNodeId t := by
  unfold markResumed at done
  split at done
  · cases done
  rename_i own
  split at done
  · cases done
  rename_i active
  cases done
  rw [not_or] at active
  exact ⟨fun other => absurd (not_not.mp own) other, fun _ => by simp, fun _ => active.2, h.group,
    by simp [PauseField], by simp [PauseField], by simp [PauseField], by simp [PauseField]⟩

theorem Shape.restatus {t : TaskRuntimeState} (h : Shape localNodeId s)
    (own : s.ownerNodeId = localNodeId) (status : s.status ≠ .paused)
    (core : SameCore s { t with status := s.status })
    (idle : t.status = .migrating ∨ t.status = .recovering) : Shape localNodeId t := by
  have field {α : Type} {a b : Option α} (eq : b = a) (kept : PauseField s a) :
      PauseField t b := by
    rw [pauseField_none (eq.trans (Shape.pause_none kept status))]
    rcases idle with next | next <;> simp [next]
  refine ⟨fun other => absurd (core.owner.trans own) other, fun _ => ?_, fun active => ?_, ?_,
    field core.pausedAt h.pausedAt, field core.resumeAt h.resumeAt,
    field core.resumeWallAt h.resumeWallAt, field core.pauseReason h.pauseReason⟩
  · rcases idle with next | next <;> simp [next]
  · rcases idle with next | next <;> simp [next] at active
  · have pid : t.pid = s.pid := core.pid
    have group : t.processGroupId = s.processGroupId := core.group
    rw [pid, group]
    exact h.group

theorem shape_markMigrating_iff {m : MigrationId} {t : TaskRuntimeState} (h : Shape localNodeId s)
    (done : markMigrating localNodeId m s = .ok t) : Shape localNodeId t ↔ s.status ≠ .paused := by
  unfold markMigrating at done
  split at done
  · cases done
  rename_i own
  split at done
  · cases done
  cases done
  constructor
  · intro shape paused
    have set : s.pausedAtUtc.isSome := h.pausedAt.mpr paused
    have migrating : TaskStatus.migrating = .paused := shape.pausedAt.mp set
    cases migrating
  · exact fun status => h.restatus (not_not.mp own) status ⟨rfl, rfl, rfl, rfl, rfl, rfl, rfl, rfl⟩
      (.inl rfl)

theorem shape_beginRecovery {t : TaskRuntimeState} (h : Shape localNodeId s)
    (done : beginRecovery localNodeId s = .ok t) : Shape localNodeId t := by
  unfold beginRecovery at done
  split at done
  · cases done
  rename_i own
  split at done
  · cases done
  rename_i failed
  rw [not_not] at failed
  cases done
  exact h.restatus (not_not.mp own) (by simp [failed]) ⟨rfl, rfl, rfl, rfl, rfl, rfl, rfl, rfl⟩
    (.inr rfl)

theorem shape_markRecoveryExhausted_iff {error : String} (h : Shape localNodeId s) :
    Shape localNodeId (markRecoveryExhausted error s) ↔
      s.ownerNodeId = localNodeId ∧ s.status ≠ .paused := by
  constructor
  · intro shape
    refine ⟨shape.owner_of_active (by simp [markRecoveryExhausted]), fun paused => ?_⟩
    have set : s.pausedAtUtc.isSome := h.pausedAt.mpr paused
    have failed : TaskStatus.failed = .paused := shape.pausedAt.mp set
    cases failed
  · rintro ⟨own, status⟩
    refine Idle.shape_of_owned ⟨rfl, rfl, ?_, ?_, ?_, ?_, ?_, ?_⟩ own ?_
    · exact Shape.pause_none h.pausedAt status
    · exact Shape.pause_none h.resumeAt status
    · exact Shape.pause_none h.resumeWallAt status
    · exact Shape.pause_none h.pauseReason status
    · simp [markRecoveryExhausted]
    · simp [markRecoveryExhausted]
    · simp [markRecoveryExhausted]

theorem shape_applyOwnership_iff {u : OwnershipUpdate} {t : TaskRuntimeState}
    (h : Shape localNodeId s) (done : applyOwnership localNodeId u s = some t) :
    Shape localNodeId t ↔ (u.ownerNodeId = localNodeId → u.status ≠ some .completed →
      s.generation < u.generation → s.status ≠ .remote) := by
  unfold applyOwnership at done
  split at done
  · cases done
  rename_i newer
  rw [not_lt] at newer
  split at done
  · cases done
  rename_i level
  split at done
  · cases done
  dsimp only at done
  split at done
  · rename_i report
    cases done
    refine iff_of_true ?_ fun _ open_ => absurd report open_
    refine (Idle.shape_iff ⟨rfl, rfl, rfl, rfl, rfl, rfl, by simp, by simp⟩).mpr ?_
    exact ⟨fun _ => .inr rfl, fun _ => by simp⟩
  rename_i report
  split at done
  · rename_i other
    cases done
    refine iff_of_true ?_ fun own => absurd own other
    refine (Idle.shape_iff ⟨rfl, rfl, rfl, rfl, rfl, rfl, by simp, by simp⟩).mpr ?_
    exact ⟨fun _ => .inl rfl, fun own => absurd own other⟩
  · rename_i own
    rw [not_not] at own
    cases done
    constructor
    · exact fun shape _ _ _ => shape.owned own
    · intro named
      have status : s.status ≠ .remote := by
        by_cases mine : s.ownerNodeId = localNodeId
        · exact h.owned mine
        · refine named own report (lt_of_le_of_ne newer fun same => ?_)
          exact level ⟨same.symm, fun eq => mine (eq.symm.trans own)⟩
      exact ⟨fun other => absurd own other, fun _ => status, h.process, h.group, h.pausedAt,
        h.resumeAt, h.resumeWallAt, h.pauseReason⟩

theorem shape_restoreLocalAfterFailure {generation : Nat} {error : String} :
    Shape localNodeId (restoreLocalAfterFailure localNodeId generation error s) :=
  Idle.shape_of_owned ⟨rfl, rfl, rfl, rfl, rfl, rfl, by simp [restoreLocalAfterFailure],
    by simp [restoreLocalAfterFailure]⟩ rfl (by simp [restoreLocalAfterFailure])

theorem after_ofExcept {P : TaskRuntimeState → Prop} {r : Except Exn TaskRuntimeState} (h : P s)
    (ok : ∀ t, r = .ok t → P t) : P ((Effect.ofExcept r).after s) := by
  cases r with
  | ok t => exact ok t rfl
  | error e => exact h

/-- An operation on a record of the right shape keeps it exactly when it has what it needs. -/
theorem shape_apply_iff (h : Shape localNodeId s) (o : Operation) :
    Shape localNodeId (o.apply localNodeId s) ↔ o.Keeps localNodeId s := by
  have always (shape : Shape localNodeId (o.apply localNodeId s)) :
      Shape localNodeId (o.apply localNodeId s) ↔ True := iff_of_true shape trivial
  cases o with
  | setArtifactDigests digests =>
      exact always (h.congr ⟨rfl, rfl, rfl, rfl, rfl, rfl, rfl, rfl⟩)
  | recordAccounting args => exact always (h.congr ⟨rfl, rfl, rfl, rfl, rfl, rfl, rfl, rfl⟩)
  | markRunning pid adapter command resumed now =>
      exact always (after_ofExcept (P := Shape localNodeId) h fun t done => shape_markRunning done)
  | markPaused pausedAt resumeAt resumeWallAt reason now =>
      exact always (after_ofExcept (P := Shape localNodeId) h fun t done => shape_markPaused h done)
  | markResumed now =>
      exact always (after_ofExcept (P := Shape localNodeId) h fun t done => shape_markResumed h done)
  | markStopped =>
      simp only [Operation.apply, Operation.perform, Operation.Keeps]
      by_cases completed : s.status = .completed
      · simp only [completed, if_true, Effect.after_keep, or_true, iff_true]
        exact h
      · simp only [completed, if_false, Effect.after_write, or_false]
        unfold Registry.markStopped
        rw [if_neg completed, Idle.shape_iff ⟨rfl, rfl, rfl, rfl, rfl, rfl, by simp, by simp⟩]
        simp
  | markMigrating m =>
      simp only [Operation.apply, Operation.perform, Operation.Keeps]
      cases done : markMigrating localNodeId m s with
      | ok t => exact shape_markMigrating_iff h done
      | error e =>
          refine iff_of_true h fun paused => ?_
          have own := h.owner_of_active (by simp [paused])
          unfold markMigrating at done
          rw [if_neg (not_not.mpr own), if_neg (by simp [paused])] at done
          cases done
  | markFailed error exitCode now =>
      simp only [Operation.apply, Operation.perform, Operation.Keeps]
      rw [Effect.after_write, Idle.shape_iff ⟨rfl, rfl, rfl, rfl, rfl, rfl, by simp [markFailed],
        by simp [markFailed]⟩]
      simp [markFailed]
  | scheduleRecovery recoverAt =>
      refine always ?_
      simp only [Operation.apply, Operation.perform]
      split
      · exact h
      · rename_i failed
        refine h.congr ?_
        rw [Effect.after_write, scheduleRecovery, if_neg failed]
        exact ⟨rfl, rfl, rfl, rfl, rfl, rfl, rfl, rfl⟩
  | beginRecovery =>
      exact always (after_ofExcept (P := Shape localNodeId) h fun t done => shape_beginRecovery h done)
  | markRecoveryExhausted error => exact shape_markRecoveryExhausted_iff h
  | markCompleted completedAt path sha bytes exitCode =>
      refine always ?_
      simp only [Operation.apply, Operation.perform, markCompleted]
      split
      · exact h
      · rename_i own
        exact Idle.shape_of_owned ⟨rfl, rfl, rfl, rfl, rfl, rfl, by simp [Effect.ofExcept],
          by simp [Effect.ofExcept]⟩ (not_not.mp own) (by simp [Effect.ofExcept])
  | claimLocal generation m digests at_ accounting =>
      refine always ?_
      simp only [Operation.apply, Operation.perform, claimLocal]
      split
      · exact h
      · exact Idle.shape_of_owned ⟨rfl, rfl, rfl, rfl, rfl, rfl, by simp [Effect.ofExcept],
          by simp [Effect.ofExcept]⟩ rfl (by simp [Effect.ofExcept])
  | markRemote owner generation m at_ =>
      simp only [Operation.apply, Operation.perform, Operation.Keeps]
      by_cases settled : s.generation = generation ∧ s.ownerNodeId = owner ∧ s.status = .completed
      · rw [if_pos settled, Effect.after_keep]
        exact iff_of_true h (.inr settled)
      · rw [if_neg settled, Effect.after_write, or_iff_left settled, markRemote, if_neg settled,
          Idle.shape_iff ⟨rfl, rfl, rfl, rfl, rfl, rfl, by simp, by simp⟩]
        simp
  | restoreLocalAfterFailure generation error =>
      exact always shape_restoreLocalAfterFailure
  | applyOwnership u =>
      simp only [Operation.apply, Operation.perform, Operation.Keeps]
      cases done : applyOwnership localNodeId u s with
      | none =>
          refine iff_of_true h fun own report newer remote => ?_
          unfold applyOwnership at done
          rw [if_neg (not_lt.mpr newer.le), if_neg (fun level => newer.ne' level.1),
            if_neg (fun level => newer.ne' level.1)] at done
          dsimp only at done
          split at done
          · cases done
          · split at done <;> cases done
      | some t => exact shape_applyOwnership_iff h done

end

/-! ## Sequences -/

/-- The record, and the copies of it that the migration service has taken. -/
structure Snapshots where
  state : TaskRuntimeState
  saved : List TaskRuntimeState := []

inductive Step where
  | operation (o : Operation)
  /-- The migration service keeps the state that it has read. -/
  | save
  /-- The write of `_rollback_source_record`, with the saved state of this number, if any. -/
  | rollbackSource (original : Option Nat) (generation : Nat) (reason : String)
  /-- The write of a rolled back activation, if it has saved a state. -/
  | rollbackDestination (original : Nat)

def Step.apply (localNodeId : NodeId) (x : Snapshots) : Step → Snapshots
  | .operation o => { x with state := o.apply localNodeId x.state }
  | .save => { x with saved := x.state :: x.saved }
  | .rollbackSource original generation reason =>
      match original.bind fun i => x.saved[i]? with
      | some original => { x with state := restoredState localNodeId generation reason original }
      | none => { x with
          state := restoreLocalAfterFailure localNodeId (generation - 1) reason x.state }
  | .rollbackDestination original =>
      match x.saved[original]? with
      | some original => { x with state := original }
      | none => x

/-- What a step needs to keep the shape: a rollback at the source needs a state that was saved
without a process. -/
def Step.Keeps (localNodeId : NodeId) (x : Snapshots) : Step → Prop
  | .operation o => o.Keeps localNodeId x.state
  | .rollbackSource original _ _ =>
      ∀ s, (original.bind fun i => x.saved[i]?) = some s → s.pid = none
  | _ => True

/-- The record has the right shape after each of the steps. -/
def AlwaysShaped (localNodeId : NodeId) : List Step → Snapshots → Prop
  | [], _ => True
  | step :: steps, x =>
      Shape localNodeId (step.apply localNodeId x).state ∧
        AlwaysShaped localNodeId steps (step.apply localNodeId x)

/-- Each of the steps has what it needs. -/
def AllKeep (localNodeId : NodeId) : List Step → Snapshots → Prop
  | [], _ => True
  | step :: steps, x =>
      step.Keeps localNodeId x ∧ AllKeep localNodeId steps (step.apply localNodeId x)

section

variable {localNodeId : NodeId} {x : Snapshots} {s : TaskRuntimeState}

theorem shape_initialState {taskId : TaskId} {owner : NodeId} {remaining : Option Rat} {cost : Rat} :
    Shape localNodeId (initialState localNodeId taskId owner remaining cost) := by
  by_cases own : owner = localNodeId
  · exact Idle.shape_of_owned ⟨rfl, rfl, rfl, rfl, rfl, rfl, by simp [initialState, own],
      by simp [initialState, own]⟩ own (by simp [initialState, own])
  · refine (Idle.shape_iff ⟨rfl, rfl, rfl, rfl, rfl, rfl, by simp [initialState, own],
      by simp [initialState, own]⟩).mpr ⟨fun _ => .inl (by simp [initialState, own]),
      fun same => absurd same own⟩

/-- The rollback at the source clears the pid and not the process group. -/
theorem shape_restoredState_iff {generation : Nat} {reason : String} (h : Shape localNodeId s) :
    Shape localNodeId (restoredState localNodeId generation reason s) ↔ s.pid = none := by
  constructor
  · intro shape
    have group : s.processGroupId = none := shape.group.mp rfl
    exact h.group.mpr group
  · intro pid
    have status : s.status ≠ .paused := fun paused => h.process (.inr paused) pid
    exact Idle.shape_of_owned ⟨rfl, h.group.mp pid, Shape.pause_none h.pausedAt status,
      Shape.pause_none h.resumeAt status, Shape.pause_none h.resumeWallAt status,
      Shape.pause_none h.pauseReason status, by simp [restoredState], by simp [restoredState]⟩ rfl
      (by simp [restoredState])

theorem shape_step_iff (h : Shape localNodeId x.state) (saved : ∀ s ∈ x.saved, Shape localNodeId s)
    (step : Step) : Shape localNodeId (step.apply localNodeId x).state ↔ step.Keeps localNodeId x := by
  cases step with
  | operation o => exact shape_apply_iff h o
  | save => exact iff_of_true h trivial
  | rollbackSource original generation reason =>
      simp only [Step.apply, Step.Keeps]
      cases found : original.bind fun i => x.saved[i]? with
      | none => simpa using shape_restoreLocalAfterFailure
      | some s =>
          obtain ⟨i, -, at_⟩ := Option.bind_eq_some_iff.mp found
          simpa using shape_restoredState_iff (saved s (List.mem_of_getElem? at_))
  | rollbackDestination original =>
      simp only [Step.apply, Step.Keeps, iff_true]
      cases found : x.saved[original]? with
      | none => exact h
      | some s => exact saved s (List.mem_of_getElem? found)

theorem saved_step (h : Shape localNodeId x.state) (saved : ∀ s ∈ x.saved, Shape localNodeId s)
    (step : Step) : ∀ s ∈ (step.apply localNodeId x).saved, Shape localNodeId s := by
  cases step with
  | operation o => exact saved
  | save => exact List.forall_mem_cons.mpr ⟨h, saved⟩
  | rollbackSource original generation reason =>
      simp only [Step.apply]
      split <;> exact saved
  | rollbackDestination original =>
      simp only [Step.apply]
      split <;> exact saved

theorem alwaysShaped_iff (h : Shape localNodeId x.state)
    (saved : ∀ s ∈ x.saved, Shape localNodeId s) (steps : List Step) :
    AlwaysShaped localNodeId steps x ↔ AllKeep localNodeId steps x := by
  induction steps generalizing x with
  | nil => exact Iff.rfl
  | cons step steps ih =>
      have one := shape_step_iff h saved step
      constructor
      · rintro ⟨shape, rest⟩
        exact ⟨one.mp shape, (ih shape (saved_step h saved step)).mp rest⟩
      · rintro ⟨keeps, rest⟩
        have shape := one.mpr keeps
        exact ⟨shape, (ih shape (saved_step h saved step)).mpr rest⟩

/-- From a freshly initialized record every record has the right shape if and only if every step has
what it needs. -/
theorem registry_shape_iff (localNodeId : NodeId) (taskId : TaskId) (owner : NodeId)
    (remaining : Option Rat) (cost : Rat) (steps : List Step) :
    AlwaysShaped localNodeId steps ⟨initialState localNodeId taskId owner remaining cost, []⟩ ↔
      AllKeep localNodeId steps ⟨initialState localNodeId taskId owner remaining cost, []⟩ :=
  alwaysShaped_iff shape_initialState (by simp) steps

end

/-- A migration of a running task that is rolled back. -/
def rolledBackSteps : List Step :=
  [.operation (.markRunning 7 none none false 0), .save, .operation (.markMigrating "m"),
    .operation .markStopped, .rollbackSource (some 0) 1 "not activated"]

/-- The rollback leaves the group of a process that the record no longer has. -/
theorem rollback_keepsGroup :
    ¬ AlwaysShaped "a" rolledBackSteps ⟨initialState "a" "t" "a" none 0, []⟩ := by
  intro shaped
  have last := shaped.2.2.2.2.1
  have group := last.group.mp rfl
  cases group

end Magellan.Registry
