import Magellan.Migration.Activation
import Magellan.Migration.SourceCrash

/-!
# A crash of the destination

A crash can fall anywhere in an activation or in its rollback. The directories on the disk and the
record in the journal are all that reconciliation has to go by when the daemon is up again.
-/

namespace Magellan.MigrationService

open Coroutine Coro

/-- The state that the record of the activation has saved. -/
def savedState (existing : Option MigrationRecord) (state : TaskRuntimeState) :
    Option TaskRuntimeState :=
  match existing with
  | none => some state
  | some record => record.originalState

/-- Where the checkpoint of `s` is: `(checkpoint, backup)` are the directories now. -/
inductive Phase (m : MigrationId) (s : NodeState) : Option Directory × Option Directory → Prop
  | kept : Phase m s (s.checkpoint, s.backups m)
  | cleared : Phase m s (s.checkpoint, none)
  | moved (checkpoint : Option Directory) : Phase m s (checkpoint, s.checkpoint)
  | swapped (b : Directory) (old : s.backups m = some b)
      (clear : s.checkpoint = none ∨ s.checkpoint = some []) : Phase m s (some b, none)

/-- The transaction is finished. -/
def Closed (found : Option MigrationRecord) : Prop :=
  ∃ record, found = some record ∧ record.status.isTerminal = true

/-- The record is there and has saved the state of `s`. -/
def Recorded (m : MigrationId) (s : NodeState) (found : Option MigrationRecord) : Prop :=
  ∃ record, found = some record ∧
    record.originalState = savedState (s.journal.get m) s.registry

/-- The directories satisfy `φ` and the record `ψ`. -/
def Stage (m : MigrationId) (φ : Option Directory × Option Directory → Prop)
    (ψ : Option MigrationRecord → Prop) (t : NodeState) : Prop :=
  φ (t.directories m) ∧ ψ (t.journal.get m)

/-- What a crash of an activation that began in `s` can leave. -/
def Crashable (m : MigrationId) (s t : NodeState) : Prop :=
  Closed (t.journal.get m) ∨ Stage m (Phase m s)
    (fun found => found = s.journal.get m ∨ Recorded m s found) t

def activationContract (n : NodeId) (m : MigrationId) (s : NodeState) :
    Contract Op Choice World where
  allowed _ _ _ := True
  rely := Elsewhere n
  inv := At n (Crashable m s)
  guar _ _ := True

section

variable {services : Services} {n : NodeId} {w v : World} {tr tr' : List (Op × Choice)}
  {request : MigrationActivationRequest} {m : MigrationId} {s : NodeState} {α β : Type}

theorem activation_op {o : Op} {A : NodeState → Prop} {B : o.Ret → NodeState → Prop}
    {E : NodeState → Prop}
    (h : ∀ {c w r v}, A (w.nodes n) → exec n o c w = some (r, v) → Crashable m s (v.nodes n) ∧
      (∀ a, r = .ok a → B a (v.nodes n)) ∧ ∀ e, r = .error e → E (v.nodes n)) :
    Triple (exec n) (activationContract n m s) (At n A) (await o) (fun a => At n (B a))
      fun _ => At n E := by
  refine .op (stable_at id _) (fun a => stable_at id _) (fun _ => stable_at id _)
    fun w c r v a _ _ step => ?_
  obtain ⟨inv, ok, err⟩ := h a step
  refine ⟨inv, trivial, ?_⟩
  cases r with
  | ok a => exact ok a rfl
  | error e => exact err e rfl

theorem quiet_stage {p : Async α} {φ : Option Directory × Option Directory → Prop}
    {ψ : Option MigrationRecord → Prop} (crashable : ∀ t, Stage m φ ψ t → Crashable m s t)
    (quiet : p.Performs fun o => o.isDirectoryOp = false ∧ o.isJournalWrite = false) :
    Triple (exec n) (activationContract n m s) (At n (Stage m φ ψ)) p
      (fun _ => At n (Stage m φ ψ)) fun _ => At n (Stage m φ ψ) := by
  refine .of_performs (stable_at id _) quiet fun o ok w c r v stage _ _ step => ?_
  have stage' : Stage m φ ψ (v.nodes n) := by
    unfold Stage
    rw [exec_directories ok.1 step, exec_journal ok.2 step]
    exact stage
  cases r <;> exact ⟨crashable _ stage', trivial, stage'⟩

theorem moved_stage {p : Async α}
    (quiet : p.Performs fun o => o.isBackupOp = false ∧ o.isJournalWrite = false) :
    Triple (exec n) (activationContract n m s) (At n (Stage m (·.2 = s.checkpoint) (Recorded m s))) p
      (fun _ => At n (Stage m (·.2 = s.checkpoint) (Recorded m s)))
      fun _ => At n (Stage m (·.2 = s.checkpoint) (Recorded m s)) := by
  refine .of_performs (stable_at id _) quiet fun o ok w c r v stage _ _ step => ?_
  have backups : (v.nodes n).backups = (w.nodes n).backups := exec_backups ok.1 step
  have stage' : Stage m (·.2 = s.checkpoint) (Recorded m s) (v.nodes n) := by
    refine ⟨?_, ?_⟩
    · change (v.nodes n).backups m = s.checkpoint
      rw [backups]
      exact stage.1
    · rw [exec_journal ok.2 step]
      exact stage.2
  have crashable : Crashable m s (v.nodes n) := by
    refine .inr ⟨?_, .inr stage'.2⟩
    have backup : (v.nodes n).backups m = s.checkpoint := stage'.1
    rw [NodeState.directories, backup]
    exact .moved _
  cases r <;> exact ⟨crashable, trivial, stage'⟩

/-! ## The steps of an activation -/

/-- The stages of the transaction. -/
abbrev Holding (m : MigrationId) (s : NodeState) (d : Option Directory × Option Directory) :
    NodeState → Prop := Stage m (· = d) (Recorded m s)

abbrev Moved (m : MigrationId) (s : NodeState) : NodeState → Prop :=
  Stage m (·.2 = s.checkpoint) (Recorded m s)

abbrev Undoing (m : MigrationId) (s : NodeState) : NodeState → Prop :=
  Stage m (Phase m s) (Recorded m s)

theorem phase_moved {d : Option Directory × Option Directory} (h : d.2 = s.checkpoint) :
    Phase m s d := by
  obtain ⟨checkpoint, backup⟩ := d
  cases h
  exact .moved checkpoint

theorem crashable_undoing {t : NodeState} (h : Undoing m s t) : Crashable m s t :=
  .inr ⟨h.1, .inr h.2⟩

theorem crashable_moved {t : NodeState} (h : Moved m s t) : Crashable m s t :=
  .inr ⟨phase_moved h.1, .inr h.2⟩

theorem undoing_of_moved {t : NodeState} (h : Moved m s t) : Undoing m s t := ⟨phase_moved h.1, h.2⟩

theorem Phase.renamed {x : Option Directory × Option Directory} {d : Directory}
    (h : Phase m s x) (backup : x.2 = some d) (clear : x.1 = none ∨ x.1 = some []) :
    Phase m s (some d, none) := by
  cases h with
  | kept => exact .swapped d backup clear
  | cleared => cases backup
  | moved checkpoint =>
      have backup : s.checkpoint = some d := backup
      rw [← backup]
      exact .cleared
  | swapped b old clear => cases backup

theorem renameFromBackup_stage :
    Triple (exec n) (activationContract n m s) (At n (Undoing m s)) (await (.renameFromBackup m))
      (fun _ => At n (Undoing m s)) fun _ => At n (Undoing m s) := by
  refine activation_op fun {c w r v} stage step => ?_
  have journal : (v.nodes n).journal = (w.nodes n).journal := exec_journal rfl step
  suffices undoing : Undoing m s (v.nodes n) from
    ⟨crashable_undoing undoing, fun _ _ => undoing, fun _ _ => undoing⟩
  rcases exec_renameFromBackup step with ⟨-, rfl⟩ | ⟨-, -, rfl⟩ | ⟨d, x, xs, -, -, -, rfl⟩ |
    ⟨d, backup, clear, -, rfl⟩
  · exact stage
  · exact stage
  · exact stage
  · refine ⟨?_, by rw [journal]; exact stage.2⟩
    have after : ((w.modify n (NodeState.restoreBackup m d)).nodes n).directories m =
        (some d, none) := by
      rw [World.modify_self]
      simp [NodeState.directories, NodeState.restoreBackup]
    rw [after]
    exact Phase.renamed stage.1 backup clear

/-- What a rollback leaves, whatever becomes of its record. -/
theorem rolledBack_stage {error : Option String} :
    Triple (exec n) (activationContract n m s) (At n (Undoing m s))
      (await (.setRecordStatus m .rolledBack none error)) (fun _ => At n (Crashable m s))
      fun _ => At n (Crashable m s) := by
  refine activation_op fun {c w r v} stage step => ?_
  suffices crashable : Crashable m s (v.nodes n) from
    ⟨crashable, fun _ _ => crashable, fun _ _ => crashable⟩
  rcases exec_recordStatus step with ⟨-, rfl⟩ | ⟨-, ⟨-, rfl⟩ | ⟨record, found, rfl⟩⟩
  · exact crashable_undoing stage
  · exact crashable_undoing stage
  · refine .inl ⟨{ record with status := .rolledBack, pid := none, error := error }, ?_, rfl⟩
    rw [World.putRecord_self]
    have named : record.migrationId = m := Journal.get_migrationId found
    simp [named]

theorem quiet_crashable {p : Async α}
    (quiet : p.Performs fun o => o.isDirectoryOp = false ∧ o.isJournalWrite = false) :
    Triple (exec n) (activationContract n m s) (At n (Crashable m s)) p
      (fun _ => At n (Crashable m s)) fun _ => At n (Crashable m s) := by
  refine .of_performs (stable_at id _) quiet fun o ok w c r v crashable _ _ step => ?_
  have crashable' : Crashable m s (v.nodes n) := by
    unfold Crashable Stage
    rw [exec_directories ok.1 step, exec_journal ok.2 step]
    exact crashable
  cases r <;> exact ⟨crashable', trivial, crashable'⟩

theorem ignoreErrors_quiet {p : Async Unit}
    (quiet : p.Performs fun o => o.isDirectoryOp = false ∧ o.isJournalWrite = false) :
    (ignoreErrors p).Performs fun o => o.isDirectoryOp = false ∧ o.isJournalWrite = false :=
  .tryExcept quiet fun _ => .pure _

theorem quiet_of_isStopOp {o : Op} (h : LocalProcess.isStopOp o = true) :
    o.isDirectoryOp = false ∧ o.isJournalWrite = false := by
  cases o <;> first | exact ⟨rfl, rfl⟩ | cases h

theorem stopTask_quiet :
    (ignoreErrors stopTask).Performs fun o => o.isDirectoryOp = false ∧ o.isJournalWrite = false :=
  ignoreErrors_quiet (.bind (LocalProcess.stop_performs.mono fun _ => quiet_of_isStopOp)
    fun _ => .pure _)

theorem rollbackActivation_stage {originalState : TaskRuntimeState} {replaced started : Bool}
    {e : Exn} : Triple (exec n) (activationContract n request.migrationId s)
      (At n fun t => if replaced then Moved request.migrationId s t
        else Undoing request.migrationId s t)
      (rollbackActivation n request originalState replaced started e)
      (fun _ => At n (Crashable request.migrationId s))
      fun _ => At n (Crashable request.migrationId s) := by
  have finish : Triple (exec n) (activationContract n request.migrationId s)
      (At n (Undoing request.migrationId s)) (do
        ifBackupExists request.migrationId (await (.renameFromBackup request.migrationId))
        let _ ← await (.registry (.setState originalState))
        await (.setRecordStatus request.migrationId .rolledBack none (some e.describe))
        ignoreErrors (cancelBid request.bidId
          s!"Destination activation rolled back: {e.describe}")
        await (.removeIncoming request.migrationId)
        pure (activationResponse n request false none (some e.describe)))
      (fun _ => At n (Crashable request.migrationId s))
      fun _ => At n (Crashable request.migrationId s) := by
    have raised {α : Type} {A : NodeState → Prop} {p : Async α} {B : α → World → Prop}
        (h : Triple (exec n) (activationContract n request.migrationId s) (At n A) p B
          fun _ => At n (Undoing request.migrationId s)) :
        Triple (exec n) (activationContract n request.migrationId s) (At n A) p B
          fun _ => At n (Crashable request.migrationId s) :=
      h.weaken (fun _ a => a) (fun _ _ b => b) fun _ _ undoing => crashable_undoing undoing
    refine .bind (B := fun _ => At n (Undoing request.migrationId s)) (raised ?_) fun _ => ?_
    · refine .bind (quiet_stage (fun _ => crashable_undoing) (.op ⟨rfl, rfl⟩)) fun found => ?_
      exact .ite (fun _ => renameFromBackup_stage)
        fun _ => .pure (stable_at id _) fun _ undoing => undoing
    refine .bind (raised (quiet_stage (fun _ => crashable_undoing) (.op ⟨rfl, rfl⟩))) fun _ => ?_
    refine .bind rolledBack_stage fun _ => quiet_crashable (.bind (ignoreErrors_quiet
      (.bind (.op ⟨rfl, rfl⟩) fun _ => .pure _)) fun _ => .bind (.op ⟨rfl, rfl⟩) fun _ => .pure _)
  cases replaced with
  | false =>
      have stopped : Triple (exec n) (activationContract n request.migrationId s)
          (At n (Undoing request.migrationId s)) (onlyIf started (ignoreErrors stopTask))
          (fun _ => At n (Undoing request.migrationId s))
          fun _ => At n (Crashable request.migrationId s) :=
        (quiet_stage (fun _ => crashable_undoing) (.ite stopTask_quiet (.pure _))).weaken
          (fun _ a => a) (fun _ _ b => b) fun _ _ undoing => crashable_undoing undoing
      refine .bind stopped fun _ => .bind (B := fun _ => At n (Undoing request.migrationId s)) ?_
        fun _ => finish
      exact .pure (stable_at id _) fun _ undoing => undoing
  | true =>
      have stopped : Triple (exec n) (activationContract n request.migrationId s)
          (At n (Moved request.migrationId s)) (onlyIf started (ignoreErrors stopTask))
          (fun _ => At n (Moved request.migrationId s))
          fun _ => At n (Crashable request.migrationId s) :=
        (quiet_stage (fun _ => crashable_moved) (.ite stopTask_quiet (.pure _))).weaken
          (fun _ a => a) (fun _ _ b => b) fun _ _ moved => crashable_moved moved
      refine .bind stopped fun _ => .bind (B := fun _ => At n (Undoing request.migrationId s)) ?_
        fun _ => finish
      refine Triple.weaken (p := ifCheckpointExists (await .removeCheckpoint)) (moved_stage ?_)
        (fun _ a => a) (fun _ _ moved => undoing_of_moved moved)
        fun _ _ moved => crashable_moved moved
      exact .bind (.op ⟨rfl, rfl⟩) fun _ => .ite (.op ⟨rfl, rfl⟩) (.pure _)

/-! ## The transaction -/

theorem removeBackup_stage :
    Triple (exec n) (activationContract n m s) (At n (Holding m s (s.checkpoint, s.backups m)))
      (ifBackupExists m (await (.removeBackup m false)))
      (fun _ => At n (Holding m s (s.checkpoint, none))) fun _ => At n (Undoing m s) := by
  have undoing {t : NodeState} (h : Holding m s (s.checkpoint, s.backups m) t) : Undoing m s t :=
    ⟨by rw [h.1]; exact .kept, h.2⟩
  refine .bind (B := fun found => At n fun t =>
      Holding m s (s.checkpoint, s.backups m) t ∧ found = (s.backups m).isSome) ?_ fun found => ?_
  · refine activation_op fun {c w r v} stage step => ?_
    obtain ⟨rfl, rfl⟩ := exec_backupExists step
    have backup : (v.nodes n).backups m = s.backups m := congrArg Prod.snd stage.1
    exact ⟨crashable_undoing (undoing stage), fun a eq => ⟨stage, by cases eq; rw [backup]⟩,
      fun e eq => by cases eq⟩
  refine .ite (fun exists_ => ?_) fun absent => ?_
  · refine activation_op fun {c w r v} stage step => ?_
    have journal : (v.nodes n).journal = (w.nodes n).journal := exec_journal rfl step
    rcases exec_removeBackup step with ⟨⟨e, -, rfl⟩, rfl⟩ | ⟨-, rfl, rfl⟩
    · exact ⟨crashable_undoing (undoing stage.1), fun a eq => (by cases eq),
        fun _ _ => undoing stage.1⟩
    · have cleared : Holding m s (s.checkpoint, none)
          ((w.modify n (NodeState.dropBackup m)).nodes n) := by
        refine ⟨?_, by rw [journal]; exact stage.1.2⟩
        have checkpoint : (w.nodes n).checkpoint = s.checkpoint := congrArg Prod.fst stage.1.1
        rw [World.modify_self]
        simp [NodeState.directories, NodeState.dropBackup, checkpoint]
      exact ⟨crashable_undoing ⟨by rw [cleared.1]; exact .cleared, cleared.2⟩, fun _ _ => cleared,
        fun e eq => by cases eq⟩
  · refine .pure (stable_at id _) fun w stage => ?_
    have none_ : s.backups m = none := by
      have empty : (s.backups m).isSome = false := by
        rw [← stage.2]
        simpa using absent
      simpa using empty
    exact none_ ▸ stage.1

theorem renameToBackup_stage :
    Triple (exec n) (activationContract n m s) (At n (Holding m s (s.checkpoint, none)))
      (ifCheckpointExists (await (.renameToBackup m)))
      (fun _ => At n (Holding m s (none, s.checkpoint))) fun _ => At n (Undoing m s) := by
  have undoing {t : NodeState} (h : Holding m s (s.checkpoint, none) t) : Undoing m s t :=
    ⟨by rw [h.1]; exact .cleared, h.2⟩
  refine .bind (B := fun found => At n fun t =>
      Holding m s (s.checkpoint, none) t ∧ found = s.checkpoint.isSome) ?_ fun found => ?_
  · refine activation_op fun {c w r v} stage step => ?_
    obtain ⟨rfl, rfl⟩ := exec_checkpointExists step
    have checkpoint : (v.nodes n).checkpoint = s.checkpoint := congrArg Prod.fst stage.1
    exact ⟨crashable_undoing (undoing stage), fun a eq => ⟨stage, by cases eq; rw [checkpoint]⟩,
      fun e eq => by cases eq⟩
  refine .ite (fun exists_ => ?_) fun absent => ?_
  · refine activation_op fun {c w r v} stage step => ?_
    have journal : (v.nodes n).journal = (w.nodes n).journal := exec_journal rfl step
    rcases exec_renameToBackup step with ⟨e, rfl, rfl⟩ | ⟨d, found, rfl, rfl⟩
    · exact ⟨crashable_undoing (undoing stage.1), fun a eq => (by cases eq),
        fun _ _ => undoing stage.1⟩
    · have moved : Holding m s (none, s.checkpoint)
          ((w.modify n (NodeState.makeBackup m d)).nodes n) := by
        refine ⟨?_, by rw [journal]; exact stage.1.2⟩
        have checkpoint : (w.nodes n).checkpoint = s.checkpoint := congrArg Prod.fst stage.1.1
        rw [World.modify_self]
        simp [NodeState.directories, NodeState.makeBackup, ← checkpoint, found]
      exact ⟨crashable_undoing ⟨by rw [moved.1]; exact .moved _, moved.2⟩, fun _ _ => moved,
        fun e eq => by cases eq⟩
  · refine .pure (stable_at id _) fun w stage => ?_
    have none_ : s.checkpoint = none := by
      have empty : s.checkpoint.isSome = false := by
        rw [← stage.2]
        simpa using absent
      simpa using empty
    have here := stage.1
    unfold Holding at here ⊢
    rw [none_] at here ⊢
    exact here

theorem replaceCheckpoint_stage :
    Triple (exec n) (activationContract n request.migrationId s)
      (At n (Holding request.migrationId s (s.checkpoint, s.backups request.migrationId)))
      (replaceCheckpoint request) (fun _ => At n (Moved request.migrationId s))
      fun _ => At n (Undoing request.migrationId s) := by
  have undoing {t : NodeState} (h : Holding request.migrationId s
      (s.checkpoint, s.backups request.migrationId) t) : Undoing request.migrationId s t :=
    ⟨by rw [h.1]; exact .kept, h.2⟩
  have quiet {α : Type} {p : Async α} (performs : p.Performs fun o =>
      o.isDirectoryOp = false ∧ o.isJournalWrite = false) :
      Triple (exec n) (activationContract n request.migrationId s)
        (At n (Holding request.migrationId s (s.checkpoint, s.backups request.migrationId))) p
        (fun _ => At n (Holding request.migrationId s
          (s.checkpoint, s.backups request.migrationId)))
        fun _ => At n (Undoing request.migrationId s) :=
    (quiet_stage (fun _ h => crashable_undoing (undoing h)) performs).weaken (fun _ a => a)
      (fun _ _ b => b) fun _ _ h => undoing h
  refine .bind (quiet (.op ⟨rfl, rfl⟩)) fun _ => .bind (quiet (.op ⟨rfl, rfl⟩)) fun found => ?_
  refine .bind (quiet (.ite (.raise _) (.pure _))) fun _ => .bind (quiet (.op ⟨rfl, rfl⟩)) fun _ => ?_
  refine .bind removeBackup_stage fun _ => .bind renameToBackup_stage fun _ => ?_
  refine Triple.weaken (moved_stage (.op ⟨rfl, rfl⟩)) (fun w stage => ?_) (fun _ _ moved => moved)
    fun _ _ moved => undoing_of_moved moved
  have holding : Holding request.migrationId s (none, s.checkpoint) (w.nodes n) := stage
  exact ⟨congrArg Prod.snd holding.1, holding.2⟩

theorem moves_of_isStartOp {o : Op} (h : LocalProcess.isStartOp o = true) :
    o.isBackupOp = false ∧ o.isJournalWrite = false := by
  cases o <;> first | exact ⟨rfl, rfl⟩ | cases h

theorem claimAndStart_stage :
    Triple (exec n) (activationContract n request.migrationId s)
      (At n (Moved request.migrationId s)) (claimAndStart n request)
      (fun _ => At n (Moved request.migrationId s)) fun _ => At n (Moved request.migrationId s) :=
  moved_stage (.bind (.op ⟨rfl, rfl⟩) fun _ => .bind (.op ⟨rfl, rfl⟩) fun _ =>
    .bind (.op ⟨rfl, rfl⟩) fun _ => (LocalProcess.start_performs n).mono fun _ => moves_of_isStartOp)

theorem closed_op {o : Op} (journal : o.isJournalWrite = false)
    (silent : ∀ {c w e v}, exec n o c w ≠ some (.error e, v)) :
    Triple (exec n) (activationContract n m s) (At n fun t => Closed (t.journal.get m)) (await o)
      (fun _ => At n fun t => Closed (t.journal.get m)) fun _ => At n (Moved m s) := by
  refine activation_op fun {c w r v} closed step => ?_
  have closed' : Closed ((v.nodes n).journal.get m) := by
    rw [exec_journal journal step]
    exact closed
  refine ⟨.inl closed', fun _ _ => closed', fun e eq => ?_⟩
  rw [eq] at step
  exact absurd step silent

theorem commitActivation_stage {runtimeState : TaskRuntimeState} :
    Triple (exec n) (activationContract n request.migrationId s)
      (At n (Moved request.migrationId s)) (commitActivation services n request runtimeState)
      (fun _ => At n (Crashable request.migrationId s))
      fun _ => At n (Moved request.migrationId s) := by
  refine .bind (moved_stage (mergeRequestPolicy_performs fun _ => ⟨rfl, rfl⟩)) fun _ =>
    .bind (moved_stage (.op ⟨rfl, rfl⟩)) fun _ => ?_
  refine .bind (B := fun _ => At n fun t => Closed (t.journal.get request.migrationId)) ?_
    fun _ => ?_
  · refine activation_op fun {c w r v} moved step => ?_
    rcases exec_recordStatus step with ⟨⟨e, -, rfl⟩, rfl⟩ | ⟨rfl, ⟨absent, -⟩ | ⟨record, found, rfl⟩⟩
    · exact ⟨crashable_moved moved, fun a eq => (by cases eq), fun _ _ => moved⟩
    · obtain ⟨record, found, -⟩ := moved.2
      rw [absent] at found
      cases found
    · have named : record.migrationId = request.migrationId := Journal.get_migrationId found
      have closed : Closed (((w.putRecord n { record with
          status := .activated, pid := runtimeState.pid, error := none }).nodes n).journal.get
            request.migrationId) := by
        refine ⟨{ record with status := .activated, pid := runtimeState.pid, error := none }, ?_,
          rfl⟩
        rw [World.putRecord_self]
        simp [named]
      exact ⟨.inl closed, fun _ _ => closed, fun e eq => by cases eq⟩
  refine .bind (B := fun _ => At n fun t => Closed (t.journal.get request.migrationId)) ?_
    fun _ => ?_
  · refine .bind (closed_op rfl fun step => ?_) fun found => .ite (fun _ => closed_op rfl
      fun step => ?_) fun _ => .pure (stable_at id _) fun _ closed => closed
    · cases (exec_backupExists step).1
    · rcases exec_removeBackup step with ⟨⟨e, rfl, -⟩, -⟩ | ⟨-, eq, -⟩
      · cases (exec_fail step).2.2
      · cases eq
  refine .bind (closed_op rfl fun step => ?_) fun _ => .pure (stable_at id _) fun _ closed =>
    .inl closed
  cases (exec_removeIncoming step).1

theorem activationTransaction_stage {originalState : TaskRuntimeState} :
    Triple (exec n) (activationContract n request.migrationId s)
      (At n (Holding request.migrationId s (s.checkpoint, s.backups request.migrationId)))
      (activationTransaction services n request originalState)
      (fun _ => At n (Crashable request.migrationId s))
      fun _ => At n (Crashable request.migrationId s) := by
  refine .attempt replaceCheckpoint_stage (fun _ => ?_) fun _ =>
    Triple.pre rollbackActivation_stage fun _ undoing => undoing
  refine .attempt claimAndStart_stage (fun state => ?_) fun _ =>
    Triple.pre rollbackActivation_stage fun _ moved => moved
  exact .tryExcept commitActivation_stage fun _ =>
    Triple.pre rollbackActivation_stage fun _ moved => moved

/-! ## The activation -/

/-- Before the record is opened. -/
abbrev Before (m : MigrationId) (s t : NodeState) : Prop :=
  t.files m = s.files m ∧ t.journal = s.journal

theorem crashable_before {t : NodeState} (h : Before m s t) : Crashable m s t := by
  have checkpoint : t.checkpoint = s.checkpoint := congrArg Files.checkpoint h.1
  have backup : t.backups m = s.backups m := congrArg Files.backup h.1
  refine .inr ⟨?_, .inl (by rw [h.2])⟩
  rw [NodeState.directories, checkpoint, backup]
  exact .kept

theorem before_op {o : Op} {B : o.Ret → Prop} (files : o.isFileOp = false)
    (journal : o.isJournalWrite = false)
    (returns : ∀ {c w a v}, Before m s (w.nodes n) → exec n o c w = some (.ok a, v) → B a) :
    Triple (exec n) (activationContract n m s) (At n (Before m s)) (await o)
      (fun a => At n fun t => B a ∧ Before m s t) fun _ => At n (Crashable m s) := by
  refine activation_op fun {c w r v} before step => ?_
  have before' : Before m s (v.nodes n) := by
    unfold Before
    rw [exec_files files step, exec_journal journal step]
    exact before
  exact ⟨crashable_before before', fun a eq => ⟨returns before (eq ▸ step), before'⟩,
    fun _ _ => crashable_before before'⟩

theorem before_quiet {p : Async α}
    (quiet : p.Performs fun o => o.isFileOp = false ∧ o.isJournalWrite = false) :
    Triple (exec n) (activationContract n m s) (At n (Before m s)) p
      (fun _ => At n (Before m s)) fun _ => At n (Crashable m s) := by
  refine Triple.weaken (.of_performs (stable_at id _) quiet fun o ok w c r v before _ _ step => ?_)
    (fun _ a => a) (fun _ _ b => b) fun _ _ before => crashable_before before
  have before' : Before m s (v.nodes n) := by
    unfold Before
    rw [exec_files ok.1 step, exec_journal ok.2 step]
    exact before
  cases r <;> exact ⟨crashable_before before', trivial, before'⟩

theorem putRecord_stage :
    Triple (exec n) (activationContract n request.migrationId s)
      (At n (Before request.migrationId s))
      (putRecord (s.journal.get request.migrationId)
        (destinationRecord request .activating (some s.registry) none))
      (fun _ => At n (Holding request.migrationId s
        (s.checkpoint, s.backups request.migrationId)))
      fun _ => At n (Crashable request.migrationId s) := by
  have written {w : World} (record : MigrationRecord) (before : Before request.migrationId s (w.nodes n))
      (named : record.migrationId = request.migrationId)
      (saved : record.originalState = savedState (s.journal.get request.migrationId) s.registry) :
      Holding request.migrationId s (s.checkpoint, s.backups request.migrationId)
        ((w.putRecord n record).nodes n) := by
    have checkpoint : (w.nodes n).checkpoint = s.checkpoint := congrArg Files.checkpoint before.1
    have backup : (w.nodes n).backups request.migrationId = s.backups request.migrationId :=
      congrArg Files.backup before.1
    rw [World.putRecord_self]
    refine ⟨?_, record, by simp [named], saved⟩
    rw [← checkpoint, ← backup]
    rfl
  have crashable {t : NodeState} (h : Holding request.migrationId s
      (s.checkpoint, s.backups request.migrationId) t) : Crashable request.migrationId s t :=
    crashable_undoing ⟨by rw [h.1]; exact .kept, h.2⟩
  unfold putRecord
  split
  · rename_i absent
    refine activation_op fun {c w r v} before step => ?_
    rcases exec_journalPut step with ⟨⟨e, -, rfl⟩, rfl⟩ | ⟨rfl, rfl⟩
    · exact ⟨crashable_before before, fun a eq => (by cases eq), fun _ _ => crashable_before before⟩
    · have holding := written (destinationRecord request .activating (some s.registry) none)
        before rfl (by rw [absent]; rfl)
      exact ⟨crashable holding, fun _ _ => holding, fun e eq => by cases eq⟩
  · rename_i existing found
    refine activation_op fun {c w r v} before step => ?_
    have same : (w.nodes n).journal = s.journal := before.2
    rcases exec_recordStatus step with ⟨⟨e, -, rfl⟩, rfl⟩ | ⟨rfl, ⟨absent, -⟩ | ⟨record, here, rfl⟩⟩
    · exact ⟨crashable_before before, fun a eq => (by cases eq), fun _ _ => crashable_before before⟩
    · rw [same] at absent
      exact absurd (found.symm.trans absent) (by simp)
    · rw [same] at here
      have eq : record = existing := Option.some.inj (here.symm.trans found)
      have named : record.migrationId = request.migrationId := Journal.get_migrationId here
      have holding := written { record with
        status := .activating, pid := none, error := none } before named (by rw [eq, found]; rfl)
      exact ⟨crashable holding, fun _ _ => holding, fun e eq => by cases eq⟩

theorem activateIncoming_stage (fresh : isRetry n request s.registry = false) :
    Triple (exec n) (activationContract n request.migrationId s)
      (At n (Before request.migrationId s)) (activateIncoming services n request)
      (fun _ => At n (Crashable request.migrationId s))
      fun _ => At n (Crashable request.migrationId s) := by
  have ended {response : MigrationActivationResponse} :
      Triple (exec n) (activationContract n request.migrationId s)
        (At n (Before request.migrationId s)) (pure response : Async MigrationActivationResponse)
        (fun _ => At n (Crashable request.migrationId s))
        fun _ => At n (Crashable request.migrationId s) :=
    .pure (stable_at id _) fun _ before => crashable_before before
  refine .ite (fun _ => ended) fun _ => ?_
  refine .bind (before_op (B := (· = s.registry)) rfl rfl fun before step => ?_) fun state =>
    .given fun known => ?_
  · rcases exec_getState step with ⟨⟨e, -, eq⟩, -⟩ | ⟨eq, -⟩
    · cases eq
    · cases eq
      exact congrArg Files.registry before.1
  refine .bind (before_op (B := (· = s.journal.get request.migrationId)) rfl rfl
    fun before step => ?_) fun existing => .given fun looked => ?_
  · rcases exec_journalGet step with ⟨⟨e, -, eq⟩, -⟩ | ⟨eq, -⟩
    · cases eq
    · cases eq
      rw [before.2]
  subst known looked
  refine .bind (before_quiet (mergeRequestPolicy_performs fun _ => ⟨rfl, rfl⟩)) fun _ => ?_
  rw [if_neg (by simp [fresh])]
  refine .ite (fun _ => ended) fun _ => ?_
  exact .bind putRecord_stage fun _ => activationTransaction_stage

theorem crashable_of_reach {q : Async MigrationActivationResponse}
    (fresh : isRetry n request (w.nodes n).registry = false)
    (h : Reach (exec n) (Elsewhere n) (activateIncoming services n request) w tr q v) :
    Crashable request.migrationId (w.nodes n) (v.nodes n) := by
  have stable : (activationContract n request.migrationId (w.nodes n)).Stable
      (At n (Crashable request.migrationId (w.nodes n))) := stable_at id _
  exact ((activateIncoming_stage fresh (w := w) ⟨rfl, rfl⟩).reach id stable
    (crashable_before ⟨rfl, rfl⟩) h fun _ _ _ => trivial).1

/-! ## The recovery -/

/-- The process that the interrupted activation has recorded is stopped. -/
def halted (n : NodeId) (m : MigrationId) (state : TaskRuntimeState) : TaskRuntimeState :=
  if state.lastMigrationId = some m ∧ state.ownerNodeId = n ∧ state.pid ≠ none then
    Registry.markStopped state
  else state

/-- Stopping a process goes through. -/
def Stops (tr : List (Op × Choice)) : Prop :=
  ∀ x ∈ tr, LocalProcess.isStopOp x.1 = true → x.2.isFail = false

theorem Stops.left (h : Stops (tr ++ tr')) : Stops tr :=
  fun x mem => h x (List.mem_append_left _ mem)

theorem markStopped_run {r : Except Exn TaskRuntimeState}
    (h : Runs n (await (.registry .markStopped)) w tr r v) (stops : Stops tr) :
    (v.nodes n).registry = Registry.markStopped (w.nodes n).registry := by
  obtain ⟨c, tr', a, u, u', rfl, here, marked, rest⟩ := perform_local h
  have last := (done_local rest).2.2
  have fine : c.isFail = false := stops (.registry .markStopped, c) (by simp) rfl
  rcases exec_registry marked with ⟨⟨e, rfl, -⟩, -⟩ | ⟨now, -, applied, written⟩
  · cases fine
  cases applied
  rcases written with ⟨e, raised, -⟩ | ⟨state, returned, rfl⟩
  · cases raised
  · cases returned
    rw [last, World.putState_self, here]

theorem stop_run {r : Except Exn TaskRuntimeState} (h : Runs n LocalProcess.stop w tr r v)
    (stops : Stops tr) : (v.nodes n).registry = Registry.markStopped (w.nodes n).registry := by
  obtain ⟨c, tr₁, a, u, u₁, rfl, here, read, rest⟩ := perform_local h
  have fine : c.isFail = false := stops (.getState, c) (by simp) rfl
  have stops₁ : Stops tr₁ := fun x mem => stops x (List.mem_cons_of_mem _ mem)
  rcases exec_getState read with ⟨⟨e, rfl, -⟩, -⟩ | ⟨rfl, rfl⟩
  · cases fine
  dsimp only [andThen_done] at rest
  rw [← here]
  split at rest
  · rename_i completed
    have last := (done_local rest).2.2
    rw [last, Registry.markStopped, if_pos completed]
  split at rest
  · exact markStopped_run rest stops₁
  · rename_i pid recorded
    obtain ⟨c', tr₂, a, u₂, u₃, rfl, here', killed, rest⟩ := perform_local rest
    have fine' : c'.isFail = false := stops₁ (.terminate pid, c') (by simp) rfl
    rcases exec_terminate killed with ⟨⟨e, rfl, -⟩, -⟩ | ⟨rfl, rfl⟩
    · cases fine'
    · rw [markStopped_run rest fun x mem => stops₁ x (List.mem_cons_of_mem _ mem),
        World.modify_self, here']

theorem stopTask_run {r : Except Exn Unit} (h : Runs n (ignoreErrors stopTask) w tr r v)
    (stops : Stops tr) : (v.nodes n).registry = Registry.markStopped (w.nodes n).registry := by
  obtain ⟨a, tr₁, tr₂, u, rfl, first, rest⟩ := andThen_local h
  have last : v.nodes n = u.nodes n := by
    cases a with
    | ok x => exact (done_local rest).2.2
    | error e => exact (done_local rest).2.2
  obtain ⟨b, tr₃, tr₄, u', rfl, stopping, rest'⟩ := bind_run first
  have last' : u.nodes n = u'.nodes n := by
    rcases rest' with ⟨e, -, -, -, last'⟩ | ⟨x, -, rest'⟩
    · exact last'
    · exact (done_local rest').2.2
  rw [last, last', stop_run stopping stops.left.left]

theorem restoreDirectory_run
    (h : Runs n (ifBackupExists m do
      ifCheckpointExists (await .removeCheckpoint)
      await (.renameFromBackup m)) w tr (.ok ()) v) :
    (v.nodes n).registry = (w.nodes n).registry ∧
      (v.nodes n).checkpoint = ((w.nodes n).backups m <|> (w.nodes n).checkpoint) := by
  obtain ⟨c, tr₁, a, u, u₁, rfl, here, found, rest⟩ := perform_local h
  obtain ⟨rfl, rfl⟩ := exec_backupExists found
  rw [← here]
  cases backup : (u₁.nodes n).backups m with
  | none =>
      simp only [andThen_done, backup, onlyIf] at rest
      have last := (done_local rest).2.2
      rw [last]
      exact ⟨rfl, rfl⟩
  | some b =>
      simp only [andThen_done, backup, onlyIf, Option.isSome_some, if_true] at rest
      obtain ⟨a, tr₂, tr₃, u₂, rfl, removing, ⟨e, -, eq, -⟩ | ⟨_, rfl, rest⟩⟩ := bind_run rest
      · cases eq
      have removing : Runs n (onlyIf (true = true) (ifCheckpointExists (await .removeCheckpoint)))
          u₁ tr₂ (.ok ()) u₂ := removing
      obtain ⟨-, removed⟩ := removeCheckpoint_run (m := m) removing
      have registry₂ : (u₂.nodes n).registry = (u₁.nodes n).registry :=
        congrArg Files.registry removed
      have checkpoint₂ : (u₂.nodes n).checkpoint = none := congrArg Files.checkpoint removed
      have backup₂ : (u₂.nodes n).backups m = (u₁.nodes n).backups m := congrArg Files.backup removed
      obtain ⟨c', tr₄, a, u₃, u₄, rfl, here', renamed, rest⟩ := perform_local rest
      obtain ⟨-, eq, last⟩ := done_local rest
      rcases exec_renameFromBackup renamed with ⟨⟨e, -, rfl⟩, -⟩ | ⟨-, rfl, -⟩ |
        ⟨-, -, -, -, -, rfl, -⟩ | ⟨d, kept, -, rfl, rfl⟩
      · cases eq
      · cases eq
      · cases eq
      · rw [here', backup₂, backup] at kept
        cases kept
        rw [last, World.modify_self, here']
        exact ⟨registry₂, rfl⟩

theorem undoActivation_run {record : MigrationRecord}
    (h : Runs n (undoActivation n record (w.nodes n).registry) w tr (.ok ()) v)
    (stops : Stops tr) :
    (v.nodes n).registry = record.originalState.getD
        (halted n record.migrationId (w.nodes n).registry) ∧
      (v.nodes n).checkpoint =
        ((w.nodes n).backups record.migrationId <|> (w.nodes n).checkpoint) := by
  obtain ⟨a, tr₁, tr₂, u₁, rfl, stopping, ⟨e, -, eq, -⟩ | ⟨_, rfl, rest⟩⟩ := bind_run h
  · cases eq
  have directories : (u₁.nodes n).directories record.migrationId =
      (w.nodes n).directories record.migrationId :=
    frame_run (NodeState.directories record.migrationId) (.ite (stopTask_quiet.mono fun _ h => h.1)
      (.pure _)) exec_directories stopping
  have checkpoint₁ : (u₁.nodes n).checkpoint = (w.nodes n).checkpoint :=
    congrArg Prod.fst directories
  have backup₁ : (u₁.nodes n).backups record.migrationId = (w.nodes n).backups record.migrationId :=
    congrArg Prod.snd directories
  have registry₁ : (u₁.nodes n).registry = halted n record.migrationId (w.nodes n).registry := by
    unfold onlyIf at stopping
    unfold halted
    split at stopping
    · rename_i own
      rw [if_pos own]
      exact stopTask_run stopping stops.left
    · rename_i other
      rw [if_neg other, (done_local stopping).2.2]
  obtain ⟨a, tr₃, tr₄, u₂, rfl, restoring, ⟨e, -, eq, -⟩ | ⟨_, rfl, rest⟩⟩ := bind_run rest
  · cases eq
  obtain ⟨registry₂, checkpoint₂⟩ := restoreDirectory_run restoring
  rw [registry₁] at registry₂
  rw [checkpoint₁, backup₁] at checkpoint₂
  obtain ⟨a, tr₅, tr₆, u₃, rfl, writing, ⟨e, -, eq, -⟩ | ⟨_, rfl, rest⟩⟩ := bind_run rest
  · cases eq
  have quiet : (do
      ignoreErrors (cancelBid record.bidId restartRolledBack)
      await (.removeIncoming record.migrationId)
      await (.setRecordStatus record.migrationId .rolledBack none (some restartRolledBack)) :
        Async Unit).Performs (Op.isFileOp · = false) :=
    .bind (.tryExcept (.bind (.op rfl) fun _ => .pure _) fun _ => .pure _) fun _ =>
      .bind (.op rfl) fun _ => .op rfl
  have same₄ := frame_run (NodeState.files record.migrationId) quiet exec_files rest
  have checkpoint₄ : (v.nodes n).checkpoint = (u₃.nodes n).checkpoint :=
    congrArg Files.checkpoint same₄
  have registry₄ : (v.nodes n).registry = (u₃.nodes n).registry := congrArg Files.registry same₄
  rw [checkpoint₄, registry₄]
  cases saved : record.originalState with
  | none =>
      rw [saved] at writing
      have last := (done_local writing).2.2
      rw [last]
      exact ⟨registry₂, checkpoint₂⟩
  | some original =>
      rw [saved] at writing
      obtain ⟨c, tr', a, u, u', rfl, here, written, rest⟩ := perform_local writing
      rcases exec_registry written with ⟨⟨e, -, rfl⟩, -⟩ | ⟨now, -, applied, result⟩
      · cases (done_local rest).2.1
      cases applied
      rcases result with ⟨e, raised, -⟩ | ⟨state, returned, rfl⟩
      · cases raised
      cases returned
      have last := (done_local rest).2.2
      rw [last, World.putState_self, here]
      exact ⟨rfl, checkpoint₂⟩

theorem reconcileDestinationRecord_run {record : MigrationRecord}
    (uncommitted : isCommitted n record (w.nodes n).registry = false)
    (h : Runs n (reconcileDestinationRecord n record) w tr (.ok ()) v) (stops : Stops tr) :
    (v.nodes n).registry = record.originalState.getD
        (halted n record.migrationId (w.nodes n).registry) ∧
      (v.nodes n).checkpoint =
        ((w.nodes n).backups record.migrationId <|> (w.nodes n).checkpoint) := by
  obtain ⟨c, tr₁, a, u, u₁, rfl, here, read, rest⟩ := perform_local h
  rcases exec_getState read with ⟨⟨e, -, rfl⟩, -⟩ | ⟨rfl, rfl⟩
  · cases (done_local rest).2.1
  dsimp only [andThen_done] at rest
  rw [here, if_neg (by simp [uncommitted])] at rest
  rw [← here] at rest ⊢
  exact undoActivation_run rest fun x mem => stops x (List.mem_cons_of_mem _ mem)

/-! ## Before and after -/

/-- When the recovery of an activation of `m` that began in `s` puts everything back. The crash
left `t`, and the registry is `state` when the daemon is up again. -/
structure Recoverable (n : NodeId) (m : MigrationId) (s t : NodeState) (state : TaskRuntimeState) :
    Prop where
  /-- Where there was no checkpoint, the copy has not begun, or has been removed. -/
  fresh : s.checkpoint = none → t.checkpoint = none
  /-- A directory that an earlier attempt has left has been removed, unless it has the contents of
  the checkpoint. -/
  backup : ∀ b, s.backups m = some b → s.checkpoint ≠ some b →
    t.backups m ≠ some b ∧ (s.checkpoint = some [] → t.backups m = none → t.checkpoint ≠ some b)
  /-- The record has saved the state of this attempt, or nothing has changed it. -/
  saved : (savedState (s.journal.get m) s.registry).getD (halted n m state) = s.registry

theorem Phase.restored_iff {t : NodeState} (h : Phase m s (t.directories m)) :
    (t.backups m <|> t.checkpoint) = s.checkpoint ↔
      (s.checkpoint = none → t.checkpoint = none) ∧
        ∀ b, s.backups m = some b → s.checkpoint ≠ some b → t.backups m ≠ some b ∧
          (s.checkpoint = some [] → t.backups m = none → t.checkpoint ≠ some b) := by
  have checkpoint : (t.directories m).1 = t.checkpoint := rfl
  have backup : (t.directories m).2 = t.backups m := rfl
  rw [← checkpoint, ← backup]
  cases h' : t.directories m with
  | mk c b =>
    rw [h'] at h
    cases h with
    | kept =>
        cases s.backups m with
        | none => simp
        | some b =>
            by_cases same : s.checkpoint = some b
            · simp [same]
            · simp [same, eq_comm]
    | cleared =>
        have other : ∀ b, s.checkpoint ≠ some b → s.checkpoint = some [] → s.checkpoint ≠ some b :=
          fun b ne _ => ne
        simpa using fun b _ => other b
    | moved =>
        cases s.checkpoint with
        | none => simp
        | some d => simp
    | swapped b old clear =>
        rcases clear with none_ | empty
        · simp [none_]
        · simp [empty, old, eq_comm]

/-- An activation that does not commit puts everything back if and only if its own rollback leaves
no traces, and after a crash if and only if the crash left what reconciliation needs. -/
theorem activateIncoming_atomic_iff (services : Services) (n : NodeId)
    (request : MigrationActivationRequest) (w : World) :
    (∀ tr r v, Runs n (activateIncoming services n request) w tr r v →
      (∀ response, r = .ok response → response.activated = false) → Undisturbed tr →
        (Restored (w.nodes n) (v.nodes n) ↔
          ¬ LeavesTraces request.migrationId (w.nodes n) tr)) ∧
    ∀ tr q crashed record verdict tr' v, isRetry n request (w.nodes n).registry = false →
      Reach (exec n) (Elsewhere n) (activateIncoming services n request) w tr q crashed →
      (crashed.nodes n).journal.get request.migrationId = some record →
      record.status.isTerminal = false →
      isCommitted n record ((restarted n verdict crashed).nodes n).registry = false →
      Runs n (reconcileDestinationRecord n record) (restarted n verdict crashed) tr' (.ok ()) v →
      Stops tr' →
        (Restored (w.nodes n) (v.nodes n) ↔
          Recoverable n request.migrationId (w.nodes n) (crashed.nodes n)
            ((restarted n verdict crashed).nodes n).registry) := by
  refine ⟨fun tr r v h rejected undisturbed => activateIncoming_putsBack h rejected undisturbed, ?_⟩
  intro tr q crashed record verdict tr' v fresh h found open_ uncommitted recovery stops
  have named : record.migrationId = request.migrationId := Journal.get_migrationId found
  obtain ⟨phase, saved⟩ : Phase request.migrationId (w.nodes n)
      ((crashed.nodes n).directories request.migrationId) ∧
      record.originalState = savedState ((w.nodes n).journal.get request.migrationId)
        (w.nodes n).registry := by
    rcases crashable_of_reach fresh h with ⟨closed, here, terminal⟩ | ⟨phase, same | ⟨_, here, saved⟩⟩
    · rw [found] at here
      cases here
      rw [open_] at terminal
      cases terminal
    · refine ⟨phase, ?_⟩
      rw [← same, found]
      rfl
    · rw [found] at here
      cases here
      exact ⟨phase, saved⟩
  obtain ⟨registry, checkpoint⟩ := reconcileDestinationRecord_run uncommitted recovery stops
  have directories : ((restarted n verdict crashed).nodes n).directories request.migrationId =
      (crashed.nodes n).directories request.migrationId := by
    rw [restarted, World.modify_self, crash, World.modify_self]
    rcases reconcileRuntime_cases n verdict { crashed.nodes n with starting := none, pass := [] }
      with same | ⟨-, -, state, eq, -⟩
    · rw [same]
      rfl
    · rw [eq]
      rfl
  have checkpoint' : (v.nodes n).checkpoint =
      ((crashed.nodes n).backups request.migrationId <|> (crashed.nodes n).checkpoint) := by
    have same : ((restarted n verdict crashed).nodes n).checkpoint = (crashed.nodes n).checkpoint :=
      congrArg Prod.fst directories
    have same' : ((restarted n verdict crashed).nodes n).backups request.migrationId =
        (crashed.nodes n).backups request.migrationId := congrArg Prod.snd directories
    rw [checkpoint, named, same, same']
  rw [named, saved] at registry
  unfold Restored
  rw [registry, checkpoint', phase.restored_iff]
  constructor
  · rintro ⟨kept, fresh, backup⟩
    exact ⟨fresh, backup, kept⟩
  · rintro ⟨fresh, backup, kept⟩
    exact ⟨kept, fresh, backup⟩

end

/-! ## A copy that fails -/

def sampleRequest : MigrationActivationRequest where
  migrationId := "m"
  bidId := "bid"
  taskId := "t"
  sourceNodeId := "a"
  destinationNodeId := "b"
  generation := 1
  migrationAtUtc := 0
  accounting := some {}

/-- The request reaches `b`. -/
def requestScript : List ClusterLabel := quiesceScript ++ proceed "a" 5

/-- The first file is copied and the second is not; the rollback goes through. -/
def copyScript : List ClusterLabel :=
  [.call "b" (.activate sampleRequest) (.ok 0)] ++ proceed "b" 7 ++
    [.perform "b" (.copyFailed [("state", "1")] ⟨.osError, "Input/output error"⟩)] ++ proceed "b" 6

set_option maxRecDepth 100000 in
/-- Node `b` had no checkpoint; after the activation that it has rolled back it has a part of one. -/
theorem copyFails_leavesPart : ∃ v u,
    (cluster bareServices).run requestScript sampleCluster = some v ∧
    (cluster bareServices).run copyScript v = some u ∧
    (v.world.nodes "b").checkpoint = none ∧
    (u.world.nodes "b").checkpoint = some [("state", "1")] ∧
    ((u.world.nodes "b").journal.get "m").map (·.status) = some .rolledBack ∧
    u.world.responses.map (·.activated) = [false] :=
  System.exists_runs (by decide)

def openRecord : MigrationRecord :=
  destinationRecord sampleRequest .activating (some (sampleNode "b").registry) none

/-- Node `b` has opened its record. -/
def claimedWorld : World := sampleCluster.world.putRecord "b" openRecord

/-- The reservation cannot be claimed, and the rollback goes through; or the daemon dies there. -/
theorem unclaimed_restored :
    (∃ tr r v, Runs "b" (activateIncoming bareServices "b" sampleRequest) sampleCluster.world tr r v ∧
      Opened tr ∧ Restored (sampleCluster.world.nodes "b") (v.nodes "b")) ∧
    ∃ tr q crashed tr' v,
      Reach (exec "b") (Elsewhere "b") (activateIncoming bareServices "b" sampleRequest)
        sampleCluster.world tr q crashed ∧
      Runs "b" (reconcileDestinationRecord "b" openRecord) (restarted "b" { now := 0 } crashed) tr'
        (.ok ()) v ∧
      Restored (sampleCluster.world.nodes "b") (v.nodes "b") := by
  obtain ⟨live, crash⟩ := activateIncoming_atomic_iff bareServices "b" sampleRequest
    sampleCluster.world
  constructor
  · have run : Runs "b" (activateIncoming bareServices "b" sampleRequest) sampleCluster.world
        [(.getState, .ok 0), (.journalGet "m", .ok 0), (.journalPut _, .ok 0),
          (.beginActivation "bid" "t" "a" "b", .fail ⟨.osError, "busy"⟩), (.backupExists "m", .ok 0),
          (.registry (.setState _), .ok 0), (.setRecordStatus "m" .rolledBack none _, .ok 0),
          (.cancelBid "bid" _, .ok 0), (.removeIncoming "m", .ok 0)] _ _ :=
      .perform rfl (.perform rfl (.perform rfl (.perform rfl (.perform rfl (.perform rfl
        (.perform rfl (.perform rfl (.perform rfl .refl))))))))
    refine ⟨_, _, _, run, ?_, ?_⟩
    · simp [Opened, isOpening]
    refine (live _ _ _ run (fun response eq => by cases eq; rfl) ?_).mpr ?_
    · simp [Undisturbed, isRestore, Choice.isFail]
    · simp [LeavesTraces, Partial, isPartialCopy, sampleCluster, sampleNode]
  · have run : Reach (exec "b") (Elsewhere "b") (activateIncoming bareServices "b" sampleRequest)
        sampleCluster.world [(.getState, .ok 0), (.journalGet "m", .ok 0), (.journalPut _, .ok 0)]
        _ claimedWorld := .perform rfl (.perform rfl (.perform rfl .refl))
    have recovery : Runs "b" (reconcileDestinationRecord "b" openRecord)
        (restarted "b" { now := 0 } claimedWorld)
        [(.getState, .ok 0), (.backupExists "m", .ok 0), (.registry (.setState _), .ok 0),
          (.cancelBid "bid" restartRolledBack, .ok 0), (.removeIncoming "m", .ok 0),
          (.setRecordStatus "m" .rolledBack none (some restartRolledBack), .ok 0)] (.ok ()) _ :=
      .perform rfl (.perform rfl (.perform rfl (.perform rfl (.perform rfl (.perform rfl .refl)))))
    refine ⟨_, _, _, _, _, run, recovery, ?_⟩
    refine (crash _ _ _ _ { now := 0 } _ _ rfl run rfl rfl rfl recovery ?_).mpr ?_
    · simp [Stops, LocalProcess.isStopOp, Choice.isFail]
    · exact ⟨fun _ => rfl, fun b old => (by cases old), rfl⟩

end Magellan.MigrationService
