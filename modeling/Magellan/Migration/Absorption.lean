import Magellan.Migration.Activation
import Magellan.Migration.Reconcile

/-!
# Finished migrations

A record that says ACTIVATED or ROLLED_BACK is to stay so. The journal takes whatever status it is
given, and two writers may come late: a request for an activation that is finished, and a pass of
the durable reconciliation, which holds the records as it has listed them.
-/

namespace Magellan.Absorption

open Coroutine Coro MigrationService

/-- A finished record keeps its status. -/
def Absorbs (j j' : Journal) : Prop :=
  ∀ m r, j.get m = some r → r.status.isTerminal = true →
    ∃ r', j'.get m = some r' ∧ r'.status = r.status

/-- There is no finished record of `m`. -/
def Unfinished (m : MigrationId) (j : Journal) : Prop :=
  ∀ r, j.get m = some r → r.status.isTerminal = false

/-- A finished record of `m` has this status already. -/
def Admits (m : MigrationId) (status : MigrationStatus) (j : Journal) : Prop :=
  ∀ r, j.get m = some r → r.status.isTerminal = true → r.status = status

/-- What is in a journal has been written. -/
def Logged (w : World) : Prop :=
  ∀ n m r, (w.nodes n).journal.get m = some r → w.isFresh m = false

/-- A request for a migration with the record `current`. -/
def RequestAgrees (n : NodeId) (request : MigrationActivationRequest) (state : TaskRuntimeState)
    (current : MigrationRecord) : Prop :=
  if isRetry n request state then current.status ≠ .rolledBack else current.status ≠ .activated

/-- A pass with `record`, whose migration has been finished by now. -/
def PassAgrees (n : NodeId) (record : MigrationRecord) (state : TaskRuntimeState)
    (current : MigrationRecord) : Prop :=
  match record.role with
  | .destination => if isCommitted n record state then current.status = .activated
      else current.status = .rolledBack
  | .source =>
      if state.ownerNodeId = record.destinationNodeId ∧ state.generation ≥ record.generation then
        current.status = .activated
      else record.status = .preparing ∧ state.ownerNodeId = n ∧ state.status ≠ .migrating ∧
        current.status = .rolledBack

def RequestFits (n : NodeId) (request : MigrationActivationRequest) (state : TaskRuntimeState)
    (j : Journal) : Prop :=
  ∀ current, j.get request.migrationId = some current → RequestAgrees n request state current

def PassFits (n : NodeId) (record : MigrationRecord) (state : TaskRuntimeState) (j : Journal) : Prop :=
  ∀ current, j.get record.migrationId = some current → current.status.isTerminal = true →
    PassAgrees n record state current

/-- What comes late agrees with the journal. -/
def lateCallsAgree : ClusterConditions where
  call n a w := match a with
    | .migrate _ => True
    | .activate request => RequestFits n request (w.nodes n).registry (w.nodes n).journal
    | .reconcile record => PassFits n record (w.nodes n).registry (w.nodes n).journal

/-- What a step at `n` does to the journals. -/
structure Keeps (n : NodeId) (w v : World) : Prop where
  absorbs : Absorbs (w.nodes n).journal (v.nodes n).journal
  others : ∀ i, i ≠ n → (v.nodes i).journal = (w.nodes i).journal

def contract (n : NodeId) : Contract Op Choice World where
  allowed _ _ _ := True
  rely w v := (v.nodes n).journal = (w.nodes n).journal
  inv := Logged
  guar := Keeps n

/-- `A` holds of the journal of `n`. -/
def OnJournal (n : NodeId) (A : Journal → Prop) (w : World) : Prop := A (w.nodes n).journal

abbrev Keep {α : Type} (n : NodeId) (A : Journal → Prop) (p : Async α) (B : α → Journal → Prop)
    (E : Journal → Prop) : Prop :=
  Triple (exec n) (contract n) (OnJournal n A) p (fun a => OnJournal n (B a)) fun _ => OnJournal n E

section

variable {services : Services} {n i : NodeId} {m : MigrationId} {w v : World} {c : Choice}
  {A B E : Journal → Prop} {status : MigrationStatus}

/-! ## Journals -/

theorem Absorbs.refl (j : Journal) : Absorbs j j := fun _ r found _ => ⟨r, found, rfl⟩

theorem Absorbs.trans {j j' j'' : Journal} (h : Absorbs j j') (h' : Absorbs j' j'') :
    Absorbs j j'' := by
  intro m r found terminal
  obtain ⟨r', found', same⟩ := h m r found terminal
  obtain ⟨r'', found'', same'⟩ := h' m r' found' (same ▸ terminal)
  exact ⟨r'', found'', same'.trans same⟩

theorem Unfinished.admits {j : Journal} (h : Unfinished m j) (status : MigrationStatus) :
    Admits m status j := fun r found terminal => by
  rw [h r found] at terminal
  cases terminal

theorem unfinished_of_none {j : Journal} (none : j.get m = none) : Unfinished m j := fun r found => by
  rw [none] at found
  cases found

theorem absorbs_put {j : Journal} {record : MigrationRecord}
    (admits : Admits record.migrationId record.status j) : Absorbs j (j.put record) := by
  intro m r found terminal
  by_cases same : m = record.migrationId
  · subst same
    exact ⟨record, j.get_put_self record, (admits r found terminal).symm⟩
  · exact ⟨r, (j.get_put_of_ne record same).trans found, rfl⟩

/-! ## Operations -/

theorem stable_onJournal (A : Journal → Prop) : (contract n).Stable (OnJournal n A) := by
  intro w v same a
  change (v.nodes n).journal = (w.nodes n).journal at same
  unfold OnJournal
  rw [same]
  exact a

theorem isFresh_exec {o : Op} {r : Except Exn o.Ret} (h : exec n o c w = some (r, v))
    (old : w.isFresh m = false) : v.isFresh m = false := by
  unfold World.isFresh at old ⊢
  rcases exec_log h with same | ⟨e, longer⟩
  · rw [same, old]
  · rw [longer, List.all_cons, old, Bool.and_false]

theorem keeps_of_same (same : ∀ i, (v.nodes i).journal = (w.nodes i).journal) : Keeps n w v :=
  ⟨same n ▸ .refl _, fun i _ => same i⟩

theorem exec_journals {o : Op} {r : Except Exn o.Ret} (quiet : o.isJournalWrite = false)
    (h : exec n o c w = some (r, v)) (i : NodeId) : (v.nodes i).journal = (w.nodes i).journal := by
  by_cases here : i = n
  · subst here
    exact exec_journal quiet h
  · have same : v.nodes i = w.nodes i := exec_elsewhere here h
    rw [same]

/-- Upkeep does not write the journal. -/
theorem quiet_of_upkeep {α : Type} {p : Async α} (performs : p.Performs (isUpkeepOp ·)) :
    p.Performs fun o => o.isJournalWrite = false :=
  performs.mono fun o upkeep => by cases o <;> first | rfl | cases upkeep

theorem quiet {α : Type} {p : Async α} (performs : p.Performs fun o => o.isJournalWrite = false) :
    Keep n A p (fun _ => A) A := by
  refine .of_performs (stable_onJournal A) performs fun o ok w c r v a inv _ step => ?_
  have same := exec_journals ok step
  refine ⟨fun i m r found => isFresh_exec step (inv i m r (same i ▸ found)), keeps_of_same same, ?_⟩
  have after : OnJournal n A v := by
    unfold OnJournal
    rw [same n]
    exact a
  cases r <;> exact after

theorem quietly {α : Type} {p : Async α} (performs : p.Performs fun o => o.isJournalWrite = false) :
    Keep n A p (fun _ => A) fun _ => True :=
  (quiet performs).weaken (fun _ a => a) (fun _ _ a => a) fun _ _ _ => trivial

theorem getState_atOnce {B : TaskRuntimeState → Journal → Prop}
    (here : B (w.nodes n).registry (w.nodes n).journal) :
    SafeAtOnce (exec n) (contract n)
      (endsWith (fun state => OnJournal n (B state)) fun _ => OnJournal n fun _ => True)
      (await .getState) w := by
  refine .op (fun _ => stable_onJournal _) (fun _ => stable_onJournal _) fun inv c r v _ step => ?_
  rcases exec_getState step with ⟨⟨e, -, rfl⟩, rfl⟩ | ⟨rfl, rfl⟩
  · exact ⟨inv, keeps_of_same fun _ => rfl, trivial⟩
  · exact ⟨inv, keeps_of_same fun _ => rfl, here⟩

/-- The operation does not raise. -/
theorem unfailing {o : Op} (quiet : o.isJournalWrite = false)
    (succeeds : ∀ {c w e v}, exec n o c w ≠ some (.error e, v)) :
    Keep n A (await o) (fun _ => A) E := by
  refine .op (stable_onJournal _) (fun _ => stable_onJournal _) (fun _ => stable_onJournal _)
    fun w c r v a inv _ step => ?_
  have same := exec_journals quiet step
  refine ⟨fun i m r found => isFresh_exec step (inv i m r (same i ▸ found)), keeps_of_same same, ?_⟩
  cases r with
  | ok b =>
      change A _
      rw [same n]
      exact a
  | error e => exact absurd step succeeds

theorem keeps_putRecord {record : MigrationRecord} (inv : Logged w)
    (admits : Admits record.migrationId record.status (w.nodes n).journal) :
    Logged (w.putRecord n record) ∧ Keeps n w (w.putRecord n record) := by
  have others (i : NodeId) (ne : i ≠ n) : (w.putRecord n record).nodes i = w.nodes i := if_neg ne
  constructor
  · intro i m r found
    have longer : (w.putRecord n record).isFresh m =
        (decide (record.migrationId ≠ m) && w.isFresh m) := rfl
    rw [longer]
    by_cases same : record.migrationId = m
    · simp [same]
    · have before : (w.nodes i).journal.get m = some r := by
        by_cases here : i = n
        · subst here
          rw [World.putRecord_self] at found
          exact ((w.nodes i).journal.get_put_of_ne record (Ne.symm same)).symm.trans found
        · rwa [others i here] at found
      rw [inv i m r before, Bool.and_false]
  · refine ⟨?_, fun i ne => by rw [others i ne]⟩
    rw [World.putRecord_self]
    exact absorbs_put admits

theorem journalPut_keeps {record : MigrationRecord}
    (admits : ∀ j, A j → Admits record.migrationId record.status j) :
    Keep n A (await (.journalPut record))
      (fun _ j => record.status.isTerminal = false → Unfinished record.migrationId j) A := by
  refine .op (stable_onJournal _) (fun _ => stable_onJournal _) (fun _ => stable_onJournal _)
    fun w c r v a inv _ step => ?_
  rcases exec_journalPut step with ⟨⟨e, -, rfl⟩, rfl⟩ | ⟨rfl, rfl⟩
  · exact ⟨inv, keeps_of_same fun _ => rfl, a⟩
  · obtain ⟨inv', keeps⟩ := keeps_putRecord inv (admits _ a)
    refine ⟨inv', keeps, fun unfinished r found => ?_⟩
    rw [World.putRecord_self, Journal.get_put_self] at found
    cases found
    exact unfinished

theorem setRecordStatus_keeps {pid : Option Pid} {error : Option String}
    (admits : ∀ j, A j → Admits m status j) :
    Keep n A (await (.setRecordStatus m status pid error))
      (fun _ j => status.isTerminal = false → Unfinished m j) A := by
  refine .op (stable_onJournal _) (fun _ => stable_onJournal _) (fun _ => stable_onJournal _)
    fun w c r v a inv _ step => ?_
  rcases exec_recordStatus step with ⟨⟨e, -, rfl⟩, rfl⟩ | ⟨rfl, ⟨absent, rfl⟩ | ⟨record, found, rfl⟩⟩
  · exact ⟨inv, keeps_of_same fun _ => rfl, a⟩
  · exact ⟨inv, keeps_of_same fun _ => rfl, fun _ => unfinished_of_none absent⟩
  · obtain rfl := Journal.get_migrationId found
    obtain ⟨inv', keeps⟩ := @keeps_putRecord n w { record with status, pid, error } inv (admits _ a)
    refine ⟨inv', keeps, fun unfinished r found => ?_⟩
    rw [World.putRecord_self] at found
    cases (Journal.get_put_self ..).symm.trans found
    exact unfinished

/-- The last write of a coroutine, where the record is not finished or says so already. -/
theorem close {pid : Option Pid} {error : Option String} (admits : ∀ j, A j → Admits m status j) :
    Keep n A (await (.setRecordStatus m status pid error)) (fun _ _ => True) A :=
  (setRecordStatus_keeps admits).weaken (fun _ a => a) (fun _ _ _ => trivial) fun _ _ a => a

/-- A write that leaves the record open. -/
theorem advance {pid : Option Pid} {error : Option String} (open_ : status.isTerminal = false) :
    Keep n (Unfinished m) (await (.setRecordStatus m status pid error))
      (fun _ => Unfinished m) (Unfinished m) :=
  (setRecordStatus_keeps fun _ h => h.admits status).weaken (fun _ a => a) (fun _ _ b => b open_)
    fun _ _ a => a

/-! ## The source -/

theorem quiet_of_isQueryOp {o : Op} (h : isQueryOp o = true) : o.isJournalWrite = false := by
  cases o <;> first | rfl | cases h

theorem finalizeSourceSuccess_keeps {d : NodeId} {g : Nat} {at_ : Timestamp}
    {bindings : List ArtifactBinding} :
    Keep n (Unfinished m) (finalizeSourceSuccess services d m g at_ bindings) (fun _ _ => True)
      (Unfinished m) :=
  .bind (quiet (.op rfl)) fun _ => .bind (quiet (.op rfl)) fun _ =>
    .bind (quiet (.ite (.op rfl) (.pure _))) fun _ => .bind (quiet (.op rfl)) fun _ =>
      close fun _ h => h.admits _

theorem rollbackSourceRecord_keeps {record : MigrationRecord} {reason : String} :
    Keep n (Unfinished record.migrationId) (rollbackSourceRecord n record reason)
      (fun _ _ => True) (Unfinished record.migrationId) :=
  .bind (quiet (.op rfl)) fun _ => .bind (quiet (.op rfl)) fun _ =>
    .bind (quiet (.ite (quiet_of_upkeep (restart_upkeep n)) (.pure _))) fun _ => close fun _ h => h.admits _

theorem trivially {α : Type} {p : Async α} (h : Keep n A p (fun _ _ => True) E) :
    Keep n A p (fun _ _ => True) fun _ => True :=
  h.weaken (fun _ a => a) (fun _ _ _ => trivial) fun _ _ _ => trivial

theorem withCleanup_keeps {call : MigrateCall} {activated : Bool} {p : Async Bool}
    (h : Keep n A p (fun _ _ => True) E) :
    Keep n A (withCleanup call activated p) (fun _ _ => True) fun _ => True := by
  have cancel : Keep n (fun _ => True) (onlyIf (¬ activated) (cancelRemoteReservation call.bidId
      call.destinationNodeId s!"Source migration {call.migrationId} did not complete"))
      (fun _ _ => True) fun _ => True :=
    quiet (.ite (.tryExcept (.op rfl) fun _ => .pure _) (.pure _))
  exact .tryFinally (trivially h) (fun _ => cancel) fun _ => cancel

theorem rollbackMigration_keeps :
    Keep n (Unfinished m) (rollbackMigration n m) (fun _ _ => True) (Unfinished m) := by
  refine .bind (B := fun found => OnJournal n fun j => (∀ x ∈ found, x.migrationId = m) ∧
    Unfinished m j) (.op (stable_onJournal _) (fun _ => stable_onJournal _)
      (fun _ => stable_onJournal _) fun w c r v a inv _ step => ?_) fun found => ?_
  · rcases exec_journalGet step with ⟨⟨e, -, rfl⟩, rfl⟩ | ⟨rfl, rfl⟩
    · exact ⟨inv, keeps_of_same fun _ => rfl, a⟩
    · exact ⟨inv, keeps_of_same fun _ => rfl, fun x found => Journal.get_migrationId found, a⟩
  · cases found with
    | none => exact .pure (stable_onJournal _) fun _ _ => trivial
    | some record =>
        refine Triple.given fun named => ?_
        obtain rfl := named record rfl
        exact rollbackSourceRecord_keeps

section

variable {call : MigrateCall} {original : TaskRuntimeState} {bindings : List ArtifactBinding}
  {e : Exn}

theorem resolveOutcome_keeps {outcome : Option MigrationRecord × Bool} :
    Keep n (Unfinished call.migrationId)
      (resolveOutcome services n call original bindings e outcome) (fun _ _ => True)
      fun _ => True := by
  have ends {b : Bool} {A : Journal → Prop} : Keep n A (pure b) (fun _ _ => True)
      (Unfinished call.migrationId) := .pure (stable_onJournal _) fun _ _ => trivial
  refine .ite (fun _ => ?_) fun _ => .ite (fun _ => ?_) fun _ => ?_
  · exact withCleanup_keeps (.bind finalizeSourceSuccess_keeps fun _ => ends)
  · exact withCleanup_keeps (.bind rollbackMigration_keeps fun _ => ends)
  · exact withCleanup_keeps (.bind (quiet (.op rfl)) fun _ => ends)

theorem outcomeUnknown_keeps :
    Keep n (Unfinished call.migrationId) (outcomeUnknown services n call original bindings e)
      (fun _ _ => True) fun _ => True := by
  refine .attempt (.bind (advance rfl) fun _ =>
    quiet (queryRemoteOutcome_performs.mono fun _ => quiet_of_isQueryOp)) (fun outcome =>
      resolveOutcome_keeps) fun e => ?_
  exact withCleanup_keeps (E := fun _ => True) (.raise (stable_onJournal _) fun _ _ => trivial)

theorem migrationFailed_keeps {sourceWasStopped : Bool} :
    Keep n (Unfinished call.migrationId)
      (migrationFailed services n call original sourceWasStopped e) (fun _ _ => True)
      fun _ => True :=
  trivially (.bind (quiet (.ite (.op rfl) (.pure _))) fun _ => .bind (quiet (.op rfl)) fun _ =>
    .bind (quiet (.ite (quiet_of_upkeep (restart_upkeep n)) (.pure _))) fun _ =>
      .bind (close fun _ h => h.admits _) fun _ => .pure (stable_onJournal _) fun _ a => a)

theorem onMigrateError_keeps {sourceWasStopped activated : Bool} :
    Keep n (Unfinished call.migrationId)
      (onMigrateError services n call original bindings sourceWasStopped activated e)
      (fun _ _ => True) fun _ => True :=
  .ite (fun _ => outcomeUnknown_keeps) fun _ => withCleanup_keeps migrationFailed_keeps

/-- The record is finished only where the prefetch has failed. -/
theorem quiesce_keeps :
    Keep n (Unfinished call.migrationId) (quiesce services call)
      (fun prefetched j => prefetched.isSome = true → Unfinished call.migrationId j)
      (Unfinished call.migrationId) := by
  have prefetched : Keep n (Unfinished call.migrationId) (tryPrefetch call)
      (fun prefetched j => prefetched.isSome = true → Unfinished call.migrationId j)
      (Unfinished call.migrationId) := by
    refine .attempt (quiet (quiet_of_upkeep prefetch_upkeep)) (fun bindings => ?_) fun e => ?_
    · exact .pure (stable_onJournal _) fun _ h _ => h
    · exact .bind (close fun _ h => h.admits _) fun _ =>
        .pure (stable_onJournal _) fun _ _ some => by cases some
  refine .bind prefetched fun result => ?_
  cases result with
  | none => exact .pure (stable_onJournal _) fun _ _ some => by cases some
  | some bindings =>
      refine Triple.pre (A := OnJournal n (Unfinished call.migrationId)) ?_ fun _ h => h rfl
      refine .bind (quiet (.ite (.op rfl) (.pure _))) fun _ => .bind (quiet (.op rfl)) fun _ => ?_
      refine .bind (advance rfl) fun _ => .bind (quiet (quiet_of_upkeep
        (LocalProcess.stop_performs.mono fun _ => isUpkeepOp_of_isStopOp))) fun _ => .pure (stable_onJournal _) fun _ h _ => h

theorem activate_quiet {request : MigrationActivationRequest} :
    (MigrationClient.activate request).Performs fun o => o.isJournalWrite = false := by
  unfold MigrationClient.activate
  generalize "None" = lastError
  generalize 3 = attempts
  induction attempts generalizing lastError with
  | zero => exact .raise _
  | succ attempts ih =>
      exact .tryExcept (.bind (.op rfl) fun _ => .op rfl) fun e => .ite (ih _) (.raise _)

theorem handOver_keeps :
    Keep n (Unfinished call.migrationId) (handOver services n call original bindings)
      (fun _ => Unfinished call.migrationId) (Unfinished call.migrationId) := by
  refine .bind (B := fun _ => OnJournal n (Unfinished call.migrationId)) ?_ fun request => ?_
  · refine .bind (quiet (.op rfl)) fun _ => .bind (quiet (.op rfl)) fun _ => ?_
    refine .bind (quiet (.ite (.op rfl) (.pure _))) fun _ =>
      .bind (quiet (.ite (.op rfl) (.pure _))) fun _ => .bind (quiet (.op rfl)) fun _ => ?_
    exact .bind (quiet (.ite (.op rfl) (.pure _))) fun _ => .bind (advance rfl) fun _ =>
      quiet (.pure _)
  · exact .bind (quiet activate_quiet) fun _ => quiet (.ite (.pure _) (.raise _))

theorem commit_keeps :
    Keep n (Unfinished call.migrationId) (commit services call original bindings)
      (fun _ _ => True) (Unfinished call.migrationId) :=
  .bind (quiet (.ite (.op rfl) (.pure _))) fun _ => .bind (quiet (.ite (.op rfl) (.pure _))) fun _ =>
    .bind finalizeSourceSuccess_keeps fun _ => .pure (stable_onJournal _) fun _ _ => trivial

theorem migrate_keeps :
    Keep n (fun j => j.get call.migrationId = none) (migrate services n call) (fun _ _ => True)
      fun _ => True := by
  have ends {b c : Bool} : Keep n (fun _ => True) (withCleanup call b (pure c)) (fun _ _ => True)
      fun _ => True := withCleanup_keeps (E := fun _ => True) (quiet (.pure _))
  refine .bind ((quiet (.op rfl)).weaken (fun _ a => a) (fun _ _ a => a) fun _ _ _ => trivial)
    fun original => .ite (fun _ => .pure (stable_onJournal _) fun _ _ => trivial) fun _ => ?_
  refine .bind (B := fun _ => OnJournal n (Unfinished call.migrationId)) ?_ fun _ => ?_
  · refine (journalPut_keeps fun j none => ?_).weaken (fun _ a => a) (fun _ _ unfinished =>
      unfinished rfl) fun _ _ _ => trivial
    exact (unfinished_of_none none).admits _
  refine .attempt quiesce_keeps (fun prefetched => ?_) fun e => onMigrateError_keeps
  cases prefetched with
  | none => exact ends.pre fun _ _ => trivial
  | some bindings =>
      refine Triple.pre (A := OnJournal n (Unfinished call.migrationId)) ?_ fun _ h => h rfl
      exact .attempt handOver_keeps (fun _ => .attempt commit_keeps (fun _ => ends)
        fun e => onMigrateError_keeps) fun e => onMigrateError_keeps

end

/-! ## The destination -/

section

variable {request : MigrationActivationRequest} {state : TaskRuntimeState}

theorem claimAndStart_quiet :
    (claimAndStart n request).Performs fun o => o.isJournalWrite = false :=
  .bind (.op rfl) fun _ => .bind (.op rfl) fun _ => .bind (.op rfl) fun _ =>
    quiet_of_upkeep ((LocalProcess.start_performs n).mono fun _ => isUpkeepOp_of_isStartOp)

/-- What comes after the commit does not raise. -/
theorem commitActivation_keeps {runtimeState : TaskRuntimeState} :
    Keep n (Unfinished request.migrationId) (commitActivation services n request runtimeState)
      (fun _ _ => True) (Unfinished request.migrationId) := by
  refine .bind (quiet (mergeRequestPolicy_performs fun _ => rfl)) fun _ =>
    .bind (quiet (.op rfl)) fun _ => .bind (close fun _ h => h.admits _) fun _ => ?_
  refine .bind (B := fun _ => OnJournal n fun _ => True) (.bind (unfailing rfl fun step => ?_)
    fun found => .ite (fun _ => unfailing rfl fun step => ?_) fun _ =>
      .pure (stable_onJournal _) fun _ a => a) fun _ => ?_
  · cases (exec_backupExists step).1
  · rcases exec_removeBackup step with ⟨⟨e, rfl, -⟩, -⟩ | ⟨-, eq, -⟩
    · cases (exec_fail step).2.2
    · cases eq
  · refine .bind (unfailing rfl fun step => ?_) fun _ => .pure (stable_onJournal _) fun _ a => a
    cases (exec_removeIncoming step).1

theorem rollbackActivation_keeps {replaced started : Bool} {e : Exn} :
    Keep n (Unfinished request.migrationId) (rollbackActivation n request state replaced started e)
      (fun _ _ => True) fun _ => True :=
  .bind (quietly (.ite (.tryExcept (quiet_of_upkeep stopTask_upkeep) fun _ => .pure _) (.pure _)))
    fun _ => .bind (quietly (.ite (ifCheckpointExists_performs rfl (.op rfl)) (.pure _))) fun _ =>
      .bind (quietly (ifBackupExists_performs rfl (.op rfl))) fun _ => .bind (quietly (.op rfl)) fun _ =>
        .bind (trivially (close fun _ h => h.admits _)) fun _ =>
          .bind (quietly (quiet_of_upkeep cancelBid_upkeep)) fun _ =>
          .bind (quietly (.op rfl)) fun _ => quietly (.pure _)

theorem activationTransaction_keeps :
    Keep n (Unfinished request.migrationId) (activationTransaction services n request state)
      (fun _ _ => True) fun _ => True :=
  .attempt (quiet (quiet_of_upkeep replaceCheckpoint_upkeep)) (fun _ =>
    .attempt (quiet claimAndStart_quiet) (fun _ =>
      .tryExcept commitActivation_keeps fun _ => rollbackActivation_keeps)
      fun _ => rollbackActivation_keeps) fun _ => rollbackActivation_keeps

/-- The write of a record that has been looked for. -/
theorem putRecord_keeps {existing : Option MigrationRecord} {original : Option TaskRuntimeState}
    {pid : Option Pid}
    (admits : ∀ j, j.get request.migrationId = existing → Admits request.migrationId status j) :
    Keep n (fun j => j.get request.migrationId = existing)
      (putRecord existing (destinationRecord request status original pid))
      (fun _ j => status.isTerminal = false → Unfinished request.migrationId j) fun _ => True := by
  cases existing with
  | none => exact (journalPut_keeps admits).weaken (fun _ a => a) (fun _ _ b => b) fun _ _ _ => trivial
  | some _ =>
      exact (setRecordStatus_keeps admits).weaken (fun _ a => a) (fun _ _ b => b) fun _ _ _ => trivial

theorem admits_of_fits {j : Journal} {existing : Option MigrationRecord}
    (fits : ∀ current ∈ existing, RequestAgrees n request state current)
    (found : j.get request.migrationId = existing) (retry : isRetry n request state = true) :
    Admits request.migrationId .activated j := by
  intro r found' terminal
  have agrees := fits r (found ▸ found')
  unfold RequestAgrees at agrees
  rw [if_pos retry] at agrees
  cases said : r.status with
  | activated => rfl
  | rolledBack => exact absurd said agrees
  | preparing | transferring | activating | uncertain =>
      rw [said] at terminal
      cases terminal

theorem unfinished_of_fits {j : Journal} {existing : Option MigrationRecord}
    (fits : ∀ current ∈ existing, RequestAgrees n request state current)
    (found : j.get request.migrationId = existing) (fresh : ¬ isRetry n request state = true)
    (notBack : ¬ existing.any (·.status = .rolledBack) = true) :
    Unfinished request.migrationId j := by
  intro r found'
  have is : existing = some r := found.symm.trans found'
  have agrees := fits r is
  unfold RequestAgrees at agrees
  rw [if_neg fresh] at agrees
  rw [is] at notBack
  cases said : r.status with
  | activated => exact absurd said agrees
  | rolledBack => simp [said] at notBack
  | preparing | transferring | activating | uncertain => rfl

theorem answerRetry_keeps {existing : Option MigrationRecord}
    (fits : ∀ current ∈ existing, RequestAgrees n request state current)
    (retry : isRetry n request state = true) :
    Keep n (fun j => j.get request.migrationId = existing) (answerRetry n request state existing)
      (fun _ _ => True) fun _ => True :=
  .bind (putRecord_keeps fun _ found => admits_of_fits fits found retry) fun _ =>
    .pure (stable_onJournal _) fun _ _ => trivial

theorem openTransaction_keeps {existing : Option MigrationRecord}
    (fits : ∀ current ∈ existing, RequestAgrees n request state current)
    (fresh : ¬ isRetry n request state = true)
    (notBack : ¬ existing.any (·.status = .rolledBack) = true) :
    Keep n (fun j => j.get request.migrationId = existing)
      (do putRecord existing (destinationRecord request .activating (some state) none)
          activationTransaction services n request state)
      (fun _ _ => True) fun _ => True :=
  .bind (putRecord_keeps fun _ found => (unfinished_of_fits fits found fresh notBack).admits _)
    fun _ => activationTransaction_keeps.pre fun _ unfinished => unfinished rfl

theorem activateIncoming_keeps (here : request.destinationNodeId = n)
    (fits : RequestFits n request (w.nodes n).registry (w.nodes n).journal) :
    SafeAtOnce (exec n) (contract n)
      (endsWith (fun _ => OnJournal n fun _ => True) fun _ => OnJournal n fun _ => True)
      (activateIncoming services n request) w := by
  unfold activateIncoming
  rw [if_neg (not_not_intro here)]
  refine .bind (getState_atOnce fits) (fun _ => stable_onJournal _) fun state => ?_
  refine .bind (B := fun existing w => (∀ current ∈ existing, RequestAgrees n request state current) ∧
    OnJournal n (fun j => j.get request.migrationId = existing) w) ?_ fun existing =>
      Triple.given fun fits => ?_
  · refine .op (stable_onJournal _) (fun _ => (Contract.Stable.const _).and (stable_onJournal _))
      (fun _ => stable_onJournal _) fun w c r v fits inv _ step => ?_
    rcases exec_journalGet step with ⟨⟨e, -, rfl⟩, rfl⟩ | ⟨rfl, rfl⟩
    · exact ⟨inv, keeps_of_same fun _ => rfl, trivial⟩
    · exact ⟨inv, keeps_of_same fun _ => rfl, fits, rfl⟩
  refine .bind (quietly (mergeRequestPolicy_performs fun _ => rfl)) fun _ =>
    .ite (fun retry => answerRetry_keeps fits retry) fun fresh => .ite (fun _ => ?_) fun notBack =>
      openTransaction_keeps fits fresh notBack
  exact .pure (stable_onJournal _) fun _ _ => trivial

theorem serveActivation_keeps (here : request.destinationNodeId = n)
    (fits : RequestFits n request (w.nodes n).registry (w.nodes n).journal) :
    SafeAtOnce (exec n) (contract n)
      (endsWith (fun _ => OnJournal n fun _ => True) fun _ => OnJournal n fun _ => True)
      (serveActivation services n request) w :=
  .bind (activateIncoming_keeps here fits) (fun _ => stable_onJournal _) fun _ => quiet (.op rfl)

end

/-! ## Reconciliation -/

section

variable {record : MigrationRecord} {state : TaskRuntimeState}

theorem restoreState_quiet {original : Option TaskRuntimeState} :
    (restoreState original).Performs fun o => o.isJournalWrite = false := by
  cases original with
  | none => exact .pure _
  | some original => exact .bind (.op rfl) fun _ => .pure _

theorem undoActivation_keeps (admits : ∀ j, A j → Admits record.migrationId .rolledBack j) :
    Keep n A (undoActivation n record state) (fun _ _ => True) fun _ => True :=
  .bind (quietly (.ite (.tryExcept (quiet_of_upkeep stopTask_upkeep) fun _ => .pure _) (.pure _)))
    fun _ => .bind (quietly (ifBackupExists_performs rfl (.bind (ifCheckpointExists_performs rfl
      (.op rfl)) fun _ => .op rfl))) fun _ => .bind (quietly restoreState_quiet) fun _ =>
        .bind (quietly (quiet_of_upkeep cancelBid_upkeep)) fun _ => .bind (quietly (.op rfl)) fun _ =>
          trivially (close admits)

theorem reconcileDestinationRecord_keeps (role : record.role = .destination)
    (fits : PassFits n record (w.nodes n).registry (w.nodes n).journal) :
    SafeAtOnce (exec n) (contract n)
      (endsWith (fun _ => OnJournal n fun _ => True) fun _ => OnJournal n fun _ => True)
      (reconcileDestinationRecord n record) w := by
  refine .bind (getState_atOnce fits) (fun _ => stable_onJournal _) fun state => ?_
  refine .ite (fun committed => .bind (quietly (quiet_of_upkeep settleReservation_upkeep)) fun _ =>
    trivially (close fun j fits r found terminal => ?_)) fun open_ =>
      undoActivation_keeps fun j fits r found terminal => ?_
  all_goals
    have agrees := fits r found terminal
    unfold PassAgrees at agrees
    rw [role] at agrees
  · exact (if_pos committed).mp agrees
  · exact (if_neg open_).mp agrees

theorem resolveRecord_keeps {outcome : Option MigrationRecord × Bool} :
    Keep n (Unfinished record.migrationId) (resolveRecord services n record outcome)
      (fun _ _ => True) fun _ => True :=
  .ite (fun _ => trivially finalizeSourceSuccess_keeps) fun _ =>
    .ite (fun _ => trivially rollbackSourceRecord_keeps) fun _ =>
      trivially (close fun _ h => h.admits _)

theorem reconcileSourceRecord_keeps (role : record.role = .source)
    (fits : PassFits n record (w.nodes n).registry (w.nodes n).journal) :
    SafeAtOnce (exec n) (contract n)
      (endsWith (fun _ => OnJournal n fun _ => True) fun _ => OnJournal n fun _ => True)
      (reconcileSourceRecord services n record) w := by
  refine .bind (getState_atOnce fits) (fun _ => stable_onJournal _) fun state => ?_
  have agrees {j : Journal} {r : MigrationRecord} (fits : PassFits n record state j)
      (found : j.get record.migrationId = some r) (terminal : r.status.isTerminal = true) :
      if state.ownerNodeId = record.destinationNodeId ∧ state.generation ≥ record.generation then
        r.status = .activated
      else record.status = .preparing ∧ state.ownerNodeId = n ∧ state.status ≠ .migrating ∧
        r.status = .rolledBack := by
    have agrees := fits r found terminal
    unfold PassAgrees at agrees
    rw [role] at agrees
    exact agrees
  refine .ite (fun newer => trivially (close fun j fits r found terminal => ?_)) fun older =>
    .ite (fun early => trivially (close fun j fits r found terminal => ?_)) fun late => ?_
  · exact (if_pos newer).mp (agrees fits found terminal)
  · exact ((if_neg older).mp (agrees fits found terminal)).2.2.2
  · have unfinished {j : Journal} (fits : PassFits n record state j) :
        Unfinished record.migrationId j := fun r found => by
      by_contra finished
      have here := (if_neg older).mp (agrees fits found (eq_true_of_ne_false finished))
      exact late ⟨here.1, here.2.1, here.2.2.1⟩
    refine Triple.pre (A := OnJournal n (Unfinished record.migrationId)) ?_ fun _ => unfinished
    exact .bind (quietly (queryRemoteOutcome_performs.mono fun _ => quiet_of_isQueryOp)) fun _ =>
      resolveRecord_keeps

theorem reconcileRecord_keeps
    (fits : PassFits n record (w.nodes n).registry (w.nodes n).journal) :
    SafeAtOnce (exec n) (contract n)
      (endsWith (fun _ => OnJournal n fun _ => True) fun _ => OnJournal n fun _ => True)
      (reconcileRecord services n record) w := by
  unfold reconcileRecord
  cases role : record.role with
  | destination => exact reconcileDestinationRecord_keeps role fits
  | source => exact reconcileSourceRecord_keeps role fits

end

/-! ## What runs beside -/

theorem journal_modify {f : NodeState → NodeState}
    (same : (f (v.nodes i)).journal = (v.nodes i).journal) (k : NodeId) :
    ((v.modify i f).nodes k).journal = (v.nodes k).journal := by
  rw [World.modify_nodes]
  split
  · rename_i here
    subst here
    exact same
  · rfl

theorem reconcileRuntime_journal (verdict : RuntimeVerdict) (s : NodeState) :
    (reconcileRuntime n verdict s).journal = s.journal := by
  unfold reconcileRuntime
  dsimp only
  split
  · rfl
  split
  · split <;> rfl
  · rfl
  · rfl

theorem mergeUpdate_journal (u : Registry.OwnershipUpdate) (s : NodeState) :
    (mergeUpdate n u s).journal = s.journal := by
  unfold mergeUpdate
  split <;> rfl

theorem postOwnership_journal (u : Registry.OwnershipUpdate) (s : NodeState) :
    (postOwnership n u s).journal = s.journal := by
  unfold postOwnership
  split
  · split_ifs <;> rfl
  · exact mergeUpdate_journal u s

/-- The journals and the log are the same. -/
structure SameJournals (v w : World) : Prop where
  journals : ∀ k, (w.nodes k).journal = (v.nodes k).journal
  log : w.log = v.log

theorem event_same {e : Event} (happened : event e v = some w) : SameJournals v w := by
  cases e with
  | mergeUpdate i u =>
      simp only [event] at happened
      split at happened <;> cases happened
      exact ⟨journal_modify (mergeUpdate_journal u _), rfl⟩
  | postOwnership i u =>
      simp only [event] at happened
      split at happened <;> cases happened
      exact ⟨journal_modify (postOwnership_journal u _), rfl⟩
  | reconcileRuntime i verdict =>
      cases happened
      exact ⟨journal_modify (reconcileRuntime_journal verdict _), rfl⟩
  | _ =>
      simp only [event] at happened
      first
        | split at happened <;> cases happened
        | cases happened
      first
        | exact ⟨fun _ => rfl, rfl⟩
        | exact ⟨journal_modify rfl, rfl⟩

theorem accept_same {a : Call} (accepted : accept n a v = some w) :
    SameJournals v w ∧ (w.nodes n).registry = (v.nodes n).registry := by
  cases a with
  | reconcile record =>
      simp only [accept] at accepted
      split at accepted <;> cases accepted
      exact ⟨⟨journal_modify rfl, rfl⟩, by rw [World.modify_self]⟩
  | _ =>
      simp only [accept] at accepted
      split at accepted <;> cases accepted
      exact ⟨⟨fun _ => rfl, rfl⟩, rfl⟩

namespace SameJournals

theorem logged (same : SameJournals v w) (inv : Logged v) : Logged w := by
  intro k m r found
  rw [same.journals] at found
  unfold World.isFresh
  rw [same.log]
  exact inv k m r found

theorem keeps (same : SameJournals v w) : Keeps n v w := keeps_of_same same.journals

end SameJournals

/-! ## Runs -/

theorem absorbing_verified (services : Services) :
    (cluster services).VerifiedAtOnce lateCallsAgree Logged
      (fun n v w => (w.nodes n).journal = (v.nodes n).journal) Keeps
      fun v w => ∀ n, Absorbs (v.nodes n).journal (w.nodes n).journal where
  trans first then_ n := (first n).trans (then_ n)
  interference ne keeps := keeps.others _ ne
  within {n v w} keeps i := by
    by_cases here : i = n
    · exact here ▸ keeps.absorbs
    · rw [keeps.others i here]
      exact .refl _
  call {n a v w} inv agrees accepted := by
    change accept n a v = some w at accepted
    obtain ⟨same, registry⟩ := accept_same accepted
    refine ⟨same.logged inv, same.keeps, ?_⟩
    cases a with
    | migrate call =>
        have fresh : (w.nodes n).journal.get call.migrationId = none := by
          simp only [accept] at accepted
          split at accepted <;> cases accepted
          rename_i new
          rw [Option.eq_none_iff_forall_ne_some]
          intro r found
          have drawn := inv n _ r found
          rw [new.1] at drawn
          cases drawn
        have safe : Keep n (fun j => j.get call.migrationId = none) (body services n (.migrate call))
            (fun _ _ => True) fun _ => True := .bind migrate_keeps fun _ => quiet (.pure ())
        exact (safe fresh).atOnce.mono fun _ _ _ => trivial
    | activate request =>
        have here : request.destinationNodeId = n := by
          simp only [accept] at accepted
          split at accepted <;> cases accepted
          rename_i sent
          exact sent.2
        have fits : RequestFits n request (v.nodes n).registry (v.nodes n).journal := agrees
        rw [← same.journals, ← registry] at fits
        exact (serveActivation_keeps here fits).mono fun _ _ _ => trivial
    | reconcile record =>
        have fits : PassFits n record (v.nodes n).registry (v.nodes n).journal := agrees
        rw [← same.journals, ← registry] at fits
        exact (reconcileRecord_keeps fits).mono fun _ _ _ => trivial
  crash {n v} inv _ := by
    have same : SameJournals v (crash n v) := ⟨journal_modify rfl, rfl⟩
    exact ⟨same.logged inv, same.keeps⟩
  event {e v w} inv _ happened := by
    have same := event_same happened
    exact ⟨same.logged inv, same.journals, fun n => by
      rw [same.journals]
      exact .refl _⟩

/-- In every run in which what comes late agrees with the journal, a record that is ACTIVATED or
ROLLED_BACK stays so at each node. -/
theorem finished_records_stay (services : Services) {start v u : ClusterConfig}
    (idle : ∀ n, start.running n = none) (logged : Logged start.world)
    (reach : (cluster services).Reachable lateCallsAgree start v)
    (reach' : (cluster services).Reachable lateCallsAgree v u) (n : NodeId) :
    Absorbs (v.world.nodes n).journal (u.world.nodes n).journal := by
  have verified := absorbing_verified services
  have sound := verified.reachable logged idle reach
  exact (verified.run (fun _ _ => .refl _) sound reach').2 n

end

/-! ## A pass that comes late -/

/-- The pass does not reach the destination. -/
def unreachedScript : List ClusterLabel :=
  [.call "a" (.reconcile staleRecord) (.ok 0), .perform "a" (.polls 0)] ++ proceed "a" 1

set_option maxRecDepth 100000 in
/-- The migration is rolled back, and the pass opens its record again. -/
theorem stalePass_reopens : ∃ v u,
    (cluster bareServices).run (quiesceScript ++ failScript) sampleCluster = some v ∧
    (cluster bareServices).run unreachedScript v = some u ∧
    ((v.world.nodes "a").journal.get "m").map (·.status) = some .rolledBack ∧
    ((u.world.nodes "a").journal.get "m").map (·.status) = some .uncertain ∧
    ¬ Absorbs (v.world.nodes "a").journal (u.world.nodes "a").journal := by
  have script : ∃ v u,
      (cluster bareServices).run (quiesceScript ++ failScript) sampleCluster = some v ∧
      (cluster bareServices).run unreachedScript v = some u ∧
      ((v.world.nodes "a").journal.get "m").map (·.status) = some .rolledBack ∧
      ((u.world.nodes "a").journal.get "m").map (·.status) = some .uncertain :=
    System.exists_runs (by decide)
  obtain ⟨v, u, run, run', before, after⟩ := script
  refine ⟨v, u, run, run', before, after, fun absorbs => ?_⟩
  obtain ⟨record, found, status⟩ := Option.map_eq_some_iff.mp before
  obtain ⟨record', found', same⟩ := absorbs "m" record found (by rw [status]; rfl)
  rw [found', Option.map_some, same, status] at after
  cases after

/-- Another migration of the task begins. -/
def nextScript : List ClusterLabel :=
  [.call "a" (.migrate { sampleCall with migrationId := "m2" }) (.ok 0)] ++ proceed "a" 1

/-- The step meets the conditions in every state. -/
def isPrompt : ClusterLabel → Bool
  | .call _ (.migrate _) _ | .perform .. | .crash _ | .event _ => true
  | .call .. => false

theorem meets_of_isPrompt {services : Services} {l : ClusterLabel} (prompt : isPrompt l = true)
    (cfg : ClusterConfig) : (cluster services).Meets lateCallsAgree l cfg := by
  have first {n : NodeId} {c : Choice} {p : Async Unit} {w : World} :
      System.Meets.first lateCallsAgree n c p w := by cases p <;> trivial
  cases l with
  | call n a c =>
      cases a with
      | migrate call => exact ⟨trivial, fun _ _ => first⟩
      | _ => cases prompt
  | perform n c => exact fun _ _ => first
  | crash n => trivial
  | event e => trivial

set_option maxRecDepth 100000 in
theorem finished_records_stay_sample : ∃ v u,
    (cluster bareServices).run (quiesceScript ++ failScript) sampleCluster = some v ∧
    (cluster bareServices).run nextScript v = some u ∧
    ((v.world.nodes "a").journal.get "m").map (·.status) = some .rolledBack ∧
    (u.world.nodes "a").journal.map (·.status) = [.rolledBack, .preparing] ∧
    Absorbs (v.world.nodes "a").journal (u.world.nodes "a").journal := by
  have script : ∃ v u,
      (cluster bareServices).run (quiesceScript ++ failScript) sampleCluster = some v ∧
      (cluster bareServices).run nextScript v = some u ∧
      ((v.world.nodes "a").journal.get "m").map (·.status) = some .rolledBack ∧
      (u.world.nodes "a").journal.map (·.status) = [.rolledBack, .preparing] :=
    System.exists_runs (by decide)
  obtain ⟨v, u, run, run', before, after⟩ := script
  have prompt : ∀ l ∈ quiesceScript ++ failScript, isPrompt l = true := by decide
  have prompt' : ∀ l ∈ nextScript, isPrompt l = true := by decide
  have reach := System.reachable_of_run _ _ (fun l mem => meets_of_isPrompt (prompt l mem))
    .refl run
  have reach' := System.reachable_of_run _ _ (fun l mem => meets_of_isPrompt (prompt' l mem))
    .refl run'
  exact ⟨v, u, run, run', before, after, finished_records_stay bareServices (fun _ => rfl)
    (fun _ _ _ found => by cases found) reach reach' "a"⟩

end Magellan.Absorption
