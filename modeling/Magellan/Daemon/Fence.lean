import Magellan.Daemon.Frames
import Magellan.Migration.Outcome

/-!
# The fence

Between the stop of a task that migrates and the end of its migration the record is all that keeps
the other services from running the task again. The record blocks them as long as none of them
writes a failure over it or goes on from what it has read before the stop.
-/

namespace Magellan.Fence

open Coroutine Coro MigrationService
open Registry (Operation)

/-- No service of the daemon runs a task with this record. -/
def Blocked (s : TaskRuntimeState) : Prop :=
  s.status ≠ .running ∧ s.status ≠ .paused ∧ s.status ≠ .recovering ∧
    (s.status = .failed → s.recoveryExhausted = true)

def Agrees (r s : TaskRuntimeState) : Prop :=
  r.status = s.status ∧ r.recoveryExhausted = s.recoveryExhausted

/-- What a thread may write that has read `r` while the fence is up. -/
def Permits (lane : Lane) (restarting : Bool) (r : TaskRuntimeState) : Operation → Prop
  | .markPaused .. | .beginRecovery => False
  | .markRunning .. => lane = .migration ∨ restarting = true
  | .markFailed .. => lane = .migration ∨ restarting = true ∨ r.recoveryExhausted = true
  | _ => True

/-- The status has not changed since the thread has read or written it. -/
def Current (t : ServiceThread) (v : Shared) : Prop :=
  ∀ r, v.seen t = some r → r.status = (v.record t.node).status

def conditions : DaemonsConditions where
  op t s _ v :=
    match s with
    | .finish o read =>
        ((v.history t.node).Fenced ∨ o = .markStopped → Agrees read (v.record t.node)) ∧
          ((v.history t.node).Fenced → Permits t.lane (v.history t.node).restarting read o)
    | .setState s => (v.history t.node).Fenced → Blocked s
    | .getState | .op .spawn => t.lane = .recovery → Current t v
    | .signal .cont _ => Current t v
    | _ => True

/-- What a raised fence says of the record behind it. -/
def Guards (h : History) (s : TaskRuntimeState) : Prop :=
  h.Fenced → s.status ≠ .paused ∧ s.status ≠ .recovering ∧ (h.restarting = false → Blocked s)

def Guarded (v : Shared) : Prop := ∀ n, Guards (v.history n) (v.record n)

/-- Only the holder of the migration lock starts or resumes a process behind the fence. -/
def Progress : Shared → Shared → Prop :=
  Adds fun a => a.thread.lane ≠ .migration → ¬ a.history.Fenced

def Guar (t : ServiceThread) (v w : Shared) : Prop :=
  (∀ u, u ≠ t → w.seen u = v.seen u) ∧ Progress v w

def contract (t : ServiceThread) : Contract Step Fate Shared :=
  ⟨conditions.op t, Rely t, Guarded, Guar t⟩

/-! ## The record behind the fence -/

section

variable {n : NodeId} {h h' : History} {r s c : TaskRuntimeState} {o : Operation} {lane : Lane}
  {call : Option ServiceCall}

theorem Guards.of_blocked (blocked : Blocked s) : Guards h s :=
  fun _ => ⟨blocked.2.1, blocked.2.2.1, fun _ => blocked⟩

theorem Blocked.of_agrees (blocked : Blocked c) (agrees : Agrees s c) : Blocked s := by
  unfold Blocked
  rw [agrees.1, agrees.2]
  exact blocked

theorem Guards.of_agrees (guards : Guards h c) (agrees : h.Fenced → Agrees s c) :
    Guards h s := by
  intro fenced
  obtain ⟨paused, recovering, blocked⟩ := guards fenced
  rw [(agrees fenced).1]
  exact ⟨paused, recovering, fun still => (blocked still).of_agrees (agrees fenced)⟩

theorem Guards.weaken (guards : Guards h s) (fenced : h'.Fenced → h.Fenced)
    (restarting : h.restarting = true → h'.restarting = true) : Guards h' s := by
  intro up
  obtain ⟨paused, recovering, blocked⟩ := guards (fenced up)
  refine ⟨paused, recovering, fun still => blocked ?_⟩
  rw [Bool.eq_false_iff]
  intro before
  rw [restarting before] at still
  cases still

theorem blocked_of_status {status : TaskStatus} (is : s.status = status)
    (h : status = .stopped ∨ status = .migrating ∨ status = .completed ∨ status = .remote) :
    Blocked s := by
  unfold Blocked
  rw [is]
  rcases h with rfl | rfl | rfl | rfl <;> simp

theorem blocked_of_exhausted (failed : s.status = .failed)
    (exhausted : s.recoveryExhausted = true) : Blocked s := by
  unfold Blocked
  rw [failed]
  exact ⟨by decide, by decide, by decide, fun _ => exhausted⟩

/-- The operations that raise the fence or restart the task behind it. -/
def moves : Operation → Bool
  | .markStopped | .markRunning .. | .markFailed .. => true
  | _ => false

theorem after_of_not_moves (still : moves o = false) : h.after lane call o = h := by
  cases o <;> cases lane <;> first
    | rfl
    | cases still

theorem after_restarting (h : History) (o : Operation) (moved : o ≠ .markStopped) :
    (h.after lane call o).quiesced = h.quiesced ∧
      (h.restarting = true → (h.after lane call o).restarting = true) := by
  cases lane with
  | migration =>
      cases o with
      | markStopped => exact absurd rfl moved
      | markRunning | markFailed => exact ⟨rfl, fun _ => rfl⟩
      | _ => exact ⟨rfl, id⟩
  | _ => exact ⟨rfl, id⟩

theorem guards_written (guards : Guards h c) (agrees : h.Fenced ∨ o = .markStopped → Agrees r c)
    (permits : h.Fenced → Permits lane h.restarting r o) (written : (o.perform n r).written = some s) :
    Guards (h.after lane call o) s := by
  obtain ⟨writes, drive⟩ := Registry.control_written written
  have status : s.status = (o.drive n r.control).status := congrArg Control.status drive
  have exhausted : s.recoveryExhausted = (o.drive n r.control).recoveryExhausted :=
    congrArg Control.recoveryExhausted drive
  have kept (same : Agrees s r) : Guards h s :=
    guards.of_agrees fun up =>
      ⟨same.1.trans (agrees (.inl up)).1, same.2.trans (agrees (.inl up)).2⟩
  cases o with
  | setArtifactDigests | recordAccounting | scheduleRecovery =>
      rw [after_of_not_moves rfl]
      exact kept ⟨status, exhausted⟩
  | markStopped | markMigrating | markCompleted | claimLocal | restoreLocalAfterFailure
  | markRemote => exact .of_blocked (blocked_of_status status (by simp [Operation.drive]))
  | markRecoveryExhausted =>
      exact .of_blocked (blocked_of_exhausted status exhausted)
  | markPaused | beginRecovery =>
      rw [after_of_not_moves rfl]
      exact fun up => (permits up).elim
  | markResumed now =>
      rw [after_of_not_moves rfl]
      intro up
      exact absurd ((agrees (.inl up)).1.symm.trans writes.2.1) (guards up).1
  | applyOwnership u =>
      rw [after_of_not_moves rfl]
      simp only [Operation.drive] at status exhausted
      by_cases completed : u.status = some .completed
      · rw [if_pos completed] at status
        exact .of_blocked (blocked_of_status status (by simp))
      · rw [if_neg completed] at status exhausted
        by_cases foreign : u.ownerNodeId ≠ n
        · rw [if_pos foreign] at status
          exact .of_blocked (blocked_of_status status (by simp))
        · rw [if_neg foreign] at status exhausted
          exact kept ⟨status, exhausted⟩
  | markRunning pid adapter command resumed now =>
      intro up
      refine ⟨by simp [status, Operation.drive], by simp [status, Operation.drive], fun still => ?_⟩
      have before : h.Fenced := by cases lane <;> exact up
      cases lane with
      | migration => cases still
      | _ =>
          rcases permits before with lock | restarting
          · cases lock
          · exact absurd (restarting.symm.trans still) Bool.noConfusion
  | markFailed error exitCode now =>
      intro up
      refine ⟨by simp [status, Operation.drive], by simp [status, Operation.drive], fun still => ?_⟩
      have before : h.Fenced := by cases lane <;> exact up
      cases lane with
      | migration => cases still
      | _ =>
          rcases permits before with lock | restarting | spent
          · cases lock
          · exact absurd (restarting.symm.trans still) Bool.noConfusion
          · exact blocked_of_exhausted status (exhausted.trans spent)

theorem guards_unwritten (guards : Guards h c) (agrees : h.Fenced ∨ o = .markStopped → Agrees r c)
    (unwritten : (o.perform n r).written = none) : Guards (h.after lane call o) c := by
  by_cases stop : o = .markStopped
  · subst stop
    have completed : r.status = .completed := by
      by_contra open_
      exact (Registry.written_eq_none_iff .markStopped).mp unwritten open_
    refine .of_blocked (blocked_of_status ?_ (.inr (.inr (.inl rfl))))
    exact (agrees (.inr rfl)).1.symm.trans completed
  · obtain ⟨quiesced, restarting⟩ := @after_restarting lane call h o stop
    refine guards.weaken (fun up => ?_) restarting
    unfold History.Fenced at up ⊢
    rwa [quiesced] at up

end

/-! ## The steps -/

section

variable {t : ServiceThread} {f : Fate} {v w : Shared} {P : Option TaskRuntimeState → Prop}

theorem guar_refl (t : ServiceThread) (v : Shared) : Guar t v v := ⟨fun _ _ => rfl, .refl v⟩

theorem guarded_note {n : NodeId} {g : History → History} (inv : Guarded v)
    (here : Guards (g (v.history n)) (v.record n)) : Guarded (v.note n g) := by
  intro i
  rw [Shared.record_note]
  by_cases same : i = n
  · subst same
    rw [Shared.history_note_self]
    exact here
  · rw [Shared.history_note_of_ne _ same]
    exact inv i

theorem history_put (t : ServiceThread) (s : TaskRuntimeState) :
    ((v.put t s).history t.node).quiesced = (v.history t.node).quiesced ∧
      ((v.put t s).history t.node).restarting = (v.history t.node).restarting := by
  rw [Shared.history_put_self]
  split <;> exact ⟨rfl, rfl⟩

theorem guarded_put {s : TaskRuntimeState} {g : History → History} (inv : Guarded v)
    (here : Guards (g ((v.put t s).history t.node)) s) : Guarded ((v.put t s).note t.node g) := by
  intro i
  rw [Shared.record_note]
  by_cases same : i = t.node
  · subst same
    rw [Shared.history_note_self, Shared.record_put_self]
    exact here
  · rw [Shared.history_note_of_ne _ same, Shared.history_put_of_ne t s same,
      Shared.record_put_of_ne t s same]
    exact inv i

theorem guar_put (s : TaskRuntimeState) (g : History → History) :
    Guar t v ((v.put t s).note t.node g) := by
  refine ⟨fun u ne => ?_, .of_same rfl⟩
  rw [Shared.seen_note, Shared.seen_put_of_ne s ne]

theorem guarded_finish {o : Operation} {r : TaskRuntimeState} (inv : Guarded v)
    (allowed : conditions.op t (.finish o r) f v) :
    Guarded ((v.putAny t (o.perform t.node r).written).note t.node
        (History.after t.lane (v.call t) o)) ∧
      Guar t v ((v.putAny t (o.perform t.node r).written).note t.node
        (History.after t.lane (v.call t) o)) := by
  obtain ⟨agrees, permits⟩ := allowed
  cases written : (o.perform t.node r).written with
  | none =>
      exact ⟨guarded_note inv (guards_unwritten (inv t.node) agrees written), fun _ _ => rfl,
        .of_same rfl⟩
  | some s =>
      refine ⟨guarded_put inv ?_, guar_put s _⟩
      obtain ⟨quiesced, restarting⟩ := history_put (v := v) t s
      have fenced : ((v.put t s).history t.node).Fenced ↔ (v.history t.node).Fenced := by
        unfold History.Fenced
        rw [quiesced]
      refine guards_written (c := v.record t.node) ?_ ?_ ?_ written
      · exact (inv t.node).weaken fenced.mp fun before => restarting.trans before
      · rwa [fenced]
      · rwa [fenced, restarting]

/-- A step that starts or resumes a process. -/
def isActing : Step → Bool
  | .op .spawn | .signal .cont _ => true
  | _ => false

theorem guarded_silent (inv : Guarded v) (quiet : Silent v w) : Guarded w := by
  intro n
  rw [quiet.record]
  exact (inv n).weaken quiet.fenced fun before => (quiet.restarting n).trans before

theorem guarded_spawned {pid : Pid} (inv : Guarded v) : Guarded (v.spawned t pid) := by
  intro n
  rw [Shared.record_spawned]
  by_cases here : n = t.node
  · subst here
    rw [Shared.history_spawned_self]
    split
    · exact (inv t.node).weaken id fun _ => rfl
    · exact inv t.node
  · rw [Shared.history_spawned_of_ne t pid here]
    exact inv n

theorem silent_of_exec {s : Step} {r : Except Exn s.Ret} (tame : s.isLoud = false) (inv : Guarded v)
    (done : s.exec t f v = some (r, w)) : Guarded w ∧ Guar t v w ∧ w.seen = v.seen := by
  have quiet := exec_silent tame done
  exact ⟨guarded_silent inv quiet, ⟨fun u _ => by rw [quiet.seen], .of_same quiet.activity⟩,
    quiet.seen⟩

/-- Every step that the conditions allow keeps the record behind the fence. A process may be started
or resumed only where the fence is down. -/
theorem guarded_step {s : Step} {r : Except Exn s.Ret}
    (acts : isActing s = true → t.lane ≠ .migration → ¬ (v.history t.node).Fenced)
    (inv : Guarded v) (allowed : conditions.op t s f v) (done : s.exec t f v = some (r, w)) :
    Guarded w ∧ Guar t v w := by
  by_cases tame : s.isLoud = false
  · obtain ⟨inv', guar, -⟩ := silent_of_exec tame inv done
    exact ⟨inv', guar⟩
  cases s with
  | getState =>
      rcases Step.exec_getState done with ⟨e, -, rfl, rfl⟩ | ⟨rfl, rfl⟩
      · exact ⟨inv, guar_refl t w⟩
      · exact ⟨inv, fun _ ne => Shared.seen_saw_of_ne _ ne, .of_same rfl⟩
  | finish o read =>
      rcases Step.exec_finish done with ⟨e, -, rfl, rfl⟩ | ⟨value, -, rfl, rfl⟩
      · exact ⟨inv, guar_refl t w⟩
      · exact guarded_finish inv allowed
  | setState s =>
      rcases Step.exec_setState done with ⟨e, -, rfl, rfl⟩ | ⟨rfl, rfl⟩
      · exact ⟨inv, guar_refl t w⟩
      · have same : (v.put t s).note t.node id = v.put t s := by
          simp only [Shared.note, id, Function.update_eq_self]
        obtain ⟨quiesced, -⟩ := history_put (v := v) t s
        rw [← same]
        refine ⟨guarded_put inv fun up => ?_, guar_put s id⟩
        have before : (v.history t.node).Fenced := fun down => up (quiesced.trans down)
        exact Guards.of_blocked (allowed before) up
  | op o =>
      cases o with
      | spawn =>
          rcases Step.exec_spawn done with ⟨e, -, rfl, rfl⟩ | ⟨pid, rfl, rfl⟩
          · exact ⟨inv, guar_refl t w⟩
          · exact ⟨guarded_spawned inv, fun _ _ => rfl, .single (acts rfl) rfl⟩
      | _ => exact absurd rfl tame
  | signal kind pid =>
      cases kind with
      | stop => exact absurd rfl tame
      | cont =>
          rcases Step.exec_cont done with ⟨e, rfl, rfl⟩ | ⟨rfl, rfl⟩ | ⟨rfl, rfl⟩
          · exact ⟨inv, guar_refl t w⟩
          · exact ⟨inv, guar_refl t w⟩
          · exact ⟨inv, fun _ _ => rfl, .single (acts rfl) rfl⟩
  | _ => exact absurd rfl tame

/-! ## The routines that start nothing -/

theorem keeps_idle {α : Type} {p : Routine α} (idle : p.Performs (isActing · = false)) :
    Triple (Step.exec t) (contract t) (fun _ => True) p (fun _ _ => True) fun _ _ => True :=
  .of_performs .top idle fun s still v f r w _ inv allowed done => by
    obtain ⟨inv', guar⟩ := guarded_step (fun acting => by rw [still] at acting; cases acting) inv
      allowed done
    exact ⟨inv', guar, by cases r <;> trivial⟩

theorem keeps_migration {α : Type} (lock : t.lane = .migration) (p : Routine α) :
    Triple (Step.exec t) (contract t) (fun _ => True) p (fun _ _ => True) fun _ _ => True :=
  .of_performs .top (.of_forall (P := fun _ => True) (fun _ => trivial) p)
    fun s _ v f r w _ inv allowed done => by
      obtain ⟨inv', guar⟩ := guarded_step (fun _ other => absurd lock other) inv allowed done
      exact ⟨inv', guar, by cases r <;> trivial⟩

/-- The routine starts and resumes nothing. -/
abbrev Idle {α : Type} (p : Routine α) : Prop := p.Performs (isActing · = false)

theorem transact_idle (o : Operation) : Idle (transact o) := .bind (.op rfl) fun _ => .op rfl

theorem update_idle (o : Operation) : Idle (update o) := .bind (transact_idle o) fun _ => .pure _

theorem isAlive_idle (pid : Option Pid) : Idle (LocalProcess.isAlive pid) := by
  cases pid with
  | none => exact .pure _
  | some pid => exact .op rfl

theorem settleTask_idle (n : NodeId) : Idle (settleTask n) :=
  .bind (.op rfl) fun _ => .ite (.pure _)
    (.bind (.op rfl) fun _ => .bind (isAlive_idle _) fun _ => update_idle _)

theorem timed_idle (o : Timestamp → Operation) :
    Idle (do let now ← step .clock; update (o now)) := .bind (.op rfl) fun _ => update_idle _

theorem killpg_idle (pid : Option Pid) : Idle (LocalProcess.killpg .stop pid) := by
  cases pid with
  | none => exact .pure _
  | some pid => exact .op rfl

theorem pause_idle (n : NodeId) (pausedAt resumeAt resumeWallAt : Timestamp) (reason : String) :
    Idle (LocalProcess.pause n pausedAt resumeAt resumeWallAt reason) := by
  refine .bind (.op rfl) fun state => .ite (.raise _) (.ite (.pure _) (.bind ?_ fun alive => ?_))
  · exact .ite (isAlive_idle _) (.pure _)
  · refine .ite (.raise _) (.bind (killpg_idle _) fun found => .bind (.op rfl) fun now => ?_)
    exact .ite (update_idle _) (.bind (update_idle _) fun _ => .raise _)

theorem finalize_idle (exitCode : Option Int) : Idle (LocalProcess.finalize exitCode) :=
  .bind (.op rfl) fun _ => .bind (.op rfl) fun _ => .bind (.op rfl) fun _ => update_idle _

theorem reconcile_idle (n : NodeId) : Idle (LocalProcess.reconcile n) := by
  refine .bind (.op rfl) fun state => .ite (.pure _) (.bind ?_ fun seen => .ite (.pure _) ?_)
  · exact .bind (.op rfl) fun _ => .bind (.ite (isAlive_idle _) (.pure _)) fun _ => .pure _
  · refine .bind (.op rfl) fun _ => .bind (.op rfl) fun found => .ite ?_ (timed_idle _)
    exact .tryExcept (finalize_idle _) fun e => timed_idle _

theorem mergePolicy_idle (u : Registry.OwnershipUpdate) : Idle (mergePolicy u) := by
  unfold mergePolicy
  cases u.adaptivePolicy with
  | none => exact .pure _
  | some policy => exact .op rfl

theorem installDigests_idle (u : Registry.OwnershipUpdate) : Idle (installDigests u) :=
  .ite (.pure _) (update_idle _)

theorem mergeUpdate_idle (u : Registry.OwnershipUpdate) : Idle (mergeUpdateRoutine u) :=
  .bind (transact_idle _) fun _ =>
    .ite (.bind (installDigests_idle u) fun _ => mergePolicy_idle u) (.pure _)

theorem postOwnership_idle (u : Registry.OwnershipUpdate) : Idle (postOwnershipRoutine u) :=
  .bind (transact_idle _) fun _ => .bind (installDigests_idle u) fun _ =>
    .ite (mergePolicy_idle u) (.pure _)

theorem registryOp_idle (n : NodeId) (op : RegistryOp) : Idle (registryOp n op) := by
  refine .bind (.op rfl) fun now => ?_
  cases op.update n now with
  | inl o => exact .bind (.op rfl) fun _ => .bind (.op rfl) fun _ => .pure _
  | inr s => exact .bind (.op rfl) fun _ => .pure _

theorem stepwise_idle (n : NodeId) {o : Op} (still : isActing (.op o) = false) :
    Idle (stepwise n o) := by
  cases o with
  | spawn => cases still
  | registry op => exact registryOp_idle n op
  | ensureTaskArtifacts =>
      exact .bind (.op rfl) fun _ => .bind (update_idle _) fun _ => .pure _
  | stageBindings | recordMigration => exact .bind (.op rfl) fun _ => update_idle _
  | settleTask => exact settleTask_idle n
  | _ => exact .op rfl

/-! ## Recovery -/

def Recovering (seen : Option TaskRuntimeState) : Prop :=
  ∃ s, seen = some s ∧ s.status = .recovering

theorem stable_sees : (contract t).Stable (Sees t P) := .stable rfl

theorem silent_keeps {s : Step} (tame : s.isLoud = false) :
    Triple (Step.exec t) (contract t) (Sees t P) (step s) (fun _ => Sees t P) fun _ => Anything := by
  refine .op stable_sees (fun _ => stable_sees) (fun _ => .top)
    fun {_ _ r _} sees inv _ done => ?_
  obtain ⟨inv', guar, seen⟩ := silent_of_exec tame inv done
  refine ⟨inv', guar, ?_⟩
  cases r with
  | ok a => exact (congrArg P (congrFun seen t)).mpr sees
  | error e => trivial

theorem getState_recovering (lane : t.lane = .recovery) :
    Triple (Step.exec t) (contract t) (Sees t Recovering) (step .getState)
      (fun r v => r.status = .recovering ∧ Sees t (· = some r) v) fun _ => Anything := by
  refine .op stable_sees (fun _ => (Contract.Stable.const _).and stable_sees) (fun _ => .top)
    fun {v f r w} sees inv allowed done => ?_
  have kept := guarded_step (s := .getState) (fun acting => by cases acting) inv allowed done
  refine ⟨kept.1, kept.2, ?_⟩
  rcases Step.exec_getState done with ⟨e, -, rfl, rfl⟩ | ⟨rfl, rfl⟩
  · trivial
  · obtain ⟨s, seen, recovering⟩ := sees
    exact ⟨(allowed lane s seen).symm.trans recovering, Shared.seen_saw_self t _⟩

theorem finish_recovering {o : Operation} {r : TaskRuntimeState}
    (ends : ∀ value, (o.perform t.node r).outcome = .ok value →
      ∃ s, (o.perform t.node r).written = some s ∧ s.status = .recovering) :
    Triple (Step.exec t) (contract t) (Sees t (· = some r)) (step (.finish o r))
      (fun _ => Sees t Recovering) fun _ => Anything := by
  refine .op stable_sees (fun _ => stable_sees) (fun _ => .top)
    fun {v f x w} sees inv allowed done => ?_
  have kept := guarded_step (s := .finish o r) (fun acting => by cases acting) inv allowed done
  refine ⟨kept.1, kept.2, ?_⟩
  rcases Step.exec_finish done with ⟨e, -, rfl, rfl⟩ | ⟨value, returned, rfl, rfl⟩
  · trivial
  · obtain ⟨s, written, recovering⟩ := ends value returned
    rw [written]
    exact ⟨s, Shared.seen_put_self t s, recovering⟩

theorem written_of_ok {x : Except Exn TaskRuntimeState} {value : Registry.Value}
    (h : (Registry.Effect.ofExcept x).outcome = .ok value) :
    ∃ s, x = .ok s ∧ (Registry.Effect.ofExcept x).written = some s := by
  cases x with
  | ok s => exact ⟨s, rfl, rfl⟩
  | error e => cases h

theorem beginRecovery_recovering :
    Triple (Step.exec t) (contract t) Anything (update .beginRecovery)
      (fun _ => Sees t Recovering) fun _ => Anything := by
  refine .bind (.bind (B := fun r => Sees t (· = some r)) ?_ fun read => ?_) fun _ =>
    .pure stable_sees fun _ sees => sees
  · refine .op .top (fun _ => stable_sees) (fun _ => .top) fun {v f r w} _ inv allowed done => ?_
    have kept := guarded_step (s := .getState) (fun acting => by cases acting) inv allowed done
    refine ⟨kept.1, kept.2, ?_⟩
    rcases Step.exec_getState done with ⟨e, -, rfl, rfl⟩ | ⟨rfl, rfl⟩
    · trivial
    · exact Shared.seen_saw_self t _
  · refine finish_recovering fun value returned => ?_
    obtain ⟨s, -, written⟩ := written_of_ok returned
    refine ⟨s, written, ?_⟩
    exact congrArg Control.status
      (Registry.control_written (n := t.node) (r := read) (o := .beginRecovery) written).2

theorem update_recovering (lane : t.lane = .recovery) (digests : List (String × String)) :
    Triple (Step.exec t) (contract t) (Sees t Recovering) (update (.setArtifactDigests digests))
      (fun _ => Sees t Recovering) fun _ => Anything := by
  refine .bind (.bind (getState_recovering lane) fun read => .given fun recovering => ?_) fun _ =>
    .pure stable_sees fun _ sees => sees
  exact finish_recovering fun value _ => ⟨_, rfl, recovering⟩

/-- A recovery that still reads its own status has found the fence down. -/
theorem spawn_recovering (lane : t.lane = .recovery) :
    Triple (Step.exec t) (contract t) (Sees t Recovering) (step (.op .spawn))
      (fun _ => Anything) fun _ => Anything := by
  refine .op stable_sees (fun _ => .top) (fun _ => .top) fun {v f r w} sees inv allowed done => ?_
  have down : ¬ (v.history t.node).Fenced := by
    intro up
    obtain ⟨s, seen, recovering⟩ := sees
    exact (inv t.node up).2.1 ((allowed lane s seen).symm.trans recovering)
  have kept := guarded_step (s := .op .spawn) (fun _ _ => down) inv allowed done
  exact ⟨kept.1, kept.2, by cases r <;> trivial⟩

theorem track_performs (plan : LaunchPlan) (pid : Pid) :
    (LocalProcess.track plan pid).Performs fun o => isActing (.op o) = false :=
  .attempt (.op rfl) (fun _ => .op rfl) fun _ =>
    .bind (.op rfl) fun _ => .bind (.op rfl) fun _ => .bind (.op rfl) fun _ => .raise _

theorem start_recovering (lane : t.lane = .recovery) :
    Carried (Step.exec t) (contract t) (stepwise t.node) (Sees t Recovering)
      (LocalProcess.start t.node) (fun _ => Anything) fun _ => Anything := by
  have quiet {o : Op} (same : stepwise t.node o = step (.op o))
      (tame : (Step.op o).isLoud = false) : Carried (Step.exec t) (contract t) (stepwise t.node)
        (Sees t Recovering) (await o) (fun _ => Sees t Recovering) fun _ => Anything :=
    .op (same ▸ silent_keeps tame)
  have fails {α : Type} (e : Exn) : Carried (Step.exec t) (contract t) (stepwise t.node)
      (Sees t Recovering) (raise e : Async α) (fun _ => Anything) fun _ => Anything :=
    .raise .top fun _ _ => trivial
  refine .bind (B := fun _ => Sees t Recovering) (.op ?_) fun _ => ?_
  · exact .bind (silent_keeps rfl) fun _ => .bind (update_recovering lane _) fun _ =>
      .pure stable_sees fun _ sees => sees
  refine .bind (.op (getState_recovering lane)) fun state => ?_
  refine Carried.weaken (A := Sees t Recovering) ?_ (fun v b => ⟨state, b.2, b.1⟩)
    (fun _ _ b => b) fun _ _ e => e
  refine .bind (quiet rfl rfl) fun _ => .ite (fun _ => fails _) fun _ => .ite (fun _ => fails _)
    fun _ => .bind (B := fun _ => Sees t Recovering) ?_ fun alive => ?_
  · cases state.pid with
    | none => exact .pure stable_sees fun _ sees => sees
    | some pid => exact quiet rfl rfl
  refine .ite (fun _ => .pure .top fun _ _ => trivial) fun _ => .ite (fun _ => fails _) fun _ => ?_
  refine .bind (quiet rfl rfl) fun _ => .bind (quiet rfl rfl) fun plan => .bind (quiet rfl rfl)
    fun _ => .bind (.op (spawn_recovering lane)) fun pid => ?_
  exact .of_performs .top (track_performs plan pid) fun o late => keeps_idle (stepwise_idle _ late)

theorem recoverOne_keeps (lane : t.lane = .recovery) (policy : RecoveryPolicy) (now : Timestamp) :
    Triple (Step.exec t) (contract t) Anything
      (FailureRecoveryService.recoverOne policy t.node now) (fun _ => Anything)
      fun _ => Anything := by
  have idle {p : Routine Unit} (still : Idle p) : Triple (Step.exec t) (contract t) Anything p
      (fun _ => Anything) fun _ => Anything := keeps_idle still
  refine .bind (keeps_idle (p := step .getState) (.op rfl)) fun state => .ite
    (fun _ => idle (.pure _)) fun _ => .ite (fun _ => idle (update_idle _)) fun _ =>
      .ite (fun _ => idle (update_idle _)) fun _ => ?_
  cases state.nextRecoveryAtUtc with
  | none => exact idle (update_idle _)
  | some recoverAt =>
      refine .ite (fun _ => idle (.pure _)) fun _ => .attempt
        (keeps_idle (p := step (.op (.external .validateCheckpoint))) (.op rfl)) (fun _ => ?_)
        fun e => idle (.ite (update_idle _) (.raise _))
      exact .bind beginRecovery_recovering fun _ => .attempt (start_recovering lane)
        (fun _ => idle (.pure _)) fun _ => idle (.pure _)

/-! ## Pausing -/

/-- A resumption that still reads the paused task has found the fence down. -/
theorem cont_paused {r : TaskRuntimeState} (paused : r.status = .paused) {pid : Pid} :
    Triple (Step.exec t) (contract t) (Sees t (· = some r)) (step (.signal .cont pid))
      (fun _ => Anything) fun _ => Anything := by
  refine .op stable_sees (fun _ => .top) (fun _ => .top) fun {v f x w} sees inv allowed done => ?_
  have down : ¬ (v.history t.node).Fenced := fun up =>
    (inv t.node up).1 ((allowed r sees).symm.trans paused)
  have kept := guarded_step (s := .signal .cont pid) (fun _ _ => down) inv allowed done
  exact ⟨kept.1, kept.2, by cases x <;> trivial⟩

theorem resume_keeps : Triple (Step.exec t) (contract t) Anything (LocalProcess.resume t.node)
    (fun _ => Anything) fun _ => Anything := by
  have idle {r : TaskRuntimeState} {α : Type} {p : Routine α} (still : Idle p) :
      Triple (Step.exec t) (contract t) (Sees t (· = some r)) p (fun _ => Anything)
        fun _ => Anything := (keeps_idle still).pre fun _ _ => trivial
  refine .bind (B := fun r => Sees t (· = some r)) ?_ fun state => .ite (fun _ => idle (.raise _))
    fun _ => .ite (fun _ => idle (.pure _)) fun _ => ?_
  · refine .op .top (fun _ => stable_sees) (fun _ => .top) fun {v f r w} _ inv allowed done => ?_
    have kept := guarded_step (s := .getState) (fun acting => by cases acting) inv allowed done
    refine ⟨kept.1, kept.2, ?_⟩
    rcases Step.exec_getState done with ⟨e, -, rfl, rfl⟩ | ⟨rfl, rfl⟩
    · trivial
    · exact Shared.seen_saw_self t _
  apply Triple.ite
  · intro other
    exact idle (.raise _)
  · intro here
    have paused : state.status = .paused := by
      by_contra other
      exact here (.inl other)
    refine .bind (B := fun _ => Sees t (· = some state)) ?_ fun alive =>
      .bind (silent_keeps rfl) fun now => .ite
        (fun _ => idle (.bind (update_idle _) fun _ => .raise _)) fun _ => ?_
    · cases state.pid with
      | none => exact .pure stable_sees fun _ sees => sees
      | some pid => exact silent_keeps rfl
    · refine .bind (B := fun _ => Anything) ?_ fun found =>
        keeps_idle (.ite (update_idle _) (.raise _))
      cases state.pid with
      | none => exact idle (.pure _)
      | some pid => exact cont_paused paused

theorem pauseResume_keeps (services : Services) :
    Triple (Step.exec t) (contract t) Anything (PauseService.resume services t.node)
      (fun _ => Anything) fun _ => Anything :=
  .bind (keeps_idle (.ite (settleTask_idle _) (.pure _))) fun _ => resume_keeps

theorem resumeDue_keeps (services : Services) (at_ : Timestamp) :
    Triple (Step.exec t) (contract t) Anything (PauseService.resumeDue services t.node at_)
      (fun _ => Anything) fun _ => Anything := by
  refine .bind (keeps_idle (p := step .getState) (.op rfl)) fun listed =>
    .ite (fun _ => keeps_idle (.pure _)) fun _ => .bind
      (keeps_idle (p := step .getState) (.op rfl)) fun state => .bind
        (keeps_idle (p := step .clock) (.op rfl)) fun wallNow =>
          .ite (fun _ => keeps_idle (.pure _)) fun _ => ?_
  exact .tryExcept (pauseResume_keeps services) fun e => keeps_idle (timed_idle _)

/-! ## Runs -/

theorem routine_keeps (services : Services) (policy : RecoveryPolicy)
    {call : ServiceCall} {w' : World} (admitted : takeUp t call w' ≠ none) :
    Triple (Step.exec t) (contract t) Anything (routine services policy t.node call)
      (fun _ => Anything) fun _ => Anything := by
  cases call with
  | migration call =>
      refine keeps_migration ?_ _
      obtain ⟨node, lane⟩ := t
      cases lane with
      | migration => rfl
      | _ => exact absurd rfl admitted
  | recover now =>
      refine recoverOne_keeps ?_ policy now
      obtain ⟨node, lane⟩ := t
      cases lane with
      | recovery => rfl
      | _ => exact absurd rfl admitted
  | resumeDue at_ => exact resumeDue_keeps services at_
  | pause => exact keeps_idle (pause_idle ..)
  | resume => exact pauseResume_keeps services
  | reconcile => exact keeps_idle (reconcile_idle _)
  | settle => exact keeps_idle (settleTask_idle _)
  | mergeUpdate u => exact keeps_idle (mergeUpdate_idle u)
  | postOwnership u => exact keeps_idle (postOwnership_idle u)

theorem Guarded.same (inv : Guarded v) (record : ∀ n, w.record n = v.record n)
    (history : w.history = v.history) : Guarded w := by
  intro n
  rw [record, history]
  exact inv n

theorem verified (services : Services) (policy : RecoveryPolicy) :
    (daemons services policy).Verified conditions Guarded Rely Guar Progress where
  trans := Adds.trans
  interference ne guar := guar.1 _ ne
  within guar := guar.2
  call {t call v w} inv _ accepted := by
    obtain ⟨world, admitted, rfl⟩ := Option.map_eq_some_iff.mp accepted
    refine ⟨inv.same (fun n => takeUp_registry admitted n) rfl, ⟨fun u ne => ?_, .of_same rfl⟩, ?_⟩
    · exact Function.update_of_ne ne ..
    · have taken : takeUp t call v.world ≠ none := by
        rw [admitted]
        exact Option.some_ne_none _
      exact (routine_keeps services policy taken trivial).mono fun _ _ _ => trivial
  crash {t v} inv _ :=
    ⟨inv.same (fun n => crash_registry t.node n v.world) rfl, fun _ _ => rfl, .of_same rfl⟩
  event {e v w} inv _ happened := by
    change (if e.isOutside = true then _ else none) = _ at happened
    by_cases outside : e.isOutside = true
    · rw [if_pos outside] at happened
      obtain ⟨world, moved, rfl⟩ := Option.map_eq_some_iff.mp happened
      exact ⟨inv.same (fun n => event_registry outside moved n) rfl, fun _ => rfl, .of_same rfl⟩
    · rw [if_neg outside] at happened
      cases happened

end

/-- A pass that reads the running task, and a migration that stops it then. -/
def stopScript : List DaemonsLabel :=
  [.call ⟨"a", .service 0⟩ .reconcile (.of (.ok 0)),
    .perform ⟨"a", .service 0⟩ (.of (.exitCode none)),
    .call ⟨"a", .migration⟩ (.migration (.migrate sampleCall)) (.of (.ok 0)),
    .perform ⟨"a", .migration⟩ (.of (.ok 0)),
    .perform ⟨"a", .migration⟩ (.of (.bindings []))] ++ onward "a" .migration 3 ++
    [.perform ⟨"a", .migration⟩ (.of (.bindings []))] ++ onward "a" .migration 13

/-- The pass finds no process and records a failure; two rounds of the recovery loop follow. -/
def recoveryScript : List DaemonsLabel :=
  onward "a" (.service 0) 6 ++ [.call ⟨"a", .recovery⟩ (.recover 0) (.of (.ok 0))] ++
    onward "a" .recovery 2 ++ [.call ⟨"a", .recovery⟩ (.recover 5000000) (.of (.ok 0))] ++
    onward "a" .recovery 3 ++ [.perform ⟨"a", .recovery⟩ (.of (.bindings []))] ++
    onward "a" .recovery 5 ++ [.perform ⟨"a", .recovery⟩ (.of (.plan ⟨"", [], false⟩)),
      .perform ⟨"a", .recovery⟩ (.of (.ok 0)), .perform ⟨"a", .recovery⟩ (.of (.spawned 2))]

end Magellan.Fence
