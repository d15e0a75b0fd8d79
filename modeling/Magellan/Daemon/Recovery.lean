import Magellan.Daemon.Frames
import Magellan.Migration.Outcome

/-!
# Recovery is bounded and spaced

The services of a daemon and the starts of an operator, without migrations, with the log of what the
recovery service does. Registry operations are atomic: nothing is written between the two steps of
one of them.
-/

namespace Magellan.Recovery

open Coroutine Coro
open Registry (Operation)

/-- What the recovery service has done. -/
inductive Entry where
  | scheduled (now : Timestamp)
  | attempted
  | started (now : Timestamp)
  deriving DecidableEq

def Entry.isAttempt : Entry → Bool
  | .attempted => true
  | _ => false

def Entry.isStart : Entry → Bool
  | .started _ => true
  | _ => false

/-- A node with the time of the recovery round and the log, the latest entry first. -/
structure Watched where
  shared : Shared
  round : Timestamp := 0
  log : List Entry := []

/-- `runtime.start` begins with the artifacts of the task. -/
def entry (now : Timestamp) : (s : Step) → Except Exn s.Ret → Option Entry
  | .finish (.scheduleRecovery _) read, .ok _ =>
      if read.status = .failed then some (.scheduled now) else none
  | .finish .beginRecovery _, .ok _ => some .attempted
  | .materializeArtifacts, _ => some (.started now)
  | _, _ => none

section

variable (n : NodeId)

def recoveryThread : ServiceThread := ⟨n, .recovery⟩

def exec (t : ServiceThread) : Semantics Step Step.Ret Exn Fate Watched := fun s f w =>
  (Step.exec t s f w.shared).map fun (r, v) =>
    (r, { w with
      shared := v
      log := if t = recoveryThread n then (entry w.round s r).toList ++ w.log else w.log })

/-- A service of the daemon, or a start by the operator. -/
inductive RecoveryCall where
  | service (call : ServiceCall)
  | start

def admits : Lane → RecoveryCall → Bool
  | .recovery, .service (.recover _) => true
  | .service _, .service (.migration _) | .service _, .service (.recover _) => false
  | .service _, _ => true
  | _, _ => false

def take (t : ServiceThread) (a : RecoveryCall) (w : Watched) : Option Watched :=
  if t.node = n ∧ admits t.lane a then
    match a with
    | .service (.recover now) => some { w with round := now }
    | _ => some w
  else none

def routineOf (services : MigrationService.Services) (policy : RecoveryPolicy) :
    RecoveryCall → Routine Unit
  | .service call => routine services policy n call
  | .start => do let _ ← (LocalProcess.start n).implement (stepwise n)

abbrev Recovering := System Step Step.Ret Exn Fate Watched ServiceThread RecoveryCall Event
abbrev RecoveringConfig := Config Step Step.Ret Exn Watched ServiceThread

/-- The daemon of node `n` with its services; the rest of the world does what it likes. -/
def recovering (services : MigrationService.Services) (policy : RecoveryPolicy) : Recovering where
  exec := exec n
  accept := take n
  body _ := routineOf n services policy
  crash t w := { w with shared := { w.shared with world := crash t.node w.shared.world } }
  event e w :=
    if e.isOutside then
      (event e w.shared.world).map fun world => { w with shared := { w.shared with world } }
    else none

/-- A registry operation finds the record as it has read it. -/
def atomicOperations : Conditions Step Fate Watched ServiceThread RecoveryCall Event where
  op t s _ w := ∀ o read, s = .finish o read → read = w.shared.record t.node

end

/-! ## The invariant -/

section

variable (policy : RecoveryPolicy) (n : NodeId) (before : Nat)

def attempts (log : List Entry) : Nat := log.countP Entry.isAttempt

/-- Each start directly follows its attempt, and that the entry which has scheduled it. -/
def Spaced (log : List Entry) : Prop :=
  ∀ newer now rest, log = newer ++ .started now :: rest →
    ∃ at_ older, rest = .attempted :: .scheduled at_ :: older ∧
      at_ + policy.backoff (before + attempts older) ≤ now

/-- The time in the record is that of the latest entry. -/
def Scheduled (log : List Entry) (recoverAt : Timestamp) : Prop :=
  ∃ at_ older, log = .scheduled at_ :: older ∧
    recoverAt = at_ + policy.backoff (before + attempts older)

structure Inv (w : Watched) : Prop where
  attempts : (w.shared.record n).recoveryAttempts = before + attempts w.log
  bounded : before + Recovery.attempts w.log ≤ max before policy.maxRestartAttempts
  scheduled : ∀ recoverAt, (w.shared.record n).nextRecoveryAtUtc = some recoverAt →
    Scheduled policy before w.log recoverAt
  spaced : Spaced policy before w.log

end

section

variable {policy : RecoveryPolicy} {n : NodeId} {before : Nat} {log : List Entry} {w w' : Watched}

@[simp] theorem attempts_scheduled (at_ : Timestamp) :
    attempts (.scheduled at_ :: log) = attempts log := rfl

@[simp] theorem attempts_attempted : attempts (.attempted :: log) = attempts log + 1 := by
  simp [attempts, List.countP_cons, Entry.isAttempt]

@[simp] theorem attempts_started (now : Timestamp) :
    attempts (.started now :: log) = attempts log := rfl

theorem Spaced.cons {e : Entry} (spaced : Spaced policy before log)
    (start : ∀ now, e = .started now → ∃ at_ older, log = .attempted :: .scheduled at_ :: older ∧
      at_ + policy.backoff (before + attempts older) ≤ now) :
    Spaced policy before (e :: log) := by
  intro newer now rest same
  cases newer with
  | nil =>
      simp only [List.nil_append, List.cons.injEq] at same
      obtain ⟨started, rfl⟩ := same
      exact start now started
  | cons e' newer =>
      simp only [List.cons_append, List.cons.injEq] at same
      exact spaced newer now rest same.2

/-- A start comes with an attempt of its own. -/
theorem Spaced.starts_le (spaced : Spaced policy before log) :
    log.countP Entry.isStart ≤ attempts log := by
  suffices h : log.countP Entry.isStart ≤ attempts log ∧
      (log.head?.any Entry.isAttempt = true → log.countP Entry.isStart < attempts log) from h.1
  induction log with
  | nil => exact ⟨Nat.le_refl _, fun h => by cases h⟩
  | cons e log ih =>
      have ih := ih fun newer now rest same =>
        spaced (e :: newer) now rest (by rw [same, List.cons_append])
      cases e with
      | scheduled at_ =>
          refine ⟨?_, fun h => by cases h⟩
          simpa [attempts, List.countP_cons, Entry.isStart, Entry.isAttempt] using ih.1
      | attempted =>
          have fewer : (Entry.attempted :: log).countP Entry.isStart <
              attempts (.attempted :: log) := by
            simpa [attempts, List.countP_cons, Entry.isStart, Entry.isAttempt, Nat.lt_succ_iff]
              using ih.1
          exact ⟨fewer.le, fun _ => fewer⟩
      | started now =>
          obtain ⟨at_, older, rfl, -⟩ := spaced [] now log rfl
          refine ⟨?_, fun h => by cases h⟩
          have fewer := ih.2 rfl
          simp only [attempts, List.countP_cons, Entry.isStart, Entry.isAttempt, if_true,
            Bool.false_eq_true, if_false] at fewer ⊢
          omega

theorem Inv.same (inv : Inv policy n before w)
    (record : w'.shared.record n = w.shared.record n) (log : w'.log = w.log) :
    Inv policy n before w' := by
  obtain ⟨attempts, bounded, scheduled, spaced⟩ := inv
  constructor
  · rw [record, log]; exact attempts
  · rw [log]; exact bounded
  · rw [record, log]; exact scheduled
  · rw [log]; exact spaced

end

/-! ## One step -/

section

variable {policy : RecoveryPolicy} {n : NodeId} {before : Nat} {t : ServiceThread} {w w' : Watched}

def isWrite : Step → Bool
  | .finish .. | .setState _ => true
  | _ => false

theorem exec_record {s : Step} {f : Fate} {v v' : Shared} {r : Except Exn s.Ret}
    (reads : isWrite s = false) (h : s.exec t f v = some (r, v')) (i : NodeId) :
    v'.record i = v.record i := by
  by_cases tame : s.isLoud = false
  · exact (exec_silent tame h).record i
  cases s with
  | getState =>
      rcases Step.exec_getState h with ⟨_, -, -, rfl⟩ | ⟨-, rfl⟩ <;> rfl
  | op o =>
      cases o with
      | spawn =>
          rcases Step.exec_spawn h with ⟨_, -, -, rfl⟩ | ⟨pid, -, rfl⟩
          · rfl
          · exact Shared.record_spawned t pid i
      | _ => exact absurd rfl tame
  | signal s pid =>
      cases s with
      | stop => exact absurd rfl tame
      | cont => rcases Step.exec_cont h with ⟨_, -, rfl⟩ | ⟨-, rfl⟩ | ⟨-, rfl⟩ <;> rfl
  | finish | setState => cases reads
  | _ => exact absurd rfl tame

/-- The operations that nothing but the recovery service performs. -/
def isRecoveryOp : Operation → Bool
  | .beginRecovery | .scheduleRecovery _ => true
  | _ => false

/-- Any other operation leaves the attempts alone, and keeps or clears the time. -/
theorem written_recovery {o : Operation} {r s : TaskRuntimeState} (other : isRecoveryOp o = false)
    (h : (o.perform n r).written = some s) :
    s.recoveryAttempts = r.recoveryAttempts ∧
      (s.nextRecoveryAtUtc = r.nextRecoveryAtUtc ∨ s.nextRecoveryAtUtc = none) := by
  cases o with
  | beginRecovery | scheduleRecovery => cases other
  | setArtifactDigests | recordAccounting | restoreLocalAfterFailure =>
      cases h
      exact ⟨rfl, .inl rfl⟩
  | markFailed | markRecoveryExhausted =>
      cases h
      exact ⟨rfl, .inr rfl⟩
  | markStopped =>
      obtain ⟨open_, rfl⟩ := Registry.written_of_keep h
      simp only [Registry.markStopped, if_neg open_]
      exact ⟨trivial, .inl trivial⟩
  | markRemote =>
      obtain ⟨moved, rfl⟩ := Registry.written_of_keep h
      simp only [Registry.markRemote, if_neg moved]
      exact ⟨trivial, .inl trivial⟩
  | markRunning | markCompleted =>
      have ok := Registry.written_ofExcept h
      simp only [Registry.markRunning, Registry.markCompleted] at ok
      (repeat' split at ok) <;> cases ok
      exact ⟨rfl, .inr rfl⟩
  | markPaused | markResumed | markMigrating | claimLocal =>
      have ok := Registry.written_ofExcept h
      simp only [Registry.markPaused, Registry.markResumed, Registry.markMigrating,
        Registry.claimLocal] at ok
      (repeat' split at ok) <;> cases ok
      exact ⟨rfl, .inl rfl⟩
  | applyOwnership u =>
      simp only [Operation.perform] at h
      cases applied : Registry.applyOwnership n u r with
      | none => simp [applied] at h
      | some s' =>
          simp only [applied, Option.some.injEq] at h
          subst h
          simp only [Registry.applyOwnership] at applied
          (repeat' split at applied) <;> cases applied <;> exact ⟨rfl, .inl rfl⟩

/-- The steps of which no other service has any. -/
def isReserved : Step → Bool
  | .setState _ => true
  | .finish o _ => isRecoveryOp o
  | _ => false

/-- The steps of which the log notes none. -/
def isUnnoted : Step → Bool
  | .materializeArtifacts => false
  | s => !isReserved s

theorem isReserved_of_isUnnoted {s : Step} (unnoted : isUnnoted s = true) : isReserved s = false := by
  cases s <;> first | rfl | exact Bool.not_eq_true' _ |>.mp unnoted

theorem record_finish {o : Operation} {v : Shared} {written x : Option TaskRuntimeState}
    (is : written = x) (here : t.node = n) :
    ((v.putAny t written).note t.node (History.after t.lane (v.call t) o)).record n =
      x.getD (v.record n) := by
  subst here is
  rw [Shared.record_note]
  cases written with
  | none => rfl
  | some s => exact Shared.record_put_self t s

theorem Inv.ordinary {s : Step} {f : Fate} {r : Except Exn s.Ret} {v : Shared} (here : t.node = n)
    (ordinary : isReserved s = false)
    (atomic : ∀ o read, s = .finish o read → read = w.shared.record t.node)
    (inv : Inv policy n before w) (h : s.exec t f w.shared = some (r, v)) :
    Inv policy n before { w with shared := v } := by
  by_cases reads : isWrite s = false
  · exact inv.same (exec_record reads h n) rfl
  cases s with
  | setState => cases ordinary
  | finish o read =>
      have same : read = w.shared.record n := here ▸ atomic o read rfl
      rcases Step.exec_finish h with ⟨_, -, -, rfl⟩ | ⟨value, -, -, rfl⟩
      · exact inv.same rfl rfl
      · cases written : (o.perform t.node read).written with
        | none => exact inv.same (record_finish rfl here) rfl
        | some s =>
            have record := record_finish (o := o) (v := w.shared) (t := t) (x := some s) rfl here
            obtain ⟨attempts, time⟩ := written_recovery ordinary written
            rw [same] at attempts time
            constructor
            · show (Shared.record _ n).recoveryAttempts = _
              rw [record]
              exact attempts.trans inv.attempts
            · exact inv.bounded
            · intro recoverAt some_
              change (Shared.record _ n).nextRecoveryAtUtc = _ at some_
              rw [record] at some_
              change s.nextRecoveryAtUtc = _ at some_
              rcases time with kept | cleared
              · exact inv.scheduled recoverAt (kept ▸ some_)
              · rw [cleared] at some_
                cases some_
            · exact inv.spaced
  | _ => exact absurd rfl reads

end

/-! ## The services -/

section

/-- What a service other than recovery performs. -/
abbrev Ordinary {α : Type} (p : Routine α) : Prop := p.Performs (isReserved · = false)

variable {n : NodeId}

theorem transact_ordinary {o : Operation} (other : isRecoveryOp o = false) : Ordinary (transact o) :=
  .bind (.op rfl) fun _ => .op other

theorem update_ordinary {o : Operation} (other : isRecoveryOp o = false) : Ordinary (update o) :=
  .bind (transact_ordinary other) fun _ => .pure _

theorem timed_ordinary {o : Timestamp → Operation} (other : ∀ now, isRecoveryOp (o now) = false) :
    Ordinary (do let now ← step .clock; update (o now)) :=
  .bind (.op rfl) fun now => update_ordinary (other now)

theorem isAlive_ordinary (pid : Option Pid) : Ordinary (LocalProcess.isAlive pid) := by
  cases pid with
  | none => exact .pure _
  | some pid => exact .op rfl

theorem killpg_ordinary (s : Signal) (pid : Option Pid) : Ordinary (LocalProcess.killpg s pid) := by
  cases pid with
  | none => exact .pure _
  | some pid => exact .op rfl

theorem pause_ordinary (pausedAt resumeAt resumeWallAt : Timestamp) (reason : String) :
    Ordinary (LocalProcess.pause n pausedAt resumeAt resumeWallAt reason) := by
  refine .bind (.op rfl) fun state => .ite (.raise _) (.ite (.pure _) (.bind ?_ fun alive => ?_))
  · exact .ite (isAlive_ordinary _) (.pure _)
  · refine .ite (.raise _) (.bind (killpg_ordinary _ _) fun found => .bind (.op rfl) fun now => ?_)
    exact .ite (update_ordinary rfl) (.bind (update_ordinary rfl) fun _ => .raise _)

theorem resume_ordinary : Ordinary (LocalProcess.resume n) := by
  refine .bind (.op rfl) fun state => .ite (.raise _) (.ite (.pure _) (.ite (.raise _) ?_))
  refine .bind (isAlive_ordinary _) fun alive => .bind (.op rfl) fun now => .ite ?_ ?_
  · exact .bind (update_ordinary rfl) fun _ => .raise _
  · exact .bind (killpg_ordinary _ _) fun found => .ite (update_ordinary rfl) (.raise _)

theorem settleExit_ordinary (exitCode : Option Int) : Ordinary (LocalProcess.settleExit exitCode) := by
  refine .bind (.op rfl) fun _ => .bind (.op rfl) fun found => .ite ?_ (timed_ordinary fun _ => rfl)
  refine .tryExcept ?_ fun e => timed_ordinary fun _ => rfl
  exact .bind (.op rfl) fun marker => .bind (.op rfl) fun _ => .bind (.op rfl) fun _ =>
    update_ordinary rfl

theorem reconcile_ordinary : Ordinary (LocalProcess.reconcile n) := by
  refine .bind (.op rfl) fun state => .ite (.pure _) (.bind ?_ fun seen => ?_)
  · exact .bind (.op rfl) fun exitCode =>
      .bind (.ite (isAlive_ordinary _) (.pure _)) fun alive => .pure _
  · exact .ite (.pure _) (settleExit_ordinary _)

theorem settleTask_ordinary : Ordinary (settleTask n) :=
  .bind (.op rfl) fun _ => .ite (.pure _) <| .bind (.op rfl) fun _ =>
    .bind (isAlive_ordinary _) fun _ => update_ordinary rfl

theorem pauseResume_ordinary (services : MigrationService.Services) :
    Ordinary (PauseService.resume services n) :=
  .bind (.ite settleTask_ordinary (.pure _)) fun _ => resume_ordinary

theorem resumeDue_ordinary (services : MigrationService.Services) (at_ : Timestamp) :
    Ordinary (PauseService.resumeDue services n at_) :=
  .bind (.op rfl) fun _ => .ite (.pure _) <| .bind (.op rfl) fun _ => .bind (.op rfl) fun _ =>
    .ite (.pure _) <| .tryExcept (pauseResume_ordinary services) fun _ => timed_ordinary fun _ => rfl

theorem installDigests_ordinary (u : Registry.OwnershipUpdate) : Ordinary (installDigests u) :=
  .ite (.pure _) (update_ordinary rfl)

theorem mergePolicy_ordinary (u : Registry.OwnershipUpdate) : Ordinary (mergePolicy u) := by
  unfold mergePolicy
  cases u.adaptivePolicy with
  | none => exact .pure _
  | some policy => exact .op rfl

/-- The operations of a start after its artifacts. -/
def isLater : Op → Bool
  | .ensureTaskArtifacts => false
  | o => LocalProcess.isStartOp o

/-- After the artifacts, a start performs none of the steps that the log notes. -/
theorem stepwise_started {o : Op} (part : isLater o = true) :
    (stepwise n o).Performs (isUnnoted ·) := by
  cases o with
  | getState => exact .op rfl
  | registry op =>
      refine .bind (.op rfl) fun now => ?_
      cases op with
      | markRunning | markFailed =>
          exact .bind (.op rfl) fun _ => .bind (.op rfl) fun _ => .pure _
      | _ => cases part
  | ensureTaskArtifacts | stageBindings | settleTask | recordMigration => cases part
  | _ => exact .op rfl

theorem start_later : ∃ later : Async TaskRuntimeState,
    LocalProcess.start n = (do let _ ← await .ensureTaskArtifacts; later) ∧
      later.Performs (isLater ·) := by
  have launch : LocalProcess.launch.Performs (isLater ·) := by
    refine .bind (.op rfl) fun _ => .bind (.op rfl) fun _ =>
      .bind (.op rfl) fun _ => .bind (.op rfl) fun _ => ?_
    refine .attempt (.op rfl) (fun _ => .op rfl) fun _ => ?_
    exact .bind (.op rfl) fun _ => .bind (.op rfl) fun _ =>
      .bind (.op rfl) fun _ => .raise _
  refine ⟨_, rfl, .bind (.op rfl) fun state => .bind (.op rfl) fun _ => ?_⟩
  refine .ite (.raise _) (.ite (.raise _) (.bind ?_ fun alive => ?_))
  · cases state.pid with
    | none => exact .pure _
    | some pid => exact .op rfl
  · exact .ite (.pure _) (.ite (.raise _) launch)

/-- A start is the step that the log notes, and then steps that it does not note. -/
theorem start_split : ∃ later : Routine TaskRuntimeState,
    (LocalProcess.start n).implement (stepwise n) =
        (do let _ ← stepwise n .ensureTaskArtifacts; later) ∧
      later.Performs (isUnnoted ·) := by
  obtain ⟨later, same, performs⟩ := start_later (n := n)
  refine ⟨later.implement (stepwise n), ?_,
    performs.implement fun _ => stepwise_started⟩
  rw [same, implement_bind, implement_op]

theorem start_ordinary : Ordinary ((LocalProcess.start n).implement (stepwise n)) := by
  obtain ⟨later, same, performs⟩ := start_split (n := n)
  rw [same]
  refine .bind ?_ fun _ => performs.mono fun _ => isReserved_of_isUnnoted
  exact .bind (.op rfl) fun _ => .bind (update_ordinary rfl) fun _ => .pure _

theorem routineOf_ordinary (services : MigrationService.Services) (policy : RecoveryPolicy)
    {a : RecoveryCall} {lane : Lane} (admitted : admits lane a = true) (other : lane ≠ .recovery) :
    Ordinary (routineOf n services policy a) := by
  cases a with
  | start => exact .bind start_ordinary fun _ => .pure _
  | service call =>
      cases call with
      | migration => cases lane <;> cases admitted
      | recover now => cases lane <;> first | exact absurd rfl other | cases admitted
      | resumeDue at_ => exact resumeDue_ordinary services at_
      | pause => exact pause_ordinary ..
      | resume => exact pauseResume_ordinary services
      | reconcile => exact reconcile_ordinary
      | settle => exact settleTask_ordinary
      | mergeUpdate u =>
          refine .bind (transact_ordinary rfl) fun _ => .ite ?_ (.pure _)
          exact .bind (installDigests_ordinary u) fun _ => mergePolicy_ordinary u
      | postOwnership u =>
          refine .bind (transact_ordinary rfl) fun _ => ?_
          exact .bind (installDigests_ordinary u) fun _ => .ite (mergePolicy_ordinary u) (.pure _)

end

/-! ## Runs -/

section

variable (policy : RecoveryPolicy) (n : NodeId) (before : Nat)

def OwnLog (v w : Watched) : Prop := w.log = v.log ∧ w.round = v.round

/-- Nothing but the recovery thread adds to the log. -/
def contract (t : ServiceThread) : Contract Step Fate Watched where
  allowed := (atomicOperations).op t
  rely v w := t = recoveryThread n → OwnLog v w
  inv := Inv policy n before
  guar v w := t ≠ recoveryThread n → OwnLog v w

end

section

variable {policy : RecoveryPolicy} {n : NodeId} {before : Nat} {t : ServiceThread} {w w' : Watched}
  {P : List Entry → Timestamp → Prop}

theorem exec_inv {s : Step} {f : Fate} {r : Except Exn s.Ret} (h : exec n t s f w = some (r, w')) :
    ∃ v, Step.exec t s f w.shared = some (r, v) ∧ w' = { w with
      shared := v
      log := if t = recoveryThread n then (entry w.round s r).toList ++ w.log else w.log } := by
  obtain ⟨⟨r', v⟩, done, same⟩ := Option.map_eq_some_iff.mp h
  cases same
  exact ⟨v, done, rfl⟩

/-- The steps of the other threads. -/
theorem service_step {s : Step} (here : t.node = n) (other : t ≠ recoveryThread n)
    (ordinary : isReserved s = false) :
    OpTriple (exec n t) (contract policy n before t) (fun _ => True) s (fun _ _ => True)
      fun _ _ => True := by
  intro w f r w' _ inv atomic h
  obtain ⟨v, done, rfl⟩ := exec_inv h
  rw [if_neg other]
  refine ⟨inv.ordinary here ordinary (fun o read is => atomic o read is) done, fun _ => ⟨rfl, rfl⟩, ?_⟩
  cases r <;> trivial

/-- What the recovery thread knows of the log and its round. -/
def Knows (P : List Entry → Timestamp → Prop) (w : Watched) : Prop := P w.log w.round

theorem knows_stable (P : List Entry → Timestamp → Prop) :
    (contract policy n before (recoveryThread n)).Stable (Knows P) := by
  intro w v rely knows
  obtain ⟨log, round⟩ := rely rfl
  unfold Knows
  rw [log, round]
  exact knows

theorem entry_unnoted {s : Step} (now : Timestamp) (r : Except Exn s.Ret)
    (unnoted : isUnnoted s = true) : entry now s r = none := by
  cases s with
  | materializeArtifacts => cases unnoted
  | finish o read => cases r <;> cases o <;> first | rfl | cases unnoted
  | _ => rfl

theorem recovery_step {s : Step} (unnoted : isUnnoted s = true) :
    OpTriple (exec n (recoveryThread n)) (contract policy n before (recoveryThread n)) (Knows P) s
      (fun _ => Knows P) fun _ => Knows P := by
  intro w f r w' knows inv atomic h
  obtain ⟨v, done, rfl⟩ := exec_inv h
  rw [if_pos rfl, entry_unnoted _ _ unnoted]
  refine ⟨inv.ordinary rfl (isReserved_of_isUnnoted unnoted) (fun o read is => atomic o read is) done,
    fun other => absurd rfl other, ?_⟩
  cases r <;> exact knows

theorem recovery_performs {α : Type} {p : Routine α}
    (performs : p.Performs (isUnnoted ·)) :
    Triple (exec n (recoveryThread n)) (contract policy n before (recoveryThread n)) (Knows P) p
      (fun _ => Knows P) fun _ => Knows P :=
  .of_performs (knows_stable P) performs fun _ => recovery_step

/-- The record that has been read agrees with the log. -/
def Agrees (policy : RecoveryPolicy) (before : Nat) (s : TaskRuntimeState) (log : List Entry) : Prop :=
  s.recoveryAttempts = before + attempts log ∧
    ∀ recoverAt, s.nextRecoveryAtUtc = some recoverAt → Scheduled policy before log recoverAt

theorem recovery_getState :
    Triple (exec n (recoveryThread n)) (contract policy n before (recoveryThread n)) (Knows P)
      (step .getState) (fun s => Knows fun log round => Agrees policy before s log ∧ P log round)
      fun _ => Knows P := by
  refine .op (knows_stable _) (fun _ => knows_stable _) (fun _ => knows_stable _) ?_
  intro w f r w' knows inv atomic h
  obtain ⟨inv', guar, ends⟩ := recovery_step (s := .getState) (P := P) rfl knows inv atomic h
  refine ⟨inv', guar, ?_⟩
  obtain ⟨v, done, same⟩ := exec_inv h
  rcases Step.exec_getState done with ⟨e, -, rfl, -⟩ | ⟨rfl, -⟩
  · exact ends
  · have log : w'.log = w.log := by rw [same, if_pos rfl]; rfl
    refine ⟨?_, ends⟩
    rw [log]
    exact ⟨inv.attempts, inv.scheduled⟩

/-- An operation of the recovery service: it has done nothing, or what it writes is in the record. -/
theorem finish_cases {o : Operation} {read : TaskRuntimeState} {f : Fate}
    {r : Except Exn Registry.Value} (h : exec n (recoveryThread n) (.finish o read) f w = some (r, w')) :
    ((∃ e, r = .error e) ∧ w'.shared.record n = w.shared.record n ∧ w'.log = w.log) ∨
      ∃ value, (o.perform n read).outcome = .ok value ∧ r = .ok value ∧
        w'.shared.record n = (o.perform n read).written.getD (w.shared.record n) ∧
        w'.log = (entry w.round (.finish o read) (.ok value)).toList ++ w.log ∧ w'.round = w.round := by
  obtain ⟨v, done, rfl⟩ := exec_inv h
  rw [if_pos rfl]
  rcases Step.exec_finish done with ⟨e, -, rfl, rfl⟩ | ⟨value, performed, rfl, rfl⟩
  · exact .inl ⟨⟨e, rfl⟩, rfl, by cases o <;> rfl⟩
  · exact .inr ⟨value, performed, rfl, record_finish rfl rfl, rfl, rfl⟩

theorem finish_schedule {read : TaskRuntimeState} {now : Timestamp} {k : Nat} :
    OpTriple (exec n (recoveryThread n)) (contract policy n before (recoveryThread n))
      (Knows fun log round => k = before + attempts log ∧ round = now)
      (.finish (.scheduleRecovery (now + policy.backoff k)) read) (fun _ _ => True)
      fun _ _ => True := by
  rintro w f r w' ⟨count, round⟩ inv atomic h
  have same : read = w.shared.record n := atomic _ read rfl
  refine ⟨?_, fun other => absurd rfl other, by cases r <;> trivial⟩
  rcases finish_cases h with ⟨-, record, log⟩ | ⟨value, -, -, record, log, -⟩
  · exact inv.same record log
  by_cases failed : read.status = .failed
  swap
  · have kept : ((Operation.scheduleRecovery (now + policy.backoff k)).perform n read).written = none := by
      simp only [Operation.perform, ne_eq, failed, not_false_eq_true, if_true, Registry.Effect.keep]
    rw [kept] at record
    simp only [entry, if_neg failed] at log
    exact inv.same record log
  have written : ((Operation.scheduleRecovery (now + policy.backoff k)).perform n read).written =
      some { read with nextRecoveryAtUtc := some (now + policy.backoff k) } := by
    simp only [Operation.perform, Registry.scheduleRecovery, ne_eq, failed, not_true_eq_false,
      if_false, Registry.Effect.write]
  rw [written] at record
  simp only [entry, if_pos failed, round] at log
  have scheduled : w'.log = .scheduled now :: w.log := log
  constructor
  · rw [record, scheduled, attempts_scheduled, ← inv.attempts, ← same]
    rfl
  · rw [scheduled]
    exact inv.bounded
  · intro recoverAt some_
    rw [record] at some_
    cases some_
    exact ⟨now, w.log, scheduled, by rw [count]⟩
  · rw [scheduled]
    exact inv.spaced.cons (fun _ other => by cases other)

/-- An attempt that has been scheduled for the round, as the log has it. -/
def Attempted (policy : RecoveryPolicy) (before : Nat) (now : Timestamp) (log : List Entry) : Prop :=
  ∃ at_ older, log = .attempted :: .scheduled at_ :: older ∧
    at_ + policy.backoff (before + attempts older) ≤ now

theorem beginRecovery_ok {read : TaskRuntimeState} {value : Registry.Value}
    (h : (Operation.beginRecovery.perform n read).outcome = .ok value) :
    ∃ s, (Operation.beginRecovery.perform n read).written = some s ∧
      s.recoveryAttempts = read.recoveryAttempts + 1 ∧ s.nextRecoveryAtUtc = none := by
  simp only [Operation.perform, Registry.beginRecovery] at h ⊢
  split at h
  · cases h
  · rename_i here
    split at h
    · cases h
    · rename_i failed
      rw [if_neg here, if_neg failed]
      exact ⟨_, rfl, rfl, rfl⟩

theorem finish_begin {read : TaskRuntimeState} {now recoverAt : Timestamp} (due : recoverAt ≤ now) :
    OpTriple (exec n (recoveryThread n)) (contract policy n before (recoveryThread n))
      (Knows fun log round => Scheduled policy before log recoverAt ∧
        before + attempts log < policy.maxRestartAttempts ∧ round = now)
      (.finish .beginRecovery read)
      (fun _ => Knows fun log round => Attempted policy before now log ∧ round = now)
      fun _ _ => True := by
  rintro w f r w' ⟨scheduled, below, round⟩ inv atomic h
  have same : read = w.shared.record n := atomic _ read rfl
  rcases finish_cases h with ⟨⟨e, rfl⟩, record, log⟩ | ⟨value, performed, rfl, record, log, round'⟩
  · exact ⟨inv.same record log, fun other => absurd rfl other, trivial⟩
  obtain ⟨s, written, count, time⟩ := beginRecovery_ok performed
  rw [written] at record
  have attempted : w'.log = .attempted :: w.log := log
  obtain ⟨at_, older, latest, rfl⟩ := scheduled
  refine ⟨?_, fun other => absurd rfl other, ⟨at_, older, by rw [attempted, latest], due⟩, ?_⟩
  swap
  · rw [round', round]
  constructor
  · rw [record, attempted, attempts_attempted, ← Nat.add_assoc, ← inv.attempts, ← same]
    exact count
  · rw [attempted, attempts_attempted]
    omega
  · intro recoverAt some_
    rw [record] at some_
    change s.nextRecoveryAtUtc = _ at some_
    rw [time] at some_
    cases some_
  · rw [attempted]
    exact inv.spaced.cons (fun _ other => by cases other)

theorem begin_start {now : Timestamp} :
    OpTriple (exec n (recoveryThread n)) (contract policy n before (recoveryThread n))
      (Knows fun log round => Attempted policy before now log ∧ round = now) .materializeArtifacts
      (fun _ _ => True) fun _ _ => True := by
  rintro w f r w' ⟨⟨at_, older, latest, due⟩, round⟩ inv atomic h
  obtain ⟨v, done, rfl⟩ := exec_inv h
  rw [if_pos rfl]
  refine ⟨?_, fun other => absurd rfl other, by cases r <;> trivial⟩
  have record : v.record n = w.shared.record n := exec_record rfl done n
  have log : (entry w.round .materializeArtifacts r).toList ++ w.log = .started now :: w.log := by
    simp only [entry, round]
    rfl
  rw [log]
  constructor
  · show (v.record n).recoveryAttempts = _
    rw [record]
    exact inv.attempts
  · exact inv.bounded
  · intro recoverAt some_
    change (v.record n).nextRecoveryAtUtc = _ at some_
    rw [record] at some_
    obtain ⟨at', older', other, -⟩ := inv.scheduled recoverAt some_
    rw [latest] at other
    cases other
  · exact inv.spaced.cons fun now' same => by
      cases same
      exact ⟨at_, older, latest, due⟩

theorem recovery_read :
    Triple (exec n (recoveryThread n)) (contract policy n before (recoveryThread n)) (Knows P)
      (step .getState) (fun _ => Knows P) fun _ _ => True :=
  recovery_getState.weaken (fun _ a => a) (fun _ _ b => b.2) fun _ _ _ => trivial

theorem recovery_top {p : Routine Unit} {P : List Entry → Timestamp → Prop}
    {B : Unit → Watched → Prop} {E : Exn → Watched → Prop}
    (h : Triple (exec n (recoveryThread n)) (contract policy n before (recoveryThread n)) (Knows P) p
      B E) :
    Triple (exec n (recoveryThread n)) (contract policy n before (recoveryThread n)) (Knows P) p
      (fun _ _ => True) fun _ _ => True :=
  h.weaken (fun _ a => a) (fun _ _ _ => trivial) fun _ _ _ => trivial

theorem update_exhausted (error : String) :
    Triple (exec n (recoveryThread n)) (contract policy n before (recoveryThread n)) (Knows P)
      (update (.markRecoveryExhausted error)) (fun _ _ => True) fun _ _ => True := by
  refine recovery_top (recovery_performs ?_)
  exact .bind (.bind (.op rfl) fun _ => .op rfl) fun _ => .pure _

theorem start_logged {now : Timestamp} :
    Triple (exec n (recoveryThread n)) (contract policy n before (recoveryThread n))
      (Knows fun log round => Attempted policy before now log ∧ round = now)
      ((LocalProcess.start n).implement (stepwise n)) (fun _ _ => True) fun _ _ => True := by
  obtain ⟨later, same, performs⟩ := start_split (n := n)
  rw [same]
  have unnoted {α : Type} {p : Routine α}
      (performs : p.Performs (isUnnoted ·)) :
      Triple (exec n (recoveryThread n)) (contract policy n before (recoveryThread n))
        (fun _ => True) p (fun _ _ => True) fun _ _ => True :=
    recovery_performs (P := fun _ _ => True) performs
  refine .bind (.bind ?_ fun bindings => .bind (unnoted ?_) fun _ => .pure .top fun _ h => h)
    fun _ => unnoted performs
  · exact .op (knows_stable _) (fun _ => .top) (fun _ => .top) begin_start
  · exact .bind (.bind (.op rfl) fun _ => .op rfl) fun _ => .pure _

theorem restart_bounded {now recoverAt : Timestamp} (due : recoverAt ≤ now) :
    Triple (exec n (recoveryThread n)) (contract policy n before (recoveryThread n))
      (Knows fun log round => Scheduled policy before log recoverAt ∧
        before + attempts log < policy.maxRestartAttempts ∧ round = now)
      (FailureRecoveryService.restart n) (fun _ _ => True) fun _ _ => True := by
  refine .bind (B := fun _ => Knows fun log round => Attempted policy before now log ∧ round = now)
    ?_ fun _ => .attempt start_logged (fun _ => .pure .top fun _ h => h)
      fun _ => .pure .top fun _ h => h
  refine .bind (.bind recovery_read fun read => ?_) fun _ => .pure (knows_stable _) fun _ h => h
  exact .op (knows_stable _) (fun _ => knows_stable _) (fun _ => .top) (finish_begin due)

theorem recoverOne_bounded {now : Timestamp} :
    Triple (exec n (recoveryThread n)) (contract policy n before (recoveryThread n))
      (Knows fun _ round => round = now) (FailureRecoveryService.recoverOne policy n now)
      (fun _ _ => True) fun _ _ => True := by
  refine .bind (recovery_getState.weaken (fun _ a => a) (fun _ _ b => b) fun _ _ _ => trivial)
    fun state => ?_
  refine .ite (fun _ => .pure .top fun _ _ => trivial) fun _ => .ite (fun _ => update_exhausted _)
    fun _ => .ite (fun _ => update_exhausted _) fun below => ?_
  cases time : state.nextRecoveryAtUtc with
  | none =>
      have counted : ∀ w, Knows (fun log round => Agrees policy before state log ∧ round = now) w →
          Knows (fun log round => state.recoveryAttempts = before + attempts log ∧ round = now) w :=
        fun _ known => ⟨known.1.1, known.2⟩
      refine .pre ?_ counted
      refine .bind (.bind recovery_read fun read => ?_) fun _ => .pure .top fun _ h => h
      exact .op (knows_stable _) (fun _ => .top) (fun _ => .top) finish_schedule
  | some recoverAt =>
      refine .ite (fun _ => .pure .top fun _ _ => trivial) fun due => ?_
      refine .attempt (recovery_performs (.op rfl)) (fun _ => ?_) fun e => ?_
      · refine (restart_bounded (Nat.le_of_not_lt due)).pre fun w known => ?_
        obtain ⟨⟨count, scheduled⟩, round⟩ := known
        exact ⟨scheduled recoverAt time, by omega, round⟩
      · exact .ite (fun _ => update_exhausted _) fun _ => .raise .top fun _ _ => trivial

theorem verified (services : MigrationService.Services) :
    (recovering n services policy).Verified atomicOperations (Inv policy n before)
      (fun t v w => t = recoveryThread n → OwnLog v w)
      (fun t v w => t ≠ recoveryThread n → OwnLog v w) fun _ _ => True where
  trans _ _ := trivial
  interference {t u v w} ne guar := by
    rintro rfl
    exact guar (Ne.symm ne)
  within _ := trivial
  call {t a v w} inv _ accepted := by
    change take n t a v = some w at accepted
    unfold take at accepted
    split at accepted
    swap
    · cases accepted
    rename_i admitted
    by_cases own : t = recoveryThread n
    · subst own
      obtain ⟨now, rfl⟩ : ∃ now, a = .service (.recover now) := by
        cases a with
        | start => cases admitted.2
        | service call => cases call <;> first | exact ⟨_, rfl⟩ | cases admitted.2
      cases accepted
      refine ⟨inv.same rfl rfl, fun other => absurd rfl other, ?_⟩
      have bounded : Safe (exec n (recoveryThread n)) (contract policy n before (recoveryThread n))
          (endsWith (fun _ _ => True) fun _ _ => True) (FailureRecoveryService.recoverOne policy n now)
          { v with round := now } := recoverOne_bounded rfl
      exact Safe.mono bounded fun _ _ _ => trivial
    · have other : t.lane ≠ .recovery := fun lane => own (by
        obtain ⟨node, lane'⟩ := t
        cases admitted.1
        cases lane
        rfl)
      have same : w = v := by
        split at accepted
        · next now =>
          exfalso
          obtain ⟨node, lane⟩ := t
          cases lane <;> first | exact other rfl | cases admitted.2
        · exact (Option.some.inj accepted).symm
      subst same
      refine ⟨inv, fun _ => ⟨rfl, rfl⟩, ?_⟩
      have safe : Triple (exec n t) (contract policy n before t) (fun _ => True)
          (routineOf n services policy a) (fun _ _ => True) fun _ _ => True :=
        .of_performs .top (routineOf_ordinary services policy admitted.2 other)
          fun s ordinary => service_step admitted.1 own ordinary
      exact (safe trivial).mono fun _ _ _ => trivial
  crash {t v} inv _ :=
    ⟨inv.same (crash_registry t.node n v.shared.world) rfl, fun _ => ⟨rfl, rfl⟩⟩
  event {e v w} inv _ happened := by
    change (if e.isOutside = true then _ else none) = _ at happened
    split at happened
    · rename_i outside
      obtain ⟨world, moved, rfl⟩ := Option.map_eq_some_iff.mp happened
      exact ⟨inv.same (event_registry outside moved n) rfl, fun _ _ => ⟨rfl, rfl⟩, trivial⟩
    · cases happened

end

/-- In a run with atomic registry operations the recovery service starts the task at most as often
as the policy allows, and each start directly follows its attempt, and that the round which has
scheduled it, with the backoff of all attempts before it in between. -/
theorem recovery_bounded_and_spaced (services : MigrationService.Services) (policy : RecoveryPolicy)
    (n : NodeId) (start v : RecoveringConfig) (idle : ∀ t, start.running t = none)
    (fresh : start.world.log = [] ∧ (start.world.shared.record n).nextRecoveryAtUtc = none)
    (run : (recovering n services policy).Reachable atomicOperations start v) :
    v.world.log.countP Entry.isStart ≤
        policy.maxRestartAttempts - (start.world.shared.record n).recoveryAttempts ∧
      ∀ newer now rest, v.world.log = newer ++ .started now :: rest →
        ∃ at_ older, rest = .attempted :: .scheduled at_ :: older ∧
          at_ + policy.backoff ((start.world.shared.record n).recoveryAttempts + attempts older) ≤
            now := by
  have initial : Inv policy n (start.world.shared.record n).recoveryAttempts start.world := by
    constructor
    · rw [fresh.1]
      rfl
    · rw [fresh.1]
      exact Nat.le_max_left ..
    · intro recoverAt some_
      rw [fresh.2] at some_
      cases some_
    · intro newer now rest same
      rw [fresh.1] at same
      simp at same
  have sound := (verified services).reachable initial idle run
  refine ⟨?_, sound.holds.spaced⟩
  have starts := sound.holds.spaced.starts_le
  have bounded := sound.holds.bounded
  omega

/-- The task of node `a` has failed, after one attempt to recover it. -/
def failedDaemon : RecoveringConfig where
  world := { shared := { world := { nodes := fun n => { sampleNode n with
    registry := { (sampleNode n).registry with
      status := if n = "a" then .failed else .remote
      pid := none
      recoveryAttempts := 1 } } } } }

/-- Two rounds of the recovery service: the second one is ten seconds later. -/
def recoveryRounds : List (Label Fate ServiceThread RecoveryCall Event) :=
  .call ⟨"a", .recovery⟩ (.service (.recover 7)) (.of (.ok 0)) ::
    List.replicate 2 (.perform ⟨"a", .recovery⟩ (.of (.ok 0))) ++
  .call ⟨"a", .recovery⟩ (.service (.recover 10000007)) (.of (.ok 0)) ::
    List.replicate 3 (.perform ⟨"a", .recovery⟩ (.of (.ok 0))) ++
  [.perform ⟨"a", .recovery⟩ (.of (.bindings []))]

/-- Whether a step of the script is atomic. -/
def isAtomic (t : ServiceThread) (s : Step) (_ : Fate) (w : Watched) : Bool :=
  match s with
  | .finish _ read => read = w.shared.record t.node
  | _ => true

set_option maxRecDepth 100000 in
theorem recovery_bounded_and_spaced_sample : ∃ v : RecoveringConfig,
    v.world.log = [.started 10000007, .attempted, .scheduled 7] ∧
      v.world.log.countP Entry.isStart ≤ 3 - 1 ∧ 7 + RecoveryPolicy.backoff {} 1 ≤ 10000007 := by
  obtain ⟨v, run, log⟩ : ∃ v, (recovering "a" MigrationService.bareServices {}).runTested isAtomic recoveryRounds
      failedDaemon = some v ∧ v.world.log = [.started 10000007, .attempted, .scheduled 7] := by
    have reached : (((recovering "a" MigrationService.bareServices {}).runTested isAtomic recoveryRounds
        failedDaemon).any fun v => v.world.log = [.started 10000007, .attempted, .scheduled 7]) =
          true := by decide
    obtain ⟨v, run, log⟩ := Option.any_eq_true _ _ |>.mp reached
    exact ⟨v, run, of_decide_eq_true log⟩
  have reach : (recovering "a" MigrationService.bareServices {}).Reachable atomicOperations failedDaemon v :=
    System.reachable_of_runTested _ atomicOperations
      (fun t s f w atomic o read is => by
        subst is
        exact of_decide_eq_true atomic)
      (fun _ _ _ => trivial) (fun _ _ => trivial) (fun _ _ => trivial) .refl run
  obtain ⟨bounded, spaced⟩ := recovery_bounded_and_spaced MigrationService.bareServices {} "a" failedDaemon v
    (fun _ => rfl) ⟨rfl, rfl⟩ reach
  refine ⟨v, log, bounded, ?_⟩
  obtain ⟨at_, older, latest, due⟩ := spaced [] 10000007 [.attempted, .scheduled 7] log
  cases latest
  exact due

end Magellan.Recovery
