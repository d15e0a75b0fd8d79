import Magellan.Daemon.Recovery

/-!
# A recovery that is left unfinished

`begin_recovery` sets the task to RECOVERING, and only the start that follows takes it out of there.
The loops of the daemon look at RUNNING, PAUSED and FAILED tasks.
-/

namespace Magellan.Restart

open Coroutine Coro
open Registry (Operation)
open Recovery (isWrite)

/-- The attempt after `begin_recovery`. -/
def startAttempt (n : NodeId) : Routine Unit :=
  ((LocalProcess.start n).implement (stepwise n)).attempt (fun _ => pure ()) fun _ => pure ()

theorem restart_eq (n : NodeId) :
    FailureRecoveryService.restart n =
      (do update .beginRecovery; startAttempt n) := rfl

/-! ## After a start -/

def Recovering (n : NodeId) (v : Shared) : Prop :=
  (v.record n).status = .recovering ∧ (v.record n).ownerNodeId = n

/-- RUNNING with a live process, or FAILED. -/
def AtRest (n : NodeId) (v : Shared) : Prop :=
  (v.record n).status = .running ∧ (v.record n).pid.any (v.world.nodes n).isAlive = true ∨
    (v.record n).status = .failed

/-- The loops that look after the tasks of the node. -/
def isLoop : ServiceCall → Bool
  | .recover _ | .reconcile | .resumeDue _ | .settle => true
  | _ => false

def localLoops (n : NodeId) : Conditions Step Fate Shared ServiceThread ServiceCall Event where
  call t a _ := t.node = n ∧ isLoop a = true

/-- Nothing is in progress any more: the start has ended, or the daemon has died and comes up
again. -/
def idleDaemon (n : NodeId) (q : Routine Unit) (v : Shared) : DaemonsConfig where
  world := match q with
    | .done _ => v
    | .perform .. => { v with world := crash n v.world }

/-- The loops bring the task to RUNNING with a live process or FAILED, if it is not there. -/
def ComesToRest (services : MigrationService.Services) (policy : RecoveryPolicy) (n : NodeId)
    (q : Routine Unit) (v : Shared) : Prop :=
  ∃ u, (daemons services policy).Reachable (localLoops n) (idleDaemon n q v) u ∧ AtRest n u.world

def Fate.isFail : Fate → Bool
  | .of c => c.isFail
  | .synthesized _ => false

def isReadiness : Step → Bool
  | .op (.waitForReadiness _) => true
  | _ => false

/-- Nothing but the readiness of the process fails. -/
def OnlyReadinessFails (tr : List (Step × Fate)) : Prop :=
  ∀ x ∈ tr, Fate.isFail x.2 = true → isReadiness x.1 = true

instance (tr : List (Step × Fate)) : Decidable (OnlyReadinessFails tr) :=
  inferInstanceAs (Decidable (∀ x ∈ tr, Fate.isFail x.2 = true → isReadiness x.1 = true))

/-- Whatever else happens leaves the record and the processes of the node alone. -/
def Calm (n : NodeId) (v w : Shared) : Prop :=
  w.record n = v.record n ∧ (w.world.nodes n).processes = (v.world.nodes n).processes

/-! ## No loop takes up a recovering task -/

section

variable {n : NodeId} {t : ServiceThread} {α : Type}

/-- The record of the node stays RECOVERING. -/
def stuckContract (n : NodeId) : Contract Step Fate Shared where
  allowed _ _ _ := True
  rely _ _ := True
  inv := fun v => (v.record n).status = .recovering
  guar _ _ := True

abbrev Stuck (t : ServiceThread) (p : Routine α) : Prop :=
  Triple (Step.exec t) (stuckContract t.node) (fun _ => True) p (fun _ _ => True) fun _ _ => True

theorem stuck_step {s : Step} (reads : isWrite s = false) : Stuck t (step s) := by
  refine .op .top (fun _ => .top) (fun _ => .top) fun {v f r w} _ inv _ done => ?_
  refine ⟨?_, trivial, by cases r <;> trivial⟩
  show (w.record t.node).status = .recovering
  rw [Recovery.exec_record reads done]
  exact inv

theorem stuck_getState {f : TaskRuntimeState → Routine α}
    (rest : ∀ s, s.status = .recovering → Stuck t (f s)) : Stuck t (step .getState >>= f) := by
  refine .bind (B := fun s _ => s.status = .recovering) ?_ fun s => .assuming (rest s)
  refine .op .top (fun _ => .const _) (fun _ => .top) fun {v f r w} _ inv _ done => ?_
  have record := Recovery.exec_record (s := .getState) rfl done t.node
  refine ⟨?_, trivial, ?_⟩
  · show (w.record t.node).status = .recovering
    rw [record]
    exact inv
  · rcases Step.exec_getState done with ⟨e, -, rfl, -⟩ | ⟨rfl, -⟩
    · trivial
    · exact inv

theorem stuck_update {args : Registry.AccountingArgs} : Stuck t (update (.recordAccounting args)) := by
  refine .bind (stuck_getState fun read recovering => ?_) fun _ => .pure .top fun _ h => h
  refine .op .top (fun _ => .top) (fun _ => .top) fun {v f r w} _ inv _ done => ?_
  refine ⟨?_, trivial, by cases r <;> trivial⟩
  rcases Step.exec_finish done with ⟨_, -, -, rfl⟩ | ⟨value, -, -, rfl⟩
  · exact inv
  · show (Shared.record _ t.node).status = .recovering
    rw [Shared.record_note]
    show ((v.put t _).record t.node).status = .recovering
    rw [Shared.record_put_self]
    exact recovering

theorem stuck_isAlive (pid : Option Pid) : Stuck t (LocalProcess.isAlive pid) := by
  cases pid with
  | none => exact .pure .top fun _ h => h
  | some pid => exact stuck_step rfl

theorem stuck_loop (services : MigrationService.Services) (policy : RecoveryPolicy) {a : ServiceCall}
    (loop : isLoop a = true) : Stuck t (routine services policy t.node a) := by
  cases a with
  | recover now =>
      refine stuck_getState fun s recovering => ?_
      rw [if_pos (.inr (.inl (by rw [recovering]; decide)))]
      exact .pure .top fun _ h => h
  | reconcile =>
      refine stuck_getState fun s recovering => ?_
      rw [if_pos (.inr (by rw [recovering]; decide))]
      exact .pure .top fun _ h => h
  | resumeDue at_ =>
      refine stuck_getState fun s recovering => ?_
      rw [if_pos (.inr (by rw [recovering]; decide))]
      exact .pure .top fun _ h => h
  | settle =>
      refine stuck_getState fun s _ => .ite (fun _ => .pure .top fun _ h => h) fun _ => ?_
      refine .bind (stuck_step rfl) fun input => .bind (stuck_isAlive _) fun alive => ?_
      exact stuck_update
  | _ => cases loop

theorem stuck_verified (services : MigrationService.Services) (policy : RecoveryPolicy) :
    (daemons services policy).Verified (localLoops n) (fun v => (v.record n).status = .recovering)
      (fun _ _ _ => True) (fun _ _ _ => True) fun _ _ => True where
  trans _ _ := trivial
  interference _ _ := trivial
  within _ := trivial
  call {t a v w} inv loops accepted := by
    obtain ⟨here, loop⟩ := loops
    obtain ⟨world, admitted, rfl⟩ := Option.map_eq_some_iff.mp accepted
    refine ⟨?_, trivial, ?_⟩
    · show ((world.nodes n).registry).status = .recovering
      rw [takeUp_registry admitted n]
      exact inv
    · subst here
      exact (stuck_loop services policy loop trivial).mono fun _ _ _ => trivial
  crash {t v} inv _ := by
    refine ⟨?_, trivial⟩
    show (((crash t.node v.world).nodes n).registry).status = .recovering
    rw [crash_registry]
    exact inv
  event {e v w} inv _ happened := by
    change (if e.isOutside = true then _ else none) = _ at happened
    split at happened
    · rename_i outside
      obtain ⟨world, moved, rfl⟩ := Option.map_eq_some_iff.mp happened
      refine ⟨?_, fun _ => trivial, trivial⟩
      show ((world.nodes n).registry).status = .recovering
      rw [event_registry outside moved n]
      exact inv
    · cases happened

theorem comesToRest_iff (services : MigrationService.Services) (policy : RecoveryPolicy)
    {q : Routine Unit} {v : Shared} (known : AtRest n v ∨ (v.record n).status = .recovering) :
    ComesToRest services policy n q v ↔ AtRest n v := by
  have record : (idleDaemon n q v).world.record n = v.record n := by
    cases q with
    | done r => rfl
    | perform o k => exact crash_registry n n v.world
  have processes : ((idleDaemon n q v).world.world.nodes n).processes = (v.world.nodes n).processes := by
    cases q with
    | done r => rfl
    | perform o k =>
        show ((crash n v.world).nodes n).processes = _
        simp only [crash, World.modify_self]
  constructor
  · rintro ⟨u, reach, rest⟩
    rcases known with rest | recovering
    · exact rest
    · have stays := ((stuck_verified services policy).reachable (by rw [record]; exact recovering)
        (fun _ => rfl) reach).holds
      rcases rest with ⟨running, -⟩ | failed
      · rw [stays] at running
        cases running
      · rw [stays] at failed
        cases failed
  · intro rest
    refine ⟨_, .refl, ?_⟩
    unfold AtRest NodeState.isAlive
    rw [record, processes]
    exact rest

end

/-! ## Where a start can end -/

/-- The writes that take the task out of RECOVERING. -/
def isVerdict : Step → Bool
  | .finish (.markRunning ..) _ | .finish (.markFailed ..) _ => true
  | _ => false

/-- The other steps of a start; what they write is RECOVERING. -/
def IsMeek : Step → Prop
  | .finish (.setArtifactDigests _) read => read.status = .recovering
  | s => isWrite s = false

/-- What a step returns while the task is RECOVERING. -/
def Answers : (s : Step) → Except Exn s.Ret → Prop
  | .getState, .ok s => s.status = .recovering
  | _, _ => True

section

variable {α β : Type}

/-- It ends with the write of its verdict, and with any failure but that of the readiness. -/
def Fragile : Routine α → Prop
  | .done _ => True
  | .perform s k => (isReadiness s = false → ∀ e, ∃ r, k (.error e) = .done r) ∧
      (isVerdict s = true ∧ (∀ a, ∃ r, k (.ok a) = .done r) ∨
        IsMeek s ∧ ∀ r, Answers s r → Fragile (k r))

/-- All its steps are meek, and any failure but that of the readiness ends it. -/
def Meek : Routine α → Prop
  | .done _ => True
  | .perform s k => (isReadiness s = false → ∀ e, ∃ e', k (.error e) = .done (.error e')) ∧
      IsMeek s ∧ ∀ r, Answers s r → Meek (k r)

theorem Meek.step {s : Step} (meek : IsMeek s) : Meek (step s) :=
  ⟨fun _ e => ⟨e, rfl⟩, meek, fun _ _ => trivial⟩

theorem Meek.pure (a : α) : Meek (pure a : Routine α) := trivial

theorem Meek.bind {p : Routine α} {f : α → Routine β} (hp : Meek p) (hf : ∀ a, Meek (f a)) :
    Meek (p >>= f) := by
  induction p with
  | done r =>
      cases r with
      | ok a => exact hf a
      | error e => trivial
  | perform s k ih =>
      refine ⟨fun other e => ?_, hp.2.1, fun r can => ih r (hp.2.2 r can)⟩
      obtain ⟨e', done⟩ := hp.1 other e
      refine ⟨e', ?_⟩
      show (k (.error e)).andThen _ = _
      rw [done]
      rfl

theorem Meek.look {f : TaskRuntimeState → Routine α}
    (hf : ∀ s, s.status = .recovering → Meek (f s)) : Meek (Magellan.step .getState >>= f) :=
  ⟨fun _ e => ⟨e, rfl⟩, rfl, fun r can => by
    cases r with
    | ok s => exact hf s can
    | error e => trivial⟩

theorem Fragile.after {p : Routine α} {f : Except Exn α → Routine β} (hp : Meek p)
    (raised : ∀ e, ∃ r, f (.error e) = .done r) (hf : ∀ a, Fragile (f (.ok a))) :
    Fragile (p.andThen f) := by
  induction p with
  | done r =>
      cases r with
      | ok a => exact hf a
      | error e =>
          obtain ⟨r, done⟩ := raised e
          rw [andThen_done, done]
          trivial
  | perform s k ih =>
      refine ⟨fun other e => ?_, .inr ⟨hp.2.1, fun r can => ih r (hp.2.2 r can)⟩⟩
      obtain ⟨e', done⟩ := hp.1 other e
      obtain ⟨r, ended⟩ := raised e'
      refine ⟨r, ?_⟩
      show (k (.error e)).andThen f = _
      rw [done, andThen_done, ended]

end

section

variable {n : NodeId} {t : ServiceThread} {α : Type} {R : Shared → Shared → Prop} {v v' : Shared}
  {f : Fate}

theorem meek_record {s : Step} {r : Except Exn s.Ret} (meek : IsMeek s)
    (recovering : (v.record t.node).status = .recovering) (h : s.exec t f v = some (r, v')) :
    (v'.record t.node).status = .recovering := by
  by_cases reads : isWrite s = false
  · rw [Recovery.exec_record reads h]
    exact recovering
  cases s with
  | finish o read =>
      rcases Step.exec_finish h with ⟨_, -, -, rfl⟩ | ⟨value, -, -, rfl⟩
      · exact recovering
      · rw [Shared.record_note]
        cases o with
        | setArtifactDigests digests =>
            show ((v.put t _).record t.node).status = .recovering
            rw [Shared.record_put_self]
            exact meek
        | _ => cases meek
  | setState => cases meek
  | _ => exact absurd rfl reads

theorem answers_of_exec {s : Step} {r : Except Exn s.Ret}
    (recovering : (v.record t.node).status = .recovering) (h : s.exec t f v = some (r, v')) :
    Answers s r := by
  cases s with
  | getState =>
      rcases Step.exec_getState h with ⟨e, -, rfl, -⟩ | ⟨rfl, -⟩
      · trivial
      · exact recovering
  | _ => trivial

theorem exec_fail {s : Step} {r : Except Exn s.Ret} (fails : Fate.isFail f = true)
    (h : s.exec t f v = some (r, v')) : ∃ e, r = .error e ∧ v' = v := by
  cases f with
  | synthesized marker => cases fails
  | of c =>
      cases c with
      | fail e =>
          simp only [Step.exec] at h
          split at h
          · cases h
            exact ⟨e, rfl, rfl⟩
          · cases h
      | _ => cases fails

theorem calm_star (calm : ∀ {u w}, R u w → Calm n u w) {u w : Shared}
    (steps : Relation.ReflTransGen R u w) : Calm n u w := by
  induction steps with
  | refl => exact ⟨rfl, rfl⟩
  | tail _ last ih => exact ⟨(calm last).1.trans ih.1, (calm last).2.trans ih.2⟩

/-- Before its verdict, and after a failure, a start leaves the task RECOVERING. -/
theorem fragile_run {p q : Routine α} {tr : List (Step × Fate)} (fragile : Fragile p)
    (calm : ∀ {u w}, R u w → Calm t.node u w)
    (recovering : (v.record t.node).status = .recovering)
    (run : Reach (Step.exec t) R p v tr q v') :
    (∃ r, q = .done r) ∧ OnlyReadinessFails tr ∨ (v'.record t.node).status = .recovering := by
  induction run with
  | refl => exact .inr recovering
  | rely step _ ih =>
      refine ih fragile ?_
      rw [(calm step).1]
      exact recovering
  | @perform s k f u r w tr q u' step rest ih =>
      have ended {e : Exn} (same : w = u) (isError : r = .error e) (other : isReadiness s = false) :
          (u'.record t.node).status = .recovering := by
        obtain ⟨r, done⟩ := fragile.1 other e
        subst same isError
        rw [done] at rest
        rw [(calm_star calm rest.done_inv.2.2).1]
        exact recovering
      by_cases fails : Fate.isFail f = true ∧ isReadiness s = false
      · obtain ⟨e, isError, same⟩ := exec_fail fails.1 step
        exact .inr (ended same isError fails.2)
      have harmless : Fate.isFail f = true → isReadiness s = true := fun failed =>
        Bool.of_not_eq_false fun other => fails ⟨failed, other⟩
      rcases fragile.2 with ⟨verdict, last⟩ | ⟨meek, next⟩
      · cases r with
        | ok a =>
            obtain ⟨r, done⟩ := last a
            rw [done] at rest
            obtain ⟨rfl, rfl, -⟩ := rest.done_inv
            refine .inl ⟨⟨r, rfl⟩, fun x mem => ?_⟩
            rw [List.mem_singleton.mp mem]
            exact harmless
        | error e =>
            refine .inr (ended ?_ rfl ?_) <;> cases s <;> try cases verdict
            · rcases Step.exec_finish step with ⟨_, -, -, rfl⟩ | ⟨_, -, impossible, -⟩
              · rfl
              · cases impossible
            · rfl
      · rcases ih (next r (answers_of_exec recovering step)) (meek_record meek recovering step) with
          ⟨done, rest⟩ | recovering
        · refine .inl ⟨done, fun x mem => ?_⟩
          rcases List.mem_cons.mp mem with rfl | later
          · exact harmless
          · exact rest x later
        · exact .inr recovering

/-! ## The start of a recovering task -/

/-- The operations of a start that are not its verdict. -/
def isMeekOp : Op → Bool
  | .registry _ => false
  | o => LocalProcess.isStartOp o

theorem meek_stepwise {o : Op} (meek : isMeekOp o = true) : Meek (stepwise n o) := by
  cases o with
  | ensureTaskArtifacts =>
      refine .bind (.step rfl) fun bindings => .bind (.bind (.look fun s recovering => ?_) fun _ => .pure _)
        fun _ => .pure _
      exact .step recovering
  | registry | stageBindings | settleTask | recordMigration => cases meek
  | _ => exact .step rfl

/-- `try: p except Exception: pass`. -/
abbrev tried {α : Type} (p : Routine α) : Routine Unit := p.attempt (fun _ => pure ()) fun _ => pure ()

theorem fragile_tried {β : Type} {p : Routine α} {g : α → Routine β} (hp : Meek p)
    (hg : ∀ a, Fragile (tried (g a))) : Fragile (tried (p >>= g)) := by
  have assoc : tried (p >>= g) = p.andThen fun
      | .ok a => tried (g a)
      | .error _ => pure () := by
    show (p.andThen _).andThen _ = _
    rw [andThen_assoc]
    congr 1
    funext r
    cases r <;> rfl
  rw [assoc]
  exact .after hp (fun _ => ⟨_, rfl⟩) hg

theorem fragile_await {β : Type} {o : Op} {g : o.Ret → Async β} (meek : isMeekOp o = true)
    (hg : ∀ a, Fragile (tried ((g a).implement (stepwise n)))) :
    Fragile (tried ((await o >>= g).implement (stepwise n))) := by
  rw [implement_bind, implement_op]
  exact fragile_tried (meek_stepwise meek) hg

/-- The last write of a start. -/
theorem fragile_verdict {β : Type} (op : RegistryOp) {o : Timestamp → Operation}
    (is : ∀ now, op.update n now = .inl (o now))
    (verdict : ∀ now read, isVerdict (.finish (o now) read) = true)
    {k : Except Exn TaskRuntimeState → Routine β} (ends : ∀ r, ∃ r', k r = .done r') :
    Fragile ((registryOp n op).andThen k) := by
  have ended : ∀ r, Fragile (k r) := by
    intro r
    obtain ⟨r', done⟩ := ends r
    rw [done]
    trivial
  have finishing : registryOp n op = (do
      let now ← step .clock
      let read ← step .getState
      let value ← step (.finish (o now) read)
      pure (value.stateD read)) := by
    simp only [registryOp, is]
  rw [finishing]
  refine ⟨fun _ e => ends (.error e), .inr ⟨rfl, fun r _ => ?_⟩⟩
  cases r with
  | error e => exact ended (.error e)
  | ok now =>
      refine ⟨fun _ e => ends (.error e), .inr ⟨rfl, fun r _ => ?_⟩⟩
      cases r with
      | error e => exact ended (.error e)
      | ok read =>
          exact ⟨fun _ e => ends (.error e), .inl ⟨verdict now read, fun value => ends (.ok _)⟩⟩

/-- After the spawn. -/
theorem fragile_track (plan : LaunchPlan) (pid : Pid) :
    Fragile (tried ((LocalProcess.track plan pid).implement (stepwise n))) := by
  have running : Fragile (tried (Coro.implement (stepwise n) (await (.registry
      (.markRunning pid (some plan.adapter) (some plan.command) plan.resumedFromCheckpoint))))) := by
    rw [implement_op]
    exact fragile_verdict (n := n)
      (.markRunning pid (some plan.adapter) (some plan.command) plan.resumedFromCheckpoint)
      (fun _ => rfl) (fun _ _ => rfl) fun r => by cases r <;> exact ⟨_, rfl⟩
  have failed (e : Exn) (exitCode : Option Int) : Fragile (tried (Coro.implement (stepwise n) (do
      let _ ← await (.registry (.markFailed e.describe exitCode))
      (raise (runtimeError e.describe) : Async TaskRuntimeState)))) := by
    rw [implement_bind, implement_op]
    unfold tried attempt
    rw [bind_def]
    unfold attempt
    rw [andThen_assoc]
    exact fragile_verdict (n := n) (.markFailed e.describe exitCode) (fun _ => rfl) (fun _ _ => rfl)
      fun r => by cases r <;> exact ⟨_, rfl⟩
  unfold LocalProcess.track
  rw [implement_attempt, implement_op]
  refine ⟨fun other => (by cases other), .inr ⟨rfl, fun r _ => ?_⟩⟩
  cases r with
  | ok _ => exact running
  | error e =>
      show Fragile (tried (Coro.implement (stepwise n) (do
        await (.terminate pid)
        let exitCode ← await (.pollExitCode pid)
        let _ ← await (.registry (.markFailed e.describe exitCode))
        raise (runtimeError e.describe))))
      exact fragile_await rfl fun _ => fragile_await rfl (failed e)

theorem startAttempt_fragile : Fragile (startAttempt n) := by
  have launch : Fragile (tried (LocalProcess.launch.implement (stepwise n))) := by
    unfold LocalProcess.launch
    exact fragile_await rfl fun _ => fragile_await rfl fun plan =>
      fragile_await rfl fun _ => fragile_await rfl fun pid => fragile_track plan pid
  unfold startAttempt LocalProcess.start
  refine fragile_await rfl fun _ => fragile_await rfl fun state =>
    fragile_await rfl fun _ => ?_
  split
  · trivial
  split
  · trivial
  have rest : ∀ alive : Bool, Fragile (tried (Coro.implement (stepwise n)
      (if state.status = .running ∧ alive then pure state
        else if state.status = .paused ∧ alive then
          raise (runtimeError s!"Cannot start paused task {state.taskId}; resume it instead")
        else LocalProcess.launch))) := by
    intro alive
    split
    · trivial
    · split
      · trivial
      · exact launch
  cases state.pid with
  | none => exact rest false
  | some pid => exact fragile_await rfl rest

end

/-! ## A start in which nothing else fails -/

/-- The runs in which only the readiness can fail. -/
def restContract (n : NodeId) : Contract Step Fate Shared where
  allowed s f _ := Fate.isFail f = true → isReadiness s = true
  rely := Calm n
  inv _ := True
  guar _ _ := True

section

variable {n : NodeId} {t : ServiceThread} {f : Fate} {v v' : Shared}

theorem recovering_stable : (restContract n).Stable (Recovering n) := by
  intro v w calm recovering
  unfold Recovering
  rw [calm.1]
  exact recovering

theorem atRest_stable : (restContract n).Stable (AtRest n) := by
  intro v w calm rest
  unfold AtRest NodeState.isAlive
  rw [calm.1, calm.2]
  exact rest

/-- The steps of a start do not raise by themselves. -/
theorem isFail_of_error {o : Op} {e : Exn} (meek : isMeekOp o = true)
    (h : (Step.op o).exec t f v = some (.error e, v')) : Fate.isFail f = true := by
  rcases Step.exec_cases h with ⟨e', rfl, -⟩ | h
  · rfl
  cases f with
  | synthesized marker => cases h
  | of c =>
      simp only [Step.effect] at h
      split at h
      · cases h
      rename_i quiet
      cases o with
      | spawn =>
          cases c with
          | spawned pid =>
              simp only [Magellan.effect, writes] at h
              by_cases new : 0 < pid ∧ pid ∉ (v.world.nodes t.node).processes
              · simp [new] at h
              · simp [new] at h
          | _ => cases h
      | _ =>
          first
            | (cases meek; done)
            | exact absurd rfl quiet
            | (cases c <;> simp only [Magellan.effect, reads, writes] at h <;> cases h)

theorem rest_op {o : Op} (meek : isMeekOp o = true) (ready : isReadiness (.op o) = false) :
    Triple (Step.exec t) (restContract t.node) (Recovering t.node) (step (.op o))
      (fun _ => Recovering t.node) fun _ _ => False := by
  refine .op recovering_stable (fun _ => recovering_stable) (fun _ => .const _)
    fun {v f r w} recovering _ allowed done => ⟨trivial, trivial, ?_⟩
  cases r with
  | ok a =>
      show Recovering t.node w
      unfold Recovering
      rw [Recovery.exec_record rfl done]
      exact recovering
  | error e => exact absurd (allowed (isFail_of_error meek done)) (by rw [ready]; decide)

theorem rest_getState {A : Shared → Prop} (stable : (restContract t.node).Stable A)
    (record : ∀ v, A v → Recovering t.node v) (saw : ∀ v s, A v → A (v.saw t s)) :
    Triple (Step.exec t) (restContract t.node) A (step .getState)
      (fun s v => (s.status = .recovering ∧ s.ownerNodeId = t.node) ∧ A v) fun _ _ => False := by
  refine .op stable (fun _ => (Contract.Stable.const _).and stable) (fun _ => .const _)
    fun {v f r w} holds _ allowed done => ⟨trivial, trivial, ?_⟩
  rcases Step.exec_cases done with ⟨e, rfl, -⟩ | effect
  · cases allowed rfl
  cases f with
  | synthesized marker => cases effect
  | of c =>
      cases c <;> cases effect
      exact ⟨record v holds, saw v _ holds⟩

/-- The steps of a start that change nothing. -/
def isAsking : Step → Bool
  | .clock | .materializeArtifacts => true
  | _ => false

theorem rest_asking {A : Shared → Prop} {s : Step} (asks : isAsking s = true)
    (stable : (restContract t.node).Stable A) :
    Triple (Step.exec t) (restContract t.node) A (step s) (fun _ => A) fun _ _ => False := by
  refine .op stable (fun _ => stable) (fun _ => .const _)
    fun {v f r w} holds _ allowed done => ⟨trivial, trivial, ?_⟩
  rcases Step.exec_cases done with ⟨e, rfl, -⟩ | effect
  · cases s <;> first | cases allowed rfl | cases asks
  cases s with
  | clock | materializeArtifacts =>
      cases f with
      | synthesized marker => cases effect
      | of c =>
          cases c <;> cases effect
          exact holds
  | _ => cases asks

/-- A registry operation that has read the record of a recovering task. -/
theorem rest_finish {A : Shared → Prop} {B : Registry.Value → Shared → Prop} {o : Operation}
    {read : TaskRuntimeState} (stable : (restContract t.node).Stable A)
    (stableB : ∀ value, (restContract t.node).Stable (B value)) {s : TaskRuntimeState}
    (writes : o.perform t.node read = .write s)
    (ends : ∀ v, A v → ∀ g, B (.state s) ((v.put t s).note t.node g)) :
    Triple (Step.exec t) (restContract t.node) A (step (.finish o read)) B fun _ _ => False := by
  refine .op stable stableB (fun _ => .const _)
    fun {v f r w} holds _ allowed done => ⟨trivial, trivial, ?_⟩
  rcases Step.exec_cases done with ⟨e, rfl, -⟩ | effect
  · cases allowed rfl
  cases f with
  | synthesized marker => cases effect
  | of c =>
      cases c <;> try cases effect
      simp only [Step.effect, writes, Registry.Effect.write, Option.some.injEq, Prod.mk.injEq]
        at effect
      obtain ⟨rfl, rfl⟩ := effect
      exact ends v holds _

theorem record_put_note {s : TaskRuntimeState} (g : History → History) :
    ((v.put t s).note t.node g).record t.node = s := by
  rw [Shared.record_note, Shared.record_put_self]

theorem processes_put_note {s : TaskRuntimeState} (g : History → History) :
    (((v.put t s).note t.node g).world.nodes t.node).processes = (v.world.nodes t.node).processes := by
  simp only [Shared.put, Shared.note, Shared.saw, World.modify_self]

/-- The record of a recovering task, and the process that has been spawned for it. -/
def Spawned (n : NodeId) (pid : Pid) (v : Shared) : Prop :=
  Recovering n v ∧ pid ∈ (v.world.nodes n).processes

theorem spawned_stable (pid : Pid) : (restContract n).Stable (Spawned n pid) := by
  intro v w calm spawned
  refine ⟨recovering_stable calm spawned.1, ?_⟩
  rw [calm.2]
  exact spawned.2

theorem rest_digests (digests : List (String × String)) :
    Triple (Step.exec t) (restContract t.node) (Recovering t.node)
      (update (.setArtifactDigests digests)) (fun _ => Recovering t.node) fun _ _ => False := by
  refine .bind (.bind (rest_getState recovering_stable (fun _ h => h) fun _ _ h => h) fun read =>
    .given fun known => ?_) fun _ => .pure recovering_stable fun _ h => h
  refine rest_finish (B := fun _ => Recovering t.node) recovering_stable (fun _ => recovering_stable)
    rfl fun v _ g => ?_
  show Recovering t.node _
  unfold Recovering
  rw [record_put_note]
  exact known

theorem rest_artifacts :
    Triple (Step.exec t) (restContract t.node) (Recovering t.node)
      (stepwise t.node .ensureTaskArtifacts) (fun _ => Recovering t.node) fun _ _ => False :=
  .bind (rest_asking rfl recovering_stable) fun _ => .bind (rest_digests _) fun _ =>
    .pure recovering_stable fun _ h => h

theorem rest_spawn :
    Triple (Step.exec t) (restContract t.node) (Recovering t.node) (stepwise t.node .spawn)
      (fun pid => Spawned t.node pid) fun _ _ => False := by
  refine .op recovering_stable (fun _ => spawned_stable _) (fun _ => .const _)
    fun {v f r w} recovering _ allowed done => ⟨trivial, trivial, ?_⟩
  cases r with
  | error e => exact absurd (allowed (isFail_of_error rfl done)) (by decide)
  | ok pid =>
      rcases Step.exec_spawn done with ⟨_, -, impossible, -⟩ | ⟨pid', same, rfl⟩
      · cases impossible
      · cases same
        refine ⟨?_, ?_⟩
        · unfold Recovering
          rw [Shared.record_spawned]
          exact recovering
        · simp only [Shared.spawned, Shared.did, Shared.note, Shared.acted, World.modify_self,
            List.mem_cons, true_or]

/-- The readiness of the process, which may fail. -/
theorem rest_readiness {pid : Pid} :
    Triple (Step.exec t) (restContract t.node) (Spawned t.node pid)
      (stepwise t.node (.waitForReadiness pid)) (fun _ => Spawned t.node pid)
      fun _ => Recovering t.node := by
  refine .op (spawned_stable _) (fun _ => spawned_stable _) (fun _ => recovering_stable)
    fun {v f r w} spawned _ allowed done => ⟨trivial, trivial, ?_⟩
  rcases Step.exec_cases done with ⟨e, rfl, -, rfl, rfl⟩ | effect
  · exact spawned.1
  cases f with
  | synthesized marker => cases effect
  | of c =>
      cases c <;> cases effect
      exact spawned

theorem rest_running {pid : Pid} {adapter : Option String} {command : Option (List String)}
    {resumed : Bool} :
    Triple (Step.exec t) (restContract t.node) (Spawned t.node pid)
      (stepwise t.node (.registry (.markRunning pid adapter command resumed)))
      (fun _ => AtRest t.node) fun _ _ => False := by
  refine .bind (rest_asking rfl (spawned_stable _)) fun now => ?_
  refine .bind (rest_getState (spawned_stable _) (fun _ h => h.1) fun _ _ h => h) fun read =>
    .given fun known => ?_
  obtain ⟨s, writes, status, process⟩ : ∃ s,
      (Operation.markRunning pid adapter command resumed now).perform t.node read = .write s ∧
        s.status = .running ∧ s.pid = some pid := by
    have open_ : read.status ≠ .completed := by
      rw [known.1]
      decide
    simp only [Operation.perform, Registry.markRunning, ne_eq, known.2, not_true_eq_false, if_false,
      if_neg open_, Registry.Effect.ofExcept]
    exact ⟨_, rfl, rfl, rfl⟩
  refine .bind (B := fun _ => AtRest t.node) (rest_finish (spawned_stable _) (fun _ => atRest_stable)
    writes fun v spawned g => ?_) fun _ => .pure atRest_stable fun _ h => h
  refine .inl ⟨?_, ?_⟩
  · rw [record_put_note]
    exact status
  · rw [record_put_note, process]
    show NodeState.isAlive _ pid = true
    unfold NodeState.isAlive
    rw [processes_put_note]
    exact decide_eq_true spawned.2

theorem rest_failed {error : String} {exitCode : Option Int} :
    Triple (Step.exec t) (restContract t.node) (Recovering t.node)
      (stepwise t.node (.registry (.markFailed error exitCode)))
      (fun _ => AtRest t.node) fun _ _ => False := by
  refine .bind (rest_asking rfl recovering_stable) fun now => ?_
  refine .bind (rest_getState recovering_stable (fun _ h => h) fun _ _ h => h) fun read => ?_
  refine .bind (B := fun _ => AtRest t.node) ?_ fun _ => .pure atRest_stable fun _ h => h
  refine rest_finish (s := Registry.markFailed error exitCode now read)
    ((Contract.Stable.const _).and recovering_stable) (fun _ => atRest_stable) rfl fun v _ g => .inr ?_
  rw [record_put_note]
  rfl

/-! ## What becomes of the start -/

abbrev Brings (p : Async TaskRuntimeState) (A : Shared → Prop) : Prop :=
  Carried (Step.exec t) (restContract t.node) (stepwise t.node) A p (fun _ => AtRest t.node)
    fun _ => AtRest t.node

theorem carried {o : Op} {A : Shared → Prop} {B : o.Ret → Shared → Prop}
    (h : Triple (Step.exec t) (restContract t.node) A (stepwise t.node o) B fun _ _ => False) :
    Carried (Step.exec t) (restContract t.node) (stepwise t.node) A (await o) B
      fun _ => AtRest t.node :=
  .op (h.weaken (fun _ a => a) (fun _ _ b => b) fun _ _ no => no.elim)

theorem track_brings (plan : LaunchPlan) (pid : Pid) :
    Brings (t := t) (LocalProcess.track plan pid) (Spawned t.node pid) := by
  refine .attempt (.op rest_readiness) (fun _ => carried rest_running) fun e => ?_
  refine .bind (carried (rest_op rfl rfl)) fun _ => .bind (carried (rest_op rfl rfl)) fun exitCode => ?_
  exact .bind (carried rest_failed) fun _ => .raise atRest_stable fun _ h => h

theorem launch_brings : Brings (t := t) LocalProcess.launch (Recovering t.node) :=
  .bind (carried (rest_op rfl rfl)) fun _ => .bind (carried (rest_op rfl rfl)) fun plan =>
    .bind (carried (rest_op rfl rfl)) fun _ => .bind (carried rest_spawn) fun pid =>
      track_brings plan pid

theorem start_brings : Brings (t := t) (LocalProcess.start t.node) (Recovering t.node) := by
  refine .bind (carried rest_artifacts) fun _ => ?_
  refine .bind (carried (rest_getState recovering_stable (fun _ h => h) fun _ _ h => h)) fun state => ?_
  refine Triple.given fun known => Carried.bind (carried (rest_op rfl rfl)) fun _ => ?_
  rw [if_neg (not_not.mpr known.2), if_neg (by rw [known.1]; decide)]
  have rest : ∀ alive : Bool, Brings (t := t)
      (if state.status = .running ∧ alive then pure state
        else if state.status = .paused ∧ alive then
          raise (runtimeError s!"Cannot start paused task {state.taskId}; resume it instead")
        else LocalProcess.launch) (Recovering t.node) := by
    intro alive
    rw [if_neg (by rw [known.1]; exact fun h => by cases h.1),
      if_neg (by rw [known.1]; exact fun h => by cases h.1)]
    exact launch_brings
  refine .bind (B := fun _ => Recovering t.node) ?_ rest
  cases state.pid with
  | none => exact .pure recovering_stable fun _ h => h
  | some pid => exact carried (rest_op rfl rfl)

theorem startAttempt_brings :
    Triple (Step.exec t) (restContract t.node) (Recovering t.node) (startAttempt t.node)
      (fun _ => AtRest t.node) fun _ => AtRest t.node :=
  .attempt start_brings (fun _ => .pure atRest_stable fun _ h => h)
    fun _ => .pure atRest_stable fun _ h => h

/-- The runs in which anything can fail. -/
def beginContract (n : NodeId) : Contract Step Fate Shared :=
  ⟨fun _ _ _ => True, Calm n, fun _ => True, fun _ _ => True⟩

/-- What `begin_recovery` leaves when it returns. -/
theorem begin_recovers :
    Triple (Step.exec t) (beginContract t.node) (fun _ => True) (update .beginRecovery)
      (fun _ => Recovering t.node) fun _ _ => True := by
  have stable : (beginContract t.node).Stable (Recovering t.node) := recovering_stable
  refine .bind (.bind (B := fun _ _ => True) ?_ fun read => ?_) fun _ => .pure stable fun _ h => h
  · exact .op .top (fun _ => .top) (fun _ => .top) fun {v f r w} _ _ _ _ =>
      ⟨trivial, trivial, by cases r <;> trivial⟩
  refine .op (B := fun _ => Recovering t.node) .top (fun _ => stable) (fun _ => .top)
    fun {v f r w} _ _ _ done => ⟨trivial, trivial, ?_⟩
  rcases Step.exec_finish done with ⟨_, -, rfl, -⟩ | ⟨value, performed, rfl, rfl⟩
  · trivial
  obtain ⟨s, written, status, owner⟩ : ∃ s,
      (Operation.beginRecovery.perform t.node read).written = some s ∧ s.status = .recovering ∧
        s.ownerNodeId = t.node := by
    simp only [Operation.perform, Registry.beginRecovery] at performed ⊢
    split at performed
    · cases performed
    · rename_i here
      split at performed
      · cases performed
      · rename_i failed
        rw [if_neg here, if_neg failed]
        exact ⟨_, rfl, rfl, not_not.mp here⟩
  have record := Recovery.record_finish (n := t.node) (v := v) (o := .beginRecovery) written rfl
  show Recovering t.node _
  unfold Recovering
  rw [record]
  exact ⟨status, owner⟩

/-- After an attempt to recover the task, which may be cut short by a crash, the task comes to rest
if and only if the start has ended and nothing but the readiness check has failed in it. -/
theorem recovery_rests_iff (services : MigrationService.Services) (policy : RecoveryPolicy)
    {R : Shared → Shared → Prop} (calm : ∀ {u w}, R u w → Calm t.node u w) {v₀ v₁ v₂ : Shared}
    {tr₁ tr₂ : List (Step × Fate)} {q : Routine Unit}
    (begun : Reach (Step.exec t) R (update .beginRecovery) v₀ tr₁ (.done (.ok ())) v₁)
    (run : Reach (Step.exec t) R (startAttempt t.node) v₁ tr₂ q v₂) :
    ComesToRest services policy t.node q v₂ ↔
      (∃ r, q = .done r) ∧ OnlyReadinessFails tr₂ := by
  have recovering : Recovering t.node v₁ :=
    begin_recovers.reach (fun step => calm step) (fun _ _ _ _ => trivial) trivial trivial begun
      fun _ _ _ => trivial
  have rests : (∃ r, q = .done r) ∧ OnlyReadinessFails tr₂ → AtRest t.node v₂ := by
    rintro ⟨⟨r, rfl⟩, only⟩
    have ends := startAttempt_brings.reach (fun step => calm step) (fun _ _ _ _ => trivial) recovering
      trivial run fun x mem _ => only x mem
    cases r <;> exact ends
  rcases fragile_run startAttempt_fragile calm recovering.1 run with ended | stuck
  · rw [comesToRest_iff services policy (.inl (rests ended))]
    exact iff_of_true (rests ended) ended
  · have restless : ¬ AtRest t.node v₂ := by
      rintro (⟨running, -⟩ | failed)
      · rw [stuck] at running
        cases running
      · rw [stuck] at failed
        cases failed
    rw [comesToRest_iff services policy (.inr stuck)]
    exact iff_of_false restless fun ended => restless (rests ended)

end

/-! ## A start that raises, and a crash -/

/-- The task of node `a` has failed, and its next attempt is due. -/
def failedTask : Shared where
  world := { nodes := fun n => { sampleNode n with
    registry := { (sampleNode n).registry with
      status := if n = "a" then .failed else .remote
      pid := none }
    processes := [] } }

/-- It is the node's recovery thread that writes. -/
def recoveringTask : Shared :=
  (((failedTask.saw ⟨"a", .recovery⟩ (failedTask.record "a")).putAny ⟨"a", .recovery⟩
    (Operation.beginRecovery.perform "a" (failedTask.record "a")).written).note "a"
      (History.after .recovery none .beginRecovery))

def noSpace : Exn := ⟨.osError, "[Errno 28] No space left on device"⟩

/-- The import of an artifact raises, or the daemon dies when it begins: the task stays RECOVERING. -/
theorem failedImport_restless :
    Reach (Step.exec ⟨"a", .recovery⟩) (fun _ _ => False) (update .beginRecovery) failedTask
        [(.getState, .of (.ok 0)), (.finish .beginRecovery (failedTask.record "a"), .of (.ok 0))]
        (.done (.ok ())) recoveringTask ∧
      Reach (Step.exec ⟨"a", .recovery⟩) (fun _ _ => False) (startAttempt "a") recoveringTask
        [(.materializeArtifacts, .of (.fail noSpace))] (.done (.ok ())) recoveringTask ∧
      ¬ ComesToRest MigrationService.bareServices {} "a" (.done (.ok ())) recoveringTask ∧
      ¬ ComesToRest MigrationService.bareServices {} "a" (startAttempt "a") recoveringTask := by
  have restless : ¬ AtRest "a" recoveringTask := by
    rintro (⟨running, -⟩ | failed)
    · exact absurd running (by decide)
    · exact absurd failed (by decide)
  refine ⟨.perform rfl (.perform rfl .refl), .perform rfl .refl, ?_, ?_⟩
  · rwa [comesToRest_iff _ _ (.inr (by decide))]
  · rwa [comesToRest_iff _ _ (.inr (by decide))]

/-- The process is spawned and is not ready in time; that failure is recorded. -/
theorem unready_rests : ∃ tr q v,
    Reach (Step.exec ⟨"a", .recovery⟩) (fun _ _ => False) (startAttempt "a") recoveringTask tr q v ∧
      ComesToRest MigrationService.bareServices {} "a" q v := by
  have begun : Reach (Step.exec ⟨"a", .recovery⟩) (fun _ _ => False) (update .beginRecovery)
      failedTask [(.getState, .of (.ok 0)), (.finish .beginRecovery (failedTask.record "a"), .of (.ok 0))]
      (.done (.ok ())) recoveringTask := .perform rfl (.perform rfl .refl)
  have started : ∃ tr q v, Reach (Step.exec ⟨"a", .recovery⟩) (fun _ _ => False) (startAttempt "a")
      recoveringTask tr q v ∧ q.outcome?.isSome = true ∧ OnlyReadinessFails tr :=
    exists_reach_of_replay ([.of (.bindings [])] ++ List.replicate 5 (.of (.ok 0)) ++
      [.of (.plan ⟨"", [], false⟩), .of (.ok 0), .of (.spawned 7), .of (.fail noSpace), .of (.ok 0),
        .of (.exitCode none)] ++ List.replicate 3 (.of (.ok 0))) (by decide)
  obtain ⟨tr, q, v, run, ended, only⟩ := started
  cases q with
  | perform o k => cases ended
  | done r =>
      exact ⟨tr, _, v, run, (recovery_rests_iff MigrationService.bareServices {} (fun no => no.elim)
        begun run).mpr ⟨⟨r, rfl⟩, only⟩⟩

end Magellan.Restart
