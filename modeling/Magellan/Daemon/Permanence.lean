import Magellan.Daemon.Completion
import Magellan.Migration.Outcome

/-!
# Completion is permanent

The services of a daemon keep the contract, and so does a system of any number of daemons: a task
that a node has recorded as completed stays so at its generation.
-/

namespace Magellan.Completion

open Coroutine Coro MigrationService
open Registry (Operation)

section

variable {t : ServiceThread} {A : Shared → Prop} {α : Type} {r : TaskRuntimeState}

/-- A routine that keeps `A`. -/
abbrev Keeps (t : ServiceThread) (A : Shared → Prop) (p : Routine α) : Prop :=
  Triple (Step.exec t) (contract t) A p (fun _ => A) fun _ => A

theorem keeps_pure (stable : (contract t).Stable A) (a : α) : Keeps t A (pure a) :=
  .pure stable fun _ a => a

theorem keeps_raise (stable : (contract t).Stable A) (e : Exn) :
    Keeps t A (raise e : Routine α) := .raise stable fun _ a => a

/-- At the weak level nothing has to be said of how a routine ends. -/
theorem keeps_of {p : Routine α} {B : α → Shared → Prop} {E : Exn → Shared → Prop}
    (h : Triple (Step.exec t) (contract t) A p B E) :
    Triple (Step.exec t) (contract t) A p (fun _ => Anything) fun _ => Anything :=
  h.weaken (fun _ a => a) (fun _ _ _ => trivial) fun _ _ _ => trivial

theorem live_of_saw (open_ : r.status ≠ .completed) (v : Shared) (saw : Sees t (· = some r) v) :
    Sees t Live v := ⟨r, saw, open_⟩

theorem update_any {o : Operation} (mild : o.fails = false) : Keeps t Anything (update o) :=
  .bind (transact_any mild) fun _ => keeps_pure .top _

theorem update_live {o : Operation} (partial_ : o.completes = false) :
    Keeps t (Sees t Live) (update o) :=
  .bind (transact_open partial_) fun _ => keeps_pure stable_sees _

/-- The write of a completion, with its failure at the strong level. -/
theorem update_completing (o : Operation) :
    Triple (Step.exec t) (contract t) (Sees t Live) (update o) (fun _ => Anything)
      fun _ => Sees t Live := by
  refine .bind (B := fun _ => Anything) (.bind look_open fun r => .given fun open_ => ?_)
    fun _ => .pure .top fun _ _ => trivial
  refine .op stable_sees (fun _ => .top) (fun _ => stable_sees)
    fun {_ _ x _} sees inv allowed done => ?_
  obtain ⟨inv', guar, ends⟩ := finish_step o r (.inr open_) sees inv allowed done
  refine ⟨inv', guar, ?_⟩
  cases x with
  | ok value => trivial
  | error e => exact ends open_

/-- A routine that reads the record first, and does nothing with a completed one. -/
theorem keeps_getState {f : TaskRuntimeState → Routine α}
    (closed : ∀ r, r.status = .completed → Keeps t Anything (f r))
    (rest : ∀ r, r.status ≠ .completed →
      Triple (Step.exec t) (contract t) (Sees t Live) (f r) (fun _ => Anything) fun _ => Anything) :
    Keeps t Anything (step .getState >>= f) := by
  refine .bind look fun r => ?_
  by_cases completed : r.status = .completed
  · exact (closed r completed).pre fun _ _ => trivial
  · exact (rest r completed).pre (live_of_saw completed)

theorem keeps_look {f : TaskRuntimeState → Routine α}
    (closed : ∀ r, r.status = .completed → Keeps t Anything (f r))
    (rest : ∀ r, r.status ≠ .completed → Keeps t (Sees t Live) (f r)) :
    Keeps t Anything (step .getState >>= f) ∧ Keeps t (Sees t Live) (step .getState >>= f) :=
  ⟨keeps_getState closed fun r open_ => keeps_of (rest r open_),
    .bind look_open fun r => .given fun open_ => (rest r open_).pre (live_of_saw open_)⟩

theorem live_getState {f : TaskRuntimeState → Routine α} {B : α → Shared → Prop}
    {E : Exn → Shared → Prop} (weaker : ∀ e v, Sees t Live v → E e v)
    (rest : ∀ r, r.status ≠ .completed →
      Triple (Step.exec t) (contract t) (Sees t Live) (f r) B E) :
    Triple (Step.exec t) (contract t) (Sees t Live) (step .getState >>= f) B E :=
  .bind (look_open.weaken (fun _ a => a) (fun _ _ b => b) weaker) fun r =>
    .given fun open_ => (rest r open_).pre (live_of_saw open_)

theorem killpg_live {s : Signal} {pid : Option Pid} :
    Keeps t (Sees t Live) (LocalProcess.killpg s pid) := by
  cases pid with
  | none => exact keeps_pure stable_sees _
  | some pid =>
      cases s with
      | stop => exact quiet rfl
      | cont => exact .op stable_sees (fun _ => stable_sees) (fun _ => stable_sees) cont_step

theorem timed_live {o : Timestamp → Operation} (partial_ : ∀ now, (o now).completes = false) :
    Keeps t (Sees t Live) (do let now ← step .clock; update (o now)) :=
  .bind (quiet rfl) fun now => update_live (partial_ now)

/-! ## The runtime -/

theorem finalize_live {exitCode : Option Int} :
    Triple (Step.exec t) (contract t) (Sees t Live) (LocalProcess.finalize exitCode)
      (fun _ => Anything) fun _ => Sees t Live :=
  .bind (quiet rfl) fun _ => .bind kept_live.look fun _ => .bind (quiet rfl) fun _ =>
    update_completing _

theorem settleExit_live {exitCode : Option Int} :
    Triple (Step.exec t) (contract t) (Sees t Live) (LocalProcess.settleExit exitCode)
      (fun _ => Anything) fun _ => Anything := by
  refine .bind ((quiet rfl).weaken (fun _ a => a) (fun _ _ b => b) fun _ _ _ => trivial) fun _ => ?_
  refine .bind ((quiet rfl).weaken (fun _ a => a) (fun _ _ b => b) fun _ _ _ => trivial)
    fun found => ?_
  apply Triple.ite
  · intro finished
    exact .tryExcept finalize_live fun e => keeps_of (timed_live fun _ => rfl)
  · intro unfinished
    exact keeps_of (timed_live fun _ => rfl)

theorem alive_live {c : Prop} [Decidable c] {pid : Option Pid} :
    Keeps t (Sees t Live) (if c then LocalProcess.isAlive pid else pure false) :=
  .ite (fun _ => isAlive_kept kept_live) fun _ => keeps_pure stable_sees _

theorem observe_live {pid : Option Pid} : Keeps t (Sees t Live) (LocalProcess.observe pid) :=
  .bind (quiet rfl) fun _ => .bind alive_live fun _ => keeps_pure stable_sees _

theorem reconcile_keeps : Keeps t Anything (LocalProcess.reconcile t.node) := by
  refine keeps_getState (fun state completed => ?_) fun state open_ => ?_
  · rw [if_pos (.inr (by rw [completed]; decide))]
    exact keeps_pure .top _
  · refine .ite (fun _ => keeps_of (keeps_pure stable_sees _)) fun _ => ?_
    refine .bind (observe_live.weaken (fun _ a => a) (fun _ _ b => b) fun _ _ _ => trivial)
      fun seen => ?_
    exact .ite (fun _ => keeps_of (keeps_pure stable_sees _)) fun _ => settleExit_live

theorem pause_keeps {pausedAt resumeAt resumeWallAt : Timestamp} {reason : String} :
    Keeps t Anything (LocalProcess.pause t.node pausedAt resumeAt resumeWallAt reason) := by
  refine keeps_getState (fun state completed => ?_) fun state open_ => ?_
  · refine .ite (fun _ => keeps_raise .top _) fun _ => .ite (fun _ => keeps_pure .top _) fun _ => ?_
    rw [if_neg (show state.status ≠ .running by rw [completed]; decide)]
    exact .bind (B := fun alive _ => alive = false) (.pure (.const _) fun _ _ => rfl) fun alive =>
      .assuming fun stopped => by
        rw [if_pos (by simp [stopped])]
        exact keeps_raise .top _
  · refine keeps_of (B := fun _ => Sees t Live) (E := fun _ => Sees t Live) ?_
    refine .ite (fun _ => keeps_raise stable_sees _) fun _ =>
      .ite (fun _ => keeps_pure stable_sees _) fun _ => .bind alive_live fun alive => ?_
    refine .ite (fun _ => keeps_raise stable_sees _) fun _ => .bind killpg_live fun found =>
      .bind (quiet rfl) fun now => .ite (fun _ => update_live rfl) fun _ => ?_
    exact .bind (update_live rfl) fun _ => keeps_raise stable_sees _

theorem resume_keeps : Keeps t Anything (LocalProcess.resume t.node) ∧
    Keeps t (Sees t Live) (LocalProcess.resume t.node) := by
  apply keeps_look
  · intro state completed
    refine .ite (fun _ => keeps_raise .top _) fun _ => .ite (fun _ => keeps_pure .top _) fun _ => ?_
    rw [if_pos (.inl (by rw [completed]; decide))]
    exact keeps_raise .top _
  · intro state open_
    refine .ite (fun _ => keeps_raise stable_sees _) fun _ =>
      .ite (fun _ => keeps_pure stable_sees _) fun _ =>
        .ite (fun _ => keeps_raise stable_sees _) fun _ => .bind (isAlive_kept kept_live)
          fun alive => .bind (quiet rfl) fun now => .ite (fun _ => ?_) fun _ => ?_
    · exact .bind (update_live rfl) fun _ => keeps_raise stable_sees _
    · refine .bind killpg_live fun found => .ite (fun _ => update_live rfl) fun _ => ?_
      exact keeps_raise stable_sees _

/-! ## Pausing and recovery -/

theorem pauseResume_keeps (services : Services) (kept : Kept t A)
    (h : Keeps t A (LocalProcess.resume t.node)) :
    Keeps t A (PauseService.resume services t.node) :=
  .bind (.ite (fun _ => settleTask_kept kept) fun _ => keeps_pure kept.stable _) fun _ => h

theorem resumeDue_keeps (services : Services) {at_ : Timestamp} :
    Keeps t Anything (PauseService.resumeDue services t.node at_) := by
  refine keeps_getState (fun listed completed => ?_) fun listed open_ => ?_
  · rw [if_pos (.inr (by rw [completed]; decide))]
    exact keeps_pure .top _
  · refine keeps_of (B := fun _ => Sees t Live) (E := fun _ => Sees t Live) ?_
    refine .ite (fun _ => keeps_pure stable_sees _) fun _ =>
      live_getState (fun _ _ e => e) fun state _ => .bind (quiet rfl) fun wallNow =>
        .ite (fun _ => keeps_pure stable_sees _) fun _ => ?_
    exact .tryExcept (pauseResume_keeps services kept_live resume_keeps.2) fun e =>
      timed_live fun _ => rfl

theorem restart_keeps : Triple (Step.exec t) (contract t) (Sees t Live)
    (FailureRecoveryService.restart t.node) (fun _ => Anything) fun _ => Anything :=
  .bind ((update_live rfl).weaken (fun _ a => a) (fun _ _ b => b) fun _ _ _ => trivial) fun _ =>
    .attempt levels.start (fun _ => .pure .top fun _ _ => trivial) fun _ =>
      .pure .top fun _ _ => trivial

theorem recoverOne_keeps (policy : RecoveryPolicy) {now : Timestamp} :
    Keeps t Anything (FailureRecoveryService.recoverOne policy t.node now) := by
  refine keeps_getState (fun state completed => ?_) fun state open_ => ?_
  · rw [if_pos (.inr (.inl (by rw [completed]; decide)))]
    exact keeps_pure .top _
  · refine .ite (fun _ => keeps_of (keeps_pure stable_sees _)) fun _ =>
      .ite (fun _ => keeps_of (update_live rfl)) fun _ =>
        .ite (fun _ => keeps_of (update_live rfl)) fun _ => ?_
    cases state.nextRecoveryAtUtc with
    | none => exact keeps_of (update_live rfl)
    | some recoverAt =>
        refine .ite (fun _ => keeps_of (keeps_pure stable_sees _)) fun _ => ?_
        refine .attempt (quiet rfl) (fun _ => restart_keeps) fun e => ?_
        exact .ite (fun _ => keeps_of (update_live rfl)) fun _ =>
          keeps_of (keeps_raise stable_sees _)

/-! ## Ownership updates -/

theorem mergePolicy_keeps {u : Registry.OwnershipUpdate} : Keeps t Anything (mergePolicy u) := by
  unfold mergePolicy
  cases u.adaptivePolicy with
  | none => exact keeps_pure .top _
  | some policy => exact kept_any.quiet rfl

theorem installDigests_keeps {u : Registry.OwnershipUpdate} :
    Keeps t Anything (installDigests u) :=
  .ite (fun _ => keeps_pure .top _) fun _ => update_any rfl

theorem mergeUpdate_keeps {u : Registry.OwnershipUpdate} :
    Keeps t Anything (mergeUpdateRoutine u) := by
  refine .bind (transact_any rfl) fun applied => .ite (fun _ => ?_) fun _ => keeps_pure .top _
  exact .bind installDigests_keeps fun _ => mergePolicy_keeps

theorem postOwnership_keeps {u : Registry.OwnershipUpdate} :
    Keeps t Anything (postOwnershipRoutine u) :=
  .bind (transact_any rfl) fun _ => .bind installDigests_keeps fun _ =>
    .ite (fun _ => mergePolicy_keeps) fun _ => keeps_pure .top _

/-! ## Runs -/

theorem routine_keeps (services : Services) (policy : RecoveryPolicy) (call : ServiceCall) :
    Keeps t Anything (routine services policy t.node call) := by
  cases call with
  | migration call => exact levels.migration services policy call
  | recover now => exact recoverOne_keeps policy
  | resumeDue at_ => exact resumeDue_keeps services
  | pause => exact pause_keeps
  | resume => exact pauseResume_keeps services kept_any resume_keeps.1
  | reconcile => exact reconcile_keeps
  | settle => exact settleTask_kept kept_any
  | mergeUpdate u => exact mergeUpdate_keeps
  | postOwnership u => exact postOwnership_keeps

end

section

variable {v w : Shared}

theorem Recorded.same (h : Recorded v) (record : ∀ n, w.record n = v.record n)
    (history : w.history = v.history) : Recorded w := by
  intro n
  rw [record, history]
  exact h n

theorem Progress.same (history : w.history = v.history) (activity : w.activity = v.activity) :
    Progress v w := ⟨fun n g mem => by rwa [history], .of_same activity⟩

theorem verified (services : Services) (policy : RecoveryPolicy) :
    (daemons services policy).Verified conditions Recorded Rely Guar Progress where
  trans := Progress.trans
  interference ne guar := guar.1 _ ne
  within guar := guar.2
  call {t call v w} inv _ accepted := by
    obtain ⟨world, admitted, rfl⟩ := Option.map_eq_some_iff.mp accepted
    refine ⟨inv.same (fun n => takeUp_registry admitted n) rfl, ⟨fun u ne => ?_, .same rfl rfl⟩, ?_⟩
    · exact Function.update_of_ne ne ..
    · exact (routine_keeps services policy call trivial).mono fun _ _ _ => trivial
  crash {t v} inv _ :=
    ⟨inv.same (fun n => crash_registry t.node n v.world) rfl, fun _ _ => rfl, .same rfl rfl⟩
  event {e v w} inv _ happened := by
    by_cases outside : e.isOutside = true
    · change (if e.isOutside = true then _ else none) = _ at happened
      rw [if_pos outside] at happened
      obtain ⟨world, moved, rfl⟩ := Option.map_eq_some_iff.mp happened
      exact ⟨inv.same (fun n => event_registry outside moved n) rfl, fun _ => rfl, .same rfl rfl⟩
    · change (if e.isOutside = true then _ else none) = _ at happened
      rw [if_neg outside] at happened
      cases happened

end

/-- Node `a` has completed the task. -/
def completedDaemons : DaemonsConfig where
  world := {
    world := { nodes := fun n => { sampleNode n with
      registry := { (sampleNode n).registry with
        status := if n = "a" then .completed else .remote
        pid := none } } }
    history := fun n => if n = "a" then { completions := [0] } else {} }

/-- A pass that records the completion between the two writes of a migration. -/
def completionScript : List DaemonsLabel :=
  [.event (.exit "a" 1 (some ⟨5, "final.json", "sha", 1⟩)),
    .call ⟨"a", .migration⟩ (.migration (.migrate sampleCall)) (.of (.ok 0)),
    .perform ⟨"a", .migration⟩ (.of (.ok 0)),
    .call ⟨"a", .service 0⟩ .reconcile (.of (.ok 0)),
    .perform ⟨"a", .service 0⟩ (.of (.exitCode none))] ++ onward "a" (.service 0) 8

def failedMigrationScript : List DaemonsLabel :=
  [.perform ⟨"a", .migration⟩ (.of (.bindings []))] ++ onward "a" .migration 3 ++
    [.perform ⟨"a", .migration⟩ (.of (.bindings []))] ++ onward "a" .migration 10

end Magellan.Completion
