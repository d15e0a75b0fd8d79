import Magellan.Daemon.Walk

/-!
# Completion

What the record says about a completed generation, through every interleaving of the services of
every node. The registry refuses a completed task at some of its operations only, so two things are
asked of a run: that no completion lands inside another call, and that no rollback puts back a
completed generation.
-/

namespace Magellan

open Coroutine Coro
open Registry (Operation Effect)

/-- The steps that read or write the record or start a process. -/
def Step.touches : Step → Bool
  | .getState | .finish .. | .setState _ | .op .spawn => true
  | _ => false

/-- If the task of `s` is completed, or the record says so, then `s` says so already. -/
def Shared.UpToDate (v : Shared) (n : NodeId) (s : TaskRuntimeState) : Prop :=
  s.generation ∈ (v.history n).completions ∨ (v.record n).status = .completed →
    s.status = .completed

namespace Registry

/-- The operation does not put back a generation of `completions`. -/
def Operation.Spares (completions : List Nat) (read : TaskRuntimeState) : Operation → Prop
  | .restoreLocalAfterFailure g _ | .claimLocal g .. => g ∉ completions
  | .markRemote owner g .. => g ∈ completions →
      read.generation = g ∧ read.ownerNodeId = owner ∧ read.status = .completed
  | .applyOwnership u => u.generation ∈ completions →
      u.status = some .completed ∨ u.generation = read.generation
  | _ => True

/-- The operations that write `FAILED` on whatever record they read. -/
def Operation.fails : Operation → Bool
  | markFailed .. | markRecoveryExhausted _ => true
  | _ => false

/-- The operations that can complete the task. -/
def Operation.completes : Operation → Bool
  | markCompleted .. | applyOwnership _ => true
  | _ => false

end Registry

namespace Completion

/-- No completion lands inside another call, and no operation puts back a completed generation. -/
def conditions : DaemonsConditions where
  op t o _ v := (o.touches → ∀ s, v.seen t = some s → v.UpToDate t.node s) ∧
    match o with
    | .finish o read => o.Spares (v.history t.node).completions read
    | .setState s => s.generation ∈ (v.history t.node).completions → s.status = .completed
    | _ => True

/-- A node records the task as completed at the generations at which it ever did. -/
def Recorded (v : Shared) : Prop :=
  ∀ n, (v.record n).status = .completed ↔ (v.record n).generation ∈ (v.history n).completions

/-- Completions stay, and no process is started at a completed generation. -/
structure Progress (v w : Shared) : Prop where
  completions : ∀ n, (v.history n).completions ⊆ (w.history n).completions
  starts : Adds (fun a => a.action = .start →
    a.state.registry.generation ∉ (v.history a.thread.node).completions) v w

theorem Progress.refl (v : Shared) : Progress v v := ⟨fun _ _ h => h, .refl v⟩

theorem Progress.trans {u v w : Shared} (h : Progress u v) (h' : Progress v w) : Progress u w := by
  refine ⟨fun n g mem => h'.completions n (h.completions n mem), h.starts.trans ?_⟩
  exact h'.starts.mono fun a fresh start old => fresh start (h.completions _ old)

def Guar (t : ServiceThread) (v w : Shared) : Prop :=
  (∀ u, u ≠ t → w.seen u = v.seen u) ∧ Progress v w

def contract (t : ServiceThread) : Contract Step Fate Shared :=
  ⟨conditions.op t, Rely t, Recorded, Guar t⟩

def Live (seen : Option TaskRuntimeState) : Prop := ∃ s, seen = some s ∧ s.status ≠ .completed

section

variable {t : ServiceThread} {P : Option TaskRuntimeState → Prop} {v w : Shared}

theorem stable_sees : (contract t).Stable (Sees t P) := .stable rfl

theorem guar_refl (t : ServiceThread) (v : Shared) : Guar t v v := ⟨fun _ _ => rfl, .refl v⟩

theorem Recorded.silent (h : Recorded v) (quiet : Silent v w) : Recorded w := by
  intro n
  rw [quiet.record, quiet.completions]
  exact h n

theorem guar_silent (quiet : Silent v w) : Guar t v w := by
  refine ⟨fun u _ => by rw [quiet.seen], fun n g mem => by rwa [quiet.completions], ?_⟩
  exact .of_same quiet.activity

/-! ## The steps -/

theorem silent_step {s : Step} (tame : s.isLoud = false) :
    OpTriple (Step.exec t) (contract t) (Sees t P) s (fun _ => Sees t P) fun _ => Sees t P := by
  intro v f r w sees inv _ done
  have quiet := exec_silent tame done
  have sees' : Sees t P w := by
    unfold Sees
    rw [quiet.seen]
    exact sees
  refine ⟨inv.silent quiet, guar_silent quiet, ?_⟩
  cases r <;> exact sees'

theorem cont_step {pid : Pid} :
    OpTriple (Step.exec t) (contract t) (Sees t P) (.signal .cont pid) (fun _ => Sees t P)
      fun _ => Sees t P := by
  intro v f r w sees inv _ done
  have resumed : Guar t v (v.acted t .resume) :=
    ⟨fun _ _ => rfl, fun _ _ mem => mem, .single (fun start => by cases start) rfl⟩
  rcases Step.exec_cont done with ⟨e, rfl, rfl⟩ | ⟨rfl, rfl⟩ | ⟨rfl, rfl⟩
  · exact ⟨inv, guar_refl t w, sees⟩
  · exact ⟨inv, guar_refl t w, sees⟩
  · exact ⟨inv, resumed, sees⟩

theorem guar_saw (s : TaskRuntimeState) : Guar t v (v.saw t s) :=
  ⟨fun _ ne => Shared.seen_saw_of_ne s ne, fun _ _ mem => mem, .of_same rfl⟩

theorem getState_step :
    OpTriple (Step.exec t) (contract t) (Sees t P) .getState (fun r => Sees t (· = some r))
      fun _ => Sees t P := by
  intro v f r w sees inv _ done
  rcases Step.exec_getState done with ⟨e, -, rfl, rfl⟩ | ⟨rfl, rfl⟩
  · exact ⟨inv, guar_refl t w, sees⟩
  · exact ⟨inv, guar_saw _, Shared.seen_saw_self t _⟩

/-- A call that has seen an open task sees no completed one: that completion would be inside it. -/
theorem getState_live :
    OpTriple (Step.exec t) (contract t) (Sees t Live) .getState
      (fun r v => r.status ≠ .completed ∧ Sees t (· = some r) v) fun _ => Sees t Live := by
  intro v f r w sees inv allowed done
  rcases Step.exec_getState done with ⟨e, -, rfl, rfl⟩ | ⟨rfl, rfl⟩
  · exact ⟨inv, guar_refl t w, sees⟩
  · obtain ⟨s, seen, open_⟩ := sees
    refine ⟨inv, guar_saw _, fun completed => ?_, Shared.seen_saw_self t _⟩
    exact open_ (allowed.1 rfl s seen (.inr completed))

theorem guar_note (g : History → History) (keeps : ∀ h, (g h).completions = h.completions) :
    Guar t v (v.note t.node g) := by
  refine ⟨fun _ _ => rfl, fun n => ?_, .of_same rfl⟩
  by_cases here : n = t.node
  · subst here
    rw [Shared.history_note_self, keeps]
    exact fun _ mem => mem
  · rw [Shared.history_note_of_ne _ here]
    exact fun _ mem => mem

theorem recorded_note {n : NodeId} {g : History → History}
    (keeps : ∀ h, (g h).completions = h.completions) (inv : Recorded v) :
    Recorded (v.note n g) := by
  intro i
  rw [Shared.record_note]
  by_cases here : i = n
  · subst here
    rw [Shared.history_note_self, keeps]
    exact inv i
  · rw [Shared.history_note_of_ne _ here]
    exact inv i

theorem guar_put (s : TaskRuntimeState) (g : History → History)
    (keeps : ∀ h, (g h).completions = h.completions) :
    Guar t v ((v.put t s).note t.node g) := by
  refine ⟨fun u ne => ?_, fun n => ?_, .of_same rfl⟩
  · rw [Shared.seen_note, Shared.seen_put_of_ne s ne]
  · by_cases here : n = t.node
    · subst here
      rw [Shared.history_note_self, keeps, Shared.history_put_self]
      split
      · exact List.subset_cons_self ..
      · exact fun _ mem => mem
    · rw [Shared.history_note_of_ne _ here, Shared.history_put_of_ne t s here]
      exact fun _ mem => mem

/-- A written record must not be an open one of a completed generation. -/
theorem recorded_put {s : TaskRuntimeState} {g : History → History}
    (keeps : ∀ h, (g h).completions = h.completions) (inv : Recorded v)
    (fits : s.status ≠ .completed → s.generation ∉ (v.history t.node).completions) :
    Recorded ((v.put t s).note t.node g) := by
  intro n
  by_cases here : n = t.node
  · subst here
    rw [Shared.record_note, Shared.record_put_self, Shared.history_note_self, keeps,
      Shared.history_put_self]
    by_cases completed : s.status = .completed
    · rw [if_pos completed]
      exact iff_of_true completed (List.mem_cons_self ..)
    · rw [if_neg completed]
      exact iff_of_false completed (fits completed)
  · rw [Shared.record_note, Shared.record_put_of_ne t s here, Shared.history_note_of_ne _ here,
      Shared.history_put_of_ne t s here]
    exact inv n

theorem history_after (lane : Lane) (call : Option ServiceCall) (o : Operation) (h : History) :
    (History.after lane call o h).completions = h.completions := by
  unfold History.after
  split <;> rfl

theorem setState_step (s : TaskRuntimeState) :
    OpTriple (Step.exec t) (contract t) (Sees t P) (.setState s) (fun _ => Sees t (· = some s))
      fun _ => Sees t P := by
  intro v f r w sees inv allowed done
  rcases Step.exec_setState done with ⟨e, -, rfl, rfl⟩ | ⟨rfl, rfl⟩
  · exact ⟨inv, guar_refl t w, sees⟩
  · have same : (v.put t s).note t.node id = v.put t s := by
      simp only [Shared.note, id, Function.update_eq_self]
    have keeps : ∀ h : History, (id h).completions = h.completions := fun _ => rfl
    have fits : s.status ≠ .completed → s.generation ∉ (v.history t.node).completions :=
      fun open_ mem => open_ (allowed.2 mem)
    rw [← same]
    exact ⟨recorded_put keeps inv fits, guar_put s id keeps, Shared.seen_put_self t s⟩

theorem spawn_step :
    OpTriple (Step.exec t) (contract t) (Sees t Live) (.op .spawn) (fun _ => Sees t Live)
      fun _ => Sees t Live := by
  intro v f r w sees inv allowed done
  rcases Step.exec_spawn done with ⟨e, -, rfl, rfl⟩ | ⟨pid, rfl, rfl⟩
  · exact ⟨inv, guar_refl t w, sees⟩
  · obtain ⟨s, seen, open_⟩ := sees
    have running : (v.record t.node).generation ∉ (v.history t.node).completions := by
      intro mem
      exact open_ (allowed.1 rfl s seen (.inr ((inv t.node).mpr mem)))
    refine ⟨fun n => ?_, ⟨fun _ _ => rfl, fun n g mem => ?_, ?_⟩, s, seen, open_⟩
    · rw [Shared.record_spawned, Shared.completions_spawned]
      exact inv n
    · rwa [Shared.completions_spawned]
    · exact .single (fun _ => running) rfl

theorem fits_of_written {n : NodeId} {o : Operation} {r s : TaskRuntimeState}
    (written : (o.perform n r).written = some s) (careful : o.fails = false ∨ r.status ≠ .completed)
    (spares : o.Spares (v.history n).completions r) (view : v.UpToDate n r)
    (open_ : s.status ≠ .completed) : s.generation ∉ (v.history n).completions := by
  obtain ⟨writes, drive⟩ := Registry.control_written written
  have status : s.status = (o.drive n r.control).status := congrArg Control.status drive
  have generation : s.generation = (o.drive n r.control).generation :=
    congrArg Control.generation drive
  rw [status] at open_
  rw [generation]
  have kept : r.status ≠ .completed → r.generation ∉ (v.history n).completions :=
    fun open_ mem => open_ (view (.inl mem))
  cases o with
  | setArtifactDigests | recordAccounting | scheduleRecovery => exact kept open_
  | markRunning | markMigrating => exact kept writes.2
  | markPaused | markResumed =>
      have status := writes.2.1
      exact kept (by rw [status]; decide)
  | markStopped => exact kept writes
  | markFailed | markRecoveryExhausted =>
      rcases careful with never | open_
      · cases never
      · exact kept open_
  | beginRecovery =>
      have status := writes.2
      exact kept (by rw [status]; decide)
  | markCompleted => exact absurd rfl open_
  | claimLocal | restoreLocalAfterFailure => exact spares
  | markRemote owner g m at_ => exact fun mem => writes (spares mem)
  | applyOwnership u =>
      intro mem
      simp only [Operation.drive] at open_ mem
      by_cases completed : u.status = some .completed
      · rw [if_pos completed] at open_
        exact open_ rfl
      · rw [if_neg completed] at mem
        have reached : u.generation ∈ (v.history n).completions := by
          split at mem <;> exact mem
        have same := (spares reached).resolve_left completed
        exact completed (writes.2.2 same (view (.inl (same ▸ reached))))

theorem live_of_written {n : NodeId} {o : Operation} {r s : TaskRuntimeState}
    (written : (o.perform n r).written = some s) (partial_ : o.completes = false)
    (open_ : r.status ≠ .completed) : s.status ≠ .completed := by
  obtain ⟨-, drive⟩ := Registry.control_written written
  have status : s.status = (o.drive n r.control).status := congrArg Control.status drive
  rw [status]
  cases o with
  | setArtifactDigests | recordAccounting | scheduleRecovery => exact open_
  | markCompleted | applyOwnership => cases partial_
  | _ => simp [Operation.drive]

theorem finish_step (o : Operation) (r : TaskRuntimeState)
    (careful : o.fails = false ∨ r.status ≠ .completed) :
    OpTriple (Step.exec t) (contract t) (Sees t (· = some r)) (.finish o r)
      (fun _ v => r.status ≠ .completed → o.completes = false → Sees t Live v)
      fun _ v => r.status ≠ .completed → Sees t Live v := by
  intro v f x w sees inv allowed done
  have before : r.status ≠ .completed → Sees t Live v := fun open_ => ⟨r, sees, open_⟩
  have keeps := history_after t.lane (v.call t) o
  rcases Step.exec_finish done with ⟨e, -, rfl, rfl⟩ | ⟨value, -, rfl, rfl⟩
  · exact ⟨inv, guar_refl t w, before⟩
  · cases written : (o.perform t.node r).written with
    | none => exact ⟨recorded_note keeps inv, guar_note _ keeps, fun open_ _ => before open_⟩
    | some s =>
        have fits := fits_of_written written careful allowed.2 (allowed.1 rfl r sees)
        exact ⟨recorded_put keeps inv fits, guar_put s _ keeps, fun open_ partial_ =>
          ⟨s, Shared.seen_put_self t s, live_of_written written partial_ open_⟩⟩

/-- The operations that leave an open record when they return. -/
def reopens : Operation → Bool
  | .markMigrating _ | .restoreLocalAfterFailure .. | .claimLocal .. => true
  | _ => false

theorem finish_reopens {o : Operation} (r : TaskRuntimeState) (h : reopens o = true) :
    OpTriple (Step.exec t) (contract t) (Sees t (· = some r)) (.finish o r)
      (fun _ => Sees t Live) fun _ => Anything := by
  have mild : o.fails = false := by cases o <;> first | rfl | cases h
  intro v f x w sees inv allowed done
  obtain ⟨inv', guar, -⟩ := finish_step o r (.inl mild) sees inv allowed done
  refine ⟨inv', guar, ?_⟩
  rcases Step.exec_finish done with ⟨e, -, rfl, rfl⟩ | ⟨value, returned, rfl, rfl⟩
  · trivial
  · cases written : (o.perform t.node r).written with
    | none =>
        exfalso
        have refused : ∀ x : Except Exn TaskRuntimeState, (Effect.ofExcept x).written = none →
            (Effect.ofExcept x).outcome ≠ .ok value := fun x silent returned => by
          cases x with
          | ok s => cases silent
          | error e => cases returned
        cases o with
        | markMigrating | claimLocal => exact refused _ written returned
        | restoreLocalAfterFailure => cases written
        | _ => cases h
    | some s =>
        obtain ⟨-, drive⟩ := Registry.control_written written
        have status : s.status = (o.drive t.node r.control).status := congrArg Control.status drive
        refine ⟨s, Shared.seen_put_self t s, ?_⟩
        rw [status]
        cases o <;> first
          | simp [Operation.drive]; done
          | cases h

/-! ## Operations of the registry -/

theorem quiet {s : Step} (tame : s.isLoud = false) :
    Triple (Step.exec t) (contract t) (Sees t P) (step s) (fun _ => Sees t P) fun _ => Sees t P :=
  .op stable_sees (fun _ => stable_sees) (fun _ => stable_sees) (silent_step tame)

theorem look : Triple (Step.exec t) (contract t) Anything (step .getState)
    (fun r => Sees t (· = some r)) fun _ => Anything :=
  .op .top (fun _ => stable_sees) (fun _ => .top) (getState_step (P := fun _ => True))

theorem look_open : Triple (Step.exec t) (contract t) (Sees t Live) (step .getState)
    (fun r v => r.status ≠ .completed ∧ Sees t (· = some r) v) fun _ => Sees t Live :=
  .op stable_sees (fun _ => (Contract.Stable.const _).and stable_sees) (fun _ => stable_sees)
    getState_live

theorem store (s : TaskRuntimeState) : Triple (Step.exec t) (contract t) (Sees t P)
    (step (.setState s)) (fun _ => Sees t (· = some s)) fun _ => Sees t P :=
  .op stable_sees (fun _ => stable_sees) (fun _ => stable_sees) (setState_step s)

theorem finish_any {o : Operation} (mild : o.fails = false) (r : TaskRuntimeState) :
    Triple (Step.exec t) (contract t) (Sees t (· = some r)) (step (.finish o r))
      (fun _ => Anything) fun _ => Anything := by
  refine .op stable_sees (fun _ => .top) (fun _ => .top) fun {_ _ x _} sees inv allowed done => ?_
  obtain ⟨inv', guar, -⟩ := finish_step o r (.inl mild) sees inv allowed done
  exact ⟨inv', guar, by cases x <;> trivial⟩

theorem finish_open {o : Operation} (partial_ : o.completes = false) {r : TaskRuntimeState}
    (open_ : r.status ≠ .completed) :
    Triple (Step.exec t) (contract t) (Sees t (· = some r)) (step (.finish o r))
      (fun _ => Sees t Live) fun _ => Sees t Live := by
  refine .op stable_sees (fun _ => stable_sees) (fun _ => stable_sees)
    fun {_ _ x _} sees inv allowed done => ?_
  obtain ⟨inv', guar, ends⟩ := finish_step o r (.inr open_) sees inv allowed done
  refine ⟨inv', guar, ?_⟩
  cases x with
  | ok value => exact ends open_ partial_
  | error e => exact ends open_

theorem transact_any {o : Operation} (mild : o.fails = false) :
    Triple (Step.exec t) (contract t) Anything (transact o) (fun _ => Anything)
      fun _ => Anything :=
  .bind look (finish_any mild)

theorem transact_open {o : Operation} (partial_ : o.completes = false) :
    Triple (Step.exec t) (contract t) (Sees t Live) (transact o) (fun _ => Sees t Live)
      fun _ => Sees t Live :=
  .bind look_open fun _ => .given fun open_ => finish_open partial_ open_

/-- Reads and ordinary operations keep what is said of the view of a thread. -/
structure Kept (t : ServiceThread) (A : Shared → Prop) : Prop where
  stable : (contract t).Stable A
  quiet : ∀ {s : Step}, s.isLoud = false →
    Triple (Step.exec t) (contract t) A (step s) (fun _ => A) fun _ => A
  look : Triple (Step.exec t) (contract t) A (step .getState) (fun _ => A) fun _ => A
  update : ∀ {o : Operation}, o.fails = false → o.completes = false →
    Triple (Step.exec t) (contract t) A (update o) (fun _ => A) fun _ => A

theorem kept_any : Kept t Anything where
  stable := .top
  quiet := quiet (P := fun _ => True)
  look := look.weaken (fun _ a => a) (fun _ _ _ => trivial) fun _ _ e => e
  update mild _ := .bind (transact_any mild) fun _ => .pure .top fun _ _ => trivial

theorem kept_live : Kept t (Sees t Live) where
  stable := stable_sees
  quiet := quiet
  look := look_open.weaken (fun _ a => a) (fun r _ b => ⟨r, b.2, b.1⟩) fun _ _ e => e
  update _ partial_ := .bind (transact_open partial_) fun _ => .pure stable_sees fun _ a => a

variable {A : Shared → Prop}

theorem isAlive_kept (kept : Kept t A) {pid : Option Pid} :
    Triple (Step.exec t) (contract t) A (LocalProcess.isAlive pid) (fun _ => A) fun _ => A := by
  cases pid with
  | none => exact .pure kept.stable fun _ a => a
  | some pid => exact kept.quiet rfl

theorem settleTask_kept (kept : Kept t A) :
    Triple (Step.exec t) (contract t) A (settleTask t.node) (fun _ => A) fun _ => A := by
  refine .bind kept.look fun state => .ite (fun _ => .pure kept.stable fun _ a => a) fun _ => ?_
  exact .bind (kept.quiet rfl) fun input => .bind (isAlive_kept kept) fun alive =>
    kept.update rfl rfl

/-- The operations that a kept assertion survives. -/
def isTame : Op → Bool
  | .registry _ | .spawn => false
  | _ => true

theorem stepwise_kept (kept : Kept t A) {o : Op} (tame : isTame o = true) :
    Triple (Step.exec t) (contract t) A (stepwise t.node o) (fun _ => A) fun _ => A := by
  cases o with
  | registry op => cases tame
  | spawn => cases tame
  | getState => exact kept.look
  | ensureTaskArtifacts =>
      exact .bind (kept.quiet rfl) fun _ => .bind (kept.update rfl rfl) fun _ =>
        .pure kept.stable fun _ a => a
  | stageBindings bindings => exact .bind (kept.quiet rfl) fun _ => kept.update rfl rfl
  | settleTask => exact settleTask_kept kept
  | recordMigration => exact .bind (kept.quiet rfl) fun _ => kept.update rfl rfl
  | _ => exact kept.quiet rfl

/-! ## The migration service -/

theorem update_cases (n : NodeId) (now : Timestamp) (op : RegistryOp) :
    (∃ o, op.update n now = .inl o ∧ o.completes = false ∧
        (o.fails = true → (Op.registry op).isMild = false) ∧
        (op.isTaking = true → reopens o = true)) ∨
      ∃ s, op.update n now = .inr s ∧
        ((Op.registry op).isStrict = true ∨ op.isTaking = true → s.status ≠ .completed) := by
  cases op with
  | restoreOriginal record reason =>
      cases original : record.originalState with
      | none =>
          refine .inl ⟨.restoreLocalAfterFailure (record.generation - 1) reason, ?_, rfl, nofun,
            fun _ => rfl⟩
          simp only [RegistryOp.update, original]
      | some s =>
          refine .inr ⟨restoredState n record.generation reason s, ?_, fun _ => nofun⟩
          simp only [RegistryOp.update, original]
  | setState s => exact .inr ⟨s, rfl, fun h => by rcases h with h | h <;> cases h⟩
  | markFailed | markRecoveryExhausted => exact .inl ⟨_, rfl, rfl, fun _ => rfl, nofun⟩
  | _ => exact .inl ⟨_, rfl, rfl, nofun, fun h => by first | rfl | cases h⟩

theorem registryOp_any {op : RegistryOp} (mild : (Op.registry op).isMild = true) :
    Triple (Step.exec t) (contract t) Anything (registryOp t.node op) (fun _ => Anything)
      fun _ => Anything := by
  refine .bind (kept_any.quiet rfl) fun now => ?_
  rcases update_cases t.node now op with ⟨o, is, -, fails, -⟩ | ⟨s, is, -⟩
  · have careful : o.fails = false := by
      cases h : o.fails with
      | false => rfl
      | true => exact absurd mild (by simp [fails h])
    rw [is]
    exact .bind look fun read => .bind (finish_any careful read) fun _ =>
      .pure .top fun _ _ => trivial
  · rw [is]
    exact .bind ((store (P := fun _ => True) s).weaken (fun _ a => a) (fun _ _ _ => trivial)
      fun _ _ e => e) fun _ => .pure .top fun _ _ => trivial

theorem registryOp_open {op : RegistryOp} (strict : (Op.registry op).isStrict = true) :
    Triple (Step.exec t) (contract t) (Sees t Live) (registryOp t.node op) (fun _ => Sees t Live)
      fun _ => Sees t Live := by
  refine .bind (quiet rfl) fun now => ?_
  rcases update_cases t.node now op with ⟨o, is, partial_, -⟩ | ⟨s, is, stopped⟩
  · rw [is]
    exact .bind look_open fun read => .given fun open_ =>
      .bind (finish_open partial_ open_) fun _ => .pure stable_sees fun _ a => a
  · rw [is]
    exact .bind (store s) fun _ => .pure stable_sees fun _ sees => ⟨s, sees, stopped (.inl strict)⟩

theorem registryOp_take {op : RegistryOp} (take : op.isTaking = true) :
    Triple (Step.exec t) (contract t) Anything (registryOp t.node op) (fun _ => Sees t Live)
      fun _ => Anything := by
  refine .bind (kept_any.quiet rfl) fun now => ?_
  rcases update_cases t.node now op with ⟨o, is, -, -, back⟩ | ⟨s, is, stopped⟩
  · rw [is]
    refine .bind look fun read => .bind ?_ fun _ => .pure stable_sees fun _ a => a
    exact .op stable_sees (fun _ => stable_sees) (fun _ => .top) (finish_reopens read (back take))
  · rw [is]
    exact .bind ((store (P := fun _ => True) s).weaken (fun _ a => a)
      (fun _ _ sees => (⟨s, sees, stopped (.inr take)⟩ : Sees t Live _)) fun _ _ e => e) fun _ =>
        .pure stable_sees fun _ a => a

theorem stepwise_open {o : Op} (h : o.isStrict = true ∨ LocalProcess.isStartOp o = true) :
    Triple (Step.exec t) (contract t) (Sees t Live) (stepwise t.node o) (fun _ => Sees t Live)
      fun _ => Sees t Live := by
  cases o with
  | registry op =>
      by_cases running : ∃ pid adapter command resumed,
          op = .markRunning pid adapter command resumed
      · obtain ⟨pid, adapter, command, resumed, rfl⟩ := running
        refine .bind (quiet rfl) fun now => .bind look_open fun read => .given fun open_ => ?_
        exact .bind (finish_open rfl open_) fun _ => .pure stable_sees fun _ a => a
      · refine registryOp_open ?_
        rcases h with h | h
        · exact h
        · cases op <;> first
            | exact absurd ⟨_, _, _, _, rfl⟩ running
            | rfl
            | cases h
  | spawn => exact .op stable_sees (fun _ => stable_sees) (fun _ => stable_sees) spawn_step
  | _ => exact stepwise_kept kept_live rfl

theorem levels : Levels t (contract t) (Sees t Live) where
  stable := stable_sees
  mild {o} mild := by
    cases o with
    | registry op => exact registryOp_any mild
    | spawn => cases mild
    | _ => exact stepwise_kept kept_any rfl
  strict strict := stepwise_open (.inl strict)
  take := registryOp_take
  start := (Carried.of_performs stable_sees (LocalProcess.start_performs t.node)
    fun _ h => stepwise_open (.inr h)).weaken (fun _ a => a) (fun _ _ _ => trivial) fun _ _ e => e

end

end Completion

end Magellan
