import Magellan.Migration.SourceCrash

/-!
# A migration that fails before the hand-over

The handler of a failure clears the recorded pid and starts the task again only if `stop` has come
back. A failure before the process has been terminated leaves it alive and unrecorded.
-/

namespace Magellan.MigrationService

open Coroutine Coro

/-- The only live process is the recorded one, or there is neither. -/
def Consistent (s : NodeState) : Prop :=
  (s.processes = [] ∧ s.registry.pid = none) ∨
    ∃ pid, s.processes = [pid] ∧ s.registry.pid = some pid

structure KeptAtSource (n : NodeId) (generation : Nat) (s : NodeState) : Prop where
  owner : s.registry.ownerNodeId = n
  generation : s.registry.generation = generation
  consistent : Consistent s

/-- The operations that begin or resolve an attempt to activate the task at the destination. -/
def isAttemptOp : Op → Bool
  | .sendActivation _ | .pollBudget => true
  | _ => false

/-- The first thing that the handler of a failure does to the registry. -/
def isHandlerOp : Op → Bool
  | .registry (.restoreLocalAfterFailure ..) => true
  | _ => false

/-- A process has been terminated. -/
def Terminated (tr : List (Op × Choice)) : Prop :=
  ∃ pid c, (Op.terminate pid, c) ∈ tr ∧ c.isFail = false

/-- The handler has been entered before the process was terminated. -/
def HandledEarly (tr : List (Op × Choice)) : Prop :=
  ∃ before x after, tr = before ++ x :: after ∧ isHandlerOp x.1 = true ∧ ¬ Terminated before

section

variable {services : Services} {n : NodeId} {w v : World} {tr tr' : List (Op × Choice)} {α : Type}
  {call : MigrateCall} {pid : Pid}

theorem terminated_append : Terminated (tr ++ tr') ↔ Terminated tr ∨ Terminated tr' := by
  simp only [Terminated, List.mem_append, or_and_right, exists_or]

theorem not_terminated_of_performs {p : Async α} {r : Except Exn α} (h : Runs n p w tr r v)
    (performs : p.Performs (·.isVital = false)) : ¬ Terminated tr := by
  rintro ⟨pid, c, member, -⟩
  have quiet := h.performs performs _ member
  cases quiet

theorem terminated_cons_of_not {o : Op} {c : Choice} (h : ∀ pid, o ≠ .terminate pid) :
    Terminated ((o, c) :: tr) ↔ Terminated tr := by
  unfold Terminated
  constructor
  · rintro ⟨pid, c', member, returned⟩
    rcases List.mem_cons.mp member with same | later
    · cases same
      exact absurd rfl (h pid)
    · exact ⟨pid, c', later, returned⟩
  · rintro ⟨pid, c', member, returned⟩
    exact ⟨pid, c', List.mem_cons_of_mem _ member, returned⟩

theorem not_handledEarly (terminated : Terminated tr) (before : ∀ x ∈ tr, isHandlerOp x.1 = false) :
    ¬ HandledEarly (tr ++ tr') := by
  rintro ⟨first, x, after, split, handler, early⟩
  rcases List.append_eq_append_iff.mp split with ⟨rest, rfl, -⟩ | ⟨rest, rfl, same⟩
  · exact early (terminated_append.mpr (.inl terminated))
  · cases rest with
    | nil =>
        rw [List.append_nil] at terminated
        exact early terminated
    | cons y rest =>
        cases same
        have other := before x (by simp)
        rw [handler] at other
        cases other

theorem handledEarly_of_handler (early : ¬ Terminated tr) (handler : HandledEarly tr') :
    HandledEarly (tr ++ tr') := by
  obtain ⟨before, x, after, rfl, here, alive⟩ := handler
  refine ⟨tr ++ before, x, after, by simp, here, ?_⟩
  rw [terminated_append]
  exact not_or.mpr ⟨early, alive⟩

theorem not_handledEarly_of_none (none_ : ∀ x ∈ tr, isHandlerOp x.1 = false) : ¬ HandledEarly tr := by
  rintro ⟨before, x, after, rfl, handler, -⟩
  have other := none_ x (by simp)
  rw [handler] at other
  cases other

/-! ## Who owns the task -/

def keepsOwnership : Op → Bool
  | .registry (.markRunning ..) | .registry .markStopped | .registry (.markMigrating _)
  | .registry (.markFailed ..) => true
  | .registry _ => false
  | _ => true

theorem exec_ownership {o : Op} {c : Choice} {r : Except Exn o.Ret}
    (keeps : keepsOwnership o = true) (h : exec n o c w = some (r, v)) :
    (v.nodes n).registry.ownership = (w.nodes n).registry.ownership := by
  by_cases quiet : o.isVital = false
  · exact congrArg Vitals.ownership (exec_vitals quiet h)
  · cases o with
    | spawn =>
        rcases exec_spawn h with ⟨-, rfl⟩ | ⟨pid, -, -, rfl⟩
        · rfl
        · rw [World.modify_self]
    | terminate pid =>
        rcases exec_terminate h with ⟨-, rfl⟩ | ⟨-, rfl⟩
        · rfl
        · rw [World.modify_self]
    | registry op =>
        rcases exec_registry h with ⟨-, rfl⟩ | ⟨now, -, applied, ⟨-, -, rfl⟩ | ⟨state, rfl, rfl⟩⟩
        · rfl
        · rfl
        · rw [World.putState_self]
          cases op with
          | markRunning =>
              simp only [RegistryOp.apply, Registry.markRunning] at applied
              split at applied
              · cases applied
              split at applied
              · cases applied
              · cases applied
                rfl
          | markStopped =>
              cases applied
              unfold Registry.markStopped
              split <;> rfl
          | markMigrating =>
              simp only [RegistryOp.apply, Registry.markMigrating] at applied
              split at applied
              · cases applied
              split at applied
              · cases applied
              · cases applied
                rfl
          | markFailed =>
              cases applied
              rfl
          | _ => cases keeps
    | _ => exact absurd rfl quiet

theorem keepsOwnership_of_isStartOp {o : Op} (h : LocalProcess.isStartOp o = true) :
    keepsOwnership o = true := by
  cases o with
  | registry op => cases op <;> first | rfl | cases h
  | _ => rfl

theorem keepsOwnership_of_isQuiesceOp {m : MigrationId} {o : Op} (h : isQuiesceOp m o = true) :
    keepsOwnership o = true := by
  cases o with
  | registry op => cases op <;> first | rfl | cases h
  | _ => rfl

theorem isHandlerOp_of_keepsOwnership {o : Op} (h : keepsOwnership o = true) :
    isHandlerOp o = false := by
  cases o with
  | registry op => cases op <;> first | rfl | cases h
  | _ => rfl

/-! ## From the prefetch to the stopped process -/

/-- How an attempt to stop the task can end when `pid` was the live process. -/
inductive Halted {α : Type} (a : α) (pid : Pid) (tr : List (Op × Choice)) (after : NodeState) :
    Except Exn α → Prop
  | stopped (terminated : Terminated tr) (kept : ¬ Leaks tr) (processes : after.processes = [])
      (recorded : after.registry.pid = none) : Halted a pid tr after (.ok a)
  | alive (e : Exn) (early : ¬ Terminated tr) (processes : after.processes = [pid]) :
      Halted a pid tr after (.error e)
  | terminated (e : Exn) (terminated : Terminated tr) (kept : ¬ Leaks tr)
      (processes : after.processes = []) : Halted a pid tr after (.error e)

theorem Halted.prepend {a : α} {s : NodeState} {r : Except Exn α} (early : ¬ Terminated tr)
    (kept : ¬ Leaks tr) (h : Halted a pid tr' s r) : Halted a pid (tr ++ tr') s r := by
  cases h with
  | stopped terminated kept' processes recorded =>
      exact .stopped (terminated_append.mpr (.inr terminated))
        (by rw [leaks_append]; exact not_or.mpr ⟨kept, kept'⟩) processes recorded
  | alive e early' processes =>
      exact .alive e (by rw [terminated_append]; exact not_or.mpr ⟨early, early'⟩) processes
  | terminated e terminated kept' processes =>
      exact .terminated e (terminated_append.mpr (.inr terminated))
        (by rw [leaks_append]; exact not_or.mpr ⟨kept, kept'⟩) processes

theorem halted_bind {β : Type} {p : Async α} {f : α → Async β} {b : β} {r : Except Exn β}
    (quiet : p.Performs (·.isVital = false)) (live : (w.nodes n).processes = [pid])
    (rest : ∀ x u tr', (u.nodes n).vitals = (w.nodes n).vitals → Runs n (f x) u tr' r v →
      Halted b pid tr' (v.nodes n) r)
    (h : Runs n (p >>= f) w tr r v) : Halted b pid tr (v.nodes n) r := by
  obtain ⟨a, tr₁, tr₂, u, rfl, first, ended⟩ := bind_run h
  have same := frame_run NodeState.vitals quiet exec_vitals first
  have early := not_terminated_of_performs first quiet
  rcases ended with ⟨e, -, rfl, rfl, last⟩ | ⟨x, -, later⟩
  · rw [List.append_nil]
    refine .alive e early ?_
    rw [last]
    exact (congrArg Vitals.processes same).trans live
  · exact (rest x u tr₂ same later).prepend early (quiet_run first quiet).1

theorem not_terminated_nil : ¬ Terminated [] := by
  rintro ⟨_, _, member, -⟩
  cases member

theorem stopRecorded_run {β : Type} {b : β} {r : Except Exn β}
    (h : Runs n (LocalProcess.stop >>= fun _ => pure b) w tr r v)
    (live : (w.nodes n).processes = [pid]) (recorded : (w.nodes n).registry.pid = some pid)
    (open_ : (w.nodes n).registry.status ≠ .completed) : Halted b pid tr (v.nodes n) r := by
  obtain ⟨c, tr₁, a, u, u₁, rfl, here, read, rest⟩ := perform_local h
  have step := not_terminated_nil
  rw [← terminated_cons_of_not (o := .getState) (c := c) (by simp)] at step
  have calm : ¬ Leaks [(Op.getState, c)] := by simp [leaks_cons, not_leaks_nil, isKeepOp]
  change Halted _ _ ([(Op.getState, c)] ++ _) _ _
  refine Halted.prepend step calm ?_
  rcases exec_getState read with ⟨⟨e, -, rfl⟩, rfl⟩ | ⟨rfl, rfl⟩
  · obtain ⟨rfl, rfl, last⟩ := done_local rest
    exact .alive e not_terminated_nil (by rw [last, here, live])
  dsimp only [andThen_done] at rest
  rw [here, if_neg open_, recorded] at rest
  obtain ⟨c', tr₂, a, u₂, u₃, rfl, here', terminated, rest⟩ := perform_local rest
  have before : (u₂.nodes n).processes = [pid] := by rw [here', here, live]
  have open' : (u₂.nodes n).registry.status ≠ .completed := by rwa [here', here]
  rcases exec_terminate terminated with ⟨⟨e, rfl, rfl⟩, rfl⟩ | ⟨rfl, rfl⟩
  · obtain ⟨rfl, rfl, last⟩ := done_local rest
    refine .alive e ?_ (by rw [last, before])
    rintro ⟨_, _, member, returned⟩
    rw [List.mem_singleton] at member
    cases member
    cases returned
  have returned : c'.isFail = false :=
    isFail_of_returned (x := (.terminate pid, c')) ⟨u₂, (), _, terminated⟩
  have done : Terminated ((Op.terminate pid, c') :: tr₂) := ⟨pid, c', by simp, returned⟩
  obtain ⟨c'', tr₃, a, u₄, u₅, rfl, here'', marked, rest⟩ := perform_local rest
  have gone : (u₄.nodes n).processes = [] := by
    rw [here'', World.modify_self, before]
    simp
  have open'' : (u₄.nodes n).registry.status ≠ .completed := by
    rw [here'', World.modify_self]
    exact open'
  have kept : ¬ Leaks [(Op.terminate pid, c'), (Op.registry .markStopped, c'')] := by
    simp [leaks_cons, not_leaks_nil, returned, isKeepOp]
  rcases exec_registry marked with ⟨⟨e, -, rfl⟩, rfl⟩ | ⟨now, -, rfl, written⟩
  · obtain ⟨rfl, rfl, last⟩ := done_local rest
    exact .terminated e done kept (by rw [last, gone])
  rcases written with ⟨e, raised, -⟩ | ⟨state, written, rfl⟩
  · cases raised
  cases written
  obtain ⟨rfl, rfl, last⟩ := done_local rest
  refine .stopped done kept ?_ ?_
  · rw [last, World.putState_self, gone]
  · rw [last, World.putState_self]
    simp [Registry.markStopped, open'']

theorem markAndStop_run {r : Except Exn (Option (List ArtifactBinding))}
    {bindings : List ArtifactBinding}
    (h : Runs n (do
      let _ ← await (.registry (.markMigrating call.migrationId))
      await (.setRecordStatus call.migrationId .transferring none none)
      let _ ← LocalProcess.stop
      pure (some bindings)) w tr r v)
    (live : (w.nodes n).processes = [pid]) (recorded : (w.nodes n).registry.pid = some pid) :
    Halted (some bindings) pid tr (v.nodes n) r := by
  obtain ⟨c, tr₁, a, u, u₁, rfl, here, marked, rest⟩ := perform_local h
  have step := not_terminated_nil
  rw [← terminated_cons_of_not (o := .registry (.markMigrating call.migrationId)) (c := c)
    (by simp)] at step
  have calm : ¬ Leaks [(Op.registry (.markMigrating call.migrationId), c)] := by
    simp [leaks_cons, not_leaks_nil, isKeepOp]
  change Halted _ _ ([(Op.registry (.markMigrating call.migrationId), c)] ++ _) _ _
  refine Halted.prepend step calm ?_
  have failed {e : Exn} (raised : Runs n (raise e) u tr₁ r v) :
      Halted (some bindings) pid tr₁ (v.nodes n) r := by
    obtain ⟨rfl, rfl, last⟩ := done_local raised
    exact .alive e not_terminated_nil (by rw [last, here, live])
  rcases exec_registry marked with ⟨⟨e, -, rfl⟩, rfl⟩ | ⟨now, -, applied, written⟩
  · exact failed rest
  rcases written with ⟨e, rfl, rfl⟩ | ⟨state, rfl, rfl⟩
  · exact failed rest
  have moving : state.pid = some pid ∧ state.status = .migrating := by
    rw [here] at applied
    simp only [RegistryOp.apply, Registry.markMigrating] at applied
    split at applied
    · cases applied
    split at applied
    · cases applied
    · cases applied
      exact ⟨recorded, rfl⟩
  have live' : ((u.putState n (.markMigrating call.migrationId) state).nodes n).processes = [pid] := by
    rw [World.putState_self, here, live]
  refine halted_bind (.op rfl) live' (fun _ u' tr' same stopping => ?_) rest
  rw [World.putState_self] at same
  refine stopRecorded_run stopping ?_ ?_ ?_
  · exact (congrArg Vitals.processes same).trans (here ▸ live)
  · exact (congrArg Vitals.pid same).trans moving.1
  · rw [show (u'.nodes n).registry.status = state.status from congrArg Vitals.status same, moving.2]
    decide

theorem tryPrefetch_quiet : (tryPrefetch call).Performs (·.isVital = false) :=
  .attempt (.bind (.op rfl) fun _ => .bind (.tryExcept (.op rfl) fun _ => .pure _) fun _ =>
    .bind (.op rfl) fun _ => .bind (.op rfl) fun _ => .bind (.op rfl) fun _ => .pure _)
    (fun _ => .pure _) fun _ => .bind (.op rfl) fun _ => .pure _

theorem quiesce_run {r : Except Exn (Option (List ArtifactBinding))}
    (h : Runs n (quiesce services call) w tr r v) (live : (w.nodes n).processes = [pid])
    (recorded : (w.nodes n).registry.pid = some pid) :
    (r = .ok none ∧ (∀ x ∈ tr, x.1.isVital = false) ∧ (v.nodes n).vitals = (w.nodes n).vitals) ∨
      ∃ bindings, Halted (some bindings) pid tr (v.nodes n) r := by
  obtain ⟨a, tr₁, tr₂, u, rfl, prefetched, rest⟩ := bind_run h
  have quiet := prefetched.performs tryPrefetch_quiet
  have same := frame_run NodeState.vitals tryPrefetch_quiet exec_vitals prefetched
  have early := not_terminated_of_performs prefetched tryPrefetch_quiet
  have live' : (u.nodes n).processes = [pid] := (congrArg Vitals.processes same).trans live
  have recorded' : (u.nodes n).registry.pid = some pid := (congrArg Vitals.pid same).trans recorded
  rcases rest with ⟨e, -, rfl, rfl, last⟩ | ⟨found, -, rest⟩
  · rw [List.append_nil]
    exact .inr ⟨[], .alive e early (by rw [last, live'])⟩
  cases found with
  | none =>
      obtain ⟨rfl, rfl, last⟩ := done_local rest
      rw [List.append_nil]
      exact .inl ⟨rfl, quiet, by rw [last, same]⟩
  | some bindings =>
      have halted : Halted (some bindings) pid tr₂ (v.nodes n) r := by
        refine halted_bind (.ite (.op rfl) (.pure _)) live' (fun _ u' tr' same' later => ?_) rest
        exact markAndStop_run later ((congrArg Vitals.processes same').trans live')
          ((congrArg Vitals.pid same').trans recorded')
      exact .inr ⟨bindings, halted.prepend early (quiet_run prefetched tryPrefetch_quiet).1⟩

/-! ## The handler -/

theorem withCleanup_run {activated b : Bool} {p : Async Bool}
    (h : Runs n (withCleanup call activated p) w tr (.ok b) v) :
    ∃ tr₁ tr₂ u, tr = tr₁ ++ tr₂ ∧ Runs n p w tr₁ (.ok b) u ∧
      (∀ x ∈ tr₂, x.1.isVital = false) ∧ (v.nodes n).vitals = (u.nodes n).vitals := by
  obtain ⟨r, tr₁, tr₂, u, rfl, first, rest⟩ := andThen_local h
  have quiet : (onlyIf (¬ activated) (cancelRemoteReservation call.bidId call.destinationNodeId
      s!"Source migration {call.migrationId} did not complete")).Performs (·.isVital = false) :=
    .ite (.tryExcept (.op rfl) fun _ => .pure _) (.pure _)
  obtain ⟨r', tr₃, tr₄, u', rfl, cleanup, ended⟩ := andThen_local rest
  have kept := cleanup.performs quiet
  have same := frame_run NodeState.vitals quiet exec_vitals cleanup
  cases r' with
  | error e =>
      obtain ⟨-, finished, -⟩ := done_local ended
      cases finished
  | ok _ =>
      obtain ⟨rfl, rfl, last⟩ := done_local ended
      exact ⟨tr₁, tr₃, u, by simp, first, kept, by rw [last, same]⟩

/-- What the handler does when `old` are the live processes. -/
structure Handled (n : NodeId) (original : TaskRuntimeState) (sourceWasStopped : Bool)
    (old : List Pid) (tr : List (Op × Choice)) (s : NodeState) : Prop where
  entered : HandledEarly tr
  owner : s.registry.ownerNodeId = n
  generation : s.registry.generation = original.generation
  restarted : Restarted old tr s
  running : sourceWasStopped = false → ¬ Leaks tr ∧ s.processes = old ∧ s.registry.pid = none

theorem migrationFailed_run {original : TaskRuntimeState} {stopped : Bool} {e : Exn}
    (h : Runs n (migrationFailed services n call original stopped e) w tr (.ok false) v) :
    Handled n original stopped (w.nodes n).processes tr (v.nodes n) := by
  obtain ⟨a, tr₁, tr₂, u, rfl, reported, rest⟩ := bind_run h
  have quiet : (onlyIf services.experimentJournal
      (await (.external (.appendExperimentEvent "migration_failed")))).Performs
        (·.isVital = false) := .ite (.op rfl) (.pure _)
  have same := frame_run NodeState.vitals quiet exec_vitals reported
  have early := not_terminated_of_performs reported quiet
  have kept := (quiet_run reported quiet).1
  rcases rest with ⟨e', -, ended, -⟩ | ⟨_, -, rest⟩
  · cases ended
  obtain ⟨c, tr₃, a, u₁, u₂, rfl, here, restored, rest⟩ := perform_local rest
  have written : ∃ state, a = .ok state ∧ u₂ = u₁.putState n
      (.restoreLocalAfterFailure original.generation e.describe) state ∧
      state.pid = none ∧ state.ownerNodeId = n ∧ state.generation = original.generation := by
    rcases exec_registry restored with ⟨⟨e', -, rfl⟩, -⟩ | ⟨now, -, rfl, written⟩
    · obtain ⟨-, ended, -⟩ := done_local rest
      cases ended
    · rcases written with ⟨e', raised, -⟩ | ⟨state, returned, rfl⟩
      · cases raised
      · cases returned
        exact ⟨_, rfl, rfl, rfl, rfl, rfl⟩
  obtain ⟨state, rfl, rfl, pid, owner, generation⟩ := written
  generalize marked : u₁.putState n (.restoreLocalAfterFailure original.generation e.describe) state = u₂
    at rest
  have registry : (u₂.nodes n).registry = state := by rw [← marked, World.putState_self]
  have processes : (u₂.nodes n).processes = (w.nodes n).processes := by
    rw [← marked, World.putState_self, here]
    exact congrArg Vitals.processes same
  obtain ⟨a, tr₄, tr₅, u₃, rfl, restarting, rest⟩ := bind_run rest
  rcases rest with ⟨e', -, ended, -⟩ | ⟨_, rfl, rest⟩
  · cases ended
  have closing : (do
      await (.setRecordStatus call.migrationId .rolledBack none (some e.describe))
      pure false : Async Bool).Performs (·.isVital = false) := .bind (.op rfl) fun _ => .pure _
  obtain ⟨kept', same'⟩ := quiet_run rest closing
  have restarted : Restarted (w.nodes n).processes tr₄ (u₃.nodes n) := by
    rw [← processes]
    cases stopped with
    | true => exact restart_run restarting (by rw [registry, pid])
    | false =>
        obtain ⟨rfl, -, last⟩ := done_local restarting
        exact .notStarted not_leaks_nil (by rw [last]) (by rw [last, registry, pid])
  have ownership : (u₃.nodes n).registry.ownership = (u₂.nodes n).registry.ownership := by
    refine frame_run (fun s => s.registry.ownership) (P := (keepsOwnership · = true)) ?_
      exec_ownership restarting
    exact .ite (restart_performs n (fun _ => keepsOwnership_of_isStartOp)) (.pure _)
  have ownership' : (v.nodes n).registry.ownership = state.ownership := by
    rw [← registry, ← ownership]
    exact congrArg Vitals.ownership same'
  have leaks : Leaks (tr₁ ++ (Op.registry (.restoreLocalAfterFailure original.generation e.describe),
      c) :: (tr₄ ++ tr₅)) ↔ Leaks tr₄ := by
    rw [leaks_append, leaks_cons_of_not rfl, leaks_append]
    tauto
  refine ⟨⟨tr₁, _, tr₄ ++ tr₅, rfl, rfl, early⟩, ?_, ?_, restarted.congr leaks same', ?_⟩
  · exact (congrArg Ownership.owner ownership').trans owner
  · exact (congrArg Ownership.generation ownership').trans generation
  · rintro rfl
    obtain ⟨rfl, -, last⟩ := done_local restarting
    have same'' : (v.nodes n).vitals = (u₂.nodes n).vitals := by rw [same', last]
    refine ⟨by rw [leaks]; exact not_leaks_nil, ?_, ?_⟩
    · exact (congrArg Vitals.processes same'').trans processes
    · have recorded : (v.nodes n).registry.pid = (u₂.nodes n).registry.pid :=
        congrArg Vitals.pid same''
      rw [recorded, registry, pid]

theorem Restarted.consistent_iff {s : NodeState} (h : Restarted [] tr s) :
    Consistent s ↔ ¬ Leaks tr := by
  cases h with
  | notStarted kept processes pid => simp [Consistent, processes, pid, kept]
  | started kept new processes pid => simp [Consistent, processes, pid, kept]
  | leaked leaks new processes pid => simp [Consistent, processes, pid, leaks]

theorem handledEarly_append (h : HandledEarly tr) : HandledEarly (tr ++ tr') := by
  obtain ⟨before, x, after, rfl, handler, early⟩ := h
  exact ⟨before, x, after ++ tr', by simp, handler, early⟩

theorem not_leaks_of_quiet (quiet : ∀ x ∈ tr, x.1.isVital = false) : ¬ Leaks tr := by
  rintro ⟨x, member, keep, -⟩
  have other := isKeepOp_of_not_isVital (quiet x member)
  rw [keep] at other
  cases other

theorem onMigrateError_run {original : TaskRuntimeState} {bindings : List ArtifactBinding}
    {stopped : Bool} {e : Exn}
    (h : Runs n (onMigrateError services n call original bindings stopped false e) w tr (.ok false) v)
    (early : ∀ x ∈ tr, isAttemptOp x.1 = false) :
    Handled n original stopped (w.nodes n).processes tr (v.nodes n) := by
  unfold onMigrateError at h
  split at h
  · obtain ⟨r, tr₁, tr₂, u, rfl, first, rest⟩ := andThen_local h
    cases r with
    | error e' =>
        obtain ⟨_, _, _, -, raised, -, -⟩ := withCleanup_run rest
        obtain ⟨-, ended, -⟩ := done_local raised
        cases ended
    | ok outcome =>
        obtain ⟨a, tr₃, tr₄, u', rfl, -, asked⟩ := bind_run first
        rcases asked with ⟨e', -, ended, -⟩ | ⟨_, -, asked⟩
        · cases ended
        obtain ⟨c, tr₅, -, -, -, rfl, -⟩ := perform_local asked
        have polled := early (.pollBudget, c) (by simp)
        cases polled
  · obtain ⟨tr₁, tr₂, u, rfl, failed, quiet, same⟩ := withCleanup_run h
    obtain ⟨entered, owner, generation, restarted, running⟩ := migrationFailed_run failed
    have leaks : Leaks (tr₁ ++ tr₂) ↔ Leaks tr₁ := by
      rw [leaks_append]
      exact or_iff_left (not_leaks_of_quiet quiet)
    have ownership := congrArg Vitals.ownership same
    refine ⟨handledEarly_append entered, (congrArg Ownership.owner ownership).trans owner,
      (congrArg Ownership.generation ownership).trans generation, restarted.congr leaks same, ?_⟩
    intro alive
    obtain ⟨kept, processes, pid⟩ := running alive
    exact ⟨by rwa [leaks], (congrArg Vitals.processes same).trans processes,
      (congrArg Vitals.pid same).trans pid⟩

/-! ## The hand-over -/

theorem isVital_of_isHandOverOp {m : MigrationId} {o : Op} (h : isHandOverOp m o = true) :
    o.isVital = false := by
  cases o with
  | setRecordStatus m' status => rfl
  | _ => first | rfl | cases h

theorem handOver_attempts {original : TaskRuntimeState} {bindings : List ArtifactBinding}
    (h : Runs n (handOver services n call original bindings) w tr (.ok ()) v) :
    ∃ x ∈ tr, isAttemptOp x.1 = true := by
  obtain ⟨a, tr₁, tr₂, u, rfl, -, rest⟩ := bind_run h
  rcases rest with ⟨e, -, ended, -⟩ | ⟨request, -, rest⟩
  · cases ended
  obtain ⟨a, tr₃, tr₄, u', rfl, activated, -⟩ := bind_run rest
  obtain ⟨c, tr₅, -, -, -, rfl, -⟩ := perform_local activated
  exact ⟨(.sendActivation request, c), by simp, rfl⟩

theorem handledEarly_cons {o : Op} {c : Choice} (terminate : ∀ pid, o ≠ .terminate pid)
    (handler : isHandlerOp o = false) : HandledEarly ((o, c) :: tr) ↔ HandledEarly tr := by
  constructor
  · rintro ⟨before, x, after, split, entered, early⟩
    cases before with
    | nil =>
        cases split
        rw [handler] at entered
        cases entered
    | cons y before =>
        cases split
        rw [terminated_cons_of_not terminate] at early
        exact ⟨before, x, after, rfl, entered, early⟩
  · intro h
    have early := not_terminated_nil
    rw [← terminated_cons_of_not (o := o) (c := c) terminate] at early
    exact handledEarly_of_handler early h

theorem halted_kept_iff {original : TaskRuntimeState} {a : Option (List ArtifactBinding)}
    {r : Except Exn (Option (List ArtifactBinding))} {stopped : Bool} {u : World}
    (halted : Halted a pid tr (u.nodes n) r) (quiesced : ∀ x ∈ tr, isHandlerOp x.1 = false)
    (match_ : stopped = r.toBool)
    (handled : Handled n original stopped (u.nodes n).processes tr' (v.nodes n)) :
    KeptAtSource n original.generation (v.nodes n) ↔
      ¬ HandledEarly (tr ++ tr') ∧ ¬ Leaks (tr ++ tr') := by
  have iff : KeptAtSource n original.generation (v.nodes n) ↔ Consistent (v.nodes n) :=
    ⟨fun h => h.consistent, fun h => ⟨handled.owner, handled.generation, h⟩⟩
  rw [iff, leaks_append]
  cases halted with
  | stopped terminated kept processes recorded =>
      have restarted := handled.restarted
      rw [processes] at restarted
      have late : ¬ HandledEarly (tr ++ tr') := not_handledEarly terminated quiesced
      rw [restarted.consistent_iff]
      tauto
  | alive e early processes =>
      obtain ⟨-, processes', pid'⟩ := handled.running match_
      have entered := handledEarly_of_handler early handled.entered
      refine iff_of_false ?_ fun h => h.1 entered
      simp [Consistent, processes', processes, pid']
  | terminated e terminated kept processes =>
      obtain ⟨kept', processes', pid'⟩ := handled.running match_
      have late : ¬ HandledEarly (tr ++ tr') := not_handledEarly terminated quiesced
      refine iff_of_true (.inl ⟨processes'.trans processes, pid'⟩) ⟨late, ?_⟩
      exact not_or.mpr ⟨kept, kept'⟩

/-- Exactly when a migration that has failed before the hand-over leaves the source with its task, and
the registry with the process of it. -/
theorem failedMigration_kept_iff (owned : (w.nodes n).registry.ownerNodeId = n)
    (live : (w.nodes n).processes = [pid]) (recorded : (w.nodes n).registry.pid = some pid)
    (early : ∀ x ∈ tr, isAttemptOp x.1 = false)
    (failed : Runs n (migrate services n call) w tr (.ok false) v) :
    KeptAtSource n (w.nodes n).registry.generation (v.nodes n) ↔ ¬ HandledEarly tr ∧ ¬ Leaks tr := by
  obtain ⟨c, tr₁, a, u, u₁, rfl, here, read, rest⟩ := perform_local failed
  rcases exec_getState read with ⟨⟨e, -, rfl⟩, -⟩ | ⟨rfl, rfl⟩
  · obtain ⟨-, ended, -⟩ := done_local rest
    cases ended
  dsimp only [andThen_done] at rest
  rw [here, if_neg (not_not.mpr owned)] at rest
  obtain ⟨c', tr₂, a, u₂, u₃, rfl, here', opened, rest⟩ := perform_local rest
  rw [handledEarly_cons (by simp) rfl, handledEarly_cons (by simp) rfl, leaks_cons_of_not rfl,
    leaks_cons_of_not rfl]
  have early₂ : ∀ x ∈ tr₂, isAttemptOp x.1 = false := fun x member => early x (by simp [member])
  rcases exec_journalPut opened with ⟨⟨e, -, rfl⟩, -⟩ | ⟨rfl, written⟩
  · obtain ⟨-, ended, -⟩ := done_local rest
    cases ended
  have vitals : (u₃.nodes n).vitals = (w.nodes n).vitals := by
    rw [written, World.putRecord_self, here', here]
    rfl
  have live' : (u₃.nodes n).processes = [pid] := (congrArg Vitals.processes vitals).trans live
  have recorded' : (u₃.nodes n).registry.pid = some pid := (congrArg Vitals.pid vitals).trans recorded
  dsimp only [andThen_done] at rest
  obtain ⟨r, tr₃, tr₄, u₄, rfl, quiescing, rest⟩ := andThen_local rest
  have quiesced : ∀ x ∈ tr₃, isHandlerOp x.1 = false := fun x member =>
    isHandlerOp_of_keepsOwnership (keepsOwnership_of_isQuiesceOp
      (quiescing.performs (P := (isQuiesceOp call.migrationId ·)) (quiesce_performs services) x member))
  have early₄ : ∀ x ∈ tr₄, isAttemptOp x.1 = false := fun x member => early₂ x (by simp [member])
  rcases quiesce_run quiescing live' recorded' with ⟨rfl, quiet, same⟩ | ⟨bindings, halted⟩
  · -- the prefetch has failed
    obtain ⟨tr₅, tr₆, u₅, rfl, ended, quiet', same'⟩ := withCleanup_run rest
    obtain ⟨rfl, -, last⟩ := done_local ended
    have unchanged : (v.nodes n).vitals = (w.nodes n).vitals := by
      rw [same', last, same, vitals]
    have ownership := congrArg Vitals.ownership unchanged
    have silent : ∀ x ∈ tr₃ ++ ([] ++ tr₆), x.1.isVital = false := by
      simp only [List.nil_append, List.mem_append]
      rintro x (member | member)
      · exact quiet x member
      · exact quiet' x member
    refine iff_of_true ⟨(congrArg Ownership.owner ownership).trans owned,
      congrArg Ownership.generation ownership, .inr ⟨pid, ?_, ?_⟩⟩ ⟨?_, not_leaks_of_quiet silent⟩
    · exact (congrArg Vitals.processes unchanged).trans live
    · exact (congrArg Vitals.pid unchanged).trans recorded
    · refine not_handledEarly_of_none fun x member => ?_
      have plain := silent x member
      cases op : x.1 <;> first | rfl | (rw [op] at plain; cases plain)
  · cases r with
    | error e => exact halted_kept_iff halted quiesced rfl (onMigrateError_run rest early₄)
    | ok found =>
        cases halted
        rename_i terminated kept processes recorded
        obtain ⟨r, tr₅, tr₆, u₅, rfl, handing, rest⟩ := andThen_local rest
        have calm : (handOver services n call (w.nodes n).registry bindings).Performs
            (·.isVital = false) := (handOver_performs services n).mono fun _ => isVital_of_isHandOverOp
        have same := frame_run NodeState.vitals calm exec_vitals handing
        cases r with
        | ok _ =>
            obtain ⟨x, member, attempt⟩ := handOver_attempts handing
            rw [early₄ x (by simp [member])] at attempt
            cases attempt
        | error e =>
            have handled := onMigrateError_run rest fun x member => early₄ x (by simp [member])
            have halted : Halted (some bindings) pid (tr₃ ++ tr₅) (u₅.nodes n)
                (.ok (some bindings)) := by
              refine .stopped (terminated_append.mpr (.inl terminated)) ?_ ?_ ?_
              · rw [leaks_append]
                exact not_or.mpr ⟨kept, (quiet_run handing calm).1⟩
              · exact (congrArg Vitals.processes same).trans processes
              · exact (congrArg Vitals.pid same).trans recorded
            rw [← List.append_assoc]
            refine halted_kept_iff halted ?_ rfl handled
            intro x member
            rcases List.mem_append.mp member with first | second
            · exact quiesced x first
            · have plain := handing.performs calm x second
              cases op : x.1 <;> first | rfl | (rw [op] at plain; cases plain)

end

/-! ## Two failures -/

def accountingServices : Services := { bareServices with accountingService := true }

def accountingFailed : Exn := runtimeError "accounting"

/-- Up to the accounting. -/
def toAccounting : List Choice :=
  [.ok 0, .ok 0] ++ [.bindings [], .ok 0, .bindings [], .ok 0, .ok 0]

/-- The accounting fails before the task is stopped: the process lives on, and the registry knows
nothing of it. -/
theorem settleFails_losesProcess : ∃ tr v,
    Runs "a" (migrate accountingServices "a" sampleCall) sampleCluster.world tr (.ok false) v ∧
      (∀ x ∈ tr, isAttemptOp x.1 = false) ∧ (v.nodes "a").processes = [1] ∧
      (v.nodes "a").registry.pid = none ∧ ¬ KeptAtSource "a" 0 (v.nodes "a") := by
  obtain ⟨tr, q, v, reach, ended, early, processes, pid⟩ :
      ∃ tr q v, Reach (exec "a") (Elsewhere "a") (migrate accountingServices "a" sampleCall)
        sampleCluster.world tr q v ∧ q.outcome? = some (.ok false) ∧
        (∀ x ∈ tr, isAttemptOp x.1 = false) ∧ (v.nodes "a").processes = [1] ∧
        (v.nodes "a").registry.pid = none :=
    exists_reach_of_replay (toAccounting ++ [.fail accountingFailed, .ok 0, .ok 0, .ok 0]) (by decide)
  cases Coro.eq_done ended
  refine ⟨tr, v, reach, early, processes, pid, ?_⟩
  intro kept
  rcases kept.consistent with ⟨gone, -⟩ | ⟨x, -, recorded⟩
  · rw [processes] at gone
    cases gone
  · rw [pid] at recorded
    cases recorded

/-- The checkpoint is not valid when the task has been stopped: it is started again. -/
theorem validationFails_restarts : ∃ tr v,
    Runs "a" (migrate bareServices "a" sampleCall) sampleCluster.world tr (.ok false) v ∧
      (v.nodes "a").processes = [2] ∧ (v.nodes "a").registry.pid = some 2 ∧
      (KeptAtSource "a" 0 (v.nodes "a") ↔ ¬ HandledEarly tr ∧ ¬ Leaks tr) := by
  obtain ⟨tr, q, v, reach, ended, early, processes, pid⟩ :
      ∃ tr q v, Reach (exec "a") (Elsewhere "a") (migrate bareServices "a" sampleCall)
        sampleCluster.world tr q v ∧ q.outcome? = some (.ok false) ∧
        (∀ x ∈ tr, isAttemptOp x.1 = false) ∧ (v.nodes "a").processes = [2] ∧
        (v.nodes "a").registry.pid = some 2 :=
    exists_reach_of_replay (toAccounting ++ [
      -- to the stopped process, and the checkpoint
      .ok 0, .ok 0, .ok 0, .ok 0, .ok 0, .fail accountingFailed,
      -- the restart
      .ok 0, .bindings [], .ok 0, .ok 0, .ok 0, .plan ⟨"command", [], true⟩, .ok 0, .spawned 2, .ok 0,
      .ok 0, .ok 0, .ok 0]) (by decide)
  cases Coro.eq_done ended
  exact ⟨tr, v, reach, processes, pid, failedMigration_kept_iff rfl rfl rfl early reach⟩

end Magellan.MigrationService
