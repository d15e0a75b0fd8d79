import Magellan.Migration.Reconcile

/-!
# A crash of the source

The workload survives a crash of the daemon. What durable reconciliation then makes of an open
migration depends on where the crash fell: a rollback starts the task, whatever is still running.
-/

namespace Magellan.MigrationService

open Coroutine Coro

/-- The live process of the task, if there is one, is the one that the registry records. -/
def Accounted (s : NodeState) : Prop :=
  s.processes = [] ∨ ∃ pid, s.processes = [pid] ∧ s.registry.pid = some pid

/-- The operations that keep track of a process that has been spawned. -/
def isKeepOp : Op → Bool
  | .terminate _ | .registry (.markRunning ..) => true
  | _ => false

/-- A process has been spawned, and then neither recorded nor terminated. -/
def Leaks (tr : List (Op × Choice)) : Prop := ∃ x ∈ tr, isKeepOp x.1 = true ∧ x.2.isFail = true

/-- The record is one that reconciliation resolves with the destination: it is open, the registry
does not show the hand-over, and the migration had begun to stop the task. -/
def AsksDestination (n : NodeId) (record : MigrationRecord) (s : NodeState) : Prop :=
  record.status.isTerminal = false ∧
    ¬ (s.registry.ownerNodeId = record.destinationNodeId ∧
      s.registry.generation ≥ record.generation) ∧
    ¬ (record.status = .preparing ∧ s.registry.ownerNodeId = n ∧ s.registry.status ≠ .migrating)

instance (n : NodeId) (record : MigrationRecord) (s : NodeState) :
    Decidable (AsksDestination n record s) :=
  inferInstanceAs (Decidable (_ ∧ ¬ (_ ∧ _) ∧ ¬ (_ ∧ _ ∧ _)))

/-- What has to hold when the source crashes during `m`. -/
def SafeCrash (n : NodeId) (m : MigrationId) (s : NodeState) : Prop :=
  match s.journal.get m with
  | none => Accounted s
  | some record => if AsksDestination n record s then s.processes = [] else Accounted s

/-- The destination answers, and every answer says that it has not activated the task. -/
structure Refused (tr : List (Op × Choice)) : Prop where
  answers : ∀ c, (Op.pollBudget, c) ∈ tr → ∃ a ∈ polls tr, a.isAnswered = true
  refuse : ∀ a ∈ polls tr, a.isAnswered = true →
    a = .notFound ∨ ∃ r, a = .record r ∧ r.status = .rolledBack

section

variable {services : Services} {n : NodeId} {w v : World} {tr tr' : List (Op × Choice)} {α β : Type}

theorem not_leaks_nil : ¬ Leaks [] := by
  rintro ⟨x, mem, -⟩
  cases mem

theorem leaks_append : Leaks (tr ++ tr') ↔ Leaks tr ∨ Leaks tr' := by
  simp only [Leaks, List.mem_append, or_and_right, exists_or]

theorem leaks_cons {o : Op} {c : Choice} :
    Leaks ((o, c) :: tr) ↔ (isKeepOp o = true ∧ c.isFail = true) ∨ Leaks tr := by
  simp [Leaks]

theorem leaks_cons_of_not {o : Op} {c : Choice} (h : isKeepOp o = false) :
    Leaks ((o, c) :: tr) ↔ Leaks tr := by
  simp [leaks_cons, h]

theorem isKeepOp_of_not_isVital {o : Op} (h : o.isVital = false) : isKeepOp o = false := by
  cases o <;> first | rfl | cases h

theorem not_leaks_of_performs {p q : Async α} {R : World → World → Prop}
    (h : Reach (exec n) R p w tr q v) (performs : p.Performs (isKeepOp · = false)) :
    ¬ Leaks tr := by
  rintro ⟨x, mem, keep, -⟩
  have none := h.performs performs x mem
  rw [none] at keep
  cases keep

theorem quiet_run {p : Async α} {r : Except Exn α} (h : Runs n p w tr r v)
    (quiet : p.Performs (·.isVital = false)) :
    ¬ Leaks tr ∧ (v.nodes n).vitals = (w.nodes n).vitals :=
  ⟨not_leaks_of_performs h (quiet.mono fun _ => isKeepOp_of_not_isVital),
    frame_run NodeState.vitals quiet exec_vitals h⟩

theorem quiet_bind {p : Async α} {f : α → Async β} {r : Except Exn β}
    (h : Runs n (p >>= f) w tr r v) (quiet : p.Performs (·.isVital = false)) :
    (∃ e, r = .error e ∧ ¬ Leaks tr ∧ (v.nodes n).vitals = (w.nodes n).vitals) ∨
      ∃ x tr' u, (Leaks tr ↔ Leaks tr') ∧ (u.nodes n).vitals = (w.nodes n).vitals ∧
        Runs n (f x) u tr' r v := by
  obtain ⟨a, tr₁, tr₂, u, rfl, first, ⟨e, -, rfl, rfl, same⟩ | ⟨x, -, rest⟩⟩ := bind_run h
  · obtain ⟨kept, vitals⟩ := quiet_run first quiet
    rw [List.append_nil]
    exact .inl ⟨e, rfl, kept, by rw [same, vitals]⟩
  · obtain ⟨kept, vitals⟩ := quiet_run first quiet
    exact .inr ⟨x, tr₂, u, by simp [leaks_append, kept], vitals, rest⟩

/-! ## Starting the task -/

/-- How `launch` can end when `old` were the live processes. -/
def Launched (old : List Pid) (tr : List (Op × Choice)) (s : NodeState) :
    Except Exn TaskRuntimeState → Prop
  | .ok _ => ¬ Leaks tr ∧ ∃ new, s.processes = new :: old ∧ s.registry.pid = some new
  | .error _ => (¬ Leaks tr ∧ s.processes = old) ∨ (Leaks tr ∧ ∃ new, s.processes = new :: old)

theorem Launched.congr {old : List Pid} {s : NodeState} {r : Except Exn TaskRuntimeState}
    (same : Leaks tr ↔ Leaks tr') (h : Launched old tr' s r) : Launched old tr s r := by
  cases r with
  | ok x => exact ⟨by rw [same]; exact h.1, h.2⟩
  | error e =>
      rcases h with ⟨kept, rest⟩ | ⟨leaks, rest⟩
      · exact .inl ⟨by rwa [same], rest⟩
      · exact .inr ⟨by rwa [same], rest⟩

theorem track_run {plan : LaunchPlan} {pid : Pid} {old : List Pid}
    {r : Except Exn TaskRuntimeState} (h : Runs n (LocalProcess.track plan pid) w tr r v)
    (spawned : (w.nodes n).processes = pid :: old) (new : pid ∉ old)
    (owner : (w.nodes n).registry.ownerNodeId = n)
    (open_ : (w.nodes n).registry.status ≠ .completed) : Launched old tr (v.nodes n) r := by
  obtain ⟨c, tr, a, u, u', rfl, same, waited, rest⟩ := perform_local h
  refine Launched.congr (leaks_cons_of_not rfl) ?_
  have vitals : (u'.nodes n).vitals = (w.nodes n).vitals := by
    rw [exec_vitals rfl waited, same]
  have processes : (u'.nodes n).processes = pid :: old :=
    (congrArg Vitals.processes vitals).trans spawned
  cases a with
  | ok _ =>
      obtain ⟨c, tr, a, u₁, u₂, rfl, same₁, marked, rest⟩ := perform_local rest
      obtain ⟨rfl, ended, steps⟩ := Reach.done_inv rest
      have last : v.nodes n = u₂.nodes n := elsewhere_star steps
      rcases exec_registry marked with ⟨⟨e, rfl, rfl⟩, rfl⟩ | ⟨now, rfl, applied, written⟩
      · cases ended
        refine .inr ⟨leaks_cons.mpr (.inl ⟨rfl, rfl⟩), pid, ?_⟩
        rw [last, same₁, processes]
      · have owner' : (u₁.nodes n).registry.ownerNodeId = n := by
          rw [same₁]
          exact (congrArg (·.ownership.owner) vitals).trans owner
        have open' : (u₁.nodes n).registry.status ≠ .completed := by
          rw [same₁]
          exact fun completed => open_ ((congrArg Vitals.status vitals).symm.trans completed)
        simp only [RegistryOp.apply, Registry.markRunning, owner', open', ne_eq, not_true,
          if_false] at applied
        subst applied
        rcases written with ⟨e, raised, -⟩ | ⟨state, returned, rfl⟩
        · cases raised
        · cases returned
          cases ended
          refine ⟨by simp [leaks_cons, not_leaks_nil, Choice.isFail], pid, ?_, ?_⟩
          · rw [last, World.putState_self, same₁]
            exact processes
          · rw [last, World.putState_self]
  | error e =>
      obtain ⟨c, tr, a, u₁, u₂, rfl, same₁, terminated, rest⟩ := perform_local rest
      rcases exec_terminate terminated with ⟨⟨e', rfl, rfl⟩, rfl⟩ | ⟨rfl, rfl⟩
      · obtain ⟨rfl, ended, steps⟩ := Reach.done_inv rest
        have last : v.nodes n = u₂.nodes n := elsewhere_star steps
        cases ended
        refine .inr ⟨leaks_cons.mpr (.inl ⟨rfl, rfl⟩), pid, ?_⟩
        rw [last, same₁, processes]
      · have report : ((await (.pollExitCode pid) >>= fun exitCode => do
            let _ ← await (.registry (.markFailed e.describe exitCode))
            raise (runtimeError e.describe)) : Async TaskRuntimeState).Performs
              fun o => isKeepOp o = false ∧ o.isProcessOp = false :=
          .bind (.op ⟨rfl, rfl⟩) fun _ => .bind (.op ⟨rfl, rfl⟩) fun _ => .raise _
        have kept := not_leaks_of_performs rest (report.mono fun _ h => h.1)
        have same₂ := frame_run NodeState.processes (report.mono fun _ h => h.2) exec_processes rest
        have gone : (v.nodes n).processes = old := by
          rw [same₂, World.modify_self, same₁, processes]
          have others : ∀ x ∈ old, ¬ x = pid := fun x mem eq => new (eq ▸ mem)
          simpa using others
        obtain ⟨e', rfl⟩ : ∃ e', r = .error e' := by
          obtain ⟨_, _, _, _, -, -, ⟨e', -, rfl, -⟩ | ⟨_, -, rest⟩⟩ := bind_run rest
          · exact ⟨e', rfl⟩
          obtain ⟨_, _, _, _, -, -, ⟨e', -, rfl, -⟩ | ⟨_, -, rest⟩⟩ := bind_run rest
          · exact ⟨e', rfl⟩
          · obtain ⟨-, ended, -⟩ := Reach.done_inv rest
            cases ended
            exact ⟨_, rfl⟩
        have returned : c.isFail = false :=
          isFail_of_returned (x := (.terminate pid, c)) ⟨u₁, (), _, terminated⟩
        exact .inl ⟨by simp [leaks_cons, kept, returned], gone⟩

theorem launch_run {r : Except Exn TaskRuntimeState} (h : Runs n LocalProcess.launch w tr r v)
    (owner : (w.nodes n).registry.ownerNodeId = n)
    (open_ : (w.nodes n).registry.status ≠ .completed) :
    Launched (w.nodes n).processes tr (v.nodes n) r := by
  have ended : ∀ {e : Exn}, ¬ Leaks tr ∧ (v.nodes n).vitals = (w.nodes n).vitals →
      Launched (w.nodes n).processes tr (v.nodes n) (.error e) := fun ⟨kept, same⟩ =>
    .inl ⟨kept, congrArg Vitals.processes same⟩
  rcases quiet_bind h (.op rfl) with ⟨e, rfl, quiet⟩ | ⟨_, tr₁, u₁, leaks₁, same₁, rest⟩
  · exact ended quiet
  rcases quiet_bind rest (.op rfl) with ⟨e, rfl, kept, same⟩ | ⟨plan, tr₂, u₂, leaks₂, same₂, rest⟩
  · exact ended ⟨by rwa [leaks₁], same.trans same₁⟩
  rcases quiet_bind rest (.op rfl) with ⟨e, rfl, kept, same⟩ | ⟨_, tr₃, u₃, leaks₃, same₃, rest⟩
  · exact ended ⟨by rwa [leaks₁, leaks₂], same.trans (same₂.trans same₁)⟩
  have same : (u₃.nodes n).vitals = (w.nodes n).vitals := same₃.trans (same₂.trans same₁)
  refine Launched.congr (leaks₁.trans (leaks₂.trans leaks₃)) ?_
  obtain ⟨c, tr₄, a, u, u', rfl, here, spawned, rest⟩ := perform_local rest
  refine Launched.congr (leaks_cons_of_not rfl) ?_
  rw [← here] at same
  have processes : (u.nodes n).processes = (w.nodes n).processes := congrArg Vitals.processes same
  rcases exec_spawn spawned with ⟨⟨e, -, rfl⟩, rfl⟩ | ⟨pid, new, rfl, rfl⟩
  · obtain ⟨rfl, finished, steps⟩ := Reach.done_inv rest
    cases finished
    have last : v.nodes n = u'.nodes n := elsewhere_star steps
    exact .inl ⟨not_leaks_nil, by rw [last, processes]⟩
  · refine track_run rest ?_ (processes ▸ new) ?_ ?_
    · rw [World.modify_self, ← processes]
    · rw [World.modify_self]
      exact (congrArg (·.ownership.owner) same).trans owner
    · rw [World.modify_self]
      exact fun completed => open_ ((congrArg Vitals.status same).symm.trans completed)

/-- How a restart can end when `old` were the live processes and none was recorded. -/
inductive Restarted (old : List Pid) (tr : List (Op × Choice)) (s : NodeState) : Prop
  | notStarted (kept : ¬ Leaks tr) (processes : s.processes = old) (pid : s.registry.pid = none)
  | started (kept : ¬ Leaks tr) (new : Pid) (processes : s.processes = new :: old)
      (pid : s.registry.pid = some new)
  | leaked (leaks : Leaks tr) (new : Pid) (processes : s.processes = new :: old)
      (pid : s.registry.pid = none)

theorem Restarted.congr {old : List Pid} {s t : NodeState} (same : Leaks tr ↔ Leaks tr')
    (vitals : t.vitals = s.vitals) (h : Restarted old tr' s) : Restarted old tr t := by
  have processes : t.processes = s.processes := congrArg Vitals.processes vitals
  have recorded : t.registry.pid = s.registry.pid := congrArg Vitals.pid vitals
  cases h with
  | notStarted kept all pid => exact .notStarted (by rwa [same]) (processes.trans all) (recorded.trans pid)
  | started kept new all pid =>
      exact .started (by rwa [same]) new (processes.trans all) (recorded.trans pid)
  | leaked leaks new all pid =>
      exact .leaked (by rwa [same]) new (processes.trans all) (recorded.trans pid)

theorem Restarted.accounted_iff {old : List Pid} {s : NodeState} (h : Restarted old tr s) :
    Accounted s ↔ old = [] ∧ ¬ Leaks tr := by
  cases h with
  | notStarted kept all pid => simp [Accounted, all, pid, kept]
  | started kept new all pid =>
      simp only [Accounted, all, pid, kept, not_false_eq_true, and_true, reduceCtorEq, false_or,
        List.cons.injEq, Option.some.injEq]
      constructor
      · rintro ⟨x, ⟨-, none⟩, -⟩
        exact none
      · rintro rfl
        exact ⟨new, ⟨rfl, rfl⟩, rfl⟩
  | leaked leaks new all pid => simp [Accounted, all, pid, leaks]

theorem start_run {r : Except Exn TaskRuntimeState} (h : Runs n (LocalProcess.start n) w tr r v)
    (unrecorded : (w.nodes n).registry.pid = none) :
    Launched (w.nodes n).processes tr (v.nodes n) r := by
  have ended : ∀ {e : Exn}, ¬ Leaks tr ∧ (v.nodes n).vitals = (w.nodes n).vitals →
      Launched (w.nodes n).processes tr (v.nodes n) (.error e) := fun ⟨kept, same⟩ =>
    .inl ⟨kept, congrArg Vitals.processes same⟩
  rcases quiet_bind h (.op rfl) with ⟨e, rfl, quiet⟩ | ⟨_, tr₁, u₁, leaks₁, same₁, rest⟩
  · exact ended quiet
  obtain ⟨c, tr₂, a, u, u₂, rfl, here, read, rest⟩ := perform_local rest
  have leaks₂ : Leaks tr ↔ Leaks tr₂ := leaks₁.trans (leaks_cons_of_not rfl)
  rcases exec_getState read with ⟨⟨e, -, rfl⟩, rfl⟩ | ⟨rfl, rfl⟩
  · obtain ⟨rfl, finished, steps⟩ := Reach.done_inv rest
    cases finished
    have last : v.nodes n = u₂.nodes n := elsewhere_star steps
    exact ended ⟨by simp [leaks₂, not_leaks_nil], by rw [last, here, same₁]⟩
  rw [← here] at same₁
  have pid : (u₂.nodes n).registry.pid = none := (congrArg Vitals.pid same₁).trans unrecorded
  rcases quiet_bind rest (.op rfl) with ⟨e, rfl, kept, same⟩ | ⟨_, tr₃, u₃, leaks₃, same₃, rest⟩
  · exact ended ⟨by rwa [leaks₂], same.trans same₁⟩
  have leaks := leaks₂.trans leaks₃
  have same := same₃.trans same₁
  have refused : ∀ {e : Exn}, Runs n (raise e) u₃ tr₃ r v →
      Launched (w.nodes n).processes tr (v.nodes n) r := by
    intro e rest
    obtain ⟨rfl, finished, steps⟩ := Reach.done_inv rest
    cases finished
    have last : v.nodes n = u₃.nodes n := elsewhere_star steps
    exact ended ⟨by simp [leaks, not_leaks_nil], by rw [last, same]⟩
  split at rest
  · exact refused rest
  rename_i owner
  split at rest
  · exact refused rest
  rename_i open_
  rw [pid] at rest
  have launching : Runs n LocalProcess.launch u₃ tr₃ r v := by
    simpa [LocalProcess.pidIsAlive, bind_def, pure_def, attempt] using rest
  refine Launched.congr leaks ?_
  have processes : (u₃.nodes n).processes = (w.nodes n).processes := congrArg Vitals.processes same
  rw [← processes]
  refine launch_run launching ?_ ?_
  · have kept : (u₃.nodes n).registry.ownerNodeId = (u₂.nodes n).registry.ownerNodeId :=
      congrArg (·.ownership.owner) same₃
    rw [kept]
    exact not_not.mp owner
  · have kept : (u₃.nodes n).registry.status = (u₂.nodes n).registry.status :=
      congrArg Vitals.status same₃
    rwa [kept]

theorem restart_run {describe : String → String} (h : Runs n (restart n describe) w tr (.ok ()) v)
    (unrecorded : (w.nodes n).registry.pid = none) :
    Restarted (w.nodes n).processes tr (v.nodes n) := by
  obtain ⟨r, tr₁, tr₂, u, rfl, first, rest⟩ := Reach.andThen_done h
  have launched := start_run first unrecorded
  cases r with
  | ok state =>
      obtain ⟨rfl, -, steps⟩ := Reach.done_inv rest
      have last : v.nodes n = u.nodes n := elsewhere_star steps
      obtain ⟨kept, new, processes, pid⟩ := launched
      rw [last, List.append_nil]
      exact .started kept new processes pid
  | error e =>
      obtain ⟨c, tr₂, a, u₁, u₂, rfl, here, marked, rest⟩ := perform_local rest
      rcases exec_registry marked with ⟨⟨e', -, rfl⟩, -⟩ | ⟨now, -, applied, written⟩
      · obtain ⟨-, ended, -⟩ := Reach.done_inv rest
        cases ended
      cases applied
      rcases written with ⟨e', raised, -⟩ | ⟨state, returned, rfl⟩
      · cases raised
      cases returned
      obtain ⟨rfl, -, steps⟩ := Reach.done_inv rest
      have last := elsewhere_star steps
      have same : Leaks (tr₁ ++ [(Op.registry (.markFailed (describe e.message) none), c)]) ↔
          Leaks tr₁ := by
        simp [leaks_append, leaks_cons, not_leaks_nil, isKeepOp]
      have processes : (v.nodes n).processes = (u.nodes n).processes := by
        rw [last, World.putState_self, here]
      have pid : (v.nodes n).registry.pid = none := by
        rw [last, World.putState_self]
        rfl
      rcases launched with ⟨kept, all⟩ | ⟨leaks, new, all⟩
      · exact .notStarted (by rwa [same]) (processes.trans all) pid
      · exact .leaked (by rwa [same]) new (processes.trans all) pid

/-! ## Rolling back the source -/

theorem rollbackSourceRecord_run {record : MigrationRecord} {reason : String}
    (h : Runs n (rollbackSourceRecord n record reason) w tr (.ok ()) v) :
    Restarted (w.nodes n).processes tr (v.nodes n) := by
  obtain ⟨c, tr₁, a, u, u₁, rfl, here, restored, rest⟩ := perform_local h
  have written : ∃ state, a = .ok state ∧ u₁ = u.putState n (.restoreOriginal record reason) state ∧
      state.pid = none ∧ state.ownerNodeId = n := by
    rcases exec_registry restored with ⟨⟨e', -, rfl⟩, -⟩ | ⟨now, -, applied, written⟩
    · obtain ⟨-, ended, -⟩ := Reach.done_inv rest
      cases ended
    · have ok : ∃ state, a = .ok state ∧ state.pid = none ∧ state.ownerNodeId = n := by
        subst applied
        simp only [RegistryOp.apply]
        cases record.originalState with
        | none => refine ⟨_, rfl, ?_, ?_⟩ <;> rfl
        | some original => refine ⟨_, rfl, ?_, ?_⟩ <;> rfl
      obtain ⟨state, rfl, pid, owner⟩ := ok
      rcases written with ⟨e', raised, -⟩ | ⟨state', returned, rfl⟩
      · cases raised
      · cases returned
        exact ⟨state, rfl, rfl, pid, owner⟩
  obtain ⟨state, rfl, rfl, pid, owner⟩ := written
  obtain ⟨c', tr₂, a, u₂, u₃, rfl, here', read, rest⟩ := perform_local rest
  rcases exec_getState read with ⟨⟨e', -, rfl⟩, -⟩ | ⟨rfl, rfl⟩
  · obtain ⟨-, ended, -⟩ := Reach.done_inv rest
    cases ended
  have node : u₃.nodes n = (u.putState n (.restoreOriginal record reason) state).nodes n := here'
  rw [World.putState_self] at node
  have current : (u₃.nodes n).registry = state := by rw [node]
  obtain ⟨a, tr₃, tr₄, u₄, rfl, first, ⟨e, -, ended, -⟩ | ⟨_, rfl, rest⟩⟩ := bind_run
    (p := onlyIf ((u₃.nodes n).registry.ownerNodeId = n ∧ (u₃.nodes n).registry.pid = none)
      (restart n fun e => s!"Durable migration rollback restart failed: {e}")) rest
  · cases ended
  rw [current, onlyIf, if_pos ⟨owner, pid⟩] at first
  have restarted := restart_run first (by rw [current, pid])
  have processes : (u₃.nodes n).processes = (w.nodes n).processes := by rw [node, here]
  rw [processes] at restarted
  obtain ⟨kept, vitals⟩ := quiet_run rest (.op rfl)
  refine restarted.congr ?_ vitals
  simp [leaks_cons, leaks_append, isKeepOp, kept]

/-! ## The pass -/

theorem accounted_congr {s t : NodeState} (vitals : t.vitals = s.vitals) :
    Accounted t ↔ Accounted s := by
  have processes : t.processes = s.processes := congrArg Vitals.processes vitals
  have pid : t.registry.pid = s.registry.pid := congrArg Vitals.pid vitals
  rw [Accounted, Accounted, processes, pid]

theorem resolve_refused {answers : List PollAnswer} (answered : ∃ a ∈ answers, a.isAnswered = true)
    (refuse : ∀ a ∈ answers, a.isAnswered = true →
      a = .notFound ∨ ∃ r, a = .record r ∧ r.status = .rolledBack) :
    confirmsActivation (resolve answers (none, false)) = false ∧
      confirmsNoActivation (resolve answers (none, false)) = true := by
  obtain ⟨b, mem, yes⟩ := answered
  have some_ : answers.any (·.isAnswered) = true := List.any_eq_true.mpr ⟨b, mem, yes⟩
  cases last : answers.getLast? with
  | none =>
      rw [List.getLast?_eq_none_iff] at last
      subst last
      cases mem
  | some a =>
      rw [resolve_eq, last]
      have here := refuse a (List.mem_of_getLast? last)
      cases a with
      | record r =>
          rcases here rfl with eq | ⟨r', eq, status⟩
          · cases eq
          · cases eq
            simp [confirmsActivation, confirmsNoActivation, PollAnswer.record?, status]
      | notFound => simp [confirmsActivation, confirmsNoActivation, PollAnswer.record?, some_]
      | unreachable => simp [confirmsActivation, confirmsNoActivation, PollAnswer.record?, some_]

theorem isVital_of_isQueryOp {o : Op} (h : isQueryOp o = true) : o.isVital = false := by
  cases o <;> first | rfl | cases h

theorem reconcileSource_run {record : MigrationRecord} (role : record.role = .source)
    (open_ : record.status.isTerminal = false)
    (h : Runs n (reconcileRecord services n record) w tr (.ok ()) v) (refused : Refused tr) :
    (AsksDestination n record (w.nodes n) ∧ Restarted (w.nodes n).processes tr (v.nodes n)) ∨
      (¬ AsksDestination n record (w.nodes n) ∧ ¬ Leaks tr ∧
        (v.nodes n).vitals = (w.nodes n).vitals) := by
  unfold reconcileRecord at h
  rw [role] at h
  obtain ⟨c, tr₁, a, u, u₁, rfl, here, read, rest⟩ := perform_local h
  rcases exec_getState read with ⟨⟨e', -, rfl⟩, -⟩ | ⟨rfl, rfl⟩
  · obtain ⟨-, ended, -⟩ := Reach.done_inv rest
    cases ended
  have quiet : ∀ {p : Async Unit}, Runs n p u₁ tr₁ (.ok ()) v → p.Performs (·.isVital = false) →
      ¬ Leaks ((Op.getState, c) :: tr₁) ∧ (v.nodes n).vitals = (w.nodes n).vitals := by
    intro p rest performs
    obtain ⟨kept, vitals⟩ := quiet_run rest performs
    rw [here] at vitals
    exact ⟨by simp [leaks_cons, isKeepOp, kept], vitals⟩
  dsimp only [andThen_done] at rest
  rw [here] at rest
  split at rest
  · rename_i given
    exact .inr ⟨fun asks => asks.2.1 given, quiet rest (.op rfl)⟩
  rename_i kept
  split at rest
  · rename_i early
    exact .inr ⟨fun asks => asks.2.2 early, quiet rest (.op rfl)⟩
  rename_i begun
  refine .inl ⟨⟨open_, kept, begun⟩, ?_⟩
  obtain ⟨a, tr₂, tr₃, u₂, rfl, asked, ⟨e, -, ended, -⟩ | ⟨outcome, rfl, rest⟩⟩ := bind_run rest
  · cases ended
  obtain ⟨-, -, result⟩ := queryRemoteOutcome_trace asked
  cases result _ rfl
  have silent : polls tr₃ = [] := polls_eq_nil
    (rest.performs ((onRecordOutcome_decides services n record).noPolls _))
  have same : polls ((Op.getState, c) :: (tr₂ ++ tr₃)) = polls tr₂ := by
    have append := polls_append tr₂ tr₃
    rw [silent, List.append_nil] at append
    exact append
  obtain ⟨c', tr₂', -, -, -, rfl, -⟩ := perform_local asked
  obtain ⟨no, confirmed⟩ := resolve_refused
    (same ▸ refused.answers c' (by simp)) (same ▸ refused.refuse)
  have resolved : Runs n (rollbackSourceRecord n record
      "Durable reconciliation confirmed no destination activation") u₂ tr₃ (.ok ()) v := by
    simpa only [resolveRecord, no, confirmed, Bool.false_eq_true, if_false, if_true] using rest
  have restarted := rollbackSourceRecord_run resolved
  obtain ⟨kept', vitals⟩ := quiet_run asked
    (queryRemoteOutcome_performs.mono fun _ => isVital_of_isQueryOp)
  have processes : (u₂.nodes n).processes = (w.nodes n).processes := by
    rw [here] at vitals
    exact congrArg Vitals.processes vitals
  rw [processes] at restarted
  refine restarted.congr ?_ rfl
  simp only [leaks_cons, leaks_append, isKeepOp, Bool.false_eq_true, false_and, false_or]
  exact or_iff_right (by simpa [leaks_cons, isKeepOp] using kept')

theorem reconcileDurableState_performs {records : List MigrationRecord}
    (closed : ∀ x ∈ records, x.status.isTerminal = true) :
    (reconcileDurableState services n records).Performs fun _ => False := by
  induction records with
  | nil => exact .pure _
  | cons x records ih =>
      refine .bind ?_ fun _ => ih fun y mem => closed y (by simp [mem])
      rw [onlyIf, if_neg (not_not.mpr (closed x (by simp)))]
      exact .pure _

theorem reconcileDurableState_run {records : List MigrationRecord} {record : MigrationRecord}
    (closed : ∀ x ∈ records, x.status.isTerminal = true)
    (h : Runs n (reconcileDurableState services n (records ++ [record])) w tr (.ok ()) v) :
    Runs n (onlyIf (¬ record.status.isTerminal) (reconcileRecord services n record)) w tr (.ok ())
      v := by
  induction records generalizing tr w with
  | nil =>
      obtain ⟨a, tr₁, tr₂, u, rfl, first, ⟨e, -, ended, -⟩ | ⟨_, rfl, rest⟩⟩ := bind_run h
      · cases ended
      obtain ⟨rfl, -, steps⟩ := Reach.done_inv rest
      rw [List.append_nil]
      simpa using first.trans (.rely_star steps .refl)
  | cons x records ih =>
      obtain ⟨a, tr₁, tr₂, u, rfl, first, ⟨e, -, ended, -⟩ | ⟨_, rfl, rest⟩⟩ := bind_run h
      · cases ended
      have skipped : Runs n (pure ()) w tr₁ (.ok ()) u := by
        rw [onlyIf, if_neg (not_not.mpr (closed x (by simp)))] at first
        exact first
      obtain ⟨rfl, -, steps⟩ := Reach.done_inv skipped
      exact .rely_star steps (ih (fun y mem => closed y (by simp [mem])) rest)

/-! ## The journal of the source -/

/-- The journal has the records it had, and perhaps the one of the migration. -/
def JournalOf (call : MigrateCall) (records j : Journal) : Prop :=
  j = records ∨ ∃ r, r.migrationId = call.migrationId ∧ r.role = .source ∧ j = records ++ [r]

theorem put_append {records : Journal} {m : MigrationId} {r : MigrationRecord}
    (fresh : ∀ x ∈ records, x.migrationId ≠ m) (same : r.migrationId = m) {j : Journal}
    (h : j = records ∨ ∃ x, x.migrationId = m ∧ j = records ++ [x]) :
    j.put r = records ++ [r] := by
  induction records generalizing j with
  | nil =>
      rcases h with rfl | ⟨x, eq, rfl⟩
      · rfl
      · simp [Journal.put, eq, same]
  | cons y records ih =>
      have other : y.migrationId ≠ r.migrationId := by
        rw [same]
        exact fresh y (by simp)
      have rest := fun x mem => fresh x (List.mem_cons_of_mem y mem)
      rcases h with rfl | ⟨x, eq, rfl⟩
      · simp only [Journal.put, if_neg other, List.cons_append]
        rw [ih rest (.inl rfl)]
      · simp only [Journal.put, if_neg other, List.cons_append]
        rw [ih rest (.inr ⟨x, eq, rfl⟩)]

theorem JournalOf.put {call : MigrateCall} {records j : Journal} {r : MigrationRecord}
    (fresh : ∀ x ∈ records, x.migrationId ≠ call.migrationId) (h : JournalOf call records j)
    (same : r.migrationId = call.migrationId) (role : r.role = .source) :
    JournalOf call records (j.put r) := by
  refine .inr ⟨r, same, role, put_append fresh same ?_⟩
  rcases h with rfl | ⟨x, eq, -, rfl⟩
  · exact .inl rfl
  · exact .inr ⟨x, eq, rfl⟩

theorem get_eq_none {records : Journal} {m : MigrationId}
    (fresh : ∀ x ∈ records, x.migrationId ≠ m) : records.get m = none := by
  refine List.find?_eq_none.mpr fun x mem => ?_
  simpa using fresh x mem

theorem get_append {records : Journal} {m : MigrationId} {r : MigrationRecord}
    (fresh : ∀ x ∈ records, x.migrationId ≠ m) (same : r.migrationId = m) :
    Journal.get (records ++ [r]) m = some r := by
  have absent := get_eq_none fresh
  unfold Journal.get at absent ⊢
  rw [List.find?_append, absent]
  simp [same]

theorem JournalOf.get {call : MigrateCall} {records j : Journal} {r : MigrationRecord}
    (fresh : ∀ x ∈ records, x.migrationId ≠ call.migrationId) (h : JournalOf call records j)
    (found : j.get call.migrationId = some r) : r.role = .source ∧ j = records ++ [r] := by
  rcases h with rfl | ⟨x, eq, role, rfl⟩
  · rw [get_eq_none fresh] at found
    cases found
  · rw [get_append fresh eq] at found
    cases found
    exact ⟨role, rfl⟩

/-- A journal write of the migration. -/
def IsOwnWrite (call : MigrateCall) : Op → Prop
  | .journalPut r => r.migrationId = call.migrationId ∧ r.role = .source
  | .setRecordStatus m .. => m = call.migrationId
  | _ => True

def journalContract (n : NodeId) (call : MigrateCall) (records : Journal) :
    Contract Op Choice World where
  allowed _ _ _ := True
  rely w v := (v.nodes n).journal = (w.nodes n).journal
  inv := At n fun s => JournalOf call records s.journal
  guar _ _ := True

section

variable {call : MigrateCall} {records : Journal}
  (fresh : ∀ x ∈ records, x.migrationId ≠ call.migrationId)

include fresh in
theorem ownWrite_triple {o : Op} (own : IsOwnWrite call o) :
    OpTriple (exec n) (journalContract n call records) (fun _ => True) o (fun _ _ => True)
      fun _ _ => True := by
  intro w c r v _ inv _ step
  refine ⟨?_, trivial, by cases r <;> trivial⟩
  have kept : (v.nodes n).journal = (w.nodes n).journal →
      (journalContract n call records).inv v := fun same => by
    change JournalOf call records (v.nodes n).journal
    rw [same]
    exact inv
  cases write : o.isJournalWrite with
  | false => exact kept (exec_journal write step)
  | true =>
      cases o with
      | journalPut x =>
          rcases exec_journalPut step with ⟨-, rfl⟩ | ⟨-, rfl⟩
          · exact kept rfl
          · change JournalOf call records ((w.putRecord n x).nodes n).journal
            rw [World.putRecord_self]
            exact JournalOf.put fresh inv own.1 own.2
      | setRecordStatus m status pid error =>
          cases own
          rcases exec_recordStatus step with ⟨-, rfl⟩ | ⟨-, ⟨-, rfl⟩ | ⟨x, found, rfl⟩⟩
          · exact kept rfl
          · exact kept rfl
          · change JournalOf call records ((w.putRecord n _).nodes n).journal
            rw [World.putRecord_self]
            have named := Journal.get_migrationId found
            have role := (JournalOf.get fresh inv found).1
            exact JournalOf.put fresh inv named role
      | _ => cases write

include fresh in
theorem own_of_performs {p : Async α} (h : p.Performs (IsOwnWrite call)) :
    Triple (exec n) (journalContract n call records) (fun _ => True) p (fun _ _ => True)
      fun _ _ => True :=
  .of_performs .top h fun _ own => ownWrite_triple fresh own

theorem isOwnWrite_of_isStartOp {o : Op} (h : LocalProcess.isStartOp o = true) :
    IsOwnWrite call o := by
  cases o <;> trivial

theorem isOwnWrite_of_isQuiesceOp {o : Op} (h : isQuiesceOp call.migrationId o = true) :
    IsOwnWrite call o := by
  cases o with
  | setRecordStatus m status pid error => exact (of_decide_eq_true h : m = call.migrationId)
  | journalPut r => cases h
  | _ => trivial

theorem isOwnWrite_of_isHandOverOp {o : Op} (h : isHandOverOp call.migrationId o = true) :
    IsOwnWrite call o := by
  cases o with
  | setRecordStatus m status pid error =>
      cases status <;> first | exact (of_decide_eq_true h : m = call.migrationId) | cases h
  | journalPut r => cases h
  | _ => trivial

theorem isOwnWrite_of_isQueryOp {o : Op} (h : isQueryOp o = true) : IsOwnWrite call o := by
  cases o <;> trivial

include fresh in
theorem rollbackMigration_own :
    Triple (exec n) (journalContract n call records) (fun _ => True)
      (rollbackMigration n call.migrationId) (fun _ _ => True) fun _ _ => True := by
  refine .bind (B := fun found _ => ∀ r, found = some r → r.migrationId = call.migrationId) ?_
    fun found => .assuming fun named => ?_
  · refine .op .top (fun _ => .const _) (fun _ => .top) fun w c r v _ inv _ step => ?_
    rcases exec_journalGet step with ⟨⟨e, -, rfl⟩, rfl⟩ | ⟨rfl, rfl⟩
    · exact ⟨inv, trivial, trivial⟩
    · exact ⟨inv, trivial, fun r found => Journal.get_migrationId found⟩
  · cases found with
    | none => exact .pure .top fun _ _ => trivial
    | some record =>
        exact own_of_performs fresh (rollbackSourceRecord_performs n
          (fun _ => isOwnWrite_of_isStartOp) trivial (named record rfl))

include fresh in
theorem withCleanup_own {activated : Bool} {p : Async Bool}
    (h : Triple (exec n) (journalContract n call records) (fun _ => True) p (fun _ _ => True)
      fun _ _ => True) :
    Triple (exec n) (journalContract n call records) (fun _ => True)
      (withCleanup call activated p) (fun _ _ => True) fun _ _ => True := by
  have cancel : ∀ r : Except Exn Bool, Triple (exec n) (journalContract n call records)
      (fun _ => True) (onlyIf (¬ activated) (cancelRemoteReservation call.bidId
        call.destinationNodeId s!"Source migration {call.migrationId} did not complete"))
      (fun _ _ => True) fun _ _ => True := fun _ =>
    own_of_performs fresh (.ite (.tryExcept (.op trivial) fun _ => .pure _) (.pure _))
  exact .tryFinally h (fun a => cancel (.ok a)) fun e => cancel (.error e)

include fresh in
theorem onMigrateError_own (services : Services) {original : TaskRuntimeState}
    {bindings : List ArtifactBinding} {stopped activated : Bool} {e : Exn} :
    Triple (exec n) (journalContract n call records) (fun _ => True)
      (onMigrateError services n call original bindings stopped activated e) (fun _ _ => True)
      fun _ _ => True := by
  refine .ite (fun _ => ?_) fun _ => ?_
  · refine .attempt (F := fun _ _ => True) (B := fun _ _ => True)
      (own_of_performs fresh (.bind (.op rfl) fun _ =>
        queryRemoteOutcome_performs.mono fun _ => isOwnWrite_of_isQueryOp)) (fun outcome => ?_)
      fun e => withCleanup_own fresh (own_of_performs fresh (.raise _))
    refine .ite (fun _ => ?_) fun _ => .ite (fun _ => ?_) fun _ => ?_
    · exact withCleanup_own fresh (own_of_performs fresh (.bind (finalizeSourceSuccess_performs
        services ⟨trivial, trivial⟩ trivial (fun _ => trivial) rfl) fun _ => .pure _))
    · exact withCleanup_own fresh (.bind (rollbackMigration_own fresh) fun _ =>
        .pure .top fun _ _ => trivial)
    · exact withCleanup_own fresh (own_of_performs fresh (.bind (.op trivial) fun _ => .pure _))
  · exact withCleanup_own fresh (own_of_performs fresh (migrationFailed_performs services n
      (fun _ => trivial) (fun _ => isOwnWrite_of_isStartOp) trivial rfl))

include fresh in
theorem migrate_own (services : Services) :
    Triple (exec n) (journalContract n call records) (fun _ => True) (migrate services n call)
      (fun _ _ => True) fun _ _ => True := by
  refine .bind (own_of_performs fresh (.op trivial)) fun original => ?_
  refine .ite (fun _ => .pure .top fun _ _ => trivial) fun _ => ?_
  refine .bind (own_of_performs fresh (.op ⟨rfl, rfl⟩)) fun _ => ?_
  refine .attempt (B := fun _ _ => True) (F := fun _ _ => True) (own_of_performs fresh
    ((quiesce_performs services).mono fun _ => isOwnWrite_of_isQuiesceOp)) ?_
    fun e => onMigrateError_own fresh services
  rintro (none | bindings)
  · exact withCleanup_own fresh (.pure .top fun _ _ => trivial)
  refine .attempt (B := fun _ _ => True) (F := fun _ _ => True) (own_of_performs fresh
    ((handOver_performs services n).mono fun _ => isOwnWrite_of_isHandOverOp)) (fun _ => ?_)
    fun e => onMigrateError_own fresh services
  refine .attempt (B := fun _ _ => True) (F := fun _ _ => True) (own_of_performs fresh
    (commit_performs services (fun _ => trivial) ⟨trivial, trivial⟩ trivial (fun _ => trivial)
      rfl)) (fun activated => ?_) fun e => onMigrateError_own fresh services
  exact withCleanup_own fresh (.pure .top fun _ _ => trivial)

end

/-! ## The crash -/

/-- The daemon is up again, and the runtime has looked at the recorded process. -/
def restarted (n : NodeId) (verdict : RuntimeVerdict) (w : World) : World :=
  (crash n w).modify n (reconcileRuntime n verdict)

theorem reconcileRuntime_cases (n : NodeId) (verdict : RuntimeVerdict) (s : NodeState) :
    reconcileRuntime n verdict s = s ∨
      (s.registry.pid.any s.isAlive = false ∧ s.registry.status ≠ .migrating ∧
        ∃ state, reconcileRuntime n verdict s = { s with registry := state } ∧ state.pid = none ∧
          state.ownership = s.registry.ownership ∧ state.status ≠ .migrating) := by
  unfold reconcileRuntime
  dsimp only
  split
  · exact .inl rfl
  rename_i gone
  simp only [not_or, not_and_or, not_not] at gone
  obtain ⟨owner, active, dead⟩ := gone
  have moving : s.registry.status ≠ .migrating := by
    rcases active with h | h <;> rw [h] <;> decide
  refine .inr ⟨by simpa using dead, moving, ?_⟩
  split
  · simp only [Registry.markCompleted, if_neg (not_not.mpr owner)]
    exact ⟨_, rfl, rfl, rfl, by simp⟩
  · exact ⟨_, rfl, rfl, rfl, by simp [Registry.markFailed]⟩
  · exact ⟨_, rfl, rfl, rfl, by simp [Registry.markFailed]⟩

theorem accounted_reconcileRuntime {s : NodeState} {verdict : RuntimeVerdict} :
    Accounted (reconcileRuntime n verdict s) ↔ Accounted s := by
  rcases reconcileRuntime_cases n verdict s with same | ⟨dead, -, state, eq, pid, -⟩
  · rw [same]
  · rw [eq]
    simp only [Accounted, pid, reduceCtorEq, and_false, exists_false, or_false]
    refine ⟨.inl, ?_⟩
    rintro (none | ⟨x, all, recorded⟩)
    · exact none
    · simp [recorded, NodeState.isAlive, all] at dead

theorem asksDestination_reconcileRuntime {s : NodeState} {record : MigrationRecord}
    {verdict : RuntimeVerdict} :
    AsksDestination n record (reconcileRuntime n verdict s) ↔ AsksDestination n record s := by
  rcases reconcileRuntime_cases n verdict s with same | ⟨-, moving, state, eq, -, kept, moving'⟩
  · rw [same]
  · rw [eq]
    have generation : state.generation = s.registry.generation := congrArg Ownership.generation kept
    have owner : state.ownerNodeId = s.registry.ownerNodeId := congrArg Ownership.owner kept
    simp only [AsksDestination, generation, owner, ne_eq, moving, moving', not_false_eq_true]

/-- After a crash of the source, the restart and a pass that the destination answers with a refusal,
the only live process is the recorded one, if and only if the crash was safe and the restart of the
task lost no process. -/
theorem sourceCrash_accounted_iff {call : MigrateCall} {R : World → World → Prop} {q : Async Bool}
    {crashed x : World} {verdict : RuntimeVerdict}
    (journal : ∀ {w v}, R w v → (v.nodes n).journal = (w.nodes n).journal)
    (fresh : ∀ r ∈ (w.nodes n).journal, r.migrationId ≠ call.migrationId)
    (closed : ∀ r ∈ (w.nodes n).journal, r.status.isTerminal = true)
    (migrating : Reach (exec n) R (migrate services n call) w tr q crashed)
    (pass : Reach (exec n) (Elsewhere n)
      (reconcileDurableState services n ((restarted n verdict crashed).nodes n).journal)
      (restarted n verdict crashed) tr' (.done (.ok ())) x)
    (refused : Refused tr') :
    Accounted (x.nodes n) ↔
      SafeCrash n call.migrationId (crashed.nodes n) ∧ ¬ Leaks tr' := by
  have start := (migrate_own (n := n) fresh services (w := w) trivial).reach journal
    (fun u u' same inv => by
      have kept : (u'.nodes n).journal = (u.nodes n).journal := same
      change JournalOf call _ (u'.nodes n).journal
      rw [kept]
      exact inv) (.inl rfl) migrating fun _ _ _ => trivial
  have known : JournalOf call (w.nodes n).journal (crashed.nodes n).journal := start.1
  have node : (restarted n verdict crashed).nodes n = reconcileRuntime n verdict
      { crashed.nodes n with starting := none, pass := [] } := by
    rw [restarted, World.modify_self, crash, World.modify_self]
  have sameJournal : ((restarted n verdict crashed).nodes n).journal =
      (crashed.nodes n).journal := by
    rw [node]
    rcases reconcileRuntime_cases n verdict { crashed.nodes n with starting := none, pass := [] }
      with same | ⟨-, -, state, eq, -⟩
    · rw [same]
    · rw [eq]
  have accounted : Accounted ((restarted n verdict crashed).nodes n) ↔
      Accounted (crashed.nodes n) := by
    rw [node, accounted_reconcileRuntime]
    rfl
  have processes : ((restarted n verdict crashed).nodes n).processes =
      (crashed.nodes n).processes := by
    rw [node]
    rcases reconcileRuntime_cases n verdict { crashed.nodes n with starting := none, pass := [] }
      with same | ⟨-, -, state, eq, -⟩
    · rw [same]
    · rw [eq]
  have undisturbed : ¬ Leaks tr' → (x.nodes n).vitals =
      ((restarted n verdict crashed).nodes n).vitals →
      (Accounted (x.nodes n) ↔ Accounted (crashed.nodes n) ∧ ¬ Leaks tr') := fun kept vitals => by
    rw [accounted_congr vitals, accounted]
    simp [kept]
  rw [sameJournal] at pass
  unfold SafeCrash
  rcases known with same | ⟨r, named, role, same⟩
  · rw [same] at pass ⊢
    rw [get_eq_none fresh]
    obtain ⟨kept, vitals⟩ := quiet_run pass
      ((reconcileDurableState_performs closed).mono fun _ h => h.elim)
    exact undisturbed kept vitals
  · rw [same] at pass ⊢
    rw [get_append fresh named]
    have last := reconcileDurableState_run closed pass
    cases open_ : r.status.isTerminal with
    | true =>
        have idle : ¬ AsksDestination n r (crashed.nodes n) := fun asks => by
          have ended := asks.1
          rw [open_] at ended
          cases ended
        rw [onlyIf, if_neg (by simp [open_])] at last
        obtain ⟨kept, vitals⟩ := quiet_run last (.pure _)
        simp only [if_neg idle]
        exact undisturbed kept vitals
    | false =>
        rw [onlyIf, if_pos (by simp [open_])] at last
        have asks : AsksDestination n r ((restarted n verdict crashed).nodes n) ↔
            AsksDestination n r (crashed.nodes n) := by
          rw [node, asksDestination_reconcileRuntime]
          rfl
        rcases reconcileSource_run role open_ last refused with ⟨yes, done⟩ | ⟨no, kept, vitals⟩
        · simp only [if_pos (asks.mp yes)]
          rw [processes] at done
          exact done.accounted_iff
        · simp only [if_neg (mt asks.mpr no)]
          exact undisturbed kept vitals

end

/-! ## Two crashes -/

/-- Node `a` has opened its record. -/
def openedWorld : World :=
  sampleCluster.world.putRecord "a" (sourceRecord "a" sampleCall (sampleNode "a").registry)

/-- The crash comes before the task is stopped: the recorded process is the only one. -/
theorem earlyCrash_accounted : ∃ tr x,
    Reach (exec "a") (Elsewhere "a") (reconcileDurableState bareServices "a"
      ((restarted "a" { now := 0 } openedWorld).nodes "a").journal)
      (restarted "a" { now := 0 } openedWorld) tr (.done (.ok ())) x ∧ Accounted (x.nodes "a") := by
  have migrating : Reach (exec "a") (Elsewhere "a") (migrate bareServices "a" sampleCall)
      sampleCluster.world [(.getState, .ok 0), (.journalPut _, .ok 0)] _ openedWorld :=
    .perform rfl (.perform rfl .refl)
  have pass : Reach (exec "a") (Elsewhere "a") (reconcileDurableState bareServices "a"
      ((restarted "a" { now := 0 } openedWorld).nodes "a").journal)
      (restarted "a" { now := 0 } openedWorld)
      [(.getState, .ok 0), (.setRecordStatus "m" .rolledBack none
        (some "Migration ended before source quiesce"), .ok 0)]
      (.done (.ok ())) _ := .perform rfl (.perform rfl .refl)
  refine ⟨_, _, pass, ?_⟩
  have empty : ∀ r ∈ (sampleCluster.world.nodes "a").journal, False := fun r mem => by cases mem
  have refused : Refused [(.getState, .ok 0), (.setRecordStatus "m" .rolledBack none
      (some "Migration ended before source quiesce"), .ok 0)] :=
    ⟨fun c mem => by simp at mem, fun a mem => by cases mem⟩
  refine (sourceCrash_accounted_iff (congrArg NodeState.journal) (fun r mem => (empty r mem).elim)
    (fun r mem => (empty r mem).elim) migrating pass refused).mpr ⟨?_, ?_⟩
  · have found : (openedWorld.nodes "a").journal.get sampleCall.migrationId =
        some (sourceRecord "a" sampleCall (sampleNode "a").registry) := rfl
    have idle : ¬ AsksDestination "a" (sourceRecord "a" sampleCall (sampleNode "a").registry)
        (openedWorld.nodes "a") := by decide
    simp only [SafeCrash, found, if_neg idle]
    exact .inr ⟨1, rfl, rfl⟩
  · simp [leaks_cons, not_leaks_nil, isKeepOp]

def crashScript : List ClusterLabel :=
  [.call "a" (.migrate sampleCall) (.ok 0)] ++ proceed "a" 1 ++ [.perform "a" (.bindings [])] ++
    proceed "a" 1 ++ [.perform "a" (.bindings [])] ++ proceed "a" 4 ++ [.crash "a"]

def restartScript : List ClusterLabel :=
  [.event (.reconcileRuntime "a" { now := 0 }), .event (.beginPass "a")] ++ passScript

set_option maxRecDepth 100000 in
/-- The crash comes between `mark_migrating` and the stop of the task: the pass, which learns that
the destination does not know the migration, starts a second process. -/
theorem crashBeforeStop_startsTwice : ∃ v u,
    (cluster bareServices).run crashScript sampleCluster = some v ∧
    (cluster bareServices).run restartScript v = some u ∧
    (v.world.nodes "a").processes = [1] ∧ (v.world.nodes "a").registry.status = .migrating ∧
    (u.world.nodes "a").processes = [8, 1] ∧ (u.world.nodes "a").registry.pid = some 8 :=
  System.exists_runs (by decide)

end Magellan.MigrationService
