import Magellan.Migration.Outcome

/-!
# The commit point

When the destination has answered that it activated the task, the hand-over is committed. What a
later failure at the source does to it depends on how the answer arrived.
-/

namespace Magellan.MigrationService

open Coroutine Coro

/-- The response to the activation request says that the task is activated. -/
def isDirectAnswer : Op × Choice → Bool
  | (.awaitActivation _, .response r) => r.activated
  | _ => false

/-- An answer that says that the task is activated, to the request or to a poll. -/
def isCommitAnswer : Op × Choice → Bool
  | (.awaitStatus .., .answer (some r)) => r.status = .activated
  | x => isDirectAnswer x

def Committed (tr : List (Op × Choice)) : Prop := ∃ x ∈ tr, isCommitAnswer x = true

instance (tr : List (Op × Choice)) : Decidable (Committed tr) :=
  inferInstanceAs (Decidable (∃ x ∈ tr, _))

/-- The operations that take a hand-over back. -/
def isUndoOp : Op → Bool
  | .registry (.restoreLocalAfterFailure ..) | .registry (.restoreOriginal ..) | .spawn => true
  | .setRecordStatus _ .rolledBack _ _ => true
  | _ => false

def undoes (x : Op × Choice) : Bool := isUndoOp x.1 && !x.2.isFail

def Undone (tr : List (Op × Choice)) : Prop := ∃ x ∈ tr, undoes x = true

instance (tr : List (Op × Choice)) : Decidable (Undone tr) :=
  inferInstanceAs (Decidable (∃ x ∈ tr, _))

/-- What follows the first element with `p`. -/
def after {α : Type} (p : α → Bool) (l : List α) : List α := (l.dropWhile (!p ·)).tail

/-- The steps of the handler of a failure up to the one that takes the task back. -/
def handlerSteps (services : Services) : Nat := if services.experimentJournal then 2 else 1

/-- The handler got as far as taking the task back. -/
def HandlerActs (services : Services) (tr : List (Op × Choice)) : Prop :=
  handlerSteps services ≤ tr.length ∧ ∀ x ∈ tr.take (handlerSteps services), x.2.isFail = false

/-- After a direct answer a step raised, and then the first steps of the handler did not. -/
def FailsLate (services : Services) (tr : List (Op × Choice)) : Prop :=
  HandlerActs services (after (·.2.isFail) (after isDirectAnswer tr))

instance (tr : List (Op × Choice)) : Decidable (FailsLate services tr) :=
  inferInstanceAs (Decidable (_ ∧ ∀ x ∈ List.take _ _, _))

/-- A committed hand-over is taken back exactly if a step fails late. -/
def CommitPoint (services : Services) (tr : List (Op × Choice)) : Prop :=
  Committed tr → (¬ Undone tr ↔ ¬ FailsLate services tr)

section

variable {services : Services} {n : NodeId} {R : World → World → Prop} {w v : World}
  {tr tr' : List (Op × Choice)} {call : MigrateCall} {original : TaskRuntimeState}
  {bindings : List ArtifactBinding} {q : Async Bool}

theorem after_append {α : Type} {p : α → Bool} {l l' : List α} (h : ∀ x ∈ l, p x = false) :
    after p (l ++ l') = after p l' := by
  rw [after, after, List.dropWhile_append_of_pos (by simpa using h)]

theorem after_eq_nil {α : Type} {p : α → Bool} {l : List α} (h : ∀ x ∈ l, p x = false) :
    after p l = [] := by
  have drop : after p (l ++ []) = after p [] := after_append h
  rwa [List.append_nil] at drop

theorem after_cons {α : Type} {p : α → Bool} {x : α} {l : List α} (h : p x = true) :
    after p (x :: l) = l := by
  simp [after, h]

theorem handlerSteps_pos : 0 < handlerSteps services := by
  unfold handlerSteps
  split <;> decide

theorem not_handlerActs_nil : ¬ HandlerActs services [] := fun acts =>
  absurd acts.1 (Nat.not_le_of_gt handlerSteps_pos)

theorem CommitPoint.of_not_committed (h : ∀ x ∈ tr, isCommitAnswer x = false) :
    CommitPoint services tr := by
  rintro ⟨x, mem, answer⟩
  simp [h x mem] at answer

theorem not_undone (h : ∀ x ∈ tr, isUndoOp x.1 = false) : ¬ Undone tr := by
  rintro ⟨x, mem, undo⟩
  simp [undoes, h x mem] at undo

theorem not_direct_of_not_commit {x : Op × Choice} (h : isCommitAnswer x = false) :
    isDirectAnswer x = false := by
  obtain ⟨o, c⟩ := x
  cases o with
  | awaitActivation m => exact h
  | _ => rfl

theorem isCommitAnswer_of_not_isAwait {x : Op × Choice} (h : x.1.isAwait = false) :
    isCommitAnswer x = false := by
  obtain ⟨o, c⟩ := x
  cases o <;> first | rfl | cases h

theorem undoes_of_isUndoOp {x : Op × Choice} (h : isUndoOp x.1 = false) : undoes x = false := by
  simp [undoes, h]

theorem CommitPoint.prepend (noAnswer : ∀ x ∈ tr', isCommitAnswer x = false)
    (quiet : ∀ x ∈ tr', undoes x = false) (h : CommitPoint services tr) :
    CommitPoint services (tr' ++ tr) := by
  rintro ⟨x, mem, answer⟩
  have committed : Committed tr := by
    rcases List.mem_append.mp mem with mem | mem
    · simp [noAnswer x mem] at answer
    · exact ⟨x, mem, answer⟩
  have undone : Undone (tr' ++ tr) ↔ Undone tr := by
    constructor
    · rintro ⟨y, mem, undo⟩
      rcases List.mem_append.mp mem with mem | mem
      · simp [quiet y mem] at undo
      · exact ⟨y, mem, undo⟩
    · rintro ⟨y, mem, undo⟩
      exact ⟨y, List.mem_append_right _ mem, undo⟩
  rw [undone, h committed, FailsLate, FailsLate,
    after_append fun x mem => not_direct_of_not_commit (noAnswer x mem)]

theorem CommitPoint.cons {o : Op} {c : Choice} (noAwait : o.isAwait = false)
    (quiet : isUndoOp o = false) (h : CommitPoint services tr) :
    CommitPoint services ((o, c) :: tr) :=
  h.prepend (List.forall_mem_singleton.mpr (isCommitAnswer_of_not_isAwait noAwait))
    (List.forall_mem_singleton.mpr (undoes_of_isUndoOp quiet))

/-! ## The direct answer -/

theorem activateAttempts_trace {request : MigrationActivationRequest} {attempts : Nat}
    {lastError : String} {q : Async MigrationActivationResponse}
    (h : Reach (exec n) R (MigrationClient.activateAttempts request attempts lastError) w tr q v) :
    (∃ pre r, tr = pre ++ [(.awaitActivation request.migrationId, .response r)] ∧
      (∀ x ∈ pre, isCommitAnswer x = false) ∧ q = .done (.ok r)) ∨
    ((∀ x ∈ tr, isCommitAnswer x = false) ∧ ∀ r, q ≠ .done (.ok r)) := by
  induction attempts generalizing lastError w tr with
  | zero =>
      obtain ⟨rfl, rfl, -⟩ := Reach.done_inv h
      exact .inr ⟨by simp, by simp⟩
  | succ attempts ih =>
      rcases Reach.perform_inv h with ⟨rfl, rfl, -⟩ | ⟨c, tr, r, u, u', rfl, -, sent, h⟩
      · exact .inr ⟨by simp, by simp⟩
      rcases exec_cases sent with ⟨e, -, may, -⟩ | sent
      · cases may
      cases c with
      | ok now =>
          cases sent
          rcases Reach.perform_inv h with ⟨rfl, rfl, -⟩ | ⟨c, tr, r, u, u', rfl, -, received, h⟩
          · exact .inr ⟨by simp [isCommitAnswer, isDirectAnswer], by simp⟩
          obtain ⟨rfl, ⟨e, rfl, rfl⟩ | ⟨a, rfl, -, -, rfl⟩⟩ :=
            MigrationClient.exec_awaitActivation received
          · -- the failed attempt comes before whatever the rest of the loop does
            have prefixed : ∀ x ∈ [(Op.sendActivation request, Choice.ok now),
                (Op.awaitActivation request.migrationId, Choice.fail e)],
                isCommitAnswer x = false := by simp [isCommitAnswer, isDirectAnswer]
            have rest : Reach (exec n) R (if e.cls = .httpError ∨ e.cls = .valueError then
                MigrationClient.activateAttempts request attempts e.message else raise e) _ tr q v :=
              h
            split at rest
            · rcases ih rest with ⟨pre, r, rfl, none, ended⟩ | ⟨none, ended⟩
              · exact .inl ⟨_ :: _ :: pre, r, rfl, List.forall_mem_append.mpr ⟨prefixed, none⟩, ended⟩
              · exact .inr ⟨List.forall_mem_append.mpr ⟨prefixed, none⟩, ended⟩
            · obtain ⟨rfl, rfl, -⟩ := Reach.done_inv rest
              exact .inr ⟨prefixed, by simp⟩
          · obtain ⟨rfl, rfl, -⟩ := Reach.done_inv h
            exact .inl ⟨[_], a, rfl, by simp [isCommitAnswer, isDirectAnswer], rfl⟩
      | _ => cases sent

theorem isCommitAnswer_of_isHandOverOp {m : MigrationId} {x : Op × Choice}
    (h : isHandOverOp m x.1 = true) (noAwait : ∀ m, x.1 ≠ .awaitActivation m) :
    isCommitAnswer x = false := by
  obtain ⟨o, c⟩ := x
  cases o with
  | awaitActivation m => exact absurd rfl (noAwait m)
  | _ => first | rfl | cases h

theorem prepareActivation_noAwait :
    (prepareActivation services n call original bindings).Performs
      fun o => ∀ m, o ≠ .awaitActivation m :=
  .bind (.op (by simp)) fun _ => .bind (.op (by simp)) fun _ =>
    .bind (.ite (.op (by simp)) (.pure _)) fun _ => .bind (.ite (.op (by simp)) (.pure _)) fun _ =>
      .bind (.op (by simp)) fun _ => .bind (.ite (.op (by simp)) (.pure _)) fun _ =>
        .bind (.op (by simp)) fun _ => .pure _

theorem handOver_trace {q : Async Unit}
    (h : Reach (exec n) R (handOver services n call original bindings) w tr q v) :
    (∃ pre x, tr = pre ++ [x] ∧ isDirectAnswer x = true ∧
      (∀ y ∈ pre, isCommitAnswer y = false) ∧ q = .done (.ok ())) ∨
    ((∀ x ∈ tr, isCommitAnswer x = false) ∧ q ≠ .done (.ok ())) := by
  have preparing : ∀ {q' tr' w v}, Reach (exec n) R
      (prepareActivation services n call original bindings) w tr' q' v →
      ∀ x ∈ tr', isCommitAnswer x = false := fun h x mem =>
    isCommitAnswer_of_isHandOverOp (h.performs (prepareActivation_performs services n) x mem)
      (h.performs prepareActivation_noAwait x mem)
  rcases Reach.andThen_cases h with ⟨o, k, reach, rfl⟩ | ⟨r, tr₁, tr₂, u, rfl, reach, rest⟩
  · exact .inr ⟨preparing reach, by simp⟩
  have before := preparing reach
  cases r with
  | error e =>
      obtain ⟨rfl, rfl, -⟩ := Reach.done_inv rest
      exact .inr ⟨by simpa using before, by simp⟩
  | ok request =>
      rcases Reach.andThen_cases rest with ⟨o, k, reach, rfl⟩ | ⟨r, tr₂, tr₃, u', rfl, reach, rest⟩
      · rcases activateAttempts_trace reach with ⟨_, _, _, _, ended⟩ | ⟨none, -⟩
        · cases ended
        · exact .inr ⟨List.forall_mem_append.mpr ⟨before, none⟩, by simp⟩
      · rcases activateAttempts_trace reach with ⟨pre, r', rfl, none, ended⟩ | ⟨none, noAnswer⟩
        · cases ended
          dsimp only at rest
          split at rest
          · rename_i activated
            obtain ⟨rfl, rfl, -⟩ := Reach.done_inv rest
            refine .inl ⟨tr₁ ++ pre, (.awaitActivation request.migrationId, .response r'), by simp,
              activated,
              List.forall_mem_append.mpr ⟨before, none⟩, rfl⟩
          · rename_i rejected
            obtain ⟨rfl, rfl, -⟩ := Reach.done_inv rest
            refine .inr ⟨?_, by simp⟩
            simp only [List.append_nil]
            refine List.forall_mem_append.mpr ⟨before, List.forall_mem_append.mpr ⟨none, ?_⟩⟩
            simpa [isCommitAnswer, isDirectAnswer] using rejected
        · cases r with
          | ok r => exact absurd rfl (noAnswer r)
          | error e =>
              obtain ⟨rfl, rfl, -⟩ := Reach.done_inv rest
              refine .inr ⟨?_, by simp⟩
              simp only [List.append_nil]
              exact List.forall_mem_append.mpr ⟨before, none⟩

/-! ## After the direct answer -/

def isCommitOp : Op → Bool
  | .external _ | .getState | .getPolicy | .broadcast _ => true
  | .registry (.markRemote ..) | .setRecordStatus _ .activated _ _ => true
  | _ => false

theorem exec_isCommitOp {o : Op} {c : Choice} {e : Exn} (h : isCommitOp o = true)
    (raised : exec n o c w = some (.error e, v)) :
    c = .fail e ∧ e.cls ≠ .activationOutcomeUnknownError := by
  rcases exec_cases raised with ⟨e', rfl, may, eq, -⟩ | raised
  · cases eq
    refine ⟨rfl, fun unknown => ?_⟩
    have await := Op.isAwait_of_mayRaise may unknown
    cases o <;> simp_all [Op.isAwait, isCommitOp]
  · cases o with
    | registry op => cases op <;> first | (cases c <;> cases raised) | cases h
    | setRecordStatus m status pid error =>
        cases c <;> simp only [effect, reads, reduceCtorEq] at raised
        split at raised <;> cases raised
    | _ => first | (cases c <;> cases raised) | cases h

theorem commit_performs_isCommitOp :
    (commit services call original bindings).Performs (isCommitOp ·) :=
  commit_performs services (fun _ => rfl) ⟨rfl, rfl⟩ rfl (fun _ => rfl) rfl

theorem commit_failFast : (commit services call original bindings).FailFast :=
  .bind (.ite (.op _) (.pure _)) fun _ => .bind (.ite (.op _) (.pure _)) fun _ =>
    .bind (.bind (.op _) fun _ => .bind (.op _) fun _ => .bind (.ite (.op _) (.pure _)) fun _ =>
      .bind (.op _) fun _ => .op _) fun _ => .pure _

theorem isUndoOp_of_isCommitOp {o : Op} (h : isCommitOp o = true) : isUndoOp o = false := by
  cases o with
  | registry op => cases op <;> first | rfl | cases h
  | setRecordStatus m status pid error => cases status <;> first | rfl | cases h
  | _ => first | rfl | cases h

theorem withCleanup_activated {p : Async Bool}
    (h : Reach (exec n) R (withCleanup call true p) w tr q v) :
    ∃ q' v', Reach (exec n) R p w tr q' v' := by
  rcases Reach.andThen_cases h with ⟨o, k, reach, -⟩ | ⟨r, tr₁, tr₂, u, rfl, reach, rest⟩
  · exact ⟨_, _, reach⟩
  · obtain ⟨rfl, -, -⟩ := Reach.done_inv rest
    exact ⟨_, _, by simpa using reach⟩

theorem not_undone_cons {o : Op} {c : Choice} (h : isUndoOp o = false) :
    Undone ((o, c) :: tr) ↔ Undone tr := by
  simp [Undone, undoes, h]

theorem restoreLocal_trace {error : String} {generation : Nat} {f : TaskRuntimeState → Async Bool}
    (h : Reach (exec n) R
      (await (.registry (.restoreLocalAfterFailure generation error)) >>= f) w tr q v) :
    Undone tr ↔ 1 ≤ tr.length ∧ ∀ x ∈ tr.take 1, x.2.isFail = false := by
  rcases Reach.perform_inv h with ⟨rfl, -⟩ | ⟨c, tr, r, u, u', rfl, -, step, h⟩
  · simp [Undone]
  cases r with
  | error e =>
      obtain ⟨rfl, -, -⟩ := Reach.done_inv h
      rcases exec_cases step with ⟨e', rfl, -⟩ | step
      · simp [Undone, undoes, Choice.isFail]
      · cases c <;> cases step
  | ok state =>
      have returned : c.isFail = false := isFail_of_returned (x := (_, c)) ⟨u, state, u', step⟩
      simp [Undone, undoes, isUndoOp, returned]

theorem migrationFailed_trace {e : Exn} {sourceWasStopped : Bool}
    (h : Reach (exec n) R (migrationFailed services n call original sourceWasStopped e) w tr q v) :
    Undone tr ↔ HandlerActs services tr := by
  unfold migrationFailed onlyIf at h
  cases journal : services.experimentJournal with
  | false =>
      rw [if_neg (by simp [journal])] at h
      simpa [HandlerActs, handlerSteps, journal] using restoreLocal_trace h
  | true =>
      rw [if_pos journal] at h
      rcases Reach.perform_inv h with ⟨rfl, -⟩ | ⟨c, tr, r, u, u', rfl, -, step, h⟩
      · simp [HandlerActs, handlerSteps, journal, Undone]
      rw [not_undone_cons rfl]
      cases r with
      | error e =>
          obtain ⟨rfl, -, -⟩ := Reach.done_inv h
          simp [HandlerActs, handlerSteps, journal, Undone]
      | ok _ =>
          have returned : c.isFail = false := isFail_of_returned (x := (_, c)) ⟨u, _, u', step⟩
          rw [restoreLocal_trace h]
          simp [HandlerActs, handlerSteps, journal, returned]

/-- After a direct answer the source keeps the commit unless a step fails late. -/
theorem commit_trace
    (h : Reach (exec n) R ((commit services call original bindings).attempt
      (fun activated => withCleanup call true (pure activated))
      (onMigrateError services n call original bindings true true)) w tr q v) :
    Undone tr ↔ HandlerActs services (after (·.2.isFail) tr) := by
  have keeps : ∀ {q' tr' w v}, Reach (exec n) R (commit services call original bindings) w tr' q' v →
      ∀ x ∈ tr', isUndoOp x.1 = false := fun h x mem =>
    isUndoOp_of_isCommitOp (h.performs commit_performs_isCommitOp x mem)
  have quiet : ∀ {tr' : List (Op × Choice)}, (∀ x ∈ tr', isUndoOp x.1 = false) →
      (∀ x ∈ tr', Reach.Returned (exec n) x) →
      (Undone tr' ↔ HandlerActs services (after (·.2.isFail) tr')) := by
    intro tr' undo returned
    rw [after_eq_nil fun x mem => isFail_of_returned (returned x mem)]
    exact iff_of_false (not_undone undo) not_handlerActs_nil
  rcases Reach.andThen_cases h with ⟨o, k, reach, rfl⟩ | ⟨r, tr₁, tr₂, u, rfl, reach, rest⟩
  · rcases reach.failFast commit_failFast with ⟨returned, -⟩ | ⟨_, _, _, _, _, _, _, _, _, ended⟩
    · exact quiet (keeps reach) returned
    · cases ended
  · rcases reach.failFast commit_failFast with
      ⟨returned, succeeds⟩ | ⟨pre, o, c, e, u₁, u₂, rfl, returned, raised, ended⟩
    · cases r with
      | ok activated =>
          obtain ⟨q', v', rest⟩ := withCleanup_activated rest
          obtain ⟨rfl, -, -⟩ := Reach.done_inv rest
          simpa using quiet (keeps reach) returned
      | error e => exact absurd rfl (succeeds e)
    · cases ended
      have commits := reach.performs commit_performs_isCommitOp (o, c) (by simp)
      obtain ⟨rfl, known⟩ := exec_isCommitOp commits raised
      have failing : ∀ l : List (Op × Choice),
          after (·.2.isFail) (pre ++ [(o, .fail e)] ++ l) = l := fun l => by
        rw [List.append_assoc, after_append fun x mem => isFail_of_returned (returned x mem)]
        exact after_cons rfl
      have handled : Reach (exec n) R (withCleanup call true
          (migrationFailed services n call original true e)) u tr₂ q v := by
        simpa only [onMigrateError, if_neg known] using rest
      obtain ⟨q', v', handled⟩ := withCleanup_activated handled
      rw [failing, ← migrationFailed_trace handled]
      have before := keeps reach
      constructor
      · rintro ⟨x, mem, undo⟩
        rcases List.mem_append.mp mem with mem | mem
        · simp [undoes, before x mem] at undo
        · exact ⟨x, mem, undo⟩
      · rintro ⟨x, mem, undo⟩
        exact ⟨x, List.mem_append_right _ mem, undo⟩

/-! ## Before the answer -/

theorem isAwait_of_isStartOp {o : Op} (h : LocalProcess.isStartOp o = true) :
    o.isAwait = false := by
  cases o <;> first | rfl | cases h

theorem isAwait_of_isQuiesceOp {m : MigrationId} {o : Op} (h : isQuiesceOp m o = true) :
    o.isAwait = false := by
  cases o <;> first | rfl | cases h

theorem tryPrefetch_trace {r : Except Exn (Option (List ArtifactBinding))}
    (h : Reach (exec n) R (tryPrefetch call) w tr (.done r) v) :
    r = .ok none ∨ ∀ x ∈ tr, undoes x = false := by
  have quiet : ∀ {q' tr' w v}, Reach (exec n) R (prefetch call) w tr' q' v →
      ∀ x ∈ tr', undoes x = false := fun h x mem =>
    undoes_of_isUndoOp (h.performs (P := (isUndoOp · = false))
      (.bind (.op rfl) fun _ => .bind (.tryExcept (.op rfl) fun _ => .pure _) fun _ =>
        .bind (.op rfl) fun _ => .bind (.op rfl) fun _ => .bind (.op rfl) fun _ => .pure _) x mem)
  rcases Reach.andThen_cases h with ⟨o, k, -, ended⟩ | ⟨r', tr₁, tr₂, u, rfl, reach, rest⟩
  · cases ended
  cases r' with
  | ok bindings =>
      obtain ⟨rfl, -, -⟩ := Reach.done_inv rest
      exact .inr (by simpa using quiet reach)
  | error e =>
      rcases Reach.perform_inv rest with ⟨-, ended, -⟩ | ⟨c, tr₂, r', u', u'', rfl, -, step, rest⟩
      · cases ended
      cases r' with
      | ok _ =>
          obtain ⟨-, ended, -⟩ := Reach.done_inv rest
          cases ended
          exact .inl rfl
      | error e' =>
          obtain ⟨rfl, -, -⟩ := Reach.done_inv rest
          refine .inr (List.forall_mem_append.mpr ⟨quiet reach, ?_⟩)
          rcases exec_cases step with ⟨e'', rfl, -⟩ | step
          · simp [undoes, Choice.isFail]
          · cases c <;> simp only [effect, reads, reduceCtorEq] at step
            split at step <;> cases step

theorem quiesce_trace {r : Except Exn (Option (List ArtifactBinding))}
    (h : Reach (exec n) R (quiesce services call) w tr (.done r) v) :
    r = .ok none ∨ ∀ x ∈ tr, undoes x = false := by
  rcases Reach.andThen_cases h with ⟨o, k, -, ended⟩ | ⟨r', tr₁, tr₂, u, rfl, reach, rest⟩
  · cases ended
  have first := tryPrefetch_trace reach
  cases r' with
  | error e =>
      obtain ⟨rfl, ended, -⟩ := Reach.done_inv rest
      cases ended
      simpa using first
  | ok prefetched =>
      cases prefetched with
      | none =>
          obtain ⟨-, ended, -⟩ := Reach.done_inv rest
          cases ended
          exact .inl rfl
      | some bindings =>
          rcases first with no | quiet
          · cases no
          refine .inr (List.forall_mem_append.mpr ⟨quiet, fun x mem => undoes_of_isUndoOp ?_⟩)
          refine rest.performs (P := (isUndoOp · = false)) ?_ x mem
          refine .bind (.ite (.op rfl) (.pure _)) fun _ => .bind (.op rfl) fun _ =>
            .bind (.op rfl) fun _ => .bind (LocalProcess.stop_performs.mono fun o h => ?_)
              fun _ => .pure _
          cases o with
          | registry op => cases op <;> first | rfl | cases h
          | _ => first | rfl | cases h

/-! ## The answer to a poll -/

theorem onOutcome_noAwait {e : Exn} (r : Except Exn (Option MigrationRecord × Bool)) :
    (onOutcome services n call original bindings e r).Performs (Op.isAwait · = false) := by
  cases r with
  | error e' => exact withCleanup_performs (.raise _) fun _ _ _ => rfl
  | ok outcome =>
      refine .ite (withCleanup_performs (.bind ?_ fun _ => .pure _) fun _ _ _ => rfl)
        (.ite (withCleanup_performs (.bind ?_ fun _ => .pure _) fun _ _ _ => rfl)
          (withCleanup_performs (.bind (.op rfl) fun _ => .pure _) fun _ _ _ => rfl))
      · exact finalizeSourceSuccess_performs services ⟨rfl, rfl⟩ rfl (fun _ => rfl) rfl
      · exact rollbackMigration_performs n rfl (fun _ => isAwait_of_isStartOp) (fun _ _ => rfl)
          fun _ _ => rfl

/-- A hand-over that a poll confirmed is kept, whichever step fails. -/
theorem onOutcome_keeps {e : Exn} {outcome : Option MigrationRecord × Bool}
    (confirmed : confirmsActivation outcome = true) :
    (onOutcome services n call original bindings e (.ok outcome)).Performs
      (isUndoOp · = false) := by
  simp only [onOutcome, resolveOutcome, confirmed, if_true]
  exact withCleanup_performs (.bind
    (finalizeSourceSuccess_performs services ⟨rfl, rfl⟩ rfl (fun _ => rfl) rfl) fun _ => .pure _)
    fun _ _ _ => rfl

theorem isUndoOp_of_isQueryOp {o : Op} (h : isQueryOp o = true) : isUndoOp o = false := by
  cases o <;> first | rfl | cases h

theorem isDirectAnswer_of_isQueryOp {x : Op × Choice} (h : isQueryOp x.1 = true) :
    isDirectAnswer x = false := by
  obtain ⟨o, c⟩ := x
  cases o <;> first | rfl | cases h

theorem shows_of_committed {d : NodeId} {m : MigrationId}
    {q : Async (Option MigrationRecord × Bool)}
    (h : Reach (exec n) R (queryRemoteOutcome d m) w tr q v) (committed : Committed tr) :
    Shows (polls tr) .activated := by
  obtain ⟨⟨o, c⟩, mem, answer⟩ := committed
  have query := h.performs queryRemoteOutcome_performs _ mem
  cases o with
  | awaitStatus d m =>
      cases c with
      | answer a =>
          cases a with
          | none => cases answer
          | some r =>
              exact ⟨r, List.mem_filterMap.mpr ⟨_, mem, rfl⟩, by simpa [isCommitAnswer] using answer⟩
      | _ => cases answer
  | _ => first | cases answer | cases query

theorem queryOutcome_commitPoint {d : NodeId} {m : MigrationId} {e : Exn}
    (h : Reach (exec n) R ((queryRemoteOutcome d m).andThen
      (onOutcome services n call original bindings e)) w tr q v) : CommitPoint services tr := by
  have quiet : ∀ {q' tr' w v}, Reach (exec n) R (queryRemoteOutcome d m) w tr' q' v →
      (∀ x ∈ tr', isUndoOp x.1 = false) ∧ ∀ x ∈ tr', isDirectAnswer x = false := fun h =>
    forall₂_and.mp fun x mem =>
      have query := h.performs queryRemoteOutcome_performs x mem
      ⟨isUndoOp_of_isQueryOp query, isDirectAnswer_of_isQueryOp query⟩
  have indirect : ∀ {tr' : List (Op × Choice)}, (∀ x ∈ tr', isDirectAnswer x = false) →
      ¬ Undone tr' → (¬ Undone tr' ↔ ¬ FailsLate services tr') := fun direct kept =>
    iff_of_true kept (by
      rw [FailsLate, after_eq_nil direct]
      exact not_handlerActs_nil)
  intro committed
  rcases Reach.andThen_cases h with ⟨o, k, reach, -⟩ | ⟨r, tr₁, tr₂, u, rfl, reach, rest⟩
  · exact indirect (quiet reach).2 (not_undone (quiet reach).1)
  have noAnswer : ∀ x ∈ tr₂, isCommitAnswer x = false := fun x mem =>
    isCommitAnswer_of_not_isAwait (rest.performs (onOutcome_noAwait r) x mem)
  have shown : Committed tr₁ := by
    obtain ⟨x, mem, answer⟩ := committed
    rcases List.mem_append.mp mem with mem | mem
    · exact ⟨x, mem, answer⟩
    · simp [noAnswer x mem] at answer
  obtain ⟨-, ends, result⟩ := queryRemoteOutcome_trace reach
  cases result r rfl
  have confirmed := confirmsActivation_of_shows ends (shows_of_committed reach shown)
  refine indirect (List.forall_mem_append.mpr ⟨(quiet reach).2, fun x mem =>
    not_direct_of_not_commit (noAnswer x mem)⟩) (not_undone (List.forall_mem_append.mpr
      ⟨(quiet reach).1, rest.performs (onOutcome_keeps confirmed)⟩))

theorem outcomeUnknown_commitPoint {e : Exn}
    (h : Reach (exec n) R (outcomeUnknown services n call original bindings e) w tr q v) :
    CommitPoint services tr := by
  rw [outcomeUnknown_eq] at h
  rcases Reach.perform_inv h with ⟨rfl, -⟩ | ⟨c, tr, r, u, u', rfl, -, -, h⟩
  · exact .of_not_committed (by simp)
  refine .cons rfl rfl ?_
  cases r with
  | ok _ => exact queryOutcome_commitPoint h
  | error e' =>
      exact .of_not_committed fun x mem => isCommitAnswer_of_not_isAwait (h.performs
        (P := (Op.isAwait · = false)) (withCleanup_performs (.raise _) fun _ _ _ => rfl) x mem)

theorem onMigrateError_commitPoint {sourceWasStopped activated : Bool} {e : Exn}
    (h : Reach (exec n) R
      (onMigrateError services n call original bindings sourceWasStopped activated e) w tr q v) :
    CommitPoint services tr := by
  unfold onMigrateError at h
  split at h
  · exact outcomeUnknown_commitPoint h
  · exact .of_not_committed fun x mem => isCommitAnswer_of_not_isAwait (h.performs
      (P := (Op.isAwait · = false)) (withCleanup_performs (migrationFailed_performs services n
        (fun _ => rfl) (fun _ => isAwait_of_isStartOp) rfl rfl) fun _ _ _ => rfl) x mem)

/-! ## The migration -/

theorem isUndoOp_of_isHandOverOp {m : MigrationId} {o : Op} (h : isHandOverOp m o = true) :
    isUndoOp o = false := by
  cases o with
  | setRecordStatus m status pid error => cases status <;> first | rfl | cases h
  | _ => first | rfl | cases h

theorem handOver_commitPoint
    (h : Reach (exec n) R ((handOver services n call original bindings).attempt
      (fun _ => (commit services call original bindings).attempt
        (fun activated => withCleanup call true (pure activated))
        (onMigrateError services n call original bindings true true))
      (onMigrateError services n call original bindings true false)) w tr q v) :
    CommitPoint services tr := by
  have kept : ∀ {q' tr' w v},
      Reach (exec n) R (handOver services n call original bindings) w tr' q' v →
      ∀ x ∈ tr', isUndoOp x.1 = false := fun h x mem =>
    isUndoOp_of_isHandOverOp (h.performs (handOver_performs services n) x mem)
  rcases Reach.andThen_cases h with ⟨o, k, reach, -⟩ | ⟨r, tr₁, tr₂, u, rfl, reach, rest⟩
  · rcases handOver_trace reach with ⟨_, _, _, _, _, ended⟩ | ⟨none, -⟩
    · cases ended
    · exact .of_not_committed none
  rcases handOver_trace reach with ⟨pre, x, rfl, direct, none, ended⟩ | ⟨none, failed⟩
  · -- the response says activated
    cases ended
    intro _
    have answered : after isDirectAnswer (pre ++ [x] ++ tr₂) = tr₂ := by
      rw [List.append_assoc, after_append fun y mem => not_direct_of_not_commit (none y mem)]
      exact after_cons direct
    have undone : Undone (pre ++ [x] ++ tr₂) ↔ Undone tr₂ := by
      constructor
      · rintro ⟨y, mem, undo⟩
        rcases List.mem_append.mp mem with mem | mem
        · simp [undoes, kept reach y mem] at undo
        · exact ⟨y, mem, undo⟩
      · rintro ⟨y, mem, undo⟩
        exact ⟨y, List.mem_append_right _ mem, undo⟩
    rw [FailsLate, answered, undone]
    exact not_congr (commit_trace rest)
  · refine .prepend none (fun x mem => undoes_of_isUndoOp (kept reach x mem)) ?_
    cases r with
    | ok _ => exact absurd rfl failed
    | error e => exact onMigrateError_commitPoint rest

theorem migrate_commitPoint (h : Reach (exec n) R (migrate services n call) w tr q v) :
    CommitPoint services tr := by
  rcases Reach.perform_inv h with ⟨rfl, -⟩ | ⟨c, tr, r, u, u', rfl, -, -, h⟩
  · exact .of_not_committed (by simp)
  refine .cons rfl rfl ?_
  have ended : ∀ {p : Async Bool} {u tr}, Reach (exec n) R p u tr q v →
      p.Performs (Op.isAwait · = false) → CommitPoint services tr := fun h noAwait =>
    .of_not_committed fun x mem => isCommitAnswer_of_not_isAwait (h.performs noAwait x mem)
  cases r with
  | error e => exact ended h (.raise _)
  | ok original =>
      dsimp only [andThen_done] at h
      split at h
      · exact ended h (.pure _)
      rcases Reach.perform_inv h with ⟨rfl, -⟩ | ⟨c, tr, r, u, u', rfl, -, -, h⟩
      · exact .of_not_committed (by simp)
      refine .cons rfl rfl ?_
      cases r with
      | error e => exact ended h (.raise _)
      | ok _ =>
          dsimp only [andThen_done] at h
          have quiescing : ∀ {q' tr' w v}, Reach (exec n) R (quiesce services call) w tr' q' v →
              ∀ x ∈ tr', isCommitAnswer x = false := fun h x mem =>
            isCommitAnswer_of_not_isAwait
              (isAwait_of_isQuiesceOp (h.performs (quiesce_performs services) x mem))
          rcases Reach.andThen_cases h with ⟨o, k, reach, -⟩ | ⟨r, tr₁, tr₂, u, rfl, reach, rest⟩
          · exact .of_not_committed (quiescing reach)
          rcases quiesce_trace reach with rfl | quiet
          · have finished : (withCleanup call false (pure false)).Performs (Op.isAwait · = false) :=
              withCleanup_performs (.pure _) fun _ _ _ => rfl
            exact .of_not_committed (List.forall_mem_append.mpr ⟨quiescing reach, fun x mem =>
              isCommitAnswer_of_not_isAwait (rest.performs finished x mem)⟩)
          refine .prepend (quiescing reach) quiet ?_
          cases r with
          | error e => exact onMigrateError_commitPoint rest
          | ok prefetched =>
              cases prefetched with
              | none => exact ended rest (withCleanup_performs (.pure _) fun _ _ _ => rfl)
              | some bindings => exact handOver_commitPoint rest

/-- A hand-over that the destination has confirmed is never taken back if and only if no step fails
late. -/
theorem commit_point (h : Reach (exec n) R (migrate services n call) w tr q v)
    (committed : Committed tr) : ¬ Undone tr ↔ ¬ FailsLate services tr :=
  migrate_commitPoint h committed

end

/-! ## A step that fails late -/

def activatedResponse : MigrationActivationResponse where
  migrationId := "m"
  taskId := "t"
  destinationNodeId := "b"
  generation := 1
  activated := true

/-- Node `a` owns the task, and the destination has activated it. -/
def answeredWorld : World := { sampleWorld .running [] with responses := [activatedResponse] }

def storeFull : Exn := ⟨.osError, "No space left on device"⟩

/-- Up to the response. -/
def toResponse : List Choice :=
  [.ok 0, .ok 0, .bindings [], .ok 0, .bindings [], .ok 0, .ok 0, .ok 0, .ok 0, .ok 0, .ok 0,
    .ok 0, .ok 0, .ok 0, .ok 0, .ok 0, .response activatedResponse]

/-- `mark_remote` raises, and the handler starts the task. -/
def lateFailure : List Choice :=
  [.fail storeFull, .ok 0, .bindings [], .ok 0, .ok 0, .ok 0, .plan ⟨"python", [], true⟩, .ok 0,
    .spawned 7, .ok 0, .ok 0, .ok 0]

/-- The destination activated the task and said so: the source owns it again, runs it again and
records that the migration was rolled back. -/
theorem lateFailure_takesBack : ∃ tr q v,
    Reach (exec "a") (fun _ _ => False) (migrate bareServices "a" sampleCall) answeredWorld tr q v ∧
    q.outcome? = some (.ok false) ∧ Committed tr ∧ Undone tr ∧
    (v.nodes "a").registry.ownership = ⟨0, "a"⟩ ∧ (v.nodes "a").registry.status = .running ∧
    (v.nodes "a").processes = [7] ∧
    ((v.nodes "a").journal.get "m").map (·.status) = some .rolledBack :=
  exists_reach_of_replay (toResponse ++ lateFailure) (by decide)

/-- Without a late failure the same answer is kept. -/
theorem commit_point_kept : ∃ tr q v,
    Reach (exec "a") (fun _ _ => False) (migrate bareServices "a" sampleCall) answeredWorld tr q v ∧
    q.outcome? = some (.ok true) ∧ Committed tr ∧ ¬ Undone tr := by
  have run : ∃ tr q v, Reach (exec "a") (fun _ _ => False)
      (migrate bareServices "a" sampleCall) answeredWorld tr q v ∧
      q.outcome? = some (.ok true) ∧ Committed tr ∧ ¬ FailsLate bareServices tr :=
    exists_reach_of_replay (toResponse ++ [.ok 0, .ok 0, .ok 0, .ok 0]) (by decide)
  obtain ⟨tr, q, v, h, ended, committed, onTime⟩ := run
  exact ⟨tr, q, v, h, ended, committed, (commit_point h committed).mpr onTime⟩

end Magellan.MigrationService
