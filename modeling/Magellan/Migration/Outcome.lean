import Magellan.Migration.Footprint
import Magellan.Migration.Polling

/-!
# Resolving an unknown outcome

Both places that resolve an unknown outcome do so soundly, unless the answers are misread.
-/

namespace Magellan.MigrationService

open Coroutine Coro

/-! ## The call sites -/

section

variable (services : Services) (n : NodeId)

theorem isPoll_of_isStartOp {o : Op} (h : LocalProcess.isStartOp o = true) : isPoll o = false := by
  cases o <;> first | rfl | cases h

/-- Reconciliation, from the result of the polls on. -/
def onRecordOutcome (record : MigrationRecord) :
    Except Exn (Option MigrationRecord × Bool) → Async Unit
  | .ok outcome => resolveRecord services n record outcome
  | .error e => raise e

theorem onRecordOutcome_decides (record : MigrationRecord) :
    Decides record.migrationId (onRecordOutcome services n record) where
  noPolls o := .ite
    (finalizeSourceSuccess_performs (P := (isPoll · = false)) services ⟨rfl, rfl⟩ rfl
      (fun _ => rfl) rfl)
    (.ite (rollbackSourceRecord_performs (P := (isPoll · = false)) n (fun _ => isPoll_of_isStartOp)
      rfl rfl) (.op rfl))
  finalizes o h := ⟨_, _, _, _, by simp only [onRecordOutcome, resolveRecord, h, if_true]; rfl⟩
  keeps o h := by
    have finalize : (finalizeSourceSuccess services record.destinationNodeId record.migrationId
        record.generation record.migrationAtUtc []).Performs (isRollback · = false) :=
      finalizeSourceSuccess_performs services ⟨rfl, rfl⟩ rfl (fun _ => rfl) rfl
    rcases h with h | h
    · simpa only [onRecordOutcome, resolveRecord, h, if_true] using finalize
    · simp only [onRecordOutcome, resolveRecord, h]
      exact .ite finalize (.op rfl)

variable {call : MigrateCall} {original : TaskRuntimeState} {bindings : List ArtifactBinding}

/-- The handler of an unknown outcome, from the result of the polls on. -/
def onOutcome (call : MigrateCall) (original : TaskRuntimeState) (bindings : List ArtifactBinding)
    (e : Exn) : Except Exn (Option MigrationRecord × Bool) → Async Bool
  | .ok outcome => resolveOutcome services n call original bindings e outcome
  | .error e => withCleanup call false (raise e)

theorem outcomeUnknown_eq (e : Exn) :
    outcomeUnknown services n call original bindings e =
      .perform (.setRecordStatus call.migrationId .uncertain none (some e.describe)) fun
        | .ok _ => (queryRemoteOutcome call.destinationNodeId call.migrationId).andThen
            (onOutcome services n call original bindings e)
        | .error e' => withCleanup call false (raise e') := by
  refine congrArg (Coro.perform _) (funext fun r => ?_)
  cases r with
  | error e' => rfl
  | ok _ => exact congrArg (andThen _) (funext fun r => by cases r <;> rfl)

theorem onOutcome_decides (e : Exn) :
    Decides call.migrationId (onOutcome services n call original bindings e) where
  noPolls o := .ite
    (withCleanup_performs (.bind
      (finalizeSourceSuccess_performs (P := (isPoll · = false)) services ⟨rfl, rfl⟩ rfl
        (fun _ => rfl) rfl) fun _ => .pure _) fun _ _ _ => rfl)
    (.ite
      (withCleanup_performs (.bind
        (rollbackMigration_performs (P := (isPoll · = false)) n rfl (fun _ => isPoll_of_isStartOp)
          (fun _ _ => rfl) (fun _ _ => rfl)) fun _ => .pure _) fun _ _ _ => rfl)
      (withCleanup_performs (.bind (.op rfl) fun _ => .pure _) fun _ _ _ => rfl))
  finalizes o h := ⟨_, _, _, _, by simp only [onOutcome, resolveOutcome, h, if_true]; rfl⟩
  keeps o h := by
    have finalize : (withCleanup call true do
        finalizeSourceSuccess services call.destinationNodeId call.migrationId
          (original.generation + 1) call.migrationAtUtc bindings
        pure true).Performs (isRollback · = false) :=
      withCleanup_performs (.bind
        (finalizeSourceSuccess_performs (P := (isRollback · = false)) services ⟨rfl, rfl⟩ rfl
          (fun _ => rfl) rfl) fun _ => .pure _) fun _ _ _ => rfl
    rcases h with h | h
    · simpa only [onOutcome, resolveOutcome, h, if_true] using finalize
    · simp only [onOutcome, resolveOutcome, h]
      exact .ite finalize
        (withCleanup_performs (.bind (.op rfl) fun _ => .pure _) fun _ _ _ => rfl)

/-! ## The traces -/

variable {R : World → World → Prop} {w v : World} {tr tr' : List (Op × Choice)} {q : Async Bool}

theorem outcomeUnknown_sound {e : Exn}
    (h : Reach (exec n) R (outcomeUnknown services n call original bindings e) w tr q v)
    (read : ¬ Misread (polls tr)) : OutcomeSound call.migrationId tr (∃ r, q = .done r) := by
  rw [outcomeUnknown_eq] at h
  rcases Reach.perform_inv h with ⟨rfl, -⟩ | ⟨c, tr, r, u, u', rfl, -, -, h⟩
  · exact .of_polls_nil rfl
  · refine .cons rfl rfl ?_
    cases r with
    | ok _ => exact (onOutcome_decides services n e).sound h read
    | error e' =>
        exact .of_polls_nil (polls_eq_nil (h.performs
          (withCleanup_performs (P := (isPoll · = false)) (.raise _) fun _ _ _ => rfl)))

/-- A trace of `migrate` that polls goes through the handler of an unknown outcome, and nothing is
rolled back before. -/
def Resolves (call : MigrateCall) (R : World → World → Prop) (tr : List (Op × Choice))
    (q : Async Bool) (v : World) : Prop :=
  polls tr = [] ∨ ∃ tr₁ tr₂ u original bindings e, tr = tr₁ ++ tr₂ ∧
    (∀ x ∈ tr₁, isPoll x.1 = false) ∧ (∀ x ∈ tr₁, isRollback x.1 = false) ∧
      Reach (exec n) R (outcomeUnknown services n call original bindings e) u tr₂ q v

variable {services n}

theorem Resolves.of_performs {p : Async Bool} (h : Reach (exec n) R p w tr q v)
    (noPolls : p.Performs (isPoll · = false)) :
    Resolves services n call R tr q v :=
  .inl (polls_eq_nil (h.performs noPolls))

theorem Resolves.prepend (noPolls : ∀ x ∈ tr', isPoll x.1 = false)
    (quiet : ∀ x ∈ tr', isRollback x.1 = false)
    (h : Resolves services n call R tr q v) :
    Resolves services n call R (tr' ++ tr) q v := by
  rcases h with h | ⟨tr₁, tr₂, u, original, bindings, e, rfl, noPolls', quiet', h⟩
  · exact .inl (by simp [h, polls_eq_nil noPolls])
  · exact .inr ⟨tr' ++ tr₁, tr₂, u, original, bindings, e, (List.append_assoc ..).symm,
      List.forall_mem_append.mpr ⟨noPolls, noPolls'⟩, List.forall_mem_append.mpr ⟨quiet, quiet'⟩, h⟩

theorem Resolves.cons {o : Op} {c : Choice} (noPoll : isPoll o = false)
    (quiet : isRollback o = false) (h : Resolves services n call R tr q v) :
    Resolves services n call R ((o, c) :: tr) q v :=
  h.prepend (List.forall_mem_singleton.mpr noPoll) (List.forall_mem_singleton.mpr quiet)

theorem onMigrateError_resolves {sourceWasStopped activated : Bool} {e : Exn}
    (h : Reach (exec n) R
      (onMigrateError services n call original bindings sourceWasStopped activated e) w tr q v) :
    Resolves services n call R tr q v := by
  unfold onMigrateError at h
  split at h
  · exact .inr ⟨[], tr, w, original, bindings, e, rfl, by simp, by simp, h⟩
  · exact .of_performs h (withCleanup_performs (P := (isPoll · = false))
      (migrationFailed_performs services n (fun _ => rfl) (fun _ => isPoll_of_isStartOp) rfl rfl)
      fun _ _ _ => rfl)

theorem isPoll_of_isQuiesceOp {m : MigrationId} {o : Op} (h : isQuiesceOp m o = true) :
    isPoll o = false ∧ isRollback o = false := by
  cases o with
  | registry op => cases op <;> first | exact ⟨rfl, rfl⟩ | cases h
  | _ => first | exact ⟨rfl, rfl⟩ | cases h

theorem isPoll_of_isHandOverOp {m : MigrationId} {o : Op} (h : isHandOverOp m o = true) :
    isPoll o = false ∧ isRollback o = false := by
  cases o <;> first | exact ⟨rfl, rfl⟩ | cases h

theorem handOver_resolves
    (h : Reach (exec n) R ((handOver services n call original bindings).attempt
      (fun _ => (commit services call original bindings).attempt
        (fun activated => withCleanup call true (pure activated))
        (onMigrateError services n call original bindings true true))
      (onMigrateError services n call original bindings true false)) w tr q v) :
    Resolves services n call R tr q v := by
  have handingOver : ∀ {q'} {tr' : List (Op × Choice)} {w v},
      Reach (exec n) R (handOver services n call original bindings) w tr' q' v →
      (∀ x ∈ tr', isPoll x.1 = false) ∧ ∀ x ∈ tr', isRollback x.1 = false :=
    fun h => forall₂_and.mp fun x mem =>
      isPoll_of_isHandOverOp (h.performs (handOver_performs services n) x mem)
  have committing : ∀ {q'} {tr' : List (Op × Choice)} {w v},
      Reach (exec n) R (commit services call original bindings) w tr' q' v →
      (∀ x ∈ tr', isPoll x.1 = false) ∧ ∀ x ∈ tr', isRollback x.1 = false := fun h =>
    forall₂_and.mp fun x mem => h.performs (P := fun o => isPoll o = false ∧ isRollback o = false)
      (commit_performs services (fun _ => ⟨rfl, rfl⟩) ⟨⟨rfl, rfl⟩, rfl, rfl⟩ ⟨rfl, rfl⟩
        (fun _ => ⟨rfl, rfl⟩) ⟨rfl, rfl⟩) x mem
  rcases Reach.andThen_cases h with ⟨o, k, reach, rfl⟩ | ⟨r, tr₁, tr₂, u, rfl, reach, rest⟩
  · exact .inl (polls_eq_nil (handingOver reach).1)
  refine .prepend (handingOver reach).1 (handingOver reach).2 ?_
  cases r with
  | error e => exact onMigrateError_resolves rest
  | ok _ =>
      rcases Reach.andThen_cases rest with ⟨o, k, reach, rfl⟩ | ⟨r, tr₁, tr₂, u, rfl, reach, rest⟩
      · exact .inl (polls_eq_nil (committing reach).1)
      refine .prepend (committing reach).1 (committing reach).2 ?_
      cases r with
      | error e => exact onMigrateError_resolves rest
      | ok activated =>
          exact .of_performs rest (withCleanup_performs (.pure _) fun _ _ _ => rfl)

theorem migrate_resolves (h : Reach (exec n) R (migrate services n call) w tr q v) :
    Resolves services n call R tr q v := by
  rcases Reach.perform_inv h with ⟨rfl, -⟩ | ⟨c, tr, r, u, u', rfl, -, -, h⟩
  · exact .inl rfl
  refine .cons rfl rfl ?_
  cases r with
  | error e => exact .of_performs h (.raise _)
  | ok original =>
      dsimp only [andThen_done] at h
      split at h
      · exact .of_performs h (.pure _)
      rcases Reach.perform_inv h with ⟨rfl, -⟩ | ⟨c, tr, r, u, u', rfl, -, -, h⟩
      · exact .inl rfl
      refine .cons rfl rfl ?_
      cases r with
      | error e => exact .of_performs h (.raise _)
      | ok _ =>
          dsimp only [andThen_done] at h
          have quiescing : ∀ {q'} {tr' : List (Op × Choice)} {w v},
              Reach (exec n) R (quiesce services call) w tr' q' v →
              (∀ x ∈ tr', isPoll x.1 = false) ∧ ∀ x ∈ tr', isRollback x.1 = false :=
            fun h => forall₂_and.mp fun x mem =>
              isPoll_of_isQuiesceOp (h.performs (quiesce_performs services) x mem)
          rcases Reach.andThen_cases h with ⟨o, k, reach, rfl⟩ | ⟨r, tr₁, tr₂, u, rfl, reach, rest⟩
          · exact .inl (polls_eq_nil (quiescing reach).1)
          refine .prepend (quiescing reach).1 (quiescing reach).2 ?_
          cases r with
          | error e => exact onMigrateError_resolves rest
          | ok prefetched =>
              cases prefetched with
              | none =>
                  exact .of_performs rest (withCleanup_performs (.pure _) fun _ _ _ => rfl)
              | some bindings =>
                  exact handOver_resolves rest

theorem migrate_outcome_sound (h : Reach (exec n) R (migrate services n call) w tr q v)
    (read : ¬ Misread (polls tr)) : OutcomeSound call.migrationId tr (∃ r, q = .done r) := by
  rcases migrate_resolves h with none | ⟨tr₁, tr₂, u, original, bindings, e, rfl, noPolls, quiet, h⟩
  · exact .of_polls_nil none
  · rw [polls_append, polls_eq_nil noPolls] at read
    exact (outcomeUnknown_sound services n h read).prepend noPolls quiet

theorem reconcileSource_outcome_sound {record : MigrationRecord} {q : Async Unit}
    (h : Reach (exec n) R (reconcileSourceRecord services n record) w tr q v)
    (read : ¬ Misread (polls tr)) : OutcomeSound record.migrationId tr (∃ r, q = .done r) := by
  rcases Reach.perform_inv h with ⟨rfl, -⟩ | ⟨c, tr, r, u, u', rfl, -, -, h⟩
  · exact .of_polls_nil rfl
  refine .cons rfl rfl ?_
  cases r with
  | error e =>
      exact .of_polls_nil (polls_eq_nil (h.performs (P := (isPoll · = false)) (.raise _)))
  | ok state =>
      dsimp only [andThen_done] at h
      split at h
      · exact .of_polls_nil (polls_eq_nil (h.performs (P := (isPoll · = false)) (.op rfl)))
      split at h
      · exact .of_polls_nil (polls_eq_nil (h.performs (P := (isPoll · = false)) (.op rfl)))
      have eq : (queryRemoteOutcome record.destinationNodeId record.migrationId >>=
          resolveRecord services n record) =
            (queryRemoteOutcome record.destinationNodeId record.migrationId).andThen
              (onRecordOutcome services n record) :=
        congrArg (andThen _) (funext fun r => by cases r <;> rfl)
      exact (onRecordOutcome_decides services n record).sound (eq ▸ h) read

end

/-! ## Runs that misread -/

def lost : Exn := ⟨.activationOutcomeUnknownError, "lost"⟩

/-- The messages that answer the polls of `m` like this. -/
def answersOf (d : NodeId) (m : MigrationId) (answers : List PollAnswer) :
    List (NodeId × MigrationId × Option MigrationRecord) :=
  answers.filterMap fun
    | .record r => some (d, m, some r)
    | .notFound => some (d, m, none)
    | .unreachable => none

theorem pollOutcome_run {n d : NodeId} {m : MigrationId} {R : World → World → Prop} {w : World}
    {answers : List PollAnswer} (outcome : Option MigrationRecord × Bool)
    (inProgress : ∀ r, .record r ∈ answers → r.status.isTerminal = false)
    (sent : answersOf d m answers ⊆ w.answers) :
    ∃ tr v, polls tr = answers ∧ v.nodes = w.nodes ∧
      Reach (exec n) R (pollOutcome d m answers.length outcome.1 outcome.2) w tr
        (.done (.ok (resolve answers outcome))) v := by
  induction answers generalizing outcome w with
  | nil => exact ⟨[], w, rfl, rfl, .refl⟩
  | cons a answers ih =>
      have sent' : answersOf d m answers ⊆ w.answers := fun x mem => sent (by
        simp only [answersOf, List.mem_filterMap, List.mem_cons] at mem ⊢
        obtain ⟨b, mem, eq⟩ := mem
        exact ⟨b, .inr mem, eq⟩)
      obtain ⟨tr, v, answered, same, rest⟩ := ih (a.record?, a.isAnswered || outcome.2)
        (w := { w with queries := (d, m) :: w.queries })
        (fun r mem => inProgress r (List.mem_cons_of_mem _ mem)) sent'
      cases a with
      | record r =>
          have here : (d, m, some r) ∈ { w with queries := (d, m) :: w.queries }.answers :=
            sent (by simp [answersOf])
          have goesOn : (some r).any (·.status.isTerminal) = false := inProgress r (by simp)
          refine ⟨(.sendStatusQuery d m, .ok 0) :: (.awaitStatus d m, .answer (some r)) :: tr, v,
            congrArg (PollAnswer.record r :: ·) answered, same,
            .perform rfl (.perform (MigrationClient.exec_awaitStatus_answer here) ?_)⟩
          simp only [andThen_done, goesOn, Bool.false_eq_true, if_false]
          exact rest
      | notFound =>
          have here : (d, m, none) ∈ { w with queries := (d, m) :: w.queries }.answers :=
            sent (by simp [answersOf])
          exact ⟨(.sendStatusQuery d m, .ok 0) :: (.awaitStatus d m, .answer none) :: tr, v,
            congrArg (PollAnswer.notFound :: ·) answered, same,
            .perform rfl (.perform (MigrationClient.exec_awaitStatus_answer here) rest)⟩
      | unreachable =>
          exact ⟨(.sendStatusQuery d m, .ok 0) :: (.awaitStatus d m, .fail lost) :: tr, v,
            congrArg (PollAnswer.unreachable :: ·) answered, same,
            .perform rfl (.perform rfl rest)⟩
def bareServices : Services where
  accountingService := false
  telemetryStore := false
  adaptivePolicyStore := false
  experimentJournal := false

def sampleCall : MigrateCall := ⟨"b", 0, "bid", "m"⟩

def sampleRecord : MigrationRecord where
  migrationId := "m"
  bidId := "bid"
  taskId := "t"
  sourceNodeId := "a"
  destinationNodeId := "b"
  generation := 1
  migrationAtUtc := 0
  role := .source
  status := .activating

/-- Node `a` owns the task, and these answers are on their way to it. -/
def sampleWorld (status : TaskStatus) (answers : List PollAnswer) : World where
  nodes _ := {
    registry := { taskId := "t", ownerNodeId := "a", status }
    checkpoint := some [] }
  answers := answersOf "b" "m" answers

theorem migrate_loses_outcome (R : World → World → Prop) (answers : List PollAnswer) :
    ∃ tr original v, polls tr = [] ∧ v.answers = answersOf "b" "m" answers ∧
      ((v.nodes "a").journal.get "m").isSome = true ∧
      Reach (exec "a") R (migrate bareServices "a" sampleCall) (sampleWorld .running answers) tr
        (outcomeUnknown bareServices "a" sampleCall original [] lost) v := by
  refine ⟨_, (sampleWorld .running answers).nodes "a" |>.registry, _, ?_, ?_, ?_,
    .perform (c := .ok 0) rfl <| .perform (c := .ok 0) rfl <|
    -- prefetch
    .perform (c := .bindings []) rfl <| .perform (c := .ok 0) rfl <|
    .perform (c := .bindings []) rfl <| .perform (c := .ok 0) rfl <| .perform (c := .ok 0) rfl <|
    -- to the stopped process
    .perform (c := .ok 0) rfl <| .perform (c := .ok 0) rfl <| .perform (c := .ok 0) rfl <|
    .perform (c := .ok 0) rfl <|
    -- to the lost response
    .perform (c := .ok 0) rfl <| .perform (c := .ok 0) rfl <| .perform (c := .ok 0) rfl <|
    .perform (c := .ok 0) rfl <| .perform (c := .ok 0) rfl <|
    .perform (c := Choice.fail lost) rfl <| .of_eq ?_⟩
  all_goals rfl

variable {answers : List PollAnswer}

theorem restoreOriginal_succeeds (n : NodeId) (record : MigrationRecord) (reason : String)
    (w : World) : ∃ state, exec n (.registry (.restoreOriginal record reason)) (.ok 0) w =
      some (.ok state, w.putState n (.restoreOriginal record reason) state) := by
  simp only [exec, effect, RegistryOp.apply]
  cases record.originalState with
  | none => exact ⟨_, rfl⟩
  | some original => exact ⟨_, rfl⟩

theorem rollbackSourceRecord_rollsBack {R : World → World → Prop} (n : NodeId)
    (record : MigrationRecord) (reason : String) (w : World) :
    ∃ tr q v, polls tr = [] ∧ RollsBack tr ∧
      Reach (exec n) R (rollbackSourceRecord n record reason) w tr q v := by
  obtain ⟨state, restored⟩ := restoreOriginal_succeeds n record reason w
  exact ⟨_, _, _, rfl, ⟨_, List.mem_singleton_self _, rfl⟩, .perform restored .refl⟩

theorem rollbackMigration_rollsBack {R : World → World → Prop} {n : NodeId} {m : MigrationId}
    {w : World} (found : ((w.nodes n).journal.get m).isSome = true) :
    ∃ tr q v, polls tr = [] ∧ RollsBack tr ∧
      Reach (exec n) R (rollbackMigration n m) w tr q v := by
  obtain ⟨record, found⟩ := Option.isSome_iff_exists.mp found
  obtain ⟨tr, q, v, none, ⟨x, mem, rolls⟩, rest⟩ := rollbackSourceRecord_rollsBack (R := R) n
    record "Destination confirmed activation did not commit" w
  have read : exec n (.journalGet m) (.ok 0) w = some (.ok (some record), w) := by
    simp only [exec, effect, reads, found]
  exact ⟨(.journalGet m, .ok 0) :: tr, q, v, none, ⟨x, List.mem_cons_of_mem _ mem, rolls⟩,
    .perform read rest⟩

theorem Misread.onOutcome_rollsBack (misread : Misread answers) {R : World → World → Prop}
    (original : TaskRuntimeState) {w : World}
    (found : ((w.nodes "a").journal.get "m").isSome = true) :
    ∃ tr q v, polls tr = [] ∧ RollsBack tr ∧ Reach (exec "a") R
      (onOutcome bareServices "a" sampleCall original [] lost
        (.ok (resolve answers (none, false)))) w tr q v := by
  obtain ⟨no, confirmed⟩ := misread.confirmsNoActivation
  obtain ⟨tr, q, v, none, rolls, rest⟩ := rollbackMigration_rollsBack (R := R) found
  simp only [onOutcome, resolveOutcome, no, confirmed]
  exact ⟨tr, _, v, none, rolls, rest.andThen_intro.andThen_intro⟩

theorem Misread.migrate_rollsBack (misread : Misread answers) (R : World → World → Prop) :
    ∃ tr q v, polls tr = answers ∧ RollsBack tr ∧
      Reach (exec "a") R (migrate bareServices "a" sampleCall) (sampleWorld .running answers) tr
        q v := by
  obtain ⟨tr₁, original, u, none₁, sent, found, start⟩ := migrate_loses_outcome R answers
  obtain ⟨record, found⟩ := Option.isSome_iff_exists.mp found
  let u' := u.putRecord "a" { record with
    status := .uncertain, pid := none, error := some lost.describe }
  obtain ⟨tr₂, v, answered, same, loop⟩ := pollOutcome_run (n := "a") (R := R) (w := u')
    (none, false) misread.2.1 (fun x mem => sent ▸ mem)
  have stored : ((v.nodes "a").journal.get "m").isSome = true := by
    simp [same, u', World.putRecord, World.logged, Journal.get_migrationId found]
  obtain ⟨tr₃, q, v', none₃, ⟨x, mem, rolls⟩, rest⟩ := misread.onOutcome_rollsBack (R := R)
    original stored
  have polling : Reach (exec "a") R
      ((queryRemoteOutcome "b" "m").andThen
        (onOutcome bareServices "a" sampleCall original [] lost)) u'
      ((.pollBudget, .polls answers.length) :: (tr₂ ++ tr₃)) q v' :=
    .perform rfl (loop.andThen_intro.trans rest)
  rw [outcomeUnknown_eq] at start
  refine ⟨_, q, v', ?_, ⟨x, ?_, rolls⟩,
    start.trans (.perform (exec_setRecordStatus found _ _ _ 0) polling)⟩
  · simp only [polls_append, none₁, List.nil_append]
    exact (polls_append tr₂ tr₃).trans (by simp [answered, none₃])
  · simp [mem]

theorem Misread.reconcile_rollsBack (misread : Misread answers) (R : World → World → Prop) :
    ∃ tr q v, polls tr = answers ∧ RollsBack tr ∧
      Reach (exec "a") R (reconcileSourceRecord bareServices "a" sampleRecord)
        (sampleWorld .migrating answers) tr q v := by
  obtain ⟨tr₁, u, answered, same, loop⟩ := pollOutcome_run (n := "a") (R := R)
    (w := sampleWorld .migrating answers) (none, false) misread.2.1 (fun x mem => mem)
  obtain ⟨no, confirmed⟩ := misread.confirmsNoActivation
  obtain ⟨tr₂, q, v, none, ⟨x, mem, rolls⟩, rest⟩ := rollbackSourceRecord_rollsBack (R := R) "a"
    sampleRecord "Durable reconciliation confirmed no destination activation" u
  have rollback : Reach (exec "a") R
      (onRecordOutcome bareServices "a" sampleRecord (.ok (resolve answers (.none, false)))) u tr₂
        q v := by
    simpa [onRecordOutcome, resolveRecord, no, confirmed] using rest
  have polling : Reach (exec "a") R ((queryRemoteOutcome "b" "m").andThen
      (onRecordOutcome bareServices "a" sampleRecord)) (sampleWorld .migrating answers)
      ((.pollBudget, .polls answers.length) :: (tr₁ ++ tr₂)) q v :=
    .perform rfl (loop.andThen_intro.trans rollback)
  refine ⟨(.getState, .ok 0) :: (.pollBudget, .polls answers.length) :: (tr₁ ++ tr₂), q, v,
    (polls_append tr₁ tr₂).trans (by simp [answered, none]), ⟨x, by simp [mem], rolls⟩,
    .perform rfl ?_⟩
  have same : (queryRemoteOutcome "b" "m" >>= resolveRecord bareServices "a" sampleRecord) =
      (queryRemoteOutcome "b" "m").andThen (onRecordOutcome bareServices "a" sampleRecord) :=
    congrArg (andThen _) (funext fun r => by cases r <;> rfl)
  exact same ▸ polling

/-! ## Soundness -/

/-- The destination answers that its activation is in progress, and then it is unreachable. -/
def shownThenUnreachable : List PollAnswer :=
  [.record { sampleRecord with role := .destination }, .unreachable]

theorem shownThenUnreachable_misread : Misread shownThenUnreachable := by
  refine ⟨⟨_, List.mem_cons_self⟩, fun r mem => ?_, fun a last => ?_⟩
  · simp only [shownThenUnreachable, List.mem_cons, PollAnswer.record.injEq, reduceCtorEq,
      List.not_mem_nil, or_self, or_false] at mem
    subst mem
    rfl
  · cases last
    rfl

end Magellan.MigrationService
