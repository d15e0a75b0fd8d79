import Magellan.Daemon.Frames
import Magellan.Migration.Footprint
import Magellan.State.Control

/-!
# The migration service at two levels

A walk through the coroutines of the migration service with two assertions about what the thread has
seen of the record. The strong one holds from the moment the service has taken the task, and only
there may it start a process or record a failure.
-/

namespace Magellan

open Coroutine Coro MigrationService

/-- The operations of the migration service that may be done at the weak level. -/
def Op.isMild : Op → Bool
  | .registry (.markFailed ..) | .registry (.markRecoveryExhausted _)
  | .registry (.markRunning ..) | .spawn => false
  | _ => true

/-- The operations after which the strong level still holds. -/
def Op.isStrict : Op → Bool
  | .registry (.setState _) | .registry (.markRunning ..) | .registry (.claimLocal ..)
  | .spawn => false
  | _ => true

/-- The operations by which the service takes the task. -/
def RegistryOp.isTaking : RegistryOp → Bool
  | .markMigrating _ | .restoreLocalAfterFailure .. | .restoreOriginal .. | .claimLocal .. => true
  | _ => false

/-- A strong level for a thread; at the weak one nothing is known. -/
structure Levels (t : ServiceThread) (K : Contract Step Fate Shared) (strong : Shared → Prop) : Prop where
  stable : K.Stable strong
  mild : ∀ {o : Op}, o.isMild = true →
    Triple (Step.exec t) K Anything (stepwise t.node o) (fun _ => Anything) fun _ => Anything
  strict : ∀ {o : Op}, o.isStrict = true →
    Triple (Step.exec t) K strong (stepwise t.node o) (fun _ => strong) fun _ => strong
  take : ∀ {op : RegistryOp}, op.isTaking = true →
    Triple (Step.exec t) K Anything (registryOp t.node op) (fun _ => strong) fun _ => Anything
  start : Carried (Step.exec t) K (stepwise t.node) strong (LocalProcess.start t.node)
    (fun _ => Anything) fun _ => strong

/-! ## Exceptions -/

def Known (e : Exn) : Prop := e.cls ≠ .activationOutcomeUnknownError

/-- What a step can raise. -/
def Step.CanRaise (s : Step) (e : Exn) : Prop :=
  ∃ t f v v', s.exec t f v = some (.error e, v')

/-- The operations that leave no outcome unknown. -/
def Op.isPlain : Op → Bool
  | .getState | .registry _ | .ensureTaskArtifacts | .settleTask | .external _
  | .setRecordStatus .. | .terminate _ => true
  | _ => false

theorem Step.known_of_plain {o : Op} {e : Exn} (plain : o.isPlain = true)
    (h : (Step.op o).CanRaise e) : Known e := by
  obtain ⟨t, f, v, w, h⟩ := h
  rcases Step.exec_cases h with ⟨e', -, may, same, -⟩ | h
  · cases same
    refine Step.known_of_raises (fun o' is => ?_) may
    cases is
    cases o <;> first | rfl | cases plain
  · cases f with
    | synthesized marker => cases h
    | of c =>
        cases o with
        | external call => cases c <;> cases h
        | terminate pid => cases c <;> cases h
        | setRecordStatus m status pid error =>
            cases c <;> try cases h
            simp only [Step.effect, Magellan.effect, reads, Op.isRecordOp, Bool.false_eq_true,
              if_false] at h
            cases found : (v.world.nodes t.node).journal.get m <;> rw [found] at h <;> cases h
        | getState | registry | ensureTaskArtifacts | settleTask => cases h
        | _ => cases plain

theorem Step.known_getState {e : Exn} (h : Step.getState.CanRaise e) : Known e := by
  obtain ⟨t, f, v, w, h⟩ := h
  rcases Step.exec_getState h with ⟨e', known, same, -⟩ | ⟨same, -⟩
  · cases same
    exact known
  · cases same

theorem Step.known_finish {o : Registry.Operation} {read : TaskRuntimeState} {e : Exn}
    (h : (Step.finish o read).CanRaise e) : Known e := by
  obtain ⟨t, f, v, w, h⟩ := h
  rcases Step.exec_finish h with ⟨e', known, same, -⟩ | ⟨value, -, same, -⟩
  · cases same
    exact known
  · cases same

def Step.isOp : Step → Bool
  | op _ => true
  | _ => false

theorem Step.known_of_not_isOp {s : Step} {e : Exn} (own : s.isOp = false) (h : s.CanRaise e) :
    Known e := by
  cases s with
  | op o => cases own
  | getState => exact known_getState h
  | finish o read => exact known_finish h
  | _ =>
      obtain ⟨t, f, v, w, h⟩ := h
      rcases Step.exec_cases h with ⟨e', -, may, same, -⟩ | h
      · cases same
        exact Step.known_of_raises (fun o is => by cases is) may
      · cases f with
        | synthesized marker =>
            simp only [Step.effect] at h
            (try split at h) <;> cases h
        | of c =>
            cases c <;> simp only [Step.effect] at h <;> (try split at h) <;> cases h <;>
              simp [Known, missingMarker, runtimeError]

theorem step_raises {s : Step} (own : s.isOp = false) : (step s).Raises Step.CanRaise Known :=
  .op fun _ h => Step.known_of_not_isOp own h

theorem op_raises {o : Op} (plain : o.isPlain = true) :
    (step (.op o)).Raises Step.CanRaise Known :=
  .op fun _ h => Step.known_of_plain plain h

theorem update_raises (o : Registry.Operation) : (update o).Raises Step.CanRaise Known :=
  .bind (.bind (step_raises rfl) fun _ => step_raises rfl) fun _ =>
    .pure _

theorem registryOp_raises (n : NodeId) (op : RegistryOp) :
    (registryOp n op).Raises Step.CanRaise Known := by
  refine .bind (step_raises rfl) fun now => ?_
  cases op.update n now with
  | inl o =>
      exact .bind (step_raises rfl) fun _ =>
        .bind (step_raises rfl) fun _ => .pure _
  | inr s => exact .bind (step_raises rfl) fun _ => .pure _

theorem isAlive_raises (pid : Option Pid) :
    (LocalProcess.isAlive pid).Raises Step.CanRaise Known := by
  cases pid with
  | none => exact .pure _
  | some pid =>
      refine .op fun e ⟨t, f, v, w, h⟩ => ?_
      rcases Step.exec_cases h with ⟨e', -, may, -⟩ | h
      · cases may
      · cases f with
        | synthesized marker => cases h
        | of c => cases c <;> cases h

theorem settleTask_raises (n : NodeId) : (settleTask n).Raises Step.CanRaise Known :=
  .bind (step_raises rfl) fun _ => .ite (.pure _)
    (.bind (step_raises rfl) fun _ => .bind (isAlive_raises _) fun _ =>
      update_raises _)

theorem stepwise_raises (n : NodeId) (o : Op) :
    (stepwise n o).Raises Step.CanRaise fun e => o.isPlain = true → Known e := by
  by_cases plain : o.isPlain = true
  · have known : (stepwise n o).Raises Step.CanRaise Known := by
      cases o with
      | getState => exact step_raises rfl
      | registry op => exact registryOp_raises n op
      | ensureTaskArtifacts =>
          exact .bind (step_raises rfl) fun _ =>
            .bind (update_raises _) fun _ => .pure _
      | settleTask => exact settleTask_raises n
      | external call => exact op_raises rfl
      | setRecordStatus m status pid error => exact op_raises rfl
      | terminate pid => exact op_raises rfl
      | _ => cases plain
    exact known.mono fun _ k _ => k
  · exact .of_forall (fun _ is => absurd is plain) _

/-! ## The source -/

section

variable {t : ServiceThread} {K : Contract Step Fate Shared} {strong : Shared → Prop} {α : Type}
  {p : Async α} {call : MigrateCall} {original : TaskRuntimeState}
  {bindings : List ArtifactBinding}

/-- A coroutine of the migration service at the levels of `t`. -/
abbrev Levels.Carries (_ : Levels t K strong) (A : Shared → Prop) (p : Async α)
    (B : α → Shared → Prop) (E : Exn → Shared → Prop) : Prop :=
  Carried (Step.exec t) K (stepwise t.node) A p B E

variable (L : Levels t K strong)

theorem Levels.carries (h : p.Performs (Op.isMild · = true)) :
    L.Carries Anything p (fun _ => Anything) fun _ => Anything :=
  .of_performs .top h fun _ => L.mild

theorem Levels.carries_strong (h : p.Performs (Op.isStrict · = true)) :
    L.Carries strong p (fun _ => strong) fun _ => strong :=
  .of_performs L.stable h fun _ => L.strict

theorem Levels.relax {A : Shared → Prop} {B : α → Shared → Prop} {E : Exn → Shared → Prop}
    (h : L.Carries A p B E) : L.Carries A p (fun _ => Anything) fun _ => Anything :=
  h.weaken (fun _ a => a) (fun _ _ _ => trivial) fun _ _ _ => trivial

theorem Levels.strict_op {o : Op} (h : o.isStrict = true) :
    L.Carries strong (await o) (fun _ => strong) fun _ => Anything :=
  (L.carries_strong (.op h)).weaken (fun _ a => a) (fun _ _ b => b) fun _ _ _ => trivial

theorem Levels.taking {op : RegistryOp} {f : TaskRuntimeState → Async α}
    {B : α → Shared → Prop} (h : op.isTaking = true)
    (rest : ∀ s, L.Carries strong (f s) B fun _ => Anything) :
    L.Carries Anything (await (.registry op) >>= f) B fun _ => Anything :=
  .bind (.op (L.take h)) rest

theorem carries_pure {A : Shared → Prop} (a : α) :
    L.Carries A (pure a) (fun _ => Anything) fun _ => Anything := .pure .top fun _ _ => trivial

theorem restart_carries {describe : String → String} :
    L.Carries strong (restart t.node describe) (fun _ => Anything) fun _ => Anything := by
  refine .attempt L.start (fun _ => carries_pure L _) fun e => ?_
  exact .bind (L.strict_op rfl) fun _ => carries_pure L _

theorem setRecordStatus_carries {m : MigrationId} {status : MigrationStatus} {pid : Option Pid}
    {error : Option String} :
    L.Carries Anything (await (.setRecordStatus m status pid error)) (fun _ => Anything)
      fun _ => Anything := L.carries (.op rfl)

theorem rollbackSourceRecord_carries {record : MigrationRecord} {reason : String} :
    L.Carries Anything (rollbackSourceRecord t.node record reason) (fun _ => Anything)
      fun _ => Anything := by
  refine L.taking rfl fun _ => .bind (L.strict_op rfl) fun state => .bind ?_ fun _ =>
    setRecordStatus_carries L
  exact .ite (fun _ => restart_carries L) fun _ => carries_pure L _

theorem migrationFailed_carries (services : Services) {sourceWasStopped : Bool} {e : Exn} :
    L.Carries Anything (migrationFailed services t.node call original sourceWasStopped e)
      (fun _ => Anything) fun _ => Anything := by
  refine .bind (L.carries (.ite (.op rfl) (.pure _))) fun _ => L.taking rfl fun _ => ?_
  refine .bind (.ite (fun _ => restart_carries L) fun _ => carries_pure L _) fun _ => ?_
  exact .bind (setRecordStatus_carries L) fun _ => carries_pure L _

theorem withCleanup_carries {A : Shared → Prop} {activated : Bool} {p : Async Bool}
    (h : L.Carries A p (fun _ => Anything) fun _ => Anything) :
    L.Carries A (withCleanup call activated p) (fun _ => Anything) fun _ => Anything := by
  have cleanup : L.Carries Anything
      (onlyIf (¬ activated) (cancelRemoteReservation call.bidId call.destinationNodeId
        s!"Source migration {call.migrationId} did not complete"))
      (fun _ => Anything) fun _ => Anything :=
    L.carries (.ite (.tryExcept (.op rfl) fun _ => .pure _) (.pure _))
  exact .tryFinally h (fun _ => cleanup) fun _ => cleanup

theorem finalizeSourceSuccess_carries (services : Services) {d : NodeId} {m : MigrationId} {g : Nat}
    {at_ : Timestamp} {bindings : List ArtifactBinding} :
    L.Carries Anything (finalizeSourceSuccess services d m g at_ bindings) (fun _ => Anything)
      fun _ => Anything :=
  L.carries (finalizeSourceSuccess_performs services ⟨rfl, rfl⟩ rfl (fun _ => rfl) rfl)

theorem from_strong (h : L.Carries Anything p (fun _ => Anything) fun _ => Anything) :
    L.Carries strong p (fun _ => Anything) fun _ => Anything :=
  h.weaken (fun _ _ => trivial) (fun _ _ b => b) fun _ _ e => e

theorem rollbackMigration_carries {m : MigrationId} :
    L.Carries Anything (rollbackMigration t.node m) (fun _ => Anything) fun _ => Anything := by
  refine .bind (L.carries (.op rfl)) fun record => ?_
  cases record with
  | none => exact carries_pure L _
  | some record => exact rollbackSourceRecord_carries L

theorem resolveOutcome_carries (services : Services) {e : Exn}
    {outcome : Option MigrationRecord × Bool} :
    L.Carries strong (resolveOutcome services t.node call original bindings e outcome)
      (fun _ => Anything) fun _ => Anything := by
  refine .ite (fun _ => ?_) fun _ => .ite (fun _ => ?_) fun _ => ?_
  · exact withCleanup_carries L (from_strong L (.bind (finalizeSourceSuccess_carries L services)
      fun _ => carries_pure L _))
  · exact withCleanup_carries L
      (from_strong L (.bind (rollbackMigration_carries L) fun _ => carries_pure L _))
  · exact withCleanup_carries L
      (.bind (L.strict_op rfl) fun _ => carries_pure L _)

theorem isStrict_of_isQueryOp {o : Op} (h : isQueryOp o = true) : o.isStrict = true := by
  cases o <;> first | rfl | cases h

theorem outcomeUnknown_carries (services : Services) {e : Exn} :
    L.Carries strong (outcomeUnknown services t.node call original bindings e)
      (fun _ => Anything) fun _ => Anything := by
  refine .attempt (F := fun _ => Anything) ?_ (fun outcome => resolveOutcome_carries L services)
    fun e => withCleanup_carries L (.raise .top fun _ _ => trivial)
  exact .bind (L.strict_op rfl) fun _ => (L.carries_strong
    (queryRemoteOutcome_performs.mono fun _ => isStrict_of_isQueryOp)).weaken (fun _ a => a)
      (fun _ _ b => b) fun _ _ _ => trivial

theorem onMigrateError_carries (services : Services) {sourceWasStopped activated : Bool} {e : Exn}
    {A : Shared → Prop} (level : e.cls = .activationOutcomeUnknownError → ∀ v, A v → strong v) :
    L.Carries A (onMigrateError services t.node call original bindings sourceWasStopped activated e)
      (fun _ => Anything) fun _ => Anything := by
  refine .ite (fun unknown => ?_) fun _ => ?_
  · exact (outcomeUnknown_carries L services).weaken (level unknown) (fun _ _ b => b) fun _ _ e => e
  · exact withCleanup_carries L ((migrationFailed_carries L services).weaken (fun _ _ => trivial)
      (fun _ _ b => b) fun _ _ e => e)

/-- What a finished quiesce says: a task that has been taken, or a failed prefetch. -/
def Quiesced (strong : Shared → Prop) : Option (List ArtifactBinding) → Shared → Prop
  | none => Anything
  | some _ => strong

theorem stop_carries :
    L.Carries strong LocalProcess.stop (fun _ => strong) fun _ => Anything :=
  (L.carries_strong (LocalProcess.stop_performs.mono fun o h => by
    cases o with
    | registry op => cases op <;> first | rfl | cases h
    | _ => first | rfl | cases h)).weaken (fun _ a => a) (fun _ _ b => b) fun _ _ _ => trivial

theorem isMild_of_isQuiesceOp {m : MigrationId} {o : Op} (h : isQuiesceOp m o = true) :
    o.isMild = true := by
  cases o with
  | registry op => cases op <;> first | rfl | cases h
  | _ => first | rfl | cases h

theorem prefetch_carries :
    L.Carries Anything (tryPrefetch call) (fun _ => Anything) fun _ => Anything :=
  .attempt (L.carries (prefetch_performs.mono fun _ => isMild_of_isQuiesceOp))
    (fun _ => carries_pure L _) fun _ =>
      .bind (setRecordStatus_carries L) fun _ => carries_pure L _

theorem quiesce_carries (services : Services) :
    L.Carries Anything (quiesce services call) (Quiesced strong) fun _ => Anything := by
  refine .bind (prefetch_carries L) fun prefetched => ?_
  cases prefetched with
  | none => exact .pure .top fun _ _ => trivial
  | some bindings =>
      refine .bind (L.carries (.ite (.op rfl) (.pure _))) fun _ => L.taking rfl fun _ => ?_
      refine .bind (L.strict_op rfl) fun _ => .bind (stop_carries L) fun _ => ?_
      exact .pure L.stable fun _ taken => taken

theorem quiesce_raises (services : Services) (n : NodeId) :
    ((quiesce services call).implement (stepwise n)).Raises Step.CanRaise Known := by
  have plain : ∀ {o : Op}, o.isPlain = true →
      (await o).Raises (fun o e => o.isPlain = true → Known e) Known :=
    fun h => .op fun _ known => known h
  refine Raises.implement (E := fun o e => o.isPlain = true → Known e) ?_ (stepwise_raises n)
  refine .bind (.attempt (E := fun _ => True) ?_ (fun _ => .pure _) fun _ _ => ?_) fun prefetched => ?_
  · exact .bind (.op fun _ _ => trivial) fun _ => .bind (.attempt (E := fun _ => True)
      (.op fun _ _ => trivial) (fun _ => .pure _) fun _ _ => .pure _) fun _ =>
        .bind (.op fun _ _ => trivial) fun _ => .bind (.op fun _ _ => trivial) fun _ =>
          .bind (.op fun _ _ => trivial) fun _ => .pure _
  · exact .bind (plain rfl) fun _ => .pure _
  · cases prefetched with
    | none => exact .pure _
    | some bindings =>
        refine .bind (.ite (plain rfl) (.pure _)) fun _ => .bind (plain rfl) fun _ =>
          .bind (plain rfl) fun _ => .bind (.bind (plain rfl) fun state => .ite (.pure _) ?_)
            fun _ => .pure _
        cases state.pid with
        | none => exact plain rfl
        | some pid => exact .bind (plain rfl) fun _ => plain rfl

theorem isStrict_of_isHandOverOp {m : MigrationId} {o : Op} (h : isHandOverOp m o = true) :
    o.isStrict = true := by
  cases o <;> first | rfl | cases h

theorem migrate_carries (services : Services) :
    L.Carries Anything (migrate services t.node call) (fun _ => Anything) fun _ => Anything := by
  refine .bind (L.carries (.op rfl)) fun original => .ite (fun _ => carries_pure L _) fun _ => ?_
  refine .bind (L.carries (.op rfl)) fun _ => ?_
  have stopped : L.Carries Anything (quiesce services call) (Quiesced strong)
      fun e v => Known e ∧ Anything v :=
    Triple.raises (quiesce_carries L services) (quiesce_raises services t.node)
      fun h => ⟨_, _, _, _, h⟩
  refine .attempt stopped (fun bindings => ?_) fun e => ?_
  · cases bindings with
    | none => exact withCleanup_carries L (carries_pure L _)
    | some bindings =>
        have handed : L.Carries strong (handOver services t.node call original bindings)
            (fun _ => strong) fun _ => strong :=
          L.carries_strong ((handOver_performs services t.node).mono
            fun _ => isStrict_of_isHandOverOp)
        have committed : L.Carries strong (commit services call original bindings)
            (fun _ => strong) fun _ => strong :=
          L.carries_strong (commit_performs services (fun _ => rfl) ⟨rfl, rfl⟩ rfl (fun _ => rfl) rfl)
        refine .attempt handed (fun _ => ?_) fun e => onMigrateError_carries L services fun _ _ a => a
        exact .attempt committed
          (fun _ => withCleanup_carries L (carries_pure L _))
          fun e => onMigrateError_carries L services fun _ _ a => a
  · exact onMigrateError_carries L services fun unknown _ ⟨known, _⟩ => absurd unknown known

/-! ## The destination -/

/-- The operations of an activation and its rollback, but for those of the start. -/
def isDestinationOp : Op → Bool
  | .registry op => match op with
    | .markStopped | .claimLocal .. | .setState _ => true
    | _ => false
  | .spawn => false
  | _ => true

theorem isMild_of_isDestinationOp {o : Op} (h : isDestinationOp o = true) : o.isMild = true := by
  cases o with
  | registry op => cases op <;> first | rfl | cases h
  | _ => first | rfl | cases h

theorem isDestinationOp_of_isStopOp {o : Op} (h : LocalProcess.isStopOp o = true) :
    isDestinationOp o = true := by
  cases o with
  | registry op => cases op <;> first | rfl | cases h
  | _ => first | rfl | cases h

section

variable {n : NodeId} {request : MigrationActivationRequest} {record : MigrationRecord}

theorem ignoreErrors_destination {p : Async Unit} (h : p.Performs (isDestinationOp · = true)) :
    (ignoreErrors p).Performs (isDestinationOp · = true) := .tryExcept h fun _ => .pure _

theorem stopTask_destination : stopTask.Performs (isDestinationOp · = true) :=
  .bind (LocalProcess.stop_performs.mono fun _ => isDestinationOp_of_isStopOp) fun _ => .pure _

theorem ifBackupExists_destination {m : MigrationId} {p : Async Unit}
    (h : p.Performs (isDestinationOp · = true)) :
    (ifBackupExists m p).Performs (isDestinationOp · = true) :=
  .bind (.op rfl) fun _ => .ite h (.pure _)

theorem ifCheckpointExists_destination {p : Async Unit}
    (h : p.Performs (isDestinationOp · = true)) :
    (ifCheckpointExists p).Performs (isDestinationOp · = true) :=
  .bind (.op rfl) fun _ => .ite h (.pure _)

theorem rollbackActivation_destination {original : TaskRuntimeState} {replaced started : Bool}
    {e : Exn} : (rollbackActivation n request original replaced started e).Performs
      (isDestinationOp · = true) :=
  .bind (.ite (ignoreErrors_destination stopTask_destination) (.pure _)) fun _ =>
    .bind (.ite (ifCheckpointExists_destination (.op rfl)) (.pure _)) fun _ =>
      .bind (ifBackupExists_destination (.op rfl)) fun _ => .bind (.op rfl) fun _ =>
        .bind (.op rfl) fun _ =>
          .bind (ignoreErrors_destination (.bind (.op rfl) fun _ => .pure _)) fun _ =>
            .bind (.op rfl) fun _ => .pure _

theorem replaceCheckpoint_destination :
    (replaceCheckpoint request).Performs (isDestinationOp · = true) :=
  .bind (.op rfl) fun _ => .bind (.op rfl) fun _ => .bind (.ite (.raise _) (.pure _)) fun _ =>
    .bind (.op rfl) fun _ => .bind (ifBackupExists_destination (.op rfl)) fun _ =>
      .bind (ifCheckpointExists_destination (.op rfl)) fun _ => .op rfl

theorem mergeRequestPolicy_destination (services : Services) :
    (mergeRequestPolicy services request).Performs (isDestinationOp · = true) := by
  unfold mergeRequestPolicy
  cases request.adaptivePolicy with
  | none => exact .pure _
  | some policy => exact .ite (.op rfl) (.pure _)

theorem commitActivation_destination (services : Services) {state : TaskRuntimeState} :
    (commitActivation services n request state).Performs (isDestinationOp · = true) :=
  .bind (mergeRequestPolicy_destination services) fun _ => .bind (.op rfl) fun _ =>
    .bind (.op rfl) fun _ => .bind (ifBackupExists_destination (.op rfl)) fun _ =>
      .bind (.op rfl) fun _ => .pure _

theorem putRecord_destination {existing : Option MigrationRecord} :
    (putRecord existing record).Performs (isDestinationOp · = true) := by
  cases existing <;> exact .op rfl

theorem undoActivation_destination {state : TaskRuntimeState} :
    (undoActivation n record state).Performs (isDestinationOp · = true) := by
  refine .bind (.ite (ignoreErrors_destination stopTask_destination) (.pure _)) fun _ =>
    .bind (ifBackupExists_destination (.bind (ifCheckpointExists_destination (.op rfl)) fun _ =>
      .op rfl)) fun _ => .bind ?_ fun _ =>
        .bind (ignoreErrors_destination (.bind (.op rfl) fun _ => .pure _)) fun _ =>
          .bind (.op rfl) fun _ => .op rfl
  cases record.originalState with
  | none => exact .pure _
  | some original => exact .bind (.op rfl) fun _ => .pure _

theorem reconcileDestinationRecord_destination :
    (reconcileDestinationRecord n record).Performs (isDestinationOp · = true) := by
  refine .bind (.op rfl) fun state => .ite (.bind ?_ fun _ => .op rfl) undoActivation_destination
  refine .bind (.op rfl) fun bid => ignoreErrors_destination (.bind (.ite ?_ (.pure _)) fun bid => ?_)
  · exact .bind (.op rfl) fun _ => .op rfl
  · exact .ite (.bind (.op rfl) fun _ => .pure _) (.pure _)

end

theorem claimAndStart_carries {request : MigrationActivationRequest} :
    L.Carries Anything (claimAndStart t.node request) (fun _ => Anything) fun _ => Anything :=
  .bind (L.carries (.op rfl)) fun _ => .bind (L.carries (.op rfl)) fun _ =>
    L.taking rfl fun _ => L.relax L.start

theorem activateIncoming_carries (services : Services) {request : MigrationActivationRequest} :
    L.Carries Anything (activateIncoming services t.node request) (fun _ => Anything)
      fun _ => Anything := by
  have mild : ∀ {α : Type} {p : Async α}, p.Performs (isDestinationOp · = true) →
      L.Carries Anything p (fun _ => Anything) fun _ => Anything :=
    fun h => L.carries (h.mono fun _ => isMild_of_isDestinationOp)
  refine .ite (fun _ => carries_pure L _) fun _ => .bind (L.carries (.op rfl)) fun state => ?_
  refine .bind (L.carries (.op rfl)) fun existing => ?_
  refine .bind (mild (mergeRequestPolicy_destination services)) fun _ => ?_
  refine .ite (fun _ => ?_) fun _ => .ite (fun _ => carries_pure L _) fun _ => ?_
  · exact .bind (mild putRecord_destination) fun _ => carries_pure L _
  refine .bind (mild putRecord_destination) fun _ => ?_
  refine .attempt (mild replaceCheckpoint_destination) (fun _ => ?_) fun _ =>
    mild rollbackActivation_destination
  refine .attempt (claimAndStart_carries L) (fun runtimeState => ?_) fun _ =>
    mild rollbackActivation_destination
  exact .tryExcept (mild (commitActivation_destination services)) fun _ =>
    mild rollbackActivation_destination

/-! ## Durable reconciliation -/

theorem reconcileSourceRecord_carries (services : Services) {record : MigrationRecord} :
    L.Carries Anything (reconcileSourceRecord services t.node record) (fun _ => Anything)
      fun _ => Anything := by
  refine .bind (L.carries (.op rfl)) fun state => .ite (fun _ => setRecordStatus_carries L) fun _ =>
    .ite (fun _ => setRecordStatus_carries L) fun _ => ?_
  refine .bind (L.carries (queryRemoteOutcome_performs.mono fun o h => ?_)) fun outcome => ?_
  · cases o <;> first | rfl | cases h
  · exact .ite (fun _ => finalizeSourceSuccess_carries L services) fun _ =>
      .ite (fun _ => rollbackSourceRecord_carries L) fun _ => setRecordStatus_carries L

theorem Levels.migration (L : Levels t K strong) (services : Services) (policy : RecoveryPolicy) (call : Call) :
    Triple (Step.exec t) K Anything (routine services policy t.node (.migration call))
      (fun _ => Anything) fun _ => Anything := by
  cases call with
  | migrate call => exact Carried.bind (migrate_carries L services) fun _ => carries_pure L _
  | activate request =>
      exact Carried.bind (activateIncoming_carries L services) fun _ => L.carries (.op rfl)
  | reconcile record =>
      change L.Carries Anything (reconcileRecord services t.node record) _ _
      unfold reconcileRecord
      cases record.role with
      | source => exact reconcileSourceRecord_carries L services
      | destination =>
          exact L.carries (reconcileDestinationRecord_destination.mono
            fun _ => isMild_of_isDestinationOp)

end

end Magellan
