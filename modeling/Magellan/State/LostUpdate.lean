import Magellan.Coroutine.ReadModifyWrite
import Magellan.State.Operations

/-!
# Two operations on one record

The lock of the registry is held for the read and for the write of an operation, not between them.
What two threads leave behind is that of one operation after the other where they do not overlap, or
one of them writes nothing.
-/

namespace Magellan.Registry

open Coroutine Coroutine.ReadModifyWrite

/-- Whether an operation that has read `s` goes on to `set_state`. -/
def Operation.Writes (localNodeId : NodeId) (s : TaskRuntimeState) : Operation → Prop
  | .markRunning .. => s.ownerNodeId = localNodeId ∧ s.status ≠ .completed
  | .markPaused .. => s.ownerNodeId = localNodeId ∧ s.status = .running ∧ s.pid ≠ none
  | .markResumed _ => s.ownerNodeId = localNodeId ∧ s.status = .paused ∧ s.pid ≠ none
  | .markStopped => s.status ≠ .completed
  | .markMigrating _ => s.ownerNodeId = localNodeId ∧ s.status ≠ .completed
  | .scheduleRecovery _ => s.status = .failed
  | .beginRecovery => s.ownerNodeId = localNodeId ∧ s.status = .failed
  | .markCompleted .. => s.ownerNodeId = localNodeId
  | .claimLocal generation .. => s.generation ≤ generation
  | .markRemote owner generation .. =>
      ¬(s.generation = generation ∧ s.ownerNodeId = owner ∧ s.status = .completed)
  | .applyOwnership u => s.generation ≤ u.generation ∧
      (u.generation = s.generation → u.ownerNodeId = s.ownerNodeId) ∧
      (u.generation = s.generation → s.status = .completed → u.status = some .completed)
  | .setArtifactDigests _ | .recordAccounting _ | .markFailed .. | .markRecoveryExhausted _
  | .restoreLocalAfterFailure .. => True

/-- An operation as what a thread does: one read, and one write or none. -/
def Operation.thread (localNodeId : NodeId) (o : Operation) :
    ReadModifyWrite TaskRuntimeState (Except Exn Value) :=
  fun s => ((o.perform localNodeId s).outcome, (o.perform localNodeId s).written)

/-- Each operation reads before the other has written. -/
def Overlap : List Thread → Prop
  | first :: second :: _ => first ≠ second
  | _ => False

section

variable {localNodeId : NodeId} {s : TaskRuntimeState}

theorem applyOwnership_eq_none_iff {u : OwnershipUpdate} :
    applyOwnership localNodeId u s = none ↔
      ¬ (Operation.applyOwnership u).Writes localNodeId s := by
  unfold applyOwnership
  by_cases stale : u.generation < s.generation
  · rw [if_pos stale]
    exact iff_of_true rfl fun h => absurd h.1 (Nat.not_le.mpr stale)
  rw [if_neg stale]
  by_cases foreign : u.generation = s.generation ∧ u.ownerNodeId ≠ s.ownerNodeId
  · rw [if_pos foreign]
    exact iff_of_true rfl fun h => foreign.2 (h.2.1 foreign.1)
  rw [if_neg foreign]
  by_cases settled : u.generation = s.generation ∧ s.status = .completed ∧ u.status ≠ some .completed
  · rw [if_pos settled]
    exact iff_of_true rfl fun h => settled.2.2 (h.2.2 settled.1 settled.2.1)
  rw [if_neg settled]
  refine iff_of_false ?_ (not_not.mpr ⟨Nat.le_of_not_lt stale, fun same => ?_,
    fun same completed => ?_⟩)
  · split
    · simp
    · split <;> simp
  · exact not_not.mp fun other => foreign ⟨same, other⟩
  · exact not_not.mp fun other => settled ⟨same, completed, other⟩

theorem written_guard (c : Prop) [Decidable c] (e : Exn) (t : TaskRuntimeState) :
    (Effect.ofExcept (if c then .error e else .ok t)).written = none ↔ c := by
  by_cases h : c <;> simp [h, Effect.ofExcept, Effect.write]

theorem written_guards (c d : Prop) [Decidable c] [Decidable d] (e e' : Exn)
    (t : TaskRuntimeState) :
    (Effect.ofExcept (if c then .error e else if d then .error e' else .ok t)).written = none ↔
      c ∨ d := by
  by_cases first : c
  · simp [first, Effect.ofExcept]
  · simp only [first, if_false, false_or, written_guard]

theorem written_ite (c : Prop) [Decidable c] (s t : TaskRuntimeState) :
    (if c then Effect.keep s else Effect.write t).written = none ↔ c := by
  by_cases h : c <;> simp [h, Effect.keep, Effect.write]

theorem written_eq_none_iff (o : Operation) :
    (o.perform localNodeId s).written = none ↔ ¬ o.Writes localNodeId s := by
  cases o with
  | applyOwnership u =>
      rw [← applyOwnership_eq_none_iff]
      simp only [Operation.perform]
      cases applyOwnership localNodeId u s <;> simp
  | markStopped => simp only [Operation.perform, written_ite, Operation.Writes, not_not]
  | scheduleRecovery => simp only [Operation.perform, written_ite, Operation.Writes]
  | markRemote => simp only [Operation.perform, written_ite, Operation.Writes, not_not]
  | markRunning =>
      simp only [Operation.perform, markRunning, written_guards, Operation.Writes]
      tauto
  | markPaused =>
      simp only [Operation.perform, markPaused, written_guards, Operation.Writes]
      tauto
  | markResumed =>
      simp only [Operation.perform, markResumed, written_guards, Operation.Writes]
      tauto
  | markMigrating =>
      simp only [Operation.perform, markMigrating, written_guards, Operation.Writes]
      tauto
  | beginRecovery =>
      simp only [Operation.perform, beginRecovery, written_guards, Operation.Writes]
      tauto
  | markCompleted =>
      simp only [Operation.perform, markCompleted, written_guard, Operation.Writes, ne_eq]
  | claimLocal =>
      simp only [Operation.perform, claimLocal, written_guard, Operation.Writes, not_le]
  | setArtifactDigests | recordAccounting | markFailed | markRecoveryExhausted
  | restoreLocalAfterFailure => simp [Operation.perform, Operation.Writes, Effect.write]

theorem harmless_of_not_overlap {f g : ReadModifyWrite TaskRuntimeState (Except Exn Value)}
    {schedule : List Thread} (h : ¬ Overlap schedule) : Harmless f g s schedule := by
  rcases schedule with _ | ⟨first, _ | ⟨second, _ | ⟨third, _ | ⟨last, _ | ⟨more, rest⟩⟩⟩⟩⟩
  case cons.cons.cons.cons.nil => exact .inl (not_not.mp h)
  all_goals trivial

theorem harmless_of_silent {f g : ReadModifyWrite TaskRuntimeState (Except Exn Value)}
    {schedule : List Thread} (h : (f s).2 = none ∨ (g s).2 = none) : Harmless f g s schedule := by
  rcases schedule with _ | ⟨first, _ | ⟨second, _ | ⟨third, _ | ⟨last, _ | ⟨more, rest⟩⟩⟩⟩⟩
  case cons.cons.cons.cons.nil =>
    right
    cases last with
    | left => exact h.elim (fun f => .inr (.inl f)) .inl
    | right => exact h.elim .inl fun g => .inr (.inl g)
  all_goals trivial

variable {first second : Operation} {schedule : List Thread} {t : TaskRuntimeState}
  {u v : Except Exn Value}

end

/-- A running task. -/
def runningState : TaskRuntimeState :=
  { taskId := "t", ownerNodeId := "a", status := .running, pid := some 7, processGroupId := some 7 }

/-- Accounting settles what the task has used while the task is stopped. -/
def settlement : Operation := .recordAccounting { runtimeSeconds := 3 }

end Magellan.Registry
