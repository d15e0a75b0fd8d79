import Magellan.State.LostUpdate

/-!
# What an operation does to the course of a task

The fields of the record that the services act upon, and how each operation moves them.
-/

namespace Magellan

/-- The fields of the record that decide what is done with the task. -/
structure Control where
  ownerNodeId : NodeId
  generation : Nat
  status : TaskStatus
  pid : Option Pid
  recoveryExhausted : Bool
  deriving DecidableEq

def TaskRuntimeState.control (s : TaskRuntimeState) : Control :=
  ⟨s.ownerNodeId, s.generation, s.status, s.pid, s.recoveryExhausted⟩

namespace Registry

/-- The control fields after an operation that has written. -/
def Operation.drive (localNodeId : NodeId) (c : Control) : Operation → Control
  | .setArtifactDigests _ | .recordAccounting _ | .scheduleRecovery _ => c
  | .markRunning pid .. =>
      { c with status := .running, pid := some pid, recoveryExhausted := false }
  | .markPaused .. => { c with status := .paused }
  | .markResumed _ => { c with status := .running }
  | .markStopped => { c with status := .stopped, pid := none }
  | .markMigrating _ => { c with status := .migrating }
  | .markFailed .. => { c with status := .failed, pid := none }
  | .beginRecovery => { c with status := .recovering }
  | .markRecoveryExhausted _ =>
      { c with status := .failed, pid := none, recoveryExhausted := true }
  | .markCompleted .. =>
      { c with status := .completed, pid := none, recoveryExhausted := false }
  | .claimLocal generation .. | .restoreLocalAfterFailure generation _ =>
      { c with ownerNodeId := localNodeId, generation, status := .stopped, pid := none }
  | .markRemote owner generation .. =>
      { c with ownerNodeId := owner, generation, status := .remote, pid := none }
  | .applyOwnership u =>
      if u.status = some .completed then
        { c with ownerNodeId := u.ownerNodeId, generation := u.generation, status := .completed,
                 pid := none }
      else if u.ownerNodeId ≠ localNodeId then
        { c with ownerNodeId := u.ownerNodeId, generation := u.generation, status := .remote,
                 pid := none }
      else { c with ownerNodeId := u.ownerNodeId, generation := u.generation }

variable {n : NodeId} {r s : TaskRuntimeState} {o : Operation}

theorem written_ofExcept {x : Except Exn TaskRuntimeState}
    (h : (Effect.ofExcept x).written = some s) : x = .ok s := by
  cases x with
  | ok t => exact congrArg Except.ok (Option.some.inj h)
  | error e => cases h

theorem ok_of_guard {c : Prop} [Decidable c] {e : Exn} {x : Except Exn TaskRuntimeState}
    (h : (if c then .error e else x) = .ok s) : x = .ok s := by
  by_cases hc : c
  · simp [hc] at h
  · rwa [if_neg hc] at h

theorem written_of_keep {c : Prop} [Decidable c] {t : TaskRuntimeState}
    (h : (if c then Effect.keep r else .write t).written = some s) : ¬ c ∧ s = t := by
  by_cases hc : c
  · simp [hc, Effect.keep] at h
  · simp only [if_neg hc, Effect.write, Option.some.injEq] at h
    exact ⟨hc, h.symm⟩

theorem control_applyOwnership {u : OwnershipUpdate}
    (h : applyOwnership n u r = some s) :
    s.control = (Operation.applyOwnership u).drive n r.control := by
  unfold applyOwnership at h
  split at h
  · cases h
  · split at h
    · cases h
    · split at h
      · cases h
      · simp only [Operation.drive]
        split at h
        · rename_i completed
          cases h
          rw [if_pos completed]
          rfl
        · rename_i completed
          rw [if_neg completed]
          split at h
          · rename_i foreign
            cases h
            rw [if_pos foreign]
            rfl
          · rename_i foreign
            cases h
            rw [if_neg foreign]
            rfl

theorem control_written (h : (o.perform n r).written = some s) :
    o.Writes n r ∧ s.control = o.drive n r.control := by
  constructor
  · by_contra silent
    rw [(written_eq_none_iff o).mpr silent] at h
    cases h
  cases o with
  | setArtifactDigests | recordAccounting | markFailed | markRecoveryExhausted
  | restoreLocalAfterFailure =>
      cases h
      rfl
  | markStopped =>
      obtain ⟨open_, rfl⟩ := written_of_keep h
      simp only [markStopped, if_neg open_]
      rfl
  | scheduleRecovery =>
      obtain ⟨failed, rfl⟩ := written_of_keep h
      simp only [scheduleRecovery, if_neg failed]
      rfl
  | markRemote =>
      obtain ⟨open_, rfl⟩ := written_of_keep h
      simp only [markRemote, if_neg open_]
      rfl
  | markRunning | markPaused | markResumed | markMigrating | beginRecovery =>
      cases ok_of_guard (ok_of_guard (written_ofExcept h))
      rfl
  | markCompleted | claimLocal =>
      cases ok_of_guard (written_ofExcept h)
      rfl
  | applyOwnership u =>
      simp only [Operation.perform] at h
      cases applied : applyOwnership n u r with
      | none => simp [applied] at h
      | some t =>
          simp only [applied, Option.some.injEq] at h
          subst h
          exact control_applyOwnership applied

theorem outcome_known {e : Exn} (h : (o.perform n r).outcome = .error e) :
    e.cls = .runtimeError := by
  have guard : ∀ {c : Prop} [Decidable c] {message : String} {x : Except Exn TaskRuntimeState},
      (∀ e, x = .error e → e.cls = .runtimeError) →
      (Effect.ofExcept (if c then .error (runtimeError message) else x)).outcome = .error e →
        e.cls = .runtimeError := by
    intro c _ message x rest h
    by_cases hc : c
    · rw [if_pos hc] at h
      cases h
      rfl
    · rw [if_neg hc] at h
      cases x with
      | ok t => cases h
      | error e' =>
          cases h
          exact rest _ rfl
  cases o with
  | setArtifactDigests | recordAccounting | markFailed | markRecoveryExhausted
  | restoreLocalAfterFailure => cases h
  | markStopped | scheduleRecovery | markRemote =>
      simp only [Operation.perform] at h
      split at h <;> cases h
  | applyOwnership u =>
      simp only [Operation.perform] at h
      split at h <;> cases h
  | markRunning | markPaused | markResumed | markMigrating | beginRecovery =>
      refine guard (fun e' h' => ?_) h
      split at h'
      · cases h'
        rfl
      · cases h'
  | markCompleted | claimLocal => exact guard (fun _ h' => by cases h') h

end Registry

end Magellan
