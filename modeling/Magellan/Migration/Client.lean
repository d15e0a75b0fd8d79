import Magellan.Node.Operations

/-!
# The migration client

Requests of the source to the destination. A failed request raises
`ActivationOutcomeUnknownError`: the destination may or may not have received it.
-/

namespace Magellan.MigrationClient

open Coroutine Coro

def post (request : MigrationActivationRequest) : Async MigrationActivationResponse := do
  await (.sendActivation request)
  await (.awaitActivation request.migrationId)

/-- The remaining attempts of `activate`. -/
def activateAttempts (request : MigrationActivationRequest) :
    Nat → String → Async MigrationActivationResponse
  | 0, lastError => raise ⟨.activationOutcomeUnknownError,
      s!"Destination activation outcome is unknown after retries: {lastError}"⟩
  | attempts + 1, _ =>
      (post request).tryExcept fun e =>
        if e.cls = .httpError ∨ e.cls = .valueError then
          activateAttempts request attempts e.message
        else raise e

def activate (request : MigrationActivationRequest) : Async MigrationActivationResponse :=
  activateAttempts request 3 "None"

/-- The destination's record of a migration; `none` is a 404. -/
def status (destinationNodeId : NodeId) (m : MigrationId) : Async (Option MigrationRecord) := do
  await (.sendStatusQuery destinationNodeId m)
  await (.awaitStatus destinationNodeId m)

/-! ## What the requests return -/

variable {n d : NodeId} {m : MigrationId} {c : Choice} {w w' : World}

theorem exec_sendStatusQuery {r : Except Exn Unit}
    (h : exec n (.sendStatusQuery d m) c w = some (r, w')) :
    ∃ now, c = .ok now ∧ r = .ok () ∧ w' = { w with queries := (d, m) :: w.queries } := by
  rcases exec_cases h with ⟨e, -, may, -⟩ | h
  · cases may
  · cases c <;> cases h
    exact ⟨_, rfl, rfl, rfl⟩

theorem exec_awaitStatus {r : Except Exn (Option MigrationRecord)}
    (h : exec n (.awaitStatus d m) c w = some (r, w')) :
    w' = w ∧ ((∃ e, c = .fail e ∧ e.cls = .activationOutcomeUnknownError ∧ r = .error e) ∨
      ∃ a, c = .answer a ∧ (d, m, a) ∈ w.answers ∧ r = .ok a) := by
  rcases exec_cases h with ⟨e, rfl, may, rfl, rfl⟩ | h
  · exact ⟨rfl, .inl ⟨e, rfl, by simpa [Op.mayRaise] using may, rfl⟩⟩
  · cases c with
    | answer a =>
        simp only [effect, reads] at h
        split at h
        · cases h
          exact ⟨rfl, .inr ⟨a, rfl, ‹_›, rfl⟩⟩
        · cases h
    | _ => cases h

theorem exec_awaitActivation {r : Except Exn MigrationActivationResponse}
    (h : exec n (.awaitActivation m) c w = some (r, w')) :
    w' = w ∧ ((∃ e, c = .fail e ∧ r = .error e) ∨
      ∃ a, c = .response a ∧ a ∈ w.responses ∧ a.migrationId = m ∧ r = .ok a) := by
  rcases exec_cases h with ⟨e, rfl, -, rfl, rfl⟩ | h
  · exact ⟨rfl, .inl ⟨e, rfl, rfl⟩⟩
  · cases c with
    | response a =>
        simp only [effect, reads] at h
        split at h
        · rename_i received
          cases h
          exact ⟨rfl, .inr ⟨a, rfl, received.1, received.2, rfl⟩⟩
        · cases h
    | _ => cases h

theorem exec_awaitStatus_answer {a : Option MigrationRecord} (sent : (d, m, a) ∈ w.answers) :
    exec n (.awaitStatus d m) (.answer a) w = some (.ok a, w) := if_pos sent

end Magellan.MigrationClient
