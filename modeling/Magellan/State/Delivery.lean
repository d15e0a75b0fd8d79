import Magellan.Cluster
import Magellan.State.LostUpdate

/-!
# The two ways in which an ownership update arrives

An update comes in a snapshot of another node or by a post to the ownership endpoint. Both apply it
to the registry first. The digests of the artifacts and the adaptive policy are written after that,
under guards that each way writes out for itself.
-/

namespace Magellan

open Registry (OwnershipUpdate Operation applyOwnership setArtifactDigests)

section

variable {n : NodeId} {u : OwnershipUpdate} {s : NodeState}

theorem mergeUpdate_refused (refused : applyOwnership n u s.registry = none) :
    mergeUpdate n u s = s := by
  unfold mergeUpdate
  rw [refused]

theorem postOwnership_applied {state : TaskRuntimeState}
    (applied : applyOwnership n u s.registry = some state) :
    postOwnership n u s = mergeUpdate n u s := by
  unfold postOwnership
  rw [applied]

theorem postOwnership_refused (refused : applyOwnership n u s.registry = none) :
    postOwnership n u s =
      if u.artifactDigests = [] then s
      else { s with registry := setArtifactDigests u.artifactDigests s.registry } := by
  unfold postOwnership
  rw [refused]

theorem setArtifactDigests_eq_self_iff {digests : List (String × String)} {r : TaskRuntimeState} :
    setArtifactDigests digests r = r ↔ r.artifactDigests = digests := by
  constructor
  · intro same
    rw [← same]
    rfl
  · intro same
    subst same
    rfl

/-- The endpoint leaves a refused update without effect only where it brings no new digests. -/
theorem postOwnership_eq_self_iff (refused : applyOwnership n u s.registry = none) :
    postOwnership n u s = s ↔ u.artifactDigests = [] ∨ s.registry.artifactDigests = u.artifactDigests := by
  rw [postOwnership_refused refused]
  by_cases none_ : u.artifactDigests = []
  · rw [if_pos none_]
    exact iff_of_true rfl (.inl none_)
  · rw [if_neg none_, or_iff_right none_, ← setArtifactDigests_eq_self_iff]
    constructor
    · exact congrArg NodeState.registry
    · intro same
      rw [same]

end

/-- How an update arrives. -/
inductive Delivery where
  /-- In a round of the reconciliation service. -/
  | snapshot
  /-- By a post to the ownership endpoint. -/
  | endpoint

def Delivery.process : Delivery → NodeId → OwnershipUpdate → NodeState → NodeState
  | snapshot => mergeUpdate
  | endpoint => postOwnership

/-- The record of the task and the adaptive policy are the same. -/
def SameTask (s t : NodeState) : Prop := t.registry = s.registry ∧ t.policy = s.policy

def staleNode : NodeState where
  registry := {
    taskId := "t"
    ownerNodeId := "a"
    generation := 2
    status := .running
    artifactDigests := [("model", "new")] }

def staleUpdate : OwnershipUpdate where
  ownerNodeId := "a"
  generation := 1
  artifactDigests := [("model", "old")]

end Magellan
