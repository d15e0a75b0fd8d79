import Magellan.State.PersistentRegistry
import Mathlib.Data.List.Induction
import Mathlib.Tactic.Common

/-!
# Convergence of the ownership gossip

The record that is left by a list of updates depends only on which updates the list has: the one of
the highest generation wins, and a completed task stays completed at its generation.
-/

namespace Magellan.Registry

/-- What a delivered update leaves. -/
def deliver (localNodeId : NodeId) (s : TaskRuntimeState) (u : OwnershipUpdate) :
    TaskRuntimeState :=
  (applyOwnership localNodeId u s).getD s

def gossip (localNodeId : NodeId) (s : TaskRuntimeState) (us : List OwnershipUpdate) :
    TaskRuntimeState :=
  us.foldl (deliver localNodeId) s

def OwnershipUpdate.ownership (u : OwnershipUpdate) : Ownership := ⟨u.generation, u.ownerNodeId⟩

/-- The part of the record that the nodes have to agree on. -/
def view (s : TaskRuntimeState) : Ownership × TaskStatus := (s.ownership, s.status)

/-- Each generation names one owner, and nobody tells the node that it owns the task at a
generation that it has not reached itself. -/
structure Coherent (localNodeId : NodeId) (s : TaskRuntimeState) (us : List OwnershipUpdate) :
    Prop where
  state : ∀ u ∈ us, u.generation = s.generation → u.ownerNodeId = s.ownerNodeId
  updates : ∀ u ∈ us, ∀ v ∈ us, u.generation = v.generation → u.ownerNodeId = v.ownerNodeId
  known : ∀ u ∈ us, u.ownerNodeId = localNodeId → u.generation ≤ s.generation

/-- The state or some update says that the task was completed at `generation`. -/
def Completed (s : TaskRuntimeState) (us : List OwnershipUpdate) (generation : Nat) : Prop :=
  (s.generation = generation ∧ s.status = .completed) ∨
    ∃ u ∈ us, u.generation = generation ∧ u.status = some .completed

/-- `t` is the state `s` with all of `us` merged into it. -/
structure Merged (localNodeId : NodeId) (s : TaskRuntimeState) (us : List OwnershipUpdate)
    (t : TaskRuntimeState) : Prop where
  base : s.generation ≤ t.generation
  bound : ∀ u ∈ us, u.generation ≤ t.generation
  named : t.ownership = s.ownership ∨ ∃ u ∈ us, u.ownership = t.ownership
  completed : t.status = .completed ↔ Completed s us t.generation
  remote : t.status ≠ .completed → t.ownerNodeId ≠ localNodeId →
    (∃ u ∈ us, u.generation = t.generation) → t.status = .remote
  unchanged : t.status ≠ .completed →
    (t.ownerNodeId = localNodeId ∨ ∀ u ∈ us, u.generation ≠ t.generation) → t.status = s.status

section

variable {localNodeId : NodeId} {s t t' : TaskRuntimeState} {us us' : List OwnershipUpdate}
  {u : OwnershipUpdate}

theorem Merged.refl : Merged localNodeId s [] s where
  base := le_rfl
  bound := by simp
  named := .inl rfl
  completed := by simp [Completed]
  remote := by simp
  unchanged := fun _ _ => rfl

/-- The ways in which an update is taken up. -/
inductive Delivered (localNodeId : NodeId) (u : OwnershipUpdate) (s t : TaskRuntimeState) : Prop
  | stale (older : u.generation < s.generation) (same : t = s)
  | rival (level : u.generation = s.generation) (other : u.ownerNodeId ≠ s.ownerNodeId)
      (same : t = s)
  | finished (level : u.generation = s.generation) (closed : s.status = .completed)
      (report : u.status ≠ some .completed) (same : t = s)
  | completed (newer : s.generation ≤ u.generation) (ownership : t.ownership = u.ownership)
      (report : u.status = some .completed) (status : t.status = .completed)
  | remote (newer : s.generation ≤ u.generation) (ownership : t.ownership = u.ownership)
      (report : u.status ≠ some .completed) (other : u.ownerNodeId ≠ localNodeId)
      (status : t.status = .remote)
      (open_ : u.generation = s.generation → s.status ≠ .completed)
  | mine (newer : s.generation ≤ u.generation) (ownership : t.ownership = u.ownership)
      (report : u.status ≠ some .completed) (own : u.ownerNodeId = localNodeId)
      (status : t.status = s.status)
      (open_ : u.generation = s.generation → s.status ≠ .completed)

theorem deliver_cases : Delivered localNodeId u s (deliver localNodeId s u) := by
  unfold deliver applyOwnership
  split
  · exact .stale ‹_› rfl
  rename_i newer
  rw [not_lt] at newer
  split
  · rename_i rival
    exact .rival rival.1 rival.2 rfl
  split
  · rename_i finished
    exact .finished finished.1 finished.2.1 finished.2.2 rfl
  rename_i open_
  have still (report : u.status ≠ some .completed) (level : u.generation = s.generation) :
      s.status ≠ .completed := fun closed => open_ ⟨level, closed, report⟩
  dsimp only
  split
  · exact .completed newer rfl ‹_› rfl
  rename_i report
  split
  · exact .remote newer rfl report ‹_› rfl (still report)
  · rename_i own
    exact .mine newer rfl report (not_not.mp own) rfl (still report)

theorem Coherent.initial (h : Coherent localNodeId s (us ++ [u])) : Coherent localNodeId s us where
  state := fun v mem => h.state v (List.mem_append_left _ mem)
  updates := fun v mem v' mem' =>
    h.updates v (List.mem_append_left _ mem) v' (List.mem_append_left _ mem')
  known := fun v mem => h.known v (List.mem_append_left _ mem)

theorem Merged.owner_eq (h : Merged localNodeId s us t) (coherent : Coherent localNodeId s us)
    {v : OwnershipUpdate} (mem : v ∈ us) (level : v.generation = t.generation) :
    v.ownerNodeId = t.ownerNodeId := by
  rcases h.named with same | ⟨v', mem', same⟩
  · have generation : t.generation = s.generation := congrArg Ownership.generation same
    have owner : t.ownerNodeId = s.ownerNodeId := congrArg Ownership.owner same
    rw [owner]
    exact coherent.state v mem (level.trans generation)
  · have generation : v'.generation = t.generation := congrArg Ownership.generation same
    have owner : v'.ownerNodeId = t.ownerNodeId := congrArg Ownership.owner same
    rw [← owner]
    exact coherent.updates v mem v' mem' (level.trans generation.symm)

theorem completed_append {generation : Nat} : Completed s (us ++ [u]) generation ↔
    Completed s us generation ∨ (u.generation = generation ∧ u.status = some .completed) := by
  unfold Completed
  constructor
  · rintro (state | ⟨v, mem, reports⟩)
    · exact .inl (.inl state)
    · rcases List.mem_append.mp mem with before | last
      · exact .inl (.inr ⟨v, before, reports⟩)
      · cases List.mem_singleton.mp last
        exact .inr reports
  · rintro ((state | ⟨v, mem, reports⟩) | reports)
    · exact .inl state
    · exact .inr ⟨v, List.mem_append_left _ mem, reports⟩
    · exact .inr ⟨u, by simp, reports⟩

theorem Merged.skip (h : Merged localNodeId s us t) (bound : u.generation ≤ t.generation)
    (settled : u.generation = t.generation → t.status = .completed) :
    Merged localNodeId s (us ++ [u]) t where
  base := h.base
  bound := fun v mem => by
    rcases List.mem_append.mp mem with before | last
    · exact h.bound v before
    · cases List.mem_singleton.mp last
      exact bound
  named := h.named.imp id fun ⟨v, mem, same⟩ => ⟨v, List.mem_append_left _ mem, same⟩
  completed := by
    rw [completed_append, ← h.completed]
    exact (or_iff_left_of_imp fun reports => settled reports.1).symm
  remote := fun open_ other ⟨v, mem, level⟩ => by
    rcases List.mem_append.mp mem with before | last
    · exact h.remote open_ other ⟨v, before, level⟩
    · cases List.mem_singleton.mp last
      exact absurd (settled level) open_
  unchanged := fun open_ quiet => h.unchanged open_
    (quiet.imp id fun none v mem => none v (List.mem_append_left _ mem))

theorem Merged.take (h : Merged localNodeId s us t) (newer : t.generation ≤ u.generation)
    (ownership : t'.ownership = u.ownership)
    (completed : t'.status = .completed ↔ Completed s (us ++ [u]) u.generation)
    (remote : t'.status ≠ .completed → u.ownerNodeId ≠ localNodeId → t'.status = .remote)
    (unchanged : t'.status ≠ .completed → u.ownerNodeId = localNodeId → t'.status = s.status) :
    Merged localNodeId s (us ++ [u]) t' := by
  have generation : t'.generation = u.generation := congrArg Ownership.generation ownership
  have owner : t'.ownerNodeId = u.ownerNodeId := congrArg Ownership.owner ownership
  refine ⟨?_, fun v mem => ?_, .inr ⟨u, by simp, ownership.symm⟩, ?_, fun open_ other _ => ?_,
    fun open_ quiet => ?_⟩
  · rw [generation]
    exact h.base.trans newer
  · rw [generation]
    rcases List.mem_append.mp mem with before | last
    · exact (h.bound v before).trans newer
    · cases List.mem_singleton.mp last
      exact le_rfl
  · rw [generation]
    exact completed
  · exact remote open_ (owner ▸ other)
  · rcases quiet with own | none
    · exact unchanged open_ (owner ▸ own)
    · exact absurd generation.symm (none u (by simp))

/-- Nothing was completed at a generation above the record's. -/
theorem Merged.completed_iff (h : Merged localNodeId s us t) (newer : t.generation ≤ u.generation)
    (open_ : u.generation = t.generation → t.status ≠ .completed) :
    Completed s (us ++ [u]) u.generation ↔ u.status = some .completed := by
  rw [completed_append]
  constructor
  · rintro (earlier | ⟨-, report⟩)
    · have level : u.generation = t.generation := by
        refine le_antisymm ?_ newer
        rcases earlier with ⟨same, -⟩ | ⟨v, mem, same, -⟩
        · rw [← same]
          exact h.base
        · rw [← same]
          exact h.bound v mem
      rw [level, ← h.completed] at earlier
      exact absurd earlier (open_ level)
    · exact report
  · exact fun report => .inr ⟨rfl, report⟩

theorem Merged.deliver (h : Merged localNodeId s us t)
    (coherent : Coherent localNodeId s (us ++ [u])) :
    Merged localNodeId s (us ++ [u]) (deliver localNodeId t u) := by
  have delivered : Delivered localNodeId u t (Registry.deliver localNodeId t u) := deliver_cases
  cases delivered with
  | stale older same =>
      rw [same]
      exact h.skip older.le fun level => absurd level older.ne
  | rival level other same =>
      refine absurd ?_ other
      rcases h.named with named | ⟨v, mem, named⟩
      · have generation : t.generation = s.generation := congrArg Ownership.generation named
        have owner : t.ownerNodeId = s.ownerNodeId := congrArg Ownership.owner named
        rw [owner]
        exact coherent.state u (by simp) (level.trans generation)
      · have generation : v.generation = t.generation := congrArg Ownership.generation named
        have owner : v.ownerNodeId = t.ownerNodeId := congrArg Ownership.owner named
        rw [← owner]
        exact coherent.updates u (by simp) v (List.mem_append_left _ mem)
          (level.trans generation.symm)
  | finished level closed report same =>
      rw [same]
      exact h.skip level.le fun _ => closed
  | completed newer ownership report status =>
      refine h.take newer ownership ?_ (absurd status) (absurd status)
      rw [completed_append]
      exact iff_of_true status (.inr ⟨rfl, report⟩)
  | remote newer ownership report other status open_ =>
      refine h.take newer ownership ?_ (fun _ _ => status) fun _ own => absurd own other
      rw [h.completed_iff newer open_]
      exact iff_of_false (by simp [status]) report
  | mine newer ownership report own status open_ =>
      -- the node itself is named only at the generation that the record has had from the start
      have level : u.generation = t.generation :=
        le_antisymm ((coherent.known u (by simp) own).trans h.base) newer
      have kept : t.status = s.status := by
        refine h.unchanged (open_ level) ?_
        by_contra quiet
        rw [not_or, not_forall] at quiet
        obtain ⟨other, v, some_⟩ := quiet
        rw [not_forall, not_not] at some_
        obtain ⟨mem, level'⟩ := some_
        have owner : u.ownerNodeId = v.ownerNodeId := coherent.updates u (by simp) v
          (List.mem_append_left _ mem) (level.trans level'.symm)
        have owner' : v.ownerNodeId = t.ownerNodeId := h.owner_eq coherent.initial mem level'
        exact other (owner'.symm.trans (owner.symm.trans own))
      refine h.take newer ownership ?_ (fun _ other => absurd own other) fun _ _ =>
        status.trans kept
      rw [h.completed_iff newer open_, status]
      exact iff_of_false (open_ level) report

theorem merged_gossip (coherent : Coherent localNodeId s us) :
    Merged localNodeId s us (gossip localNodeId s us) := by
  induction us using List.reverseRecOn with
  | nil => exact .refl
  | append_singleton us u ih =>
      have step := (ih coherent.initial).deliver coherent
      rw [gossip, List.foldl_append]
      exact step

theorem Merged.generation_le (h : Merged localNodeId s us t) (h' : Merged localNodeId s us' t')
    (within : ∀ v ∈ us', v ∈ us) : t'.generation ≤ t.generation := by
  rcases h'.named with same | ⟨v, mem, same⟩
  · have generation : t'.generation = s.generation := congrArg Ownership.generation same
    rw [generation]
    exact h.base
  · have generation : v.generation = t'.generation := congrArg Ownership.generation same
    rw [← generation]
    exact h.bound v (within v mem)

theorem Merged.owner_unique (h : Merged localNodeId s us t) (h' : Merged localNodeId s us' t')
    (coherent : Coherent localNodeId s us) (within : ∀ v ∈ us', v ∈ us)
    (level : t'.generation = t.generation) : t'.ownerNodeId = t.ownerNodeId := by
  rcases h'.named with same | ⟨v, mem, same⟩
  · have generation : t'.generation = s.generation := congrArg Ownership.generation same
    have owner : t'.ownerNodeId = s.ownerNodeId := congrArg Ownership.owner same
    rcases h.named with same' | ⟨v, mem, same'⟩
    · exact owner.trans (congrArg Ownership.owner same').symm
    · have owner' : v.ownerNodeId = t.ownerNodeId := congrArg Ownership.owner same'
      have level' : v.generation = t.generation := congrArg Ownership.generation same'
      rw [owner, ← owner']
      exact (coherent.state v mem (level'.trans (level.symm.trans generation))).symm
  · have owner : v.ownerNodeId = t'.ownerNodeId := congrArg Ownership.owner same
    have generation : v.generation = t'.generation := congrArg Ownership.generation same
    rw [← owner]
    exact h.owner_eq coherent (within v mem) (generation.trans level)

theorem Merged.view_eq (h : Merged localNodeId s us t) (h' : Merged localNodeId s us' t')
    (coherent : Coherent localNodeId s us) (same : ∀ v, v ∈ us' ↔ v ∈ us) : view t' = view t := by
  have generation : t'.generation = t.generation :=
    le_antisymm (h.generation_le h' fun v => (same v).mp) (h'.generation_le h fun v => (same v).mpr)
  have owner : t'.ownerNodeId = t.ownerNodeId :=
    h.owner_unique h' coherent (fun v => (same v).mp) generation
  have completed : t'.status = .completed ↔ t.status = .completed := by
    rw [h.completed, h'.completed, generation]
    simp only [Completed, same]
  have status : t'.status = t.status := by
    by_cases closed : t.status = .completed
    · rw [closed, completed.mpr closed]
    have closed' : t'.status ≠ .completed := mt completed.mp closed
    by_cases quiet : t.ownerNodeId = localNodeId ∨ ∀ v ∈ us, v.generation ≠ t.generation
    · rw [h.unchanged closed quiet]
      refine h'.unchanged closed' ?_
      simpa only [owner, generation, same] using quiet
    · rw [not_or] at quiet
      have heard : ∃ v ∈ us, v.generation = t.generation := by
        have some_ := quiet.2
        rw [not_forall] at some_
        obtain ⟨v, level⟩ := some_
        rw [Classical.not_imp, not_not] at level
        exact ⟨v, level⟩
      rw [h.remote closed quiet.1 heard]
      refine h'.remote closed' (owner ▸ quiet.1) ?_
      simpa only [generation, same] using heard
  unfold view TaskRuntimeState.ownership
  rw [generation, owner, status]

/-- The order of the updates and their repetitions do not matter: the record has the pair of the
highest generation, and the task is completed exactly when somebody said so at that generation. -/
theorem gossip_converges (coherent : Coherent localNodeId s us) (same : ∀ v, v ∈ us' ↔ v ∈ us) :
    view (gossip localNodeId s us') = view (gossip localNodeId s us) ∧
      Merged localNodeId s us (gossip localNodeId s us) := by
  have coherent' : Coherent localNodeId s us' := by
    refine ⟨fun v mem => coherent.state v ((same v).mp mem), fun v mem v' mem' =>
      coherent.updates v ((same v).mp mem) v' ((same v').mp mem'), fun v mem =>
      coherent.known v ((same v).mp mem)⟩
  have merged : Merged localNodeId s us (gossip localNodeId s us) := merged_gossip coherent
  exact ⟨merged.view_eq (merged_gossip coherent') coherent same, merged⟩

end

def initial : TaskRuntimeState := { taskId := "t", ownerNodeId := "a", status := .remote }

/-- The task has moved to `b` and was completed there. -/
def movedUpdates : List OwnershipUpdate :=
  [{ ownerNodeId := "a", generation := 0 },
    { ownerNodeId := "b", generation := 1 },
    { ownerNodeId := "b", generation := 1, status := some .completed }]

theorem gossip_converges_moved :
    view (gossip "c" initial movedUpdates.reverse) = view (gossip "c" initial movedUpdates) :=
  have coherent : Coherent "c" initial movedUpdates := ⟨by decide, by decide, by decide⟩
  (gossip_converges coherent fun _ => List.mem_reverse).1

example : view (gossip "c" initial movedUpdates.reverse) = (⟨1, "b"⟩, .completed) := by decide

end Magellan.Registry
