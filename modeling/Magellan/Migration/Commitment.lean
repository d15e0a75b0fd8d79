import Magellan.Node.Operations
import Mathlib.Data.List.Basic

/-!
# Committed activations

What the journals of all nodes have said, the last write first: which migrations have begun, and
which activations are committed, that is marked ACTIVATED before they were ever rolled back.
-/

namespace Magellan

namespace Commitment

/-- The journal writes of all nodes, the last one first. -/
abbrev History := List (NodeId × MigrationRecord)

end Commitment

def LogEntry.journalWrite : LogEntry → Option (NodeId × MigrationRecord)
  | .journal n record _ => some (n, record)
  | .registry .. => none

def World.history (w : World) : Commitment.History := w.log.filterMap LogEntry.journalWrite

namespace Commitment

/-- A write of the destination record of `m` at `d`. -/
def Says (d : NodeId) (m : MigrationId) (status : MigrationStatus) (e : NodeId × MigrationRecord) :
    Prop :=
  e.1 = d ∧ e.2.role = .destination ∧ e.2.migrationId = m ∧ e.2.status = status

instance (d : NodeId) (m : MigrationId) (status : MigrationStatus)
    (e : NodeId × MigrationRecord) : Decidable (Says d m status e) :=
  inferInstanceAs (Decidable (_ ∧ _))

/-- The activation of `m` at `d` has been rolled back. -/
def RolledBack (d : NodeId) (m : MigrationId) (h : History) : Prop := ∃ e ∈ h, Says d m .rolledBack e

instance (d : NodeId) (m : MigrationId) (h : History) : Decidable (RolledBack d m h) :=
  inferInstanceAs (Decidable (∃ e ∈ h, Says d m .rolledBack e))

/-- The record of `m` at `d` reached ACTIVATED without having been rolled back. -/
def Committed (d : NodeId) (m : MigrationId) (g : Nat) : History → Prop
  | [] => False
  | e :: h => Committed d m g h ∨
      (Says d m .activated e ∧ e.2.generation = g ∧ ¬ RolledBack d m h)

instance decidableCommitted (d : NodeId) (m : MigrationId) (g : Nat) :
    (h : History) → Decidable (Committed d m g h)
  | [] => isFalse id
  | e :: h =>
      have := decidableCommitted d m g h
      inferInstanceAs (Decidable (_ ∨ (Says d m .activated e ∧ e.2.generation = g ∧ _)))

/-- A migration `m` has begun that gives the task to `d` with generation `g`. -/
def Begun (m : MigrationId) (d : NodeId) (g : Nat) (h : History) : Prop :=
  ∃ e ∈ h, e.2.role = .source ∧ e.2.migrationId = m ∧ e.2.destinationNodeId = d ∧
    e.2.generation = g

/-- The task is at `d` with generation `g` since the start, or `d` has committed an activation. -/
def Good (initial : Ownership) (d : NodeId) (g : Nat) (h : History) : Prop :=
  initial = ⟨g, d⟩ ∨ ∃ m, Committed d m g h

def GoodState (initial : Ownership) (h : History) (s : TaskRuntimeState) : Prop :=
  Good initial s.ownerNodeId s.generation h

/-- What is known of a record that `n` has written. -/
structure Entry (initial : Ownership) (h : History) (n : NodeId) (r : MigrationRecord) : Prop where
  elsewhere : r.role = .source → r.destinationNodeId ≠ n
  origin : r.role = .source → Good initial n (r.generation - 1) h
  begun : r.role = .destination → Begun r.migrationId n r.generation h
  activated : r.role = .destination → r.status = .activated →
    Committed n r.migrationId r.generation h
  original : r.role = .destination → match r.originalState with
    | some s => GoodState initial h s
    | none => Committed n r.migrationId r.generation h

structure Sound (initial : Ownership) (h : History) : Prop where
  unique : ∀ {m d d' g g'}, Begun m d g h → Begun m d' g' h → d = d' ∧ g = g'
  entries : ∀ {n r}, (n, r) ∈ h → Entry initial h n r

section

variable {d n : NodeId} {m : MigrationId} {g : Nat} {initial : Ownership} {h h' : History} {r : MigrationRecord}
  {e : NodeId × MigrationRecord}

theorem RolledBack.mono (later : h <:+ h') : RolledBack d m h → RolledBack d m h'
  | ⟨e, mem, said⟩ => ⟨e, later.subset mem, said⟩

theorem Begun.mono (later : h <:+ h') : Begun m d g h → Begun m d g h'
  | ⟨e, mem, said⟩ => ⟨e, later.subset mem, said⟩

theorem Committed.mono (later : h <:+ h') (committed : Committed d m g h) : Committed d m g h' := by
  obtain ⟨new, rfl⟩ := later
  induction new with
  | nil => exact committed
  | cons e new ih => exact .inl ih

theorem Good.mono (later : h <:+ h') : Good initial d g h → Good initial d g h'
  | .inl first => .inl first
  | .inr ⟨m, committed⟩ => .inr ⟨m, committed.mono later⟩

theorem Entry.mono (later : h <:+ h') (known : Entry initial h n r) : Entry initial h' n r where
  elsewhere := known.elsewhere
  origin role := (known.origin role).mono later
  begun role := (known.begun role).mono later
  activated role status := (known.activated role status).mono later
  original role := by
    have original := known.original role
    split
    · rename_i found
      rw [found] at original
      exact original.mono later
    · rename_i found
      rw [found] at original
      exact original.mono later

theorem Committed.exists_write (committed : Committed d m g h) :
    ∃ r, (d, r) ∈ h ∧ r.role = .destination ∧ r.migrationId = m ∧ r.generation = g ∧
      r.status = .activated := by
  induction h with
  | nil => exact committed.elim
  | cons e h ih =>
      rcases committed with before | ⟨⟨rfl, role, id, status⟩, generation, -⟩
      · obtain ⟨r, mem, said⟩ := ih before
        exact ⟨r, List.mem_cons_of_mem _ mem, said⟩
      · exact ⟨e.2, List.mem_cons_self .., role, id, generation, status⟩

/-- The node that the migration of a record of `n` gives the task to. -/
def claimant (n : NodeId) (r : MigrationRecord) : NodeId :=
  match r.role with
  | .source => r.destinationNodeId
  | .destination => n

namespace Sound

variable {n' : NodeId} {r' : MigrationRecord}

theorem begun (sound : Sound initial h) (mem : (n, r) ∈ h) :
    Begun r.migrationId (claimant n r) r.generation h := by
  unfold claimant
  cases role : r.role with
  | source => exact ⟨(n, r), mem, role, rfl, rfl, rfl⟩
  | destination => exact (sound.entries mem).begun role

theorem agree (sound : Sound initial h) (mem : (n, r) ∈ h) (begun : Begun r.migrationId d g h) :
    claimant n r = d ∧ r.generation = g := sound.unique (sound.begun mem) begun

/-- The source of a migration has no record of its activation. -/
theorem isSource (sound : Sound initial h) (mem : (n, r) ∈ h) (begun : Begun r.migrationId d g h)
    (ne : d ≠ n) : r.role = .source := by
  have agrees := (sound.agree mem begun).1
  unfold claimant at agrees
  cases role : r.role with
  | source => rfl
  | destination =>
      rw [role] at agrees
      exact absurd agrees.symm ne

/-- The destination of a migration has no record of its own departure. -/
theorem isDestination (sound : Sound initial h) (mem : (n, r) ∈ h)
    (begun : Begun r.migrationId n g h) : r.role = .destination := by
  have agrees := (sound.agree mem begun).1
  unfold claimant at agrees
  cases role : r.role with
  | source =>
      rw [role] at agrees
      exact absurd agrees ((sound.entries mem).elsewhere role)
  | destination => rfl

theorem begun_of_committed (sound : Sound initial h) (committed : Committed d m g h) :
    Begun m d g h := by
  obtain ⟨r, mem, role, rfl, rfl, -⟩ := committed.exists_write
  exact (sound.entries mem).begun role

/-- A write that agrees with what has begun. -/
theorem cons (sound : Sound initial h) (agrees : ∀ {d g}, Begun r.migrationId d g h →
    claimant n r = d ∧ r.generation = g) (known : Entry initial ((n, r) :: h) n r) :
    Sound initial ((n, r) :: h) := by
  have later : h <:+ (n, r) :: h := List.suffix_cons ..
  have split {m d g} (begun : Begun m d g ((n, r) :: h)) : Begun m d g h ∨
      (r.role = .source ∧ r.migrationId = m ∧ claimant n r = d ∧ r.generation = g) := by
    obtain ⟨e, mem, role, rfl, rfl, rfl⟩ := begun
    rcases List.mem_cons.mp mem with rfl | before
    · refine .inr ⟨role, rfl, ?_, rfl⟩
      unfold claimant
      rw [role]
    · exact .inl ⟨e, before, role, rfl, rfl, rfl⟩
  constructor
  · intro m d d' g g' first second
    rcases split first with first | ⟨-, rfl, rfl, rfl⟩ <;>
      rcases split second with second | ⟨-, id, rfl, rfl⟩
    · exact sound.unique first second
    · subst id
      obtain ⟨rfl, rfl⟩ := agrees first
      exact ⟨rfl, rfl⟩
    · exact agrees second
    · exact ⟨rfl, rfl⟩
  · intro n' r' mem
    rcases List.mem_cons.mp mem with same | before
    · cases same
      exact known
    · exact (sound.entries before).mono later

end Sound

end

end Commitment

end Magellan
