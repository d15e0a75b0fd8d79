import Magellan.Coroutine.Rules
import Magellan.Node.Operations

/-!
# What the operations do

One lemma for each operation: its possible results and the world it leaves.
-/

namespace Magellan

open Coroutine

variable {n : NodeId} {c : Choice} {w v : World} {m : MigrationId} {b : BidId}

namespace World

@[simp] theorem putRecord_self (w : World) (n : NodeId) (r : MigrationRecord) :
    (w.putRecord n r).nodes n = { w.nodes n with journal := (w.nodes n).journal.put r } :=
  if_pos rfl

@[simp] theorem putState_self (w : World) (n : NodeId) (op : RegistryOp)
    (state : TaskRuntimeState) :
    (w.putState n op state).nodes n = { w.nodes n with
      registry := state
      starting := match op with
        | .markRunning .. => none
        | _ => (w.nodes n).starting } := if_pos rfl

@[simp] theorem setIncoming_nodes (w : World) (n : NodeId) (m : MigrationId)
    (d : Option Directory) : (w.setIncoming n m d).nodes = w.nodes := rfl

end World

/-- The other nodes and the network may step; node `n` stays as it is. -/
def Elsewhere (n : NodeId) (w v : World) : Prop := v.nodes n = w.nodes n

/-- `A` holds of the state of node `n`. -/
def At (n : NodeId) (A : NodeState → Prop) (w : World) : Prop := A (w.nodes n)

theorem stable_at {K : Contract Op Choice World} (within : ∀ {w v}, K.rely w v → Elsewhere n w v)
    (A : NodeState → Prop) : K.Stable (At n A) := fun w v step a => by
  have same : v.nodes n = w.nodes n := within step
  unfold At
  rw [same]
  exact a

theorem elsewhere_star (steps : Relation.ReflTransGen (Elsewhere n) w v) : Elsewhere n w v := by
  induction steps with
  | refl => exact rfl
  | tail _ step ih => exact Eq.trans step ih

/-- A complete run at `n` while the other nodes step. -/
abbrev Runs {α : Type} (n : NodeId) (p : Async α) (w : World) (tr : List (Op × Choice))
    (r : Except Exn α) (v : World) : Prop :=
  Reach (exec n) (Elsewhere n) p w tr (.done r) v

section Runs

variable {α β : Type} {tr : List (Op × Choice)}

theorem done_local {r r' : Except Exn α} (h : Runs n (.done r) w tr r' v) :
    tr = [] ∧ r' = r ∧ Elsewhere n w v := by
  obtain ⟨none, ended, steps⟩ := Reach.done_inv h
  cases ended
  exact ⟨none, rfl, elsewhere_star steps⟩

theorem perform_local {o : Op} {k : Except Exn o.Ret → Async α} {r : Except Exn α}
    (h : Runs n (.perform o k) w tr r v) :
    ∃ c tr' a u u', tr = (o, c) :: tr' ∧ Elsewhere n w u ∧ exec n o c u = some (a, u') ∧
      Runs n (k a) u' tr' r v := by
  obtain ⟨c, tr', a, u, u', rfl, steps, step, rest⟩ := h.perform_done
  exact ⟨c, tr', a, u, u', rfl, elsewhere_star steps, step, rest⟩

theorem andThen_local {p : Async α} {f : Except Exn α → Async β} {r : Except Exn β}
    (h : Runs n (p.andThen f) w tr r v) : ∃ a tr₁ tr₂ u, tr = tr₁ ++ tr₂ ∧ Runs n p w tr₁ a u ∧
      Runs n (f a) u tr₂ r v := Reach.andThen_done h

theorem bind_run {p : Async α} {f : α → Async β} {r : Except Exn β}
    (h : Runs n (p >>= f) w tr r v) : ∃ a tr₁ tr₂ u, tr = tr₁ ++ tr₂ ∧ Runs n p w tr₁ a u ∧
      ((∃ e, a = .error e ∧ r = .error e ∧ tr₂ = [] ∧ Elsewhere n u v) ∨
        ∃ x, a = .ok x ∧ Runs n (f x) u tr₂ r v) := by
  obtain ⟨a, tr₁, tr₂, u, rfl, first, rest⟩ := andThen_local h
  refine ⟨a, tr₁, tr₂, u, rfl, first, ?_⟩
  cases a with
  | ok x => exact .inr ⟨x, rfl, rest⟩
  | error e =>
      obtain ⟨rfl, rfl, same⟩ := done_local rest
      exact .inl ⟨e, rfl, rfl, rfl, same⟩

end Runs

/-- The operation raised and changed nothing. -/
def Fails {α : Type} (c : Choice) (r : Except Exn α) (w v : World) : Prop :=
  (∃ e, c = .fail e ∧ r = .error e) ∧ v = w

section Cases

variable {o : Op} {r : Except Exn o.Ret}

theorem exec_elsewhere {i : NodeId} (ne : i ≠ n) (h : exec n o c w = some (r, v)) :
    Elsewhere i w v := by
  rcases exec_cases h with ⟨e, -, -, -, rfl⟩ | h
  · exact rfl
  unfold effect at h
  split at h <;> (try simp only [reads, writes, raises, bidResult] at h) <;>
    (try split at h) <;> cases h <;> first | exact rfl | exact if_neg ne

theorem exec_fails_or (h : exec n o c w = some (r, v)) :
    Fails c r w v ∨ effect n w o c = some (r, v) := by
  rcases exec_cases h with ⟨e, rfl, -, rfl, rfl⟩ | h
  · exact .inl ⟨⟨e, rfl, rfl⟩, rfl⟩
  · exact .inr h

/-- An operation writes at most one entry. -/
theorem exec_log (h : exec n o c w = some (r, v)) :
    v.log = w.log ∨ ∃ e, v.log = e :: w.log := by
  rcases exec_cases h with ⟨e, -, -, -, rfl⟩ | h
  · exact .inl rfl
  unfold effect at h
  split at h <;> (try simp only [reads, writes, raises, bidResult] at h) <;>
    (try split at h) <;> cases h <;> first | exact .inl rfl | exact .inr ⟨_, rfl⟩

end Cases

theorem exec_getState {r : Except Exn TaskRuntimeState} (h : exec n .getState c w = some (r, v)) :
    Fails c r w v ∨ r = .ok (w.nodes n).registry ∧ v = w := by
  rcases exec_fails_or h with failed | h
  · exact .inl failed
  · cases c <;> cases h
    exact .inr ⟨rfl, rfl⟩

theorem exec_journalGet {r : Except Exn (Option MigrationRecord)}
    (h : exec n (.journalGet m) c w = some (r, v)) :
    Fails c r w v ∨ r = .ok ((w.nodes n).journal.get m) ∧ v = w := by
  rcases exec_fails_or h with failed | h
  · exact .inl failed
  · cases c <;> cases h
    exact .inr ⟨rfl, rfl⟩

theorem exec_journalPut {record : MigrationRecord} {r : Except Exn Unit}
    (h : exec n (.journalPut record) c w = some (r, v)) :
    Fails c r w v ∨ r = .ok () ∧ v = w.putRecord n record := by
  rcases exec_fails_or h with failed | h
  · exact .inl failed
  · cases c <;> cases h
    exact .inr ⟨rfl, rfl⟩

theorem exec_recordStatus {status : MigrationStatus} {pid : Option Pid} {error : Option String}
    {r : Except Exn Unit} (h : exec n (.setRecordStatus m status pid error) c w = some (r, v)) :
    Fails c r w v ∨ r = .ok () ∧ (((w.nodes n).journal.get m = none ∧ v = w) ∨
      ∃ record, (w.nodes n).journal.get m = some record ∧
        v = w.putRecord n { record with status, pid, error }) := by
  rcases exec_fails_or h with failed | h
  · exact .inl failed
  · cases c with
    | ok now =>
        simp only [effect, reads] at h
        split at h
        · rename_i absent
          cases h
          exact .inr ⟨rfl, .inl ⟨absent, rfl⟩⟩
        · rename_i record found
          cases h
          exact .inr ⟨rfl, .inr ⟨record, found, rfl⟩⟩
    | _ => cases h

theorem exec_registry {op : RegistryOp} {r : Except Exn TaskRuntimeState}
    (h : exec n (.registry op) c w = some (r, v)) :
    Fails c r w v ∨ ∃ now, c = .ok now ∧ (op.apply n now (w.nodes n).registry = r) ∧
      ((∃ e, r = .error e ∧ v = w) ∨ ∃ state, r = .ok state ∧ v = w.putState n op state) := by
  rcases exec_fails_or h with failed | h
  · exact .inl failed
  · cases c with
    | ok now =>
        simp only [effect, raises] at h
        cases applied : op.apply n now (w.nodes n).registry with
        | ok state =>
            rw [applied] at h
            cases h
            exact .inr ⟨now, rfl, applied, .inr ⟨state, rfl, rfl⟩⟩
        | error e =>
            rw [applied] at h
            cases h
            exact .inr ⟨now, rfl, applied, .inl ⟨e, rfl, rfl⟩⟩
    | _ => cases h

/-! ## Vitals -/

/-- The live processes, and the part of the registry that says where the task runs. -/
structure Vitals where
  processes : List Pid
  pid : Option Pid
  ownership : Ownership
  status : TaskStatus

def NodeState.vitals (s : NodeState) : Vitals :=
  ⟨s.processes, s.registry.pid, s.registry.ownership, s.registry.status⟩

theorem vitals_settleTask (s : NodeState) (alive : Pid → Bool) (i : Accounting.SettleInput) :
    ({ s with registry := Accounting.settleTask n alive i s.registry } : NodeState).vitals =
      s.vitals := by
  unfold Accounting.settleTask
  split <;> rfl

/-- The operations that change the vitals of the node. -/
def Op.isVital : Op → Bool
  | registry _ | spawn | terminate _ => true
  | _ => false

theorem exec_vitals {o : Op} {r : Except Exn o.Ret} (quiet : o.isVital = false)
    (h : exec n o c w = some (r, v)) : (v.nodes n).vitals = (w.nodes n).vitals := by
  rcases exec_cases h with ⟨e, -, -, -, rfl⟩ | h
  · rfl
  unfold effect at h
  split at h <;> (try cases quiet) <;> (try simp only [reads, writes, raises, bidResult] at h) <;>
    (try split at h) <;> cases h <;> first
      | rfl
      | simp only [World.modify_self, World.putRecord_self]
        first
          | rfl
          | exact vitals_settleTask ..

/-- The operations that start or end a process. -/
def Op.isProcessOp : Op → Bool
  | spawn | terminate _ => true
  | _ => false

theorem exec_processes {o : Op} {r : Except Exn o.Ret} (quiet : o.isProcessOp = false)
    (h : exec n o c w = some (r, v)) : (v.nodes n).processes = (w.nodes n).processes := by
  by_cases vital : o.isVital = false
  · exact congrArg Vitals.processes (exec_vitals vital h)
  · cases o with
    | registry op =>
        rcases exec_registry h with ⟨-, rfl⟩ | ⟨-, -, -, ⟨-, -, rfl⟩ | ⟨state, -, rfl⟩⟩
        · rfl
        · rfl
        · rw [World.putState_self]
    | _ => first | exact absurd rfl vital | cases quiet

def Op.isJournalWrite : Op → Bool
  | journalPut _ | setRecordStatus .. => true
  | _ => false

theorem exec_journal {o : Op} {r : Except Exn o.Ret} (quiet : o.isJournalWrite = false)
    (h : exec n o c w = some (r, v)) : (v.nodes n).journal = (w.nodes n).journal := by
  rcases exec_cases h with ⟨e, -, -, -, rfl⟩ | h
  · rfl
  unfold effect at h
  split at h <;> (try cases quiet) <;> (try simp only [reads, writes, raises, bidResult] at h) <;>
    (try split at h) <;> cases h <;> first
      | rfl
      | simp only [World.modify_self, World.putState_self]

/-- What an activation of `m` has to put back, and the directory it keeps for that. -/
structure Files where
  registry : TaskRuntimeState
  checkpoint : Option Directory
  backup : Option Directory

def NodeState.files (m : MigrationId) (s : NodeState) : Files :=
  ⟨s.registry, s.checkpoint, s.backups m⟩

def Op.isFileOp : Op → Bool
  | registry _ | ensureTaskArtifacts | stageBindings _ | settleTask | recordMigration => true
  | makeTaskDirectories | removeBackup .. | renameToBackup _ | copyIncoming _ | removeCheckpoint
  | renameFromBackup _ => true
  | _ => false

theorem exec_files {o : Op} {r : Except Exn o.Ret} (quiet : o.isFileOp = false)
    (h : exec n o c w = some (r, v)) : (v.nodes n).files m = (w.nodes n).files m := by
  rcases exec_cases h with ⟨e, -, -, -, rfl⟩ | h
  · rfl
  unfold effect at h
  split at h <;> (try cases quiet) <;> (try simp only [reads, writes, raises, bidResult] at h) <;>
    (try split at h) <;> cases h <;> first
      | rfl
      | simp only [World.modify_self, World.putRecord_self]
        rfl

def NodeState.directories (m : MigrationId) (s : NodeState) :
    Option Directory × Option Directory := (s.checkpoint, s.backups m)

def Op.isDirectoryOp : Op → Bool
  | makeTaskDirectories | removeBackup .. | renameToBackup _ | copyIncoming _ | removeCheckpoint
  | renameFromBackup _ => true
  | _ => false

theorem exec_directories {o : Op} {r : Except Exn o.Ret} (quiet : o.isDirectoryOp = false)
    (h : exec n o c w = some (r, v)) :
    (v.nodes n).directories m = (w.nodes n).directories m := by
  rcases exec_cases h with ⟨e, -, -, -, rfl⟩ | h
  · rfl
  unfold effect at h
  split at h <;> (try cases quiet) <;> (try simp only [reads, writes, raises, bidResult] at h) <;>
    (try split at h) <;> cases h <;> first
      | rfl
      | simp only [World.modify_self, World.putRecord_self, World.putState_self]
        rfl

def Op.isBackupOp : Op → Bool
  | removeBackup .. | renameToBackup _ | renameFromBackup _ => true
  | _ => false

theorem exec_backups {o : Op} {r : Except Exn o.Ret} (quiet : o.isBackupOp = false)
    (h : exec n o c w = some (r, v)) : (v.nodes n).backups = (w.nodes n).backups := by
  rcases exec_cases h with ⟨e, -, -, -, rfl⟩ | h
  · rfl
  unfold effect at h
  split at h <;> (try cases quiet) <;> (try simp only [reads, writes, raises, bidResult] at h) <;>
    (try split at h) <;> cases h <;> first
      | rfl
      | simp only [World.modify_self, World.putRecord_self, World.putState_self]

theorem frame_run {α β : Type} {p : Async α} {r : Except Exn α} {tr : List (Op × Choice)}
    {P : Op → Prop} (f : NodeState → β) (performs : p.Performs P)
    (frame : ∀ {o : Op} {c w v} {r : Except Exn o.Ret}, P o → exec n o c w = some (r, v) →
      f (v.nodes n) = f (w.nodes n))
    (h : Runs n p w tr r v) : f (v.nodes n) = f (w.nodes n) := by
  let K : Contract Op Choice World := ⟨fun _ _ _ => True, Elsewhere n, fun _ => True, fun _ _ => True⟩
  have keeps : Triple (exec n) K (At n fun s => f s = f (w.nodes n)) p
      (fun _ => At n fun s => f s = f (w.nodes n)) (fun _ => At n fun s => f s = f (w.nodes n)) := by
    refine .of_performs (stable_at id _) performs fun o ok u c r u' same _ _ step => ?_
    have same' := (frame ok step).trans same
    cases r <;> exact ⟨trivial, trivial, same'⟩
  have ends := keeps.reach id .top rfl trivial h fun _ _ _ => trivial
  cases r <;> exact ends

/-! ## Directories -/

theorem exec_backupExists {r : Except Exn Bool} (h : exec n (.backupExists m) c w = some (r, v)) :
    r = .ok ((w.nodes n).backups m).isSome ∧ v = w := by
  rcases exec_cases h with ⟨e, -, may, -⟩ | h
  · cases may
  · cases c <;> cases h
    exact ⟨rfl, rfl⟩

theorem exec_checkpointExists {r : Except Exn Bool}
    (h : exec n .checkpointExists c w = some (r, v)) :
    r = .ok (w.nodes n).checkpoint.isSome ∧ v = w := by
  rcases exec_cases h with ⟨e, -, may, -⟩ | h
  · cases may
  · cases c <;> cases h
    exact ⟨rfl, rfl⟩

theorem exec_removeCheckpoint {r : Except Exn Unit}
    (h : exec n .removeCheckpoint c w = some (r, v)) :
    r = .ok () ∧ v = w.modify n fun s => { s with checkpoint := none } := by
  rcases exec_cases h with ⟨e, -, may, -⟩ | h
  · cases may
  · cases c <;> cases h
    exact ⟨rfl, rfl⟩

theorem exec_removeIncoming {r : Except Exn Unit}
    (h : exec n (.removeIncoming m) c w = some (r, v)) :
    r = .ok () ∧ v = w.setIncoming n m none := by
  rcases exec_cases h with ⟨e, -, may, -⟩ | h
  · cases may
  · cases c <;> cases h
    exact ⟨rfl, rfl⟩

def NodeState.dropBackup (m : MigrationId) (s : NodeState) : NodeState :=
  { s with backups := fun i => if i = m then none else s.backups i }

theorem exec_removeBackup {ignoreErrors : Bool} {r : Except Exn Unit}
    (h : exec n (.removeBackup m ignoreErrors) c w = some (r, v)) :
    Fails c r w v ∨ c.isFail = false ∧ r = .ok () ∧ v = w.modify n (NodeState.dropBackup m) := by
  rcases exec_fails_or h with failed | h
  · exact .inl failed
  · cases c <;> cases h
    exact .inr ⟨rfl, rfl, rfl⟩

/-- The checkpoint becomes the backup. -/
def NodeState.makeBackup (m : MigrationId) (d : Directory) (s : NodeState) : NodeState :=
  { s with
    checkpoint := none
    backups := fun i => if i = m then some d else s.backups i }

theorem exec_renameToBackup {r : Except Exn Unit}
    (h : exec n (.renameToBackup m) c w = some (r, v)) :
    (∃ e, r = .error e ∧ v = w) ∨
      ∃ d, (w.nodes n).checkpoint = some d ∧ r = .ok () ∧
        v = w.modify n (NodeState.makeBackup m d) := by
  rcases exec_fails_or h with ⟨⟨e, -, rfl⟩, rfl⟩ | h
  · exact .inl ⟨e, rfl, rfl⟩
  · cases c with
    | ok now =>
        simp only [effect, raises, writes] at h
        split at h <;> cases h
        · exact .inl ⟨_, rfl, rfl⟩
        · exact .inl ⟨_, rfl, rfl⟩
        · rename_i d found _
          exact .inr ⟨d, found, rfl, rfl⟩
    | _ => cases h

theorem exec_copyIncoming {r : Except Exn Unit}
    (h : exec n (.copyIncoming m) c w = some (r, v)) :
    ((∀ part e, c ≠ .copyFailed part e) ∧
      ((∃ e, r = .error e ∧ v = w) ∨
        ∃ d, r = .ok () ∧ v = w.modify n fun s => { s with checkpoint := some d })) ∨
      ∃ part e, c = .copyFailed part e ∧ r = .error e ∧
        v = w.modify n fun s => { s with checkpoint := some part } := by
  rcases exec_fails_or h with ⟨⟨e, rfl, rfl⟩, rfl⟩ | h
  · exact .inl ⟨by simp, .inl ⟨e, rfl, rfl⟩⟩
  · cases c with
    | ok now =>
        refine .inl ⟨by simp, ?_⟩
        simp only [effect, raises, writes] at h
        split at h <;> cases h
        · exact .inl ⟨_, rfl, rfl⟩
        · exact .inl ⟨_, rfl, rfl⟩
        · exact .inr ⟨_, rfl, rfl⟩
    | copyFailed part e =>
        simp only [effect] at h
        split at h <;> cases h
        exact .inr ⟨part, e, rfl, rfl, rfl⟩
    | _ => cases h

/-- The backup takes the place of the checkpoint. -/
def NodeState.restoreBackup (m : MigrationId) (d : Directory) (s : NodeState) : NodeState :=
  { s with
    checkpoint := some d
    backups := fun i => if i = m then none else s.backups i }

theorem exec_renameFromBackup {r : Except Exn Unit}
    (h : exec n (.renameFromBackup m) c w = some (r, v)) :
    Fails c r w v ∨
      ((w.nodes n).backups m = none ∧ r = .error (noSuchFile "backup") ∧ v = w) ∨
      (∃ d x xs, (w.nodes n).backups m = some d ∧ (w.nodes n).checkpoint = some (x :: xs) ∧
        r = .error directoryNotEmpty ∧ v = w) ∨
      ∃ d, (w.nodes n).backups m = some d ∧
        ((w.nodes n).checkpoint = none ∨ (w.nodes n).checkpoint = some []) ∧ r = .ok () ∧
        v = w.modify n (NodeState.restoreBackup m d) := by
  rcases exec_fails_or h with failed | h
  · exact .inl failed
  · cases c with
    | ok now =>
        simp only [effect, raises, writes] at h
        refine .inr ?_
        split at h <;> cases h
        · rename_i absent
          exact .inl ⟨absent, rfl, rfl⟩
        · rename_i d x xs backup found
          exact .inr (.inl ⟨d, x, xs, backup, found, rfl, rfl⟩)
        · rename_i d backup empty
          refine .inr (.inr ⟨d, backup, ?_, rfl, rfl⟩)
          cases found : (w.nodes n).checkpoint with
          | none => exact .inl rfl
          | some files =>
              cases files with
              | nil => exact .inr rfl
              | cons x xs => exact absurd found (empty x xs)
    | _ => cases h

/-! ## Processes -/

theorem exec_spawn {r : Except Exn Pid} (h : exec n .spawn c w = some (r, v)) :
    Fails c r w v ∨ ∃ pid, pid ∉ (w.nodes n).processes ∧ r = .ok pid ∧
      v = w.modify n fun s => { s with processes := pid :: s.processes, starting := some pid } := by
  rcases exec_fails_or h with failed | h
  · exact .inl failed
  · cases c with
    | spawned pid =>
        simp only [effect, writes] at h
        split at h
        · rename_i new
          cases h
          exact .inr ⟨pid, new.2, rfl, rfl⟩
        · cases h
    | _ => cases h

theorem exec_terminate {pid : Pid} {r : Except Exn Unit}
    (h : exec n (.terminate pid) c w = some (r, v)) :
    Fails c r w v ∨ r = .ok () ∧ v = w.modify n fun s => { s with
      processes := s.processes.filter (· ≠ pid)
      starting := if s.starting = some pid then none else s.starting } := by
  rcases exec_fails_or h with failed | h
  · exact .inl failed
  · cases c <;> cases h
    exact .inr ⟨rfl, rfl⟩

/-! ## Reservations -/

theorem exec_getBid {r : Except Exn (Option BidRecord)} (h : exec n (.getBid b) c w = some (r, v)) :
    Fails c r w v ∨ ∃ now, c = .ok now ∧ r = .ok ((w.nodes n).bids.expireLocked now b) ∧
      v = w.modify n fun s => { s with bids := s.bids.expireLocked now } := by
  rcases exec_fails_or h with failed | h
  · exact .inl failed
  · cases c <;> cases h
    exact .inr ⟨_, rfl, rfl, rfl⟩

theorem exec_beginActivation {task : TaskId} {source destination : NodeId}
    {r : Except Exn BidRecord}
    (h : exec n (.beginActivation b task source destination) c w = some (r, v)) :
    Fails c r w v ∨ ∃ now, c = .ok now ∧
      some (r, v) = bidResult w n
        ((w.nodes n).bids.beginActivation b task source destination now) := by
  rcases exec_fails_or h with failed | h
  · exact .inl failed
  · cases c <;> cases h
    exact .inr ⟨_, rfl, rfl⟩

theorem exec_cancelBid {reason : String} {r : Except Exn BidRecord}
    (h : exec n (.cancelBid b reason) c w = some (r, v)) :
    Fails c r w v ∨ ∃ now, c = .ok now ∧
      some (r, v) = bidResult w n ((w.nodes n).bids.cancel b reason now) := by
  rcases exec_fails_or h with failed | h
  · exact .inl failed
  · cases c <;> cases h
    exact .inr ⟨_, rfl, rfl⟩

end Magellan
