import Magellan.Migration.Reconcile

/-!
# An activation that does not commit

The destination undoes a failed activation itself, and an interrupted one when it is up again. What
it puts back depends on two flags and on the presence of the rollback directory.
-/

namespace Magellan.MigrationService

open Coroutine Coro

/-- The copy of the incoming checkpoint failed, with this much of it made. -/
def isPartialCopy (part : Directory) : Op × Choice → Prop
  | (.copyIncoming _, .copyFailed files _) => files = part
  | _ => False

/-- A rollback directory has been removed. -/
def isRemoval : Op × Choice → Bool
  | (.removeBackup _ false, c) => !c.isFail
  | _ => false

/-- The transaction has got as far as the reservation. -/
def isOpening : Op → Bool
  | .beginActivation .. => true
  | _ => false

def Partial (part : Directory) (tr : List (Op × Choice)) : Prop := ∃ x ∈ tr, isPartialCopy part x

def Removed (tr : List (Op × Choice)) : Prop := ∃ x ∈ tr, isRemoval x = true

def Opened (tr : List (Op × Choice)) : Prop := ∃ x ∈ tr, isOpening x.1 = true

section

variable {services : Services} {n : NodeId} {w v : World} {tr tr' : List (Op × Choice)}
  {request : MigrationActivationRequest} {α β : Type}

theorem partial_append {part : Directory} :
    Partial part (tr ++ tr') ↔ Partial part tr ∨ Partial part tr' := by
  simp only [Partial, List.mem_append, or_and_right, exists_or]

theorem removed_append : Removed (tr ++ tr') ↔ Removed tr ∨ Removed tr' := by
  simp only [Removed, List.mem_append, or_and_right, exists_or]

theorem opened_append : Opened (tr ++ tr') ↔ Opened tr ∨ Opened tr' := by
  simp only [Opened, List.mem_append, or_and_right, exists_or]

/-- Nothing that matters for the rollback has happened. -/
structure Calm (tr : List (Op × Choice)) : Prop where
  copy : ∀ part, ¬ Partial part tr
  removal : ¬ Removed tr

theorem Calm.append (h : Calm tr) (h' : Calm tr') : Calm (tr ++ tr') :=
  ⟨fun part => by simp [partial_append, h.copy, h'.copy], by
    simp [removed_append, h.removal, h'.removal]⟩

/-- The operations that a failing copy and a removal are not among. -/
def isCalmOp : Op → Bool
  | .copyIncoming _ | .removeBackup _ false => false
  | _ => true

theorem isCalmOp_of_not_isFileOp {o : Op} (h : o.isFileOp = false) : isCalmOp o = true := by
  cases o <;> first | rfl | cases h

theorem calm_of_performs {p q : Async α} {R : World → World → Prop}
    (h : Reach (exec n) R p w tr q v) (calm : p.Performs (isCalmOp · = true)) : Calm tr := by
  have each := h.performs calm
  constructor
  · rintro part ⟨⟨o, c⟩, mem, copy⟩
    have ok := each _ mem
    cases o <;> first | exact copy.elim | cases ok
  · rintro ⟨⟨o, c⟩, mem, removal⟩
    have ok := each _ mem
    cases o with
    | removeBackup m ignoreErrors =>
        cases ignoreErrors
        · cases ok
        · cases removal
    | _ => cases removal

theorem calm_bind {m : MigrationId} {p : Async α} {f : α → Async β} {r : Except Exn β}
    (h : Runs n (p >>= f) w tr r v) (calm : p.Performs (Op.isFileOp · = false)) :
    (∃ e, r = .error e ∧ Calm tr ∧ (v.nodes n).files m = (w.nodes n).files m) ∨
      ∃ x tr₁ tr₂ u, tr = tr₁ ++ tr₂ ∧ Calm tr₁ ∧ (u.nodes n).files m = (w.nodes n).files m ∧
        Runs n (f x) u tr₂ r v := by
  obtain ⟨a, tr₁, tr₂, u, rfl, first, rest⟩ := bind_run h
  have quiet := calm_of_performs first (calm.mono fun _ => isCalmOp_of_not_isFileOp)
  have same := frame_run (NodeState.files m) calm exec_files first
  rcases rest with ⟨e, -, rfl, rfl, last⟩ | ⟨x, -, rest⟩
  · rw [List.append_nil]
    exact .inl ⟨e, rfl, quiet, by rw [last, same]⟩
  · exact .inr ⟨x, tr₁, tr₂, u, rfl, quiet, same, rest⟩

/-! ## Replacing the checkpoint -/

/-- How far the replacement of the checkpoint had come when it failed; `s` is the node before. -/
inductive Interrupted (m : MigrationId) (s : NodeState) (tr : List (Op × Choice)) (t : NodeState) :
    Prop
  | untouched (calm : Calm tr) (files : t.files m = s.files m)
  | cleared (copy : ∀ part, ¬ Partial part tr) (removal : s.backups m = none ∨ Removed tr)
      (files : t.files m = ⟨s.registry, s.checkpoint, none⟩)
  | moved (copy : ∀ part, ¬ Partial part tr) (removal : s.backups m = none ∨ Removed tr)
      (files : t.files m = ⟨s.registry, none, s.checkpoint⟩)
  | copied (part : Directory) (copy : ∀ files, Partial files tr ↔ files = part)
      (removal : s.backups m = none ∨ Removed tr)
      (files : t.files m = ⟨s.registry, some part, s.checkpoint⟩)

/-- The checkpoint has been replaced; `s` is the node before. -/
structure Replaced (m : MigrationId) (s : NodeState) (tr : List (Op × Choice)) (t : NodeState) :
    Prop where
  copy : ∀ part, ¬ Partial part tr
  removal : s.backups m = none ∨ Removed tr
  registry : t.registry = s.registry
  backup : t.backups m = s.checkpoint

theorem copyIncoming_run {m : MigrationId} {s : NodeState} {r : Except Exn Unit}
    {tr₀ : List (Op × Choice)} (h : Runs n (await (.copyIncoming m)) w tr r v)
    (copy : ∀ part, ¬ Partial part tr₀) (removal : s.backups m = none ∨ Removed tr₀)
    (files : (w.nodes n).files m = ⟨s.registry, none, s.checkpoint⟩) :
    (∃ e, r = .error e ∧ Interrupted m s (tr₀ ++ tr) (v.nodes n)) ∨
      (r = .ok () ∧ Replaced m s (tr₀ ++ tr) (v.nodes n)) := by
  obtain ⟨c, tr, a, u, u', rfl, here, step, rest⟩ := perform_local h
  obtain ⟨rfl, rfl, last⟩ := done_local rest
  have removal' : s.backups m = none ∨ Removed (tr₀ ++ [(Op.copyIncoming m, c)]) := by
    rw [removed_append]
    exact removal.imp id .inl
  have same : (u.nodes n).files m = ⟨s.registry, none, s.checkpoint⟩ := by rw [here, files]
  rcases exec_copyIncoming step with ⟨whole, result⟩ | ⟨part, e, rfl, rfl, rfl⟩
  · have copy' : ∀ part, ¬ Partial part (tr₀ ++ [(Op.copyIncoming m, c)]) := fun part => by
      rw [partial_append, not_or]
      refine ⟨copy part, ?_⟩
      rintro ⟨x, mem, made⟩
      cases List.mem_singleton.mp mem
      cases c <;> first | exact made.elim | exact whole _ _ rfl
    rcases result with ⟨e, rfl, rfl⟩ | ⟨d, rfl, rfl⟩
    · exact .inl ⟨e, rfl, .moved copy' removal' (by rw [last, same])⟩
    · refine .inr ⟨rfl, copy', removal', ?_, ?_⟩
      · rw [last, World.modify_self]
        exact congrArg Files.registry same
      · rw [last, World.modify_self]
        exact congrArg Files.backup same
  · refine .inl ⟨e, rfl, .copied part (fun files => ?_) removal' ?_⟩
    · rw [partial_append]
      constructor
      · rintro (made | ⟨x, mem, made⟩)
        · exact absurd made (copy files)
        · cases List.mem_singleton.mp mem
          exact made.symm
      · rintro rfl
        exact .inr ⟨_, List.mem_singleton_self _, rfl⟩
    · have registry := congrArg Files.registry same
      have backup := congrArg Files.backup same
      rw [last, World.modify_self]
      simp only [NodeState.files] at registry backup ⊢
      rw [registry, backup]

theorem clearBackup_run {m : MigrationId} {r : Except Exn Unit}
    (h : Runs n (ifBackupExists m (await (.removeBackup m false))) w tr r v) :
    (∀ part, ¬ Partial part tr) ∧
      ((∃ e, r = .error e ∧ Calm tr ∧ (v.nodes n).files m = (w.nodes n).files m) ∨
        (r = .ok () ∧ ((w.nodes n).backups m = none ∨ Removed tr) ∧
          (v.nodes n).files m = ⟨(w.nodes n).registry, (w.nodes n).checkpoint, none⟩)) := by
  have copy : ∀ part, ¬ Partial part tr := by
    rintro part ⟨⟨o, c⟩, mem, made⟩
    have other := h.performs (P := fun o => ∀ m, o ≠ .copyIncoming m)
      (.bind (.op (by simp)) fun _ => .ite (.op (by simp)) (.pure _)) _ mem
    cases o <;> first | exact made.elim | exact other _ rfl
  refine ⟨copy, ?_⟩
  obtain ⟨c, tr, a, u, u', rfl, here, found, rest⟩ := perform_local h
  obtain ⟨rfl, rfl⟩ := exec_backupExists found
  have calm : Calm [(Op.backupExists m, c)] :=
    ⟨fun part => by simp [Partial, isPartialCopy], by simp [Removed, isRemoval]⟩
  cases backup : (u'.nodes n).backups m with
  | none =>
      simp only [andThen_done, backup, onlyIf] at rest
      obtain ⟨rfl, rfl, last⟩ := done_local rest
      refine .inr ⟨rfl, .inl (by rw [← here, backup]), ?_⟩
      rw [last, NodeState.files, backup, here]
  | some d =>
      simp only [andThen_done, backup, onlyIf, Option.isSome_some, if_true] at rest
      obtain ⟨c', tr, a, u₁, u₂, rfl, here', removed, rest⟩ := perform_local rest
      obtain ⟨rfl, rfl, last⟩ := done_local rest
      rcases exec_removeBackup removed with ⟨⟨e, rfl, rfl⟩, rfl⟩ | ⟨ok, rfl, rfl⟩
      · refine .inl ⟨e, rfl, calm.append ⟨fun part => by simp [Partial, isPartialCopy], ?_⟩, ?_⟩
        · simp [Removed, isRemoval, Choice.isFail]
        · rw [last, here', here]
      · refine .inr ⟨rfl, .inr ⟨(.removeBackup m false, c'), by simp, by simp [isRemoval, ok]⟩, ?_⟩
        rw [last, World.modify_self, here', here]
        simp [NodeState.files, NodeState.dropBackup]

theorem moveCheckpoint_run {m : MigrationId} {r : Except Exn Unit}
    (h : Runs n (ifCheckpointExists (await (.renameToBackup m))) w tr r v)
    (clear : (w.nodes n).backups m = none) :
    Calm tr ∧ ((∃ e, r = .error e ∧ (v.nodes n).files m = (w.nodes n).files m) ∨
      (r = .ok () ∧ (v.nodes n).files m = ⟨(w.nodes n).registry, none, (w.nodes n).checkpoint⟩)) := by
  refine ⟨calm_of_performs h (.bind (.op rfl) fun _ => .ite (.op rfl) (.pure _)), ?_⟩
  obtain ⟨c, tr, a, u, u', rfl, here, found, rest⟩ := perform_local h
  obtain ⟨rfl, rfl⟩ := exec_checkpointExists found
  cases checkpoint : (u'.nodes n).checkpoint with
  | none =>
      simp only [andThen_done, checkpoint, onlyIf] at rest
      obtain ⟨rfl, rfl, last⟩ := done_local rest
      refine .inr ⟨rfl, ?_⟩
      rw [last, NodeState.files, checkpoint, ← here, checkpoint, here, clear]
  | some d =>
      simp only [andThen_done, checkpoint, onlyIf, Option.isSome_some, if_true] at rest
      obtain ⟨c', tr, a, u₁, u₂, rfl, here', moved, rest⟩ := perform_local rest
      obtain ⟨rfl, rfl, last⟩ := done_local rest
      have same : u₁.nodes n = w.nodes n := here'.trans here
      rcases exec_renameToBackup moved with ⟨e, rfl, rfl⟩ | ⟨d', found, rfl, rfl⟩
      · exact .inl ⟨e, rfl, by rw [last, same]⟩
      · refine .inr ⟨rfl, ?_⟩
        rw [last, World.modify_self, same]
        rw [same] at found
        simp [NodeState.files, NodeState.makeBackup, found]

theorem replaceCheckpoint_run {r : Except Exn Unit}
    (h : Runs n (replaceCheckpoint request) w tr r v) :
    (∃ e, r = .error e ∧ Interrupted request.migrationId (w.nodes n) tr (v.nodes n)) ∨
      (r = .ok () ∧ Replaced request.migrationId (w.nodes n) tr (v.nodes n)) := by
  rcases calm_bind (m := request.migrationId) h (.op rfl) with
    ⟨e, rfl, calm, same⟩ | ⟨_, tr₁, tr', u₁, rfl, calm₁, same₁, h⟩
  · exact .inl ⟨e, rfl, .untouched calm same⟩
  rcases calm_bind (m := request.migrationId) h (.op rfl) with
    ⟨e, rfl, calm, same⟩ | ⟨found, tr₂, tr', u₂, rfl, calm₂, same₂, h⟩
  · exact .inl ⟨e, rfl, .untouched (calm₁.append calm) (same.trans same₁)⟩
  rcases calm_bind (m := request.migrationId) h (.ite (.raise _) (.pure _)) with
    ⟨e, rfl, calm, same⟩ | ⟨_, tr₃, tr', u₃, rfl, calm₃, same₃, h⟩
  · exact .inl ⟨e, rfl, .untouched (calm₁.append (calm₂.append calm))
      (same.trans (same₂.trans same₁))⟩
  rcases calm_bind (m := request.migrationId) h (.op rfl) with
    ⟨e, rfl, calm, same⟩ | ⟨_, tr₄, tr', u₄, rfl, calm₄, same₄, h⟩
  · exact .inl ⟨e, rfl, .untouched (calm₁.append (calm₂.append (calm₃.append calm)))
      (same.trans (same₃.trans (same₂.trans same₁)))⟩
  have calm := calm₁.append (calm₂.append (calm₃.append calm₄))
  have same : (u₄.nodes n).files request.migrationId = (w.nodes n).files request.migrationId :=
    same₄.trans (same₃.trans (same₂.trans same₁))
  have shape : ∀ rest : List (Op × Choice), tr₁ ++ (tr₂ ++ (tr₃ ++ (tr₄ ++ rest))) =
      (tr₁ ++ (tr₂ ++ (tr₃ ++ tr₄))) ++ rest := by simp
  rw [shape]
  generalize tr₁ ++ (tr₂ ++ (tr₃ ++ tr₄)) = before at calm
  have registry : (u₄.nodes n).registry = (w.nodes n).registry := congrArg Files.registry same
  have checkpoint : (u₄.nodes n).checkpoint = (w.nodes n).checkpoint :=
    congrArg Files.checkpoint same
  have backup : (u₄.nodes n).backups request.migrationId = (w.nodes n).backups request.migrationId :=
    congrArg Files.backup same
  -- the rollback directory of an earlier attempt
  obtain ⟨a, tr₅, tr', u₅, rfl, clearing, h⟩ := bind_run h
  obtain ⟨copy, cleared⟩ := clearBackup_run clearing
  rw [backup, registry, checkpoint] at cleared
  rcases cleared with ⟨e, rfl, calm₅, same₅⟩ | ⟨rfl, removal, files⟩
  · rcases h with ⟨e', eq, rfl, rfl, last⟩ | ⟨x, eq, -⟩
    · rw [List.append_nil]
      exact .inl ⟨e', rfl, .untouched (calm.append calm₅) (by rw [last, same₅, same])⟩
    · cases eq
  rcases h with ⟨e', eq, -⟩ | ⟨_, -, h⟩
  · cases eq
  have copy₅ : ∀ part, ¬ Partial part (before ++ tr₅) := fun part => by
    rw [partial_append, not_or]
    exact ⟨calm.copy part, copy part⟩
  have removal₅ : (w.nodes n).backups request.migrationId = none ∨ Removed (before ++ tr₅) := by
    rw [removed_append]
    exact removal.imp id .inr
  -- the checkpoint that was there
  obtain ⟨a, tr₆, tr', u₆, rfl, moving, h⟩ := bind_run h
  obtain ⟨calm₆, moved⟩ := moveCheckpoint_run moving (congrArg Files.backup files)
  have copy₆ : ∀ part, ¬ Partial part (before ++ tr₅ ++ tr₆) := fun part => by
    rw [partial_append, not_or]
    exact ⟨copy₅ part, calm₆.copy part⟩
  have removal₆ : (w.nodes n).backups request.migrationId = none ∨
      Removed (before ++ tr₅ ++ tr₆) := by
    rw [removed_append]
    exact removal₅.imp id .inl
  have registry₅ : (u₅.nodes n).registry = (w.nodes n).registry := congrArg Files.registry files
  have checkpoint₅ : (u₅.nodes n).checkpoint = (w.nodes n).checkpoint :=
    congrArg Files.checkpoint files
  rw [registry₅, checkpoint₅] at moved
  rw [← List.append_assoc, ← List.append_assoc]
  rcases moved with ⟨e, rfl, same₆⟩ | ⟨rfl, files₆⟩
  · rcases h with ⟨e', eq, rfl, rfl, last⟩ | ⟨x, eq, -⟩
    · rw [List.append_nil]
      exact .inl ⟨e', rfl, .cleared copy₆ removal₆ (by rw [last, same₆, files])⟩
    · cases eq
  rcases h with ⟨e', eq, -⟩ | ⟨_, -, h⟩
  · cases eq
  exact copyIncoming_run h copy₆ removal₆ files₆

theorem ignoreErrors_run {p : Async Unit} {r : Except Exn Unit}
    (h : Runs n (ignoreErrors p) w tr r v) : r = .ok () := by
  obtain ⟨a, tr₁, tr₂, u, rfl, -, rest⟩ := andThen_local h
  cases a with
  | ok x => exact (done_local rest).2.1
  | error e => exact (done_local rest).2.1

/-! ## The rollback -/

/-- The operations with which a rollback puts the node back. -/
def isRestore : Op → Bool
  | .renameFromBackup _ | .registry (.setState _) => true
  | _ => false

/-- The operations of the rollback go through, unless the directories are in the way. -/
def Undisturbed (tr : List (Op × Choice)) : Prop :=
  ∀ x ∈ tr, isRestore x.1 = true → x.2.isFail = false

theorem Undisturbed.left (h : Undisturbed (tr ++ tr')) : Undisturbed tr :=
  fun x mem => h x (List.mem_append_left _ mem)

theorem Undisturbed.right (h : Undisturbed (tr ++ tr')) : Undisturbed tr' :=
  fun x mem => h x (List.mem_append_right _ mem)

/-- How a rollback ends that found `before`. -/
inductive RolledBack (m : MigrationId) (originalState : TaskRuntimeState) (before after : Files) :
    Prop
  | blocked (b : Directory) (x : String × String) (xs : Directory) (backup : before.backup = some b)
      (checkpoint : before.checkpoint = some (x :: xs)) (same : after = before)
  | done (clear : before.backup = none ∨ before.checkpoint = none ∨ before.checkpoint = some [])
      (checkpoint : after.checkpoint = (before.backup <|> before.checkpoint))
      (registry : after.registry = originalState)

theorem restoreRegistry_run {m : MigrationId} {originalState : TaskRuntimeState} {e : Exn}
    {r : Except Exn MigrationActivationResponse}
    (h : Runs n (do
      let _ ← await (.registry (.setState originalState))
      await (.setRecordStatus m .rolledBack none (some e.describe))
      ignoreErrors (cancelBid request.bidId s!"Destination activation rolled back: {e.describe}")
      await (.removeIncoming m)
      pure (activationResponse n request false none (some e.describe))) w tr r v)
    (undisturbed : Undisturbed tr) :
    (v.nodes n).files m = ⟨originalState, (w.nodes n).checkpoint, (w.nodes n).backups m⟩ := by
  obtain ⟨c, tr₁, a, u, u₁, rfl, here, written, rest⟩ := perform_local h
  have fine : c.isFail = false := undisturbed (.registry (.setState originalState), c) (by simp) rfl
  rcases exec_registry written with ⟨⟨e', rfl, -⟩, -⟩ | ⟨now, -, applied, result⟩
  · cases fine
  cases applied
  rcases result with ⟨e', raised, -⟩ | ⟨state, returned, rfl⟩
  · cases raised
  cases returned
  have quiet : Runs n (do
      await (.setRecordStatus m .rolledBack none (some e.describe))
      ignoreErrors (cancelBid request.bidId s!"Destination activation rolled back: {e.describe}")
      await (.removeIncoming m)
      pure (activationResponse n request false none (some e.describe)))
      (u.putState n (.setState originalState) originalState) tr₁ r v := rest
  rw [frame_run (NodeState.files m) (P := (Op.isFileOp · = false)) (.bind (.op rfl) fun _ =>
    .bind (.tryExcept (.bind (.op rfl) fun _ => .pure _) fun _ => .pure _) fun _ =>
      .bind (.op rfl) fun _ => .pure _) exec_files quiet, World.putState_self, here]
  rfl

theorem restoreBackup_run {m : MigrationId} {r : Except Exn Unit}
    (h : Runs n (ifBackupExists m (await (.renameFromBackup m))) w tr r v)
    (undisturbed : Undisturbed tr) :
    (r = .ok () ∧ ((w.nodes n).backups m = none ∨ (w.nodes n).checkpoint = none ∨
        (w.nodes n).checkpoint = some []) ∧
      (v.nodes n).checkpoint = ((w.nodes n).backups m <|> (w.nodes n).checkpoint)) ∨
    ∃ e b x xs, r = .error e ∧ (w.nodes n).backups m = some b ∧
      (w.nodes n).checkpoint = some (x :: xs) ∧ v.nodes n = w.nodes n := by
  obtain ⟨c, tr₁, a, u, u₁, rfl, here, found, rest⟩ := perform_local h
  obtain ⟨rfl, rfl⟩ := exec_backupExists found
  cases backup : (u₁.nodes n).backups m with
  | none =>
      simp only [andThen_done, backup, onlyIf] at rest
      obtain ⟨rfl, rfl, last⟩ := done_local rest
      rw [here] at backup
      refine .inl ⟨rfl, .inl backup, ?_⟩
      rw [last, here, backup]
      rfl
  | some b =>
      simp only [andThen_done, backup, onlyIf, Option.isSome_some, if_true] at rest
      obtain ⟨c', tr₂, a, u₂, u₃, rfl, here', renamed, rest⟩ := perform_local rest
      obtain ⟨rfl, rfl, last⟩ := done_local rest
      have same : u₂.nodes n = w.nodes n := here'.trans here
      have fine : c'.isFail = false := undisturbed (.renameFromBackup m, c') (by simp) rfl
      rw [here] at backup
      rcases exec_renameFromBackup renamed with ⟨⟨e, rfl, -⟩, -⟩ | ⟨absent, -⟩ |
        ⟨d, x, xs, -, taken, rfl, rfl⟩ | ⟨d, kept, clear, rfl, rfl⟩
      · cases fine
      · rw [same, backup] at absent
        cases absent
      · refine .inr ⟨_, b, x, xs, rfl, backup, by rw [← same, taken], last.trans same⟩
      · rw [same, backup] at kept
        cases kept
        refine .inl ⟨rfl, .inr (same ▸ clear), ?_⟩
        rw [last, World.modify_self, backup]
        rfl

theorem removeCheckpoint_run {replaced : Bool} {m : MigrationId} {r : Except Exn Unit}
    (h : Runs n (onlyIf replaced (ifCheckpointExists (await .removeCheckpoint))) w tr r v) :
    r = .ok () ∧ (v.nodes n).files m = ⟨(w.nodes n).registry,
      if replaced then none else (w.nodes n).checkpoint, (w.nodes n).backups m⟩ := by
  cases replaced with
  | false =>
      simp only [onlyIf, Bool.false_eq_true, if_false] at h
      obtain ⟨rfl, rfl, last⟩ := done_local h
      rw [last]
      exact ⟨rfl, rfl⟩
  | true =>
      simp only [onlyIf, if_true] at h
      obtain ⟨c, tr₁, a, u, u₁, rfl, here, found, rest⟩ := perform_local h
      obtain ⟨rfl, rfl⟩ := exec_checkpointExists found
      cases checkpoint : (u₁.nodes n).checkpoint with
      | none =>
          simp only [andThen_done, checkpoint, onlyIf] at rest
          obtain ⟨rfl, rfl, last⟩ := done_local rest
          refine ⟨rfl, ?_⟩
          rw [last, NodeState.files, checkpoint, here]
          rfl
      | some d =>
          simp only [andThen_done, checkpoint, onlyIf, Option.isSome_some, if_true] at rest
          obtain ⟨c', tr₂, a, u₂, u₃, rfl, here', removed, rest⟩ := perform_local rest
          obtain ⟨rfl, rfl⟩ := exec_removeCheckpoint removed
          obtain ⟨rfl, rfl, last⟩ := done_local rest
          refine ⟨rfl, ?_⟩
          rw [last, World.modify_self, here', here]
          rfl

theorem isDirectoryOp_of_isStopOp {o : Op} (h : LocalProcess.isStopOp o = true) :
    o.isDirectoryOp = false := by
  cases o <;> first | rfl | cases h

theorem stopStarted_run {started : Bool} {m : MigrationId} {r : Except Exn Unit}
    (h : Runs n (onlyIf started (ignoreErrors stopTask)) w tr r v) :
    r = .ok () ∧ (v.nodes n).directories m = (w.nodes n).directories m ∧
      (started = false → (v.nodes n).registry = (w.nodes n).registry) := by
  have quiet : (onlyIf started (ignoreErrors stopTask)).Performs (Op.isDirectoryOp · = false) :=
    .ite (.tryExcept (.bind (LocalProcess.stop_performs.mono fun _ => isDirectoryOp_of_isStopOp)
      fun _ => .pure _) fun _ => .pure _) (.pure _)
  have same := frame_run (NodeState.directories m) quiet exec_directories h
  cases started with
  | false =>
      obtain ⟨-, rfl, last⟩ := done_local h
      exact ⟨rfl, same, fun _ => by rw [last]⟩
  | true => exact ⟨ignoreErrors_run h, same, by simp⟩

theorem rollbackActivation_run {originalState : TaskRuntimeState} {replaced started : Bool}
    {e : Exn} {r : Except Exn MigrationActivationResponse}
    (h : Runs n (rollbackActivation n request originalState replaced started e) w tr r v)
    (order : started = true → replaced = true) (undisturbed : Undisturbed tr) :
    RolledBack request.migrationId originalState
      ⟨(w.nodes n).registry, if replaced then none else (w.nodes n).checkpoint,
        (w.nodes n).backups request.migrationId⟩
      ((v.nodes n).files request.migrationId) := by
  obtain ⟨a, tr₁, tr', u₁, rfl, first, rest⟩ := bind_run h
  obtain ⟨rfl, directories, registry⟩ := stopStarted_run (m := request.migrationId) first
  rcases rest with ⟨e', eq, -⟩ | ⟨_, -, rest⟩
  · cases eq
  obtain ⟨a, tr₂, tr', u₂, rfl, second, rest⟩ := bind_run rest
  obtain ⟨rfl, removed⟩ := removeCheckpoint_run (m := request.migrationId) second
  rcases rest with ⟨e', eq, -⟩ | ⟨_, -, rest⟩
  · cases eq
  have checkpoint₁ : (u₁.nodes n).checkpoint = (w.nodes n).checkpoint := congrArg Prod.fst directories
  have backup₁ : (u₁.nodes n).backups request.migrationId = (w.nodes n).backups request.migrationId :=
    congrArg Prod.snd directories
  rw [checkpoint₁, backup₁] at removed
  have registry₂ : (u₂.nodes n).registry = (u₁.nodes n).registry := congrArg Files.registry removed
  have checkpoint₂ : (u₂.nodes n).checkpoint = if replaced then none else (w.nodes n).checkpoint :=
    congrArg Files.checkpoint removed
  have backup₂ : (u₂.nodes n).backups request.migrationId = (w.nodes n).backups request.migrationId :=
    congrArg Files.backup removed
  obtain ⟨a, tr₃, tr', u₃, rfl, third, rest⟩ := bind_run rest
  rw [← checkpoint₂, ← backup₂]
  rcases restoreBackup_run third undisturbed.right.right.left with
    ⟨rfl, clear, restored⟩ | ⟨e', b, x, xs, rfl, backup, checkpoint, same⟩
  · rcases rest with ⟨e', eq, -⟩ | ⟨_, -, rest⟩
    · cases eq
    have files := restoreRegistry_run rest undisturbed.right.right.right
    rw [files]
    exact .done clear restored rfl
  · rcases rest with ⟨e'', eq, rfl, -, last⟩ | ⟨_, eq, -⟩
    · refine .blocked b x xs backup checkpoint ?_
      have running : started = false := by
        cases started with
        | false => rfl
        | true =>
            rw [order rfl] at checkpoint₂
            rw [checkpoint₂] at checkpoint
            cases checkpoint
      rw [last, same, ← registry running, ← registry₂]
      rfl
    · cases eq

theorem rollbackActivation_performs {originalState : TaskRuntimeState} {replaced started : Bool}
    {e : Exn} : (rollbackActivation n request originalState replaced started e).Performs
      (isCalmOp · = true) :=
  .bind (.ite (.tryExcept (.bind (LocalProcess.stop_performs.mono fun o h => by
      cases o <;> first | rfl | cases h) fun _ => .pure _) fun _ => .pure _) (.pure _)) fun _ =>
    .bind (.ite (.bind (.op rfl) fun _ => .ite (.op rfl) (.pure _)) (.pure _)) fun _ =>
      .bind (.bind (.op rfl) fun _ => .ite (.op rfl) (.pure _)) fun _ => .bind (.op rfl) fun _ =>
        .bind (.op rfl) fun _ =>
          .bind (.tryExcept (.bind (.op rfl) fun _ => .pure _) fun _ => .pure _) fun _ =>
            .bind (.op rfl) fun _ => .pure _

/-! ## After the copy -/

theorem isCalmOp_of_isStartOp {o : Op} (h : LocalProcess.isStartOp o = true) :
    isCalmOp o = true ∧ o.isBackupOp = false := by
  cases o <;> first | exact ⟨rfl, rfl⟩ | cases h

theorem claimAndStart_run {r : Except Exn TaskRuntimeState}
    (h : Runs n (claimAndStart n request) w tr r v) :
    Calm tr ∧ (v.nodes n).backups = (w.nodes n).backups := by
  have quiet : (claimAndStart n request).Performs
      fun o => isCalmOp o = true ∧ o.isBackupOp = false :=
    .bind (.op ⟨rfl, rfl⟩) fun _ => .bind (.op ⟨rfl, rfl⟩) fun _ => .bind (.op ⟨rfl, rfl⟩) fun _ =>
      (LocalProcess.start_performs n).mono fun _ => isCalmOp_of_isStartOp
  exact ⟨calm_of_performs h (quiet.mono fun _ h => h.1),
    frame_run NodeState.backups (quiet.mono fun _ h => h.2) exec_backups h⟩

theorem cleanUp_run {m : MigrationId} {response : MigrationActivationResponse}
    {r : Except Exn MigrationActivationResponse}
    (h : Runs n (do
      ifBackupExists m (await (.removeBackup m true))
      await (.removeIncoming m)
      pure response) w tr r v) : r = .ok response := by
  obtain ⟨a, tr₁, tr', u₁, rfl, first, rest⟩ := bind_run h
  have removed : a = .ok () := by
    obtain ⟨c, tr₂, a, u, u₂, rfl, here, found, last⟩ := perform_local first
    obtain ⟨rfl, rfl⟩ := exec_backupExists found
    cases backup : (u₂.nodes n).backups m with
    | none =>
        simp only [andThen_done, backup, onlyIf] at last
        exact (done_local last).2.1
    | some d =>
        simp only [andThen_done, backup, onlyIf, Option.isSome_some, if_true] at last
        obtain ⟨c', tr₃, a, u₃, u₄, rfl, -, gone, last⟩ := perform_local last
        obtain ⟨-, rfl, -⟩ := done_local last
        rcases exec_removeBackup gone with ⟨⟨e, rfl, -⟩, -⟩ | ⟨-, rfl, -⟩
        · cases (exec_fail gone).2.2
        · rfl
  rcases rest with ⟨e, eq, -⟩ | ⟨_, -, rest⟩
  · rw [removed] at eq
    cases eq
  obtain ⟨c, tr₂, a, u, u₂, rfl, here, gone, rest⟩ := perform_local rest
  obtain ⟨rfl, rfl⟩ := exec_removeIncoming gone
  exact (done_local rest).2.1

theorem commitActivation_run {runtimeState : TaskRuntimeState}
    {r : Except Exn MigrationActivationResponse}
    (h : Runs n (commitActivation services n request runtimeState) w tr r v) :
    Calm tr ∧ ((∃ response, r = .ok response ∧ response.activated = true) ∨
      ∃ e, r = .error e ∧ (v.nodes n).backups = (w.nodes n).backups) := by
  constructor
  · refine calm_of_performs h (.bind (mergeRequestPolicy_performs fun _ => rfl) fun _ =>
      .bind (.op rfl) fun _ => .bind (.op rfl) fun _ => .bind ?_ fun _ =>
        .bind (.op rfl) fun _ => .pure _)
    exact .bind (.op rfl) fun _ => .ite (.op rfl) (.pure _)
  obtain ⟨a, tr₁, tr', u₁, rfl, merged, rest⟩ := bind_run h
  have same₁ := frame_run NodeState.backups (P := (Op.isBackupOp · = false))
    (mergeRequestPolicy_performs fun _ => rfl) exec_backups merged
  rcases rest with ⟨e, -, rfl, -, last⟩ | ⟨_, -, rest⟩
  · exact .inr ⟨e, rfl, by rw [last, same₁]⟩
  obtain ⟨a, tr₂, tr', u₂, rfl, consumed, rest⟩ := bind_run rest
  have same₂ := frame_run NodeState.backups (P := (Op.isBackupOp · = false)) (.op rfl)
    exec_backups consumed
  rcases rest with ⟨e, -, rfl, -, last⟩ | ⟨_, -, rest⟩
  · exact .inr ⟨e, rfl, by rw [last, same₂, same₁]⟩
  obtain ⟨a, tr₃, tr', u₃, rfl, recorded, rest⟩ := bind_run rest
  have same₃ := frame_run NodeState.backups (P := (Op.isBackupOp · = false)) (.op rfl)
    exec_backups recorded
  rcases rest with ⟨e, -, rfl, -, last⟩ | ⟨_, -, rest⟩
  · exact .inr ⟨e, rfl, by rw [last, same₃, same₂, same₁]⟩
  exact .inl ⟨_, cleanUp_run rest, rfl⟩

/-! ## A failed activation -/

/-- The task is recorded and the checkpoint directory filled as before. -/
def Restored (s t : NodeState) : Prop := t.registry = s.registry ∧ t.checkpoint = s.checkpoint

/-- The rollback leaves something behind: a part of the copy, where there was no checkpoint or the
part is in the way of the old one, or the rollback directory of an earlier attempt, which it takes
for its own. -/
def LeavesTraces (m : MigrationId) (s : NodeState) (tr : List (Op × Choice)) : Prop :=
  (∃ part, Partial part tr ∧ s.checkpoint ≠ some part ∧ (s.checkpoint = none ∨ part ≠ [])) ∨
    ∃ b, s.backups m = some b ∧ s.checkpoint ≠ some b ∧
      (s.checkpoint = none ∨ s.checkpoint = some []) ∧ Opened tr ∧ ¬ Removed tr

theorem Calm.leavesTraces_iff {m : MigrationId} {s : NodeState} (calm : Calm tr')
    (opened : Opened tr) : LeavesTraces m s (tr ++ tr') ↔ LeavesTraces m s tr := by
  simp only [LeavesTraces, partial_append, removed_append, opened_append, calm.copy, calm.removal,
    opened, or_false, true_or]

theorem opened_of_replaceCheckpoint {r : Except Exn Unit}
    (h : Runs n (replaceCheckpoint request) w tr r v) : Opened tr := by
  obtain ⟨c, tr', a, u, u', rfl, -⟩ := perform_local h
  exact ⟨_, List.mem_cons_self .., rfl⟩

/-- The rollback of a replacement that was complete. -/
theorem replaced_iff {m : MigrationId} {s t t' : NodeState} {registry : TaskRuntimeState}
    (replaced : Replaced m s tr t)
    (undone : RolledBack m s.registry ⟨registry, none, s.checkpoint⟩ (t'.files m)) :
    Restored s t' ↔ ¬ LeavesTraces m s tr := by
  have restored : Restored s t' := by
    cases undone with
    | blocked b x xs backup taken same => cases taken
    | done _ checkpoint kept => exact ⟨kept, checkpoint.trans (by cases s.checkpoint <;> rfl)⟩
  refine ⟨fun _ => ?_, fun _ => restored⟩
  rintro (⟨part, copy, -⟩ | ⟨b, backup, -, -, -, kept⟩)
  · exact replaced.copy part copy
  · rcases replaced.removal with absent | removed
    · rw [absent] at backup
      cases backup
    · exact kept removed

/-- The rollback found the directory of an earlier attempt. -/
theorem untouched_iff {m : MigrationId} {s t t' : NodeState} (calm : Calm tr) (opened : Opened tr)
    (files : t.files m = s.files m) (undone : RolledBack m s.registry (t.files m) (t'.files m)) :
    Restored s t' ↔ ¬ LeavesTraces m s tr := by
  have traces : LeavesTraces m s tr ↔ ∃ b, s.backups m = some b ∧ s.checkpoint ≠ some b ∧
      (s.checkpoint = none ∨ s.checkpoint = some []) := by
    simp only [LeavesTraces, calm.copy, calm.removal, opened, false_and, exists_false, false_or,
      not_false_eq_true, and_true]
  rw [files] at undone
  rw [traces]
  cases undone with
  | blocked b x xs backup taken same =>
      have checkpoint : s.checkpoint = some (x :: xs) := taken
      refine ⟨fun _ => ?_, fun _ => ⟨congrArg Files.registry same, congrArg Files.checkpoint same⟩⟩
      simp [checkpoint]
  | done clear checkpoint registry =>
      have clear : s.backups m = none ∨ s.checkpoint = none ∨ s.checkpoint = some [] := clear
      have checkpoint : t'.checkpoint = (s.backups m <|> s.checkpoint) := checkpoint
      have registry : t'.registry = s.registry := registry
      simp only [Restored, registry, checkpoint, true_and]
      cases backup : s.backups m with
      | none => simp
      | some b =>
          have clear : s.checkpoint = none ∨ s.checkpoint = some [] :=
            clear.resolve_left (by simp [backup])
          simp [clear, eq_comm]

/-- The rollback of an interrupted replacement. -/
theorem interrupted_iff {m : MigrationId} {s t t' : NodeState}
    (interrupted : Interrupted m s tr t) (opened : Opened tr)
    (undone : RolledBack m s.registry (t.files m) (t'.files m)) :
    Restored s t' ↔ ¬ LeavesTraces m s tr := by
  have clean : (∀ part, ¬ Partial part tr) → (s.backups m = none ∨ Removed tr) →
      ¬ LeavesTraces m s tr := by
    rintro copy removal (⟨part, made, -⟩ | ⟨b, backup, -, -, -, kept⟩)
    · exact copy part made
    · rcases removal with absent | removed
      · rw [absent] at backup
        cases backup
      · exact kept removed
  cases interrupted with
  | untouched calm files => exact untouched_iff calm opened files undone
  | cleared copy removal files =>
      rw [files] at undone
      refine iff_of_true ?_ (clean copy removal)
      cases undone with
      | blocked b x xs backup taken same => cases backup
      | done clear checkpoint registry => exact ⟨registry, checkpoint⟩
  | moved copy removal files =>
      rw [files] at undone
      refine iff_of_true ?_ (clean copy removal)
      cases undone with
      | blocked b x xs backup taken same => cases taken
      | done clear checkpoint registry =>
          exact ⟨registry, checkpoint.trans (by cases s.checkpoint <;> rfl)⟩
  | copied part copy removal files =>
      rw [files] at undone
      have traces : LeavesTraces m s tr ↔
          s.checkpoint ≠ some part ∧ (s.checkpoint = none ∨ part ≠ []) := by
        simp only [LeavesTraces, copy]
        constructor
        · rintro (⟨_, rfl, holds⟩ | ⟨b, backup, -, -, -, kept⟩)
          · exact holds
          · rcases removal with absent | removed
            · rw [absent] at backup
              cases backup
            · exact absurd removed kept
        · exact fun holds => .inl ⟨part, rfl, holds⟩
      rw [traces]
      cases undone with
      | blocked b x xs backup taken same =>
          have backup : s.checkpoint = some b := backup
          have registry : t'.registry = s.registry := congrArg Files.registry same
          have checkpoint : t'.checkpoint = some part := congrArg Files.checkpoint same
          cases taken
          simp [Restored, registry, checkpoint, eq_comm]
      | done clear checkpoint registry =>
          have clear : s.checkpoint = none ∨ some part = none ∨ some part = some [] := clear
          have checkpoint : t'.checkpoint = (s.checkpoint <|> some part) := checkpoint
          have registry : t'.registry = s.registry := registry
          simp only [Restored, registry, checkpoint, true_and]
          cases found : s.checkpoint with
          | none => simp
          | some d =>
              have empty : part = [] := by simpa [found] using clear
              simp [empty]

theorem activationTransaction_iff {r : Except Exn MigrationActivationResponse}
    (h : Runs n (activationTransaction services n request (w.nodes n).registry) w tr r v)
    (rejected : ∀ response, r = .ok response → response.activated = false)
    (undisturbed : Undisturbed tr) :
    Restored (w.nodes n) (v.nodes n) ↔ ¬ LeavesTraces request.migrationId (w.nodes n) tr := by
  obtain ⟨a, tr₁, tr', u₁, rfl, first, rest⟩ := andThen_local h
  have opened := opened_of_replaceCheckpoint first
  rcases replaceCheckpoint_run first with ⟨e, rfl, interrupted⟩ | ⟨rfl, replaced⟩
  · have calm := calm_of_performs rest rollbackActivation_performs
    rw [calm.leavesTraces_iff opened]
    exact interrupted_iff interrupted opened
      (rollbackActivation_run rest (by simp) undisturbed.right)
  obtain ⟨a, tr₂, tr', u₂, rfl, second, rest⟩ := andThen_local rest
  obtain ⟨calm₂, same₂⟩ := claimAndStart_run second
  have backup : (u₁.nodes n).backups request.migrationId = (w.nodes n).checkpoint := replaced.backup
  cases a with
  | error e =>
      have calm := calm₂.append (calm_of_performs rest rollbackActivation_performs)
      rw [calm.leavesTraces_iff opened]
      have undone := rollbackActivation_run rest (by simp) undisturbed.right.right
      rw [same₂, backup] at undone
      exact replaced_iff replaced undone
  | ok state =>
      obtain ⟨a, tr₃, tr', u₃, rfl, third, rest⟩ := andThen_local rest
      obtain ⟨calm₃, ended⟩ := commitActivation_run third
      rcases ended with ⟨response, rfl, activated⟩ | ⟨e, rfl, same₃⟩
      · obtain ⟨-, rfl, -⟩ := done_local rest
        have refused := rejected response rfl
        rw [activated] at refused
        cases refused
      · have calm := calm₂.append (calm₃.append (calm_of_performs rest rollbackActivation_performs))
        rw [calm.leavesTraces_iff opened]
        have undone := rollbackActivation_run rest (by simp) undisturbed.right.right.right
        rw [same₃, same₂, backup] at undone
        exact replaced_iff replaced undone

/-- The operations before the transaction. -/
def isIdleOp (o : Op) : Bool := !o.isFileOp && !isOpening o

/-- The node has not been touched, and the transaction has not begun. -/
structure Idle (n : NodeId) (m : MigrationId) (w : World) (tr : List (Op × Choice)) (v : World) :
    Prop where
  files : (v.nodes n).files m = (w.nodes n).files m
  calm : Calm tr
  unopened : ¬ Opened tr

theorem idle_of_performs {m : MigrationId} {p : Async α} {r : Except Exn α}
    (h : Runs n p w tr r v) (idle : p.Performs (isIdleOp · = true)) : Idle n m w tr v := by
  have split : ∀ o, isIdleOp o = true → o.isFileOp = false ∧ isOpening o = false := fun o h => by
    simpa [isIdleOp] using h
  refine ⟨frame_run (NodeState.files m) (idle.mono fun o h => (split o h).1) exec_files h,
    calm_of_performs h (idle.mono fun o h => isCalmOp_of_not_isFileOp (split o h).1), ?_⟩
  rintro ⟨x, mem, opening⟩
  rw [(split _ (h.performs idle x mem)).2] at opening
  cases opening

/-- The activation has put back what it found, unless it leaves traces. -/
def PutsBack (n : NodeId) (m : MigrationId) (w : World) (tr : List (Op × Choice)) (v : World) :
    Prop :=
  Restored (w.nodes n) (v.nodes n) ↔ ¬ LeavesTraces m (w.nodes n) tr

theorem Idle.putsBack {m : MigrationId} (h : Idle n m w tr v) : PutsBack n m w tr v := by
  refine iff_of_true ⟨congrArg Files.registry h.files, congrArg Files.checkpoint h.files⟩ ?_
  rintro (⟨part, copy, -⟩ | ⟨b, -, -, -, opened, -⟩)
  · exact h.calm.copy part copy
  · exact h.unopened opened

theorem Idle.append {m : MigrationId} {u : World} (h : Idle n m w tr u)
    (rest : PutsBack n m u tr' v) : PutsBack n m w (tr ++ tr') v := by
  have registry : (u.nodes n).registry = (w.nodes n).registry := congrArg Files.registry h.files
  have checkpoint : (u.nodes n).checkpoint = (w.nodes n).checkpoint :=
    congrArg Files.checkpoint h.files
  have backup : (u.nodes n).backups m = (w.nodes n).backups m := congrArg Files.backup h.files
  unfold PutsBack Restored LeavesTraces at rest ⊢
  rw [registry, checkpoint, backup] at rest
  simpa only [partial_append, removed_append, opened_append, h.calm.copy, h.calm.removal,
    h.unopened, false_or] using rest

theorem idle_bind {m : MigrationId} {p : Async α} {f : α → Async β} {r : Except Exn β}
    (h : Runs n (p >>= f) w tr r v) (idle : p.Performs (isIdleOp · = true))
    (rest : ∀ {x tr₁ tr' u}, tr = tr₁ ++ tr' → Runs n p w tr₁ (.ok x) u → Runs n (f x) u tr' r v →
      PutsBack n m u tr' v) : PutsBack n m w tr v := by
  obtain ⟨a, tr₁, tr', u, rfl, first, ended⟩ := bind_run h
  have quiet : Idle n m w tr₁ u := idle_of_performs first idle
  rcases ended with ⟨e, -, -, rfl, last⟩ | ⟨x, rfl, next⟩
  · rw [List.append_nil]
    exact Idle.putsBack ⟨by rw [last, quiet.files], quiet.calm, quiet.unopened⟩
  · exact quiet.append (rest rfl first next)

theorem getState_run {x : TaskRuntimeState} (h : Runs n (await .getState) w tr (.ok x) v) :
    x = (v.nodes n).registry := by
  obtain ⟨c, tr', a, u, u', rfl, -, read, rest⟩ := perform_local h
  obtain ⟨-, rfl, last⟩ := done_local rest
  rcases exec_getState read with ⟨⟨e, -, eq⟩, -⟩ | ⟨eq, rfl⟩
  · cases eq
  · cases eq
    rw [last]

theorem putRecord_performs {P : Op → Prop} {existing : Option MigrationRecord}
    {record : MigrationRecord} (put : P (.journalPut record))
    (set : P (.setRecordStatus record.migrationId record.status record.pid none)) :
    (putRecord existing record).Performs P := by
  cases existing with
  | none => exact .op put
  | some _ => exact .op set

/-- An activation that is not committed leaves the node as it found it, unless its rollback leaves
traces. -/
theorem activateIncoming_putsBack {r : Except Exn MigrationActivationResponse}
    (h : Runs n (activateIncoming services n request) w tr r v)
    (rejected : ∀ response, r = .ok response → response.activated = false)
    (undisturbed : Undisturbed tr) : PutsBack n request.migrationId w tr v := by
  unfold activateIncoming at h
  split at h
  · exact (idle_of_performs h (.pure _)).putsBack
  refine idle_bind h (.op rfl) fun {state tr₁ tr₂ u₁} shape read h₁ => ?_
  have known := getState_run read
  refine idle_bind h₁ (.op rfl) fun {existing tr₃ tr₄ u₂} shape₁ looked h₂ => ?_
  have same₂ := (idle_of_performs (m := request.migrationId) looked (.op rfl)).files
  refine idle_bind h₂ (mergeRequestPolicy_performs fun _ => rfl)
    fun {_ tr₅ tr₆ u₃} shape₂ merged h₃ => ?_
  have same₃ := (idle_of_performs (m := request.migrationId) merged
    (mergeRequestPolicy_performs fun _ => rfl)).files
  split at h₃
  · exact (idle_of_performs h₃ (.bind (putRecord_performs rfl rfl) fun _ => .pure _)).putsBack
  split at h₃
  · exact (idle_of_performs h₃ (.pure _)).putsBack
  refine idle_bind h₃ (putRecord_performs rfl rfl) fun {_ tr₇ tr₈ u₄} shape₃ written h₄ => ?_
  have same₄ := (idle_of_performs (m := request.migrationId) written
    (putRecord_performs rfl rfl)).files
  have current : state = (u₄.nodes n).registry :=
    known.trans (congrArg Files.registry (same₄.trans (same₃.trans same₂))).symm
  rw [current] at h₄
  rw [shape, shape₁, shape₂, shape₃] at undisturbed
  exact activationTransaction_iff h₄ rejected undisturbed.right.right.right.right

end

end Magellan.MigrationService
