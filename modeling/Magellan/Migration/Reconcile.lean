import Magellan.Cluster
import Magellan.Migration.Outcome
import Magellan.Node.Effects

/-!
# Reconciling a finished migration

A pass lists the journal once and then waits for the lock of the task, record by record, so the
migration of a record may be finished when its turn comes. What the pass does to it then depends on
the record it has read and on the state of the node.
-/

namespace Magellan.MigrationService

open Coroutine Coro

/-! ## When nothing changes -/

/-- The node is as it was, as far as a pass over `record` could tell. -/
structure Unchanged (n : NodeId) (record : MigrationRecord) (w v : World) : Prop where
  registry : (v.nodes n).registry = (w.nodes n).registry
  processes : (v.nodes n).processes = (w.nodes n).processes
  checkpoint : (v.nodes n).checkpoint = (w.nodes n).checkpoint
  bid : (v.nodes n).bids record.bidId = (w.nodes n).bids record.bidId
  journal : (v.nodes n).journal.get record.migrationId =
    (w.nodes n).journal.get record.migrationId

/-- A status write of this kind leaves the record as it is. -/
def Already (status : MigrationStatus) (pid : Option Pid) (error : Option String)
    (current : MigrationRecord) : Prop := { current with status, pid, error } = current

/-- The reservation is of the activation that the record describes. -/
def Matches (record : MigrationRecord) (bid : BidRecord) : Prop :=
  bid.taskId = record.taskId ∧ bid.sourceNodeId = record.sourceNodeId ∧
    bid.destinationNodeId = record.destinationNodeId

/-- Settling the reservation neither lets it expire nor claims nor consumes it. -/
def NothingToSettle (record : MigrationRecord) (s : NodeState) : Prop :=
  ∀ bid, s.bids record.bidId = some bid → bid.status.isActiveReservation = true →
    bid.status = .accepted ∧ bid.reservationExpiresAtUtc = none ∧ ¬ Matches record bid

/-- A rollback finds nothing to stop, to put back or to cancel. -/
structure NothingToUndo (n : NodeId) (record : MigrationRecord) (s : NodeState) : Prop where
  process : ¬ (s.registry.lastMigrationId = some record.migrationId ∧
    s.registry.ownerNodeId = n ∧ s.registry.pid ≠ none ∧ s.registry.status ≠ .completed)
  backup : s.backups record.migrationId = none
  state : ∀ original, record.originalState = some original → original = s.registry
  bid : ∀ bid, s.bids record.bidId = some bid → bid.status = .consumed ∨ bid.status = .rejected ∨
    bid.status = .expired ∨ bid.status = .cancelled

/-- What a pass over `record` meets when the journal has `current`. -/
def Harmless (n : NodeId) (record current : MigrationRecord) (s : NodeState) : Prop :=
  match record.role with
  | .destination =>
      if isCommitted n record s.registry then
        NothingToSettle record s ∧ Already .activated s.registry.pid none current
      else NothingToUndo n record s ∧ Already .rolledBack none (some restartRolledBack) current
  | .source =>
      if s.registry.ownerNodeId = record.destinationNodeId ∧
          s.registry.generation ≥ record.generation then
        Already .activated none none current
      else if record.status = .preparing ∧ s.registry.ownerNodeId = n ∧
          s.registry.status ≠ .migrating then
        Already .rolledBack none (some "Migration ended before source quiesce") current
      else False

section

variable {services : Services} {n : NodeId} {record current : MigrationRecord} {w v : World}

/-! ## A harmless pass -/

/-- While a harmless pass runs, the node agrees with `s`, also on the backup. -/
structure Kept (record : MigrationRecord) (s t : NodeState) : Prop where
  registry : t.registry = s.registry
  processes : t.processes = s.processes
  checkpoint : t.checkpoint = s.checkpoint
  bid : t.bids record.bidId = s.bids record.bidId
  journal : t.journal.get record.migrationId = s.journal.get record.migrationId
  backup : t.backups record.migrationId = s.backups record.migrationId

theorem Kept.refl (record : MigrationRecord) (s : NodeState) : Kept record s s :=
  ⟨rfl, rfl, rfl, rfl, rfl, rfl⟩

/-- The contract of a harmless pass that began in `s`. -/
def passContract (n : NodeId) (record : MigrationRecord) (s : NodeState) :
    Contract Op Choice World where
  allowed _ _ _ := True
  rely := Elsewhere n
  inv := At n (Kept record s)
  guar _ _ := True

variable {s : NodeState}

theorem pass_op {o : Op} {B : o.Ret → Prop}
    (h : ∀ {c w r v}, Kept record s (w.nodes n) → exec n o c w = some (r, v) →
      Kept record s (v.nodes n) ∧ ∀ a, r = .ok a → B a) :
    Triple (exec n) (passContract n record s) (fun _ => True) (await o) (fun a _ => B a)
      fun _ _ => True := by
  refine .op .top (fun a => .const _) (fun _ => .top) fun w c r v _ inv _ step => ?_
  obtain ⟨kept, result⟩ := h inv step
  refine ⟨kept, trivial, ?_⟩
  cases r with
  | ok a => exact result a rfl
  | error e => trivial

theorem getState_pass :
    Triple (exec n) (passContract n record s) (fun _ => True) (await .getState)
      (fun state _ => state = s.registry) fun _ _ => True :=
  pass_op fun kept step => by
    rcases exec_getState step with ⟨⟨e, -, rfl⟩, rfl⟩ | ⟨rfl, rfl⟩
    · exact ⟨kept, by simp⟩
    · exact ⟨kept, fun a eq => (Except.ok.inj eq) ▸ kept.registry⟩

theorem setRecordStatus_pass {status : MigrationStatus} {pid : Option Pid} {error : Option String}
    (found : s.journal.get record.migrationId = some current)
    (already : Already status pid error current) :
    Triple (exec n) (passContract n record s) (fun _ => True)
      (await (.setRecordStatus record.migrationId status pid error)) (fun _ _ => True)
      fun _ _ => True :=
  pass_op fun {c w r v} kept step => by
    refine ⟨?_, fun _ _ => trivial⟩
    rcases exec_recordStatus step with ⟨-, rfl⟩ | ⟨-, ⟨-, rfl⟩ | ⟨x, get, rfl⟩⟩
    · exact kept
    · exact kept
    · have same : x = current := by
        rw [kept.journal, found] at get
        exact (Option.some.inj get).symm
      subst same
      have rewritten : { x with status, pid, error } = x := already
      rw [rewritten]
      refine ⟨?_, ?_, ?_, ?_, ?_, ?_⟩ <;> rw [World.putRecord_self]
      · exact kept.registry
      · exact kept.processes
      · exact kept.checkpoint
      · exact kept.bid
      · rw [← Journal.get_migrationId found, Journal.get_put_self, Journal.get_migrationId found]
        exact found.symm
      · exact kept.backup

/-! ### A committed activation -/

theorem expireRecord_eq {bid : BidRecord} (now : Timestamp)
    (h : bid.status.isActiveReservation = false ∨ bid.reservationExpiresAtUtc = none) :
    Bids.expireRecord now bid = bid := by
  unfold Bids.expireRecord
  rcases h with inactive | unlimited
  · cases bid.reservationExpiresAtUtc with
    | none => rfl
    | some expires => simp [inactive]
  · rw [unlimited]

theorem NothingToSettle.expireLocked (settled : NothingToSettle record s) (now : Timestamp)
    {t : NodeState} (kept : Kept record s t) :
    t.bids.expireLocked now record.bidId = s.bids record.bidId := by
  unfold Bids.expireLocked
  rw [kept.bid]
  cases found : s.bids record.bidId with
  | none => rfl
  | some bid =>
      refine congrArg some (expireRecord_eq now ?_)
      cases active : bid.status.isActiveReservation with
      | false => exact .inl rfl
      | true => exact .inr (settled bid found active).2.1

theorem Kept.withBids {t : NodeState} {bids : Bids} (kept : Kept record s t)
    (same : bids record.bidId = s.bids record.bidId) : Kept record s { t with bids } :=
  ⟨kept.registry, kept.processes, kept.checkpoint, same, kept.journal, kept.backup⟩

theorem getBid_pass (settled : NothingToSettle record s) :
    Triple (exec n) (passContract n record s) (fun _ => True) (await (.getBid record.bidId))
      (fun bid _ => bid = s.bids record.bidId) fun _ _ => True :=
  pass_op fun kept step => by
    rcases exec_getBid step with ⟨⟨e, -, rfl⟩, rfl⟩ | ⟨now, -, rfl, rfl⟩
    · exact ⟨kept, by simp⟩
    · have same := settled.expireLocked now kept
      rw [World.modify_self]
      exact ⟨kept.withBids same, fun a eq => (Except.ok.inj eq) ▸ same⟩

theorem beginActivation_pass {bid : BidRecord} (settled : NothingToSettle record s)
    (found : s.bids record.bidId = some bid) (other : ¬ Matches record bid) :
    Triple (exec n) (passContract n record s) (fun _ => True)
      (await (.beginActivation record.bidId record.taskId record.sourceNodeId
        record.destinationNodeId)) (fun _ _ => False) fun _ _ => True :=
  pass_op (B := fun _ => False) fun kept step => by
    rcases exec_beginActivation step with ⟨⟨e, -, rfl⟩, rfl⟩ | ⟨now, -, result⟩
    · exact ⟨kept, by simp⟩
    · have same := settled.expireLocked now kept
      simp only [bidResult, Bids.beginActivation, same, found, Option.some.injEq] at result
      unfold Matches at other
      rw [if_pos other] at result
      cases result
      rw [World.modify_self]
      exact ⟨kept.withBids same, by simp⟩

theorem settleReservation_pass (settled : NothingToSettle record s) :
    Triple (exec n) (passContract n record s) (fun _ => True) (settleReservation record)
      (fun _ _ => True) fun _ _ => True := by
  refine .bind (getBid_pass settled) fun bid => .assuming fun same => ?_
  subst same
  refine .tryExcept (F := fun _ _ => True) ?_ fun e => .pure .top fun _ _ => trivial
  refine .bind (B := fun bid _ => bid.any (·.status = .activating) = false) ?_ fun bid =>
    .assuming fun idle => ?_
  · refine .ite (fun accepted => ?_) fun _ => .pure (.const _) fun _ _ => ?_
    · obtain ⟨bid, found, status⟩ := Option.any_eq_true _ _ |>.mp accepted
      have accepted : bid.status = .accepted := by simpa using status
      have other := (settled bid found (by rw [accepted]; rfl)).2.2
      exact .bind (beginActivation_pass settled found other) fun _ => .of_false fun _ h => h
    · cases found : s.bids record.bidId with
      | none => rfl
      | some bid =>
          by_contra activating
          have status : bid.status = .activating := by simpa using activating
          have accepted := (settled bid found (by rw [status]; rfl)).1
          rw [status] at accepted
          cases accepted
  · unfold consumeActivating onlyIf
    rw [if_neg (by rw [idle]; decide)]
    exact .pure .top fun _ _ => trivial

/-! ### An interrupted activation -/

theorem stopTask_pass (completed : s.registry.status = .completed) :
    Triple (exec n) (passContract n record s) (fun _ => True) stopTask
      (fun _ _ => True) fun _ _ => True := by
  refine .bind (B := fun _ _ => True) (.bind getState_pass fun state => .assuming ?_) fun _ =>
    .pure .top fun _ _ => trivial
  rintro rfl
  rw [if_pos completed]
  exact .pure .top fun _ _ => trivial

theorem ifBackupExists_pass {p : Async Unit} (none : s.backups record.migrationId = none) :
    Triple (exec n) (passContract n record s) (fun _ => True)
      (ifBackupExists record.migrationId p) (fun _ _ => True) fun _ _ => True := by
  refine .bind (B := fun found _ => found = false) ?_ fun found => .assuming ?_
  · refine pass_op fun kept step => ?_
    obtain ⟨rfl, rfl⟩ := exec_backupExists step
    refine ⟨kept, fun a eq => (Except.ok.inj eq) ▸ ?_⟩
    rw [kept.backup, none]
    rfl
  · rintro rfl
    exact .pure .top fun _ _ => trivial

theorem restoreState_pass {original : Option TaskRuntimeState}
    (same : ∀ state, original = some state → state = s.registry) :
    Triple (exec n) (passContract n record s) (fun _ => True) (restoreState original)
      (fun _ _ => True) fun _ _ => True := by
  cases original with
  | none => exact .pure .top fun _ _ => trivial
  | some state =>
      refine .bind (B := fun _ _ => True) (pass_op (B := fun _ => True) fun kept step => ?_)
        fun _ => .pure .top fun _ _ => trivial
      refine ⟨?_, fun _ _ => trivial⟩
      rcases exec_registry step with ⟨-, rfl⟩ | ⟨now, -, applied, ⟨e, rfl, rfl⟩ | ⟨t, rfl, rfl⟩⟩
      · exact kept
      · exact kept
      · cases applied
        rw [World.putState_self]
        exact ⟨same state rfl, kept.processes, kept.checkpoint, kept.bid, kept.journal, kept.backup⟩

theorem cancelBid_pass {reason : String} (closed : ∀ bid, s.bids record.bidId = some bid →
      bid.status = .consumed ∨ bid.status = .rejected ∨ bid.status = .expired ∨
        bid.status = .cancelled) :
    Triple (exec n) (passContract n record s) (fun _ => True) (cancelBid record.bidId reason)
      (fun _ _ => True) fun _ _ => True := by
  refine .bind (B := fun _ _ => True) (pass_op (B := fun _ => True) fun kept step => ?_)
    fun _ => .pure .top fun _ _ => trivial
  refine ⟨?_, fun _ _ => trivial⟩
  rcases exec_cancelBid step with ⟨-, rfl⟩ | ⟨now, -, result⟩
  · exact kept
  · unfold bidResult Bids.cancel at result
    rw [kept.bid] at result
    cases found : s.bids record.bidId with
    | none =>
        rw [found] at result
        cases result
        rw [World.modify_self]
        exact kept
    | some bid =>
        rw [found] at result
        dsimp only at result
        rw [if_pos (closed bid found)] at result
        cases result
        rw [World.modify_self]
        exact kept

theorem undoActivation_pass (undone : NothingToUndo n record s)
    (found : s.journal.get record.migrationId = some current)
    (already : Already .rolledBack none (some restartRolledBack) current) :
    Triple (exec n) (passContract n record s) (fun _ => True)
      (undoActivation n record s.registry) (fun _ _ => True) fun _ _ => True := by
  refine .bind (B := fun _ _ => True) ?_ fun _ => ?_
  · refine .ite (fun held => ?_) fun _ => .pure .top fun _ _ => trivial
    refine .tryExcept (F := fun _ _ => True) (stopTask_pass ?_) fun _ =>
      .pure .top fun _ _ => trivial
    by_contra open_
    exact undone.process ⟨held.1, held.2.1, held.2.2, open_⟩
  refine .bind (ifBackupExists_pass undone.backup) fun _ => ?_
  refine .bind (restoreState_pass undone.state) fun _ => ?_
  refine .bind (B := fun _ _ => True) ?_ fun _ => ?_
  · exact .tryExcept (F := fun _ _ => True) (cancelBid_pass undone.bid) fun _ =>
      .pure .top fun _ _ => trivial
  refine .bind (B := fun _ _ => True) ?_ fun _ => setRecordStatus_pass found already
  refine pass_op (B := fun _ => True) fun kept step => ?_
  obtain ⟨rfl, rfl⟩ := exec_removeIncoming step
  exact ⟨kept, fun _ _ => trivial⟩

/-! ### The pass -/

theorem reconcileRecord_pass (found : s.journal.get record.migrationId = some current)
    (harmless : Harmless n record current s) :
    Triple (exec n) (passContract n record s) (fun _ => True) (reconcileRecord services n record)
      (fun _ _ => True) fun _ _ => True := by
  unfold Harmless at harmless
  unfold reconcileRecord
  cases role : record.role with
  | destination =>
      simp only [role] at harmless
      refine .bind getState_pass fun state => .assuming ?_
      rintro rfl
      by_cases committed : isCommitted n record s.registry = true
      · rw [if_pos committed] at harmless ⊢
        exact .bind (settleReservation_pass harmless.1) fun _ => setRecordStatus_pass found harmless.2
      · rw [if_neg committed] at harmless ⊢
        exact undoActivation_pass harmless.1 found harmless.2
  | source =>
      simp only [role] at harmless
      refine .bind getState_pass fun state => .assuming ?_
      rintro rfl
      split at harmless
      · rename_i given
        rw [if_pos given]
        exact setRecordStatus_pass found harmless
      · rename_i kept
        rw [if_neg kept]
        split at harmless
        · rename_i early
          rw [if_pos early]
          exact setRecordStatus_pass found harmless
        · exact harmless.elim

/-! ## A pass that changes something -/

def failure : Exn := runtimeError "failed"

theorem Ends.ignoreErrors {R : World → World → Prop} {p : Async Unit} {r : Except Exn Unit}
    (h : Ends (exec n) R p w r v) : Ends (exec n) R (ignoreErrors p) w (.ok ()) v :=
  h.andThen (by cases r <;> exact .done)

theorem claimAccepted_ends {R : World → World → Prop} {bid : Option BidRecord}
    (claimed : ¬ bid.any (·.status = .accepted) = true) (w : World) :
    Ends (exec n) R (claimAccepted record bid) w (.ok bid) w := by
  unfold claimAccepted
  rw [if_neg claimed]
  exact .done

theorem claimAndConsume_ends {R : World → World → Prop} (bid : Option BidRecord) (w : World) :
    Ends (exec n) R (Magellan.ignoreErrors do
      let bid ← claimAccepted record bid
      consumeActivating record bid) w (.ok ()) w := by
  by_cases accepted : bid.any (·.status = .accepted) = true
  · refine Ends.ignoreErrors (r := .error failure) (.andThen (r := .error failure) ?_ .done)
    unfold claimAccepted
    rw [if_pos accepted]
    exact .perform (.fail failure) rfl .done
  · by_cases activating : bid.any (·.status = .activating) = true
    · refine Ends.ignoreErrors (r := .error failure) ((claimAccepted_ends accepted w).bind ?_)
      unfold consumeActivating onlyIf
      rw [if_pos activating]
      exact .perform (.fail failure) rfl .done
    · refine Ends.ignoreErrors (r := .ok ()) ((claimAccepted_ends accepted w).bind ?_)
      unfold consumeActivating onlyIf
      rw [if_neg activating]
      exact .done

theorem settleReservation_ends {R : World → World → Prop} (record : MigrationRecord)
    (w : World) : ∃ v, Ends (exec n) R (settleReservation record) w (.ok ()) v ∧
      (v.nodes n).journal = (w.nodes n).journal :=
  ⟨_, .perform (.ok 0) rfl (claimAndConsume_ends _ _), by rw [World.modify_self]⟩

/-- What every moment of the pass has to satisfy. -/
def AlwaysUnchanged (services : Services) (n : NodeId) (record : MigrationRecord) (w : World) :
    Prop :=
  ∀ v, Visits (exec n) (Elsewhere n) (reconcileRecord services n record) w v →
    Unchanged n record w v

theorem already_of_unchanged {status : MigrationStatus} {pid : Option Pid} {error : Option String}
    {u : World} (found : (w.nodes n).journal.get record.migrationId = some current)
    (same : (u.nodes n).journal = (w.nodes n).journal)
    (unchanged : Unchanged n record w (u.putRecord n { current with status, pid, error })) :
    Already status pid error current := by
  have journal := unchanged.journal
  rw [World.putRecord_self, found, same] at journal
  rw [← Journal.get_migrationId found] at journal
  have written := Journal.get_put_self (w.nodes n).journal { current with status, pid, error }
  exact Option.some.inj (written.symm.trans journal)

theorem visits_setRecordStatus {R : World → World → Prop} {status : MigrationStatus}
    {p : Option Pid} {e : Option String} {u : World}
    (found : (u.nodes n).journal.get record.migrationId = some current) :
    Visits (exec n) R (await (.setRecordStatus record.migrationId status p e)) u
      (u.putRecord n { current with status := status, pid := p, error := e }) :=
  .perform (.ok 0) (exec_setRecordStatus found status p e 0) .refl

theorem settleReservation_visits {R : World → World → Prop} {bid : BidRecord}
    (found : (w.nodes n).bids record.bidId = some bid)
    (unlimited : bid.reservationExpiresAtUtc = none)
    (rest : Visits (exec n) R (claimAccepted record (some bid) >>= consumeActivating record)
      (w.modify n fun s => { s with bids := s.bids.expireLocked 0 }) v) :
    Visits (exec n) R (settleReservation record) w v := by
  have read : (w.nodes n).bids.expireLocked 0 record.bidId = some bid := by
    simp only [Bids.expireLocked, found, Option.map_some, expireRecord_eq 0 (.inr unlimited)]
  have got : exec n (.getBid record.bidId) (.ok 0) w = some (.ok (some bid),
      w.modify n fun s => { s with bids := s.bids.expireLocked 0 }) := by
    rw [← read]
    rfl
  exact .perform (.ok 0) got rest.andThen

theorem visits_consumeActivating {R : World → World → Prop} {bid : BidRecord}
    (activating : bid.status = .activating) :
    Visits (exec n) R (consumeActivating record (some bid)) w
      (w.modify n fun s => { s with bids := ((w.nodes n).bids.consume record.bidId 0).2 }) := by
  unfold consumeActivating onlyIf
  rw [if_pos (by simpa using activating)]
  exact .perform (.ok 0) rfl .refl

theorem visits_claimAccepted {R : World → World → Prop} {bid : BidRecord}
    (accepted : bid.status = .accepted) :
    Visits (exec n) R (claimAccepted record (some bid)) w
      (w.modify n fun s => { s with
        bids := ((w.nodes n).bids.beginActivation record.bidId record.taskId record.sourceNodeId
          record.destinationNodeId 0).2 }) := by
  unfold claimAccepted
  rw [if_pos (by simpa using accepted)]
  exact .perform (.ok 0) rfl .refl

theorem nothingToSettle_of_visits
    (unchanged : ∀ v, Visits (exec n) (Elsewhere n) (settleReservation record) w v →
      (v.nodes n).bids record.bidId = (w.nodes n).bids record.bidId) :
    NothingToSettle record (w.nodes n) := by
  intro bid found active
  have unlimited : bid.reservationExpiresAtUtc = none := by
    by_contra limited
    obtain ⟨expires, limit⟩ := Option.ne_none_iff_exists'.mp limited
    have same := unchanged _ (.perform (.ok expires) rfl .refl)
    rw [World.modify_self] at same
    simp only [Bids.expireLocked, found, Option.map_some, Option.some.injEq] at same
    simp only [Bids.expireRecord, limit, active, le_refl, and_self, if_true] at same
    rw [← same] at active
    cases active
  have read : (w.nodes n).bids.expireLocked 0 record.bidId = some bid := by
    simp only [Bids.expireLocked, found, Option.map_some, expireRecord_eq 0 (.inr unlimited)]
  have again : ((w.nodes n).bids.expireLocked 0).expireLocked 0 record.bidId = some bid := by
    rw [Bids.expireLocked, read, Option.map_some, expireRecord_eq 0 (.inr unlimited)]
  have idle : bid.status ≠ .activating := by
    intro activating
    have same := unchanged _ (settleReservation_visits found unlimited
      ((claimAccepted_ends (by simp [activating]) _).bind_visits
        (visits_consumeActivating activating)))
    rw [World.modify_self, World.modify_self, found] at same
    have status := congrArg (Option.map (·.status)) same
    simp [Bids.consume, read, activating, Bids.set] at status
  have accepted : bid.status = .accepted := by
    cases status : bid.status <;> simp_all [BidStatus.isActiveReservation]
  refine ⟨accepted, unlimited, fun matched => ?_⟩
  have same := unchanged _
    (settleReservation_visits found unlimited (visits_claimAccepted accepted).bind)
  rw [World.modify_self, World.modify_self, found] at same
  have status := congrArg (Option.map (·.status)) same
  simp [Bids.beginActivation, again, matched.1, matched.2.1, matched.2.2, accepted, Bids.set] at status

/-- Stopping a task that has a pid clears it. -/
theorem visits_stop {R : World → World → Prop} {pid : Pid}
    (held : (w.nodes n).registry.pid = some pid)
    (open_ : (w.nodes n).registry.status ≠ .completed) :
    ∃ v, Visits (exec n) R LocalProcess.stop w v ∧ (v.nodes n).registry.pid = none := by
  let stopped := w.modify n fun s => { s with
    processes := s.processes.filter (· ≠ pid)
    starting := if s.starting = some pid then none else s.starting }
  have same : (stopped.nodes n).registry = (w.nodes n).registry := by simp [stopped]
  refine ⟨stopped.putState n .markStopped (Registry.markStopped (stopped.nodes n).registry), ?_, ?_⟩
  · have rest : Visits (exec n) R (do
        await (.terminate pid)
        await (.registry .markStopped)) w (stopped.putState n .markStopped
          (Registry.markStopped (stopped.nodes n).registry)) :=
      .perform (.ok 0) rfl (.perform (.ok 0) rfl .refl)
    refine .perform (.ok 0) rfl ?_
    simp only [andThen_done, if_neg open_, held]
    exact rest
  · rw [World.putState_self, same, Registry.markStopped, if_neg open_]

theorem stopTask_ends {R : World → World → Prop}
    (completed : (w.nodes n).registry.status = .completed) :
    Ends (exec n) R stopTask w (.ok ()) w := by
  refine .bind (a := (w.nodes n).registry) (.perform (.ok 0) rfl ?_) .done
  simp only [andThen_done, if_pos completed]
  exact .done

theorem ifBackupExists_visits {R : World → World → Prop} {m : MigrationId} {p : Async Unit}
    (backup : ((w.nodes n).backups m).isSome = true) (h : Visits (exec n) R p w v) :
    Visits (exec n) R (ifBackupExists m p) w v := by
  refine .perform (.ok 0) rfl ?_
  simp only [andThen_done, backup, onlyIf, if_true]
  exact h

theorem ifBackupExists_skip {R : World → World → Prop} {m : MigrationId} {p : Async Unit}
    (none : (w.nodes n).backups m = none) :
    Ends (exec n) R (ifBackupExists m p) w (.ok ()) w := by
  refine .perform (.ok 0) rfl ?_
  simp only [andThen_done, none, onlyIf]
  exact .done

/-- A rollback that changes nothing has nothing to undo. -/
theorem nothingToUndo_of_visits (found : (w.nodes n).journal.get record.migrationId = some current)
    (unchanged : ∀ v, Visits (exec n) (Elsewhere n)
      (undoActivation n record (w.nodes n).registry) w v → Unchanged n record w v) :
    NothingToUndo n record (w.nodes n) ∧
      Already .rolledBack none (some restartRolledBack) current := by
  have process : ¬ ((w.nodes n).registry.lastMigrationId = some record.migrationId ∧
      (w.nodes n).registry.ownerNodeId = n ∧ (w.nodes n).registry.pid ≠ none ∧
      (w.nodes n).registry.status ≠ .completed) := by
    rintro ⟨last, owner, held, open_⟩
    obtain ⟨pid, some⟩ := Option.ne_none_iff_exists'.mp held
    obtain ⟨v, visits, none⟩ := visits_stop (R := Elsewhere n) some open_
    have same := (unchanged v (.bind (by
      unfold onlyIf
      rw [if_pos ⟨last, owner, held⟩]
      exact visits.bind.andThen))).registry
    rw [same] at none
    exact held none
  have quiet : Ends (exec n) (Elsewhere n)
      (onlyIf ((w.nodes n).registry.lastMigrationId = some record.migrationId ∧
        (w.nodes n).registry.ownerNodeId = n ∧ (w.nodes n).registry.pid ≠ none)
        (ignoreErrors stopTask)) w (.ok ()) w := by
    unfold onlyIf
    split
    · rename_i held
      refine Ends.ignoreErrors (stopTask_ends ?_)
      by_contra open_
      exact process ⟨held.1, held.2.1, held.2.2, open_⟩
    · exact .done
  have backup : (w.nodes n).backups record.migrationId = none := by
    by_contra some
    obtain ⟨d, backup⟩ := Option.ne_none_iff_exists'.mp some
    have isBackup : ((w.nodes n).backups record.migrationId).isSome = true := by rw [backup]; rfl
    cases checkpoint : (w.nodes n).checkpoint with
    | none =>
        have renames : exec n (.renameFromBackup record.migrationId) (.ok 0) w =
            Option.some (.ok (), w.modify n (NodeState.restoreBackup record.migrationId d)) := by
          simp only [exec, effect, backup, checkpoint]
          rfl
        have visits : Visits (exec n) (Elsewhere n) (do
            ifCheckpointExists (await .removeCheckpoint)
            await (.renameFromBackup record.migrationId)) w
            (w.modify n (NodeState.restoreBackup record.migrationId d)) := by
          refine .perform (.ok 0) rfl ?_
          simp only [checkpoint]
          exact .perform (.ok 0) renames .refl
        have same := (unchanged _ (quiet.bind_visits
          (ifBackupExists_visits isBackup visits).bind)).checkpoint
        rw [World.modify_self, checkpoint] at same
        cases same
    | some files =>
        have visits : Visits (exec n) (Elsewhere n) (do
            ifCheckpointExists (await .removeCheckpoint)
            await (.renameFromBackup record.migrationId)) w
            (w.modify n fun s => { s with checkpoint := none }) := by
          refine .perform (.ok 0) rfl ?_
          simp only [checkpoint]
          exact .perform (.ok 0) rfl .refl
        have same := (unchanged _ (quiet.bind_visits
          (ifBackupExists_visits isBackup visits).bind)).checkpoint
        rw [World.modify_self, checkpoint] at same
        cases same
  have state : ∀ original, record.originalState = some original →
      original = (w.nodes n).registry := by
    intro original saved
    have visits : Visits (exec n) (Elsewhere n) (restoreState record.originalState) w
        (w.putState n (.setState original) original) := by
      rw [saved]
      exact .perform (.ok 0) rfl .refl
    have same := (unchanged _ (quiet.bind_visits
      ((ifBackupExists_skip backup).bind_visits visits.bind))).registry
    rwa [World.putState_self] at same
  have restored : ∃ u, Ends (exec n) (Elsewhere n) (restoreState record.originalState) w (.ok ()) u ∧
      u.nodes n = w.nodes n := by
    cases saved : record.originalState with
    | none => exact ⟨w, .done, rfl⟩
    | some original =>
        refine ⟨w.putState n (.setState original) original, .perform (.ok 0) rfl .done, ?_⟩
        rw [World.putState_self, state original saved]
  obtain ⟨u, ends, same⟩ := restored
  have closing : ∀ v, Visits (exec n) (Elsewhere n) (do
      ignoreErrors (cancelBid record.bidId restartRolledBack)
      await (.removeIncoming record.migrationId)
      await (.setRecordStatus record.migrationId .rolledBack none (some restartRolledBack))) u v →
      Unchanged n record w v := fun v visits =>
    unchanged v (quiet.bind_visits ((ifBackupExists_skip backup).bind_visits
      (ends.bind_visits visits)))
  refine ⟨⟨process, backup, state, fun bid reserved => ?_⟩, ?_⟩
  · by_contra active
    have cancelled := (closing _ (.bind (.andThen (.perform (.ok 0) rfl .refl)))).bid
    rw [World.modify_self, same, reserved] at cancelled
    have status := congrArg (Option.map (·.status)) cancelled
    simp only [Bids.cancel, reserved, if_neg active, Bids.set, if_true, Option.map_some,
      Option.some.injEq] at status
    exact active (.inr (.inr (.inr status.symm)))
  · have skipped : Ends (exec n) (Elsewhere n)
        (ignoreErrors (cancelBid record.bidId restartRolledBack)) u (.ok ()) u :=
      Ends.ignoreErrors (r := .error failure) (.perform (.fail failure) rfl .done)
    have found' : ((u.setIncoming n record.migrationId none).nodes n).journal.get
        record.migrationId = some current := by
      rw [World.setIncoming_nodes, same, found]
    have visits := closing _ (skipped.bind_visits (.perform (.ok 0) rfl
      (visits_setRecordStatus (p := none) (e := some restartRolledBack) found')))
    exact already_of_unchanged found (by rw [World.setIncoming_nodes, same]) visits

/-! ## The pass -/

end

/-! ## A pass that comes late -/

/-- An activation of `b` that has been committed. -/
def committedWorld : World where
  nodes _ := {
    registry := {
      taskId := "t"
      ownerNodeId := "b"
      generation := 1
      status := .running
      pid := some 7
      lastMigrationId := some "m" }
    journal := [{ sampleRecord with role := .destination, status := .activated, pid := some 7 }]
    processes := [7] }

/-- A migration of `a` up to the stopped process. -/
def quiesceScript : List ClusterLabel :=
  [.call "a" (.migrate sampleCall) (.ok 0)] ++ proceed "a" 1 ++ [.perform "a" (.bindings [])] ++
    proceed "a" 1 ++ [.perform "a" (.bindings [])] ++ proceed "a" 7

/-- The start of the task at `n`. -/
def startScript (n : NodeId) (pid : Pid) : List ClusterLabel :=
  [.perform n (.bindings [])] ++ proceed n 3 ++ [.perform n (.plan ⟨"python", [], true⟩)] ++
    proceed n 1 ++ [.perform n (.spawned pid)] ++ proceed n 2

/-- The pass lists the journal; then the checkpoint turns out to be invalid, and the migration ends
with the task running again. -/
def failScript : List ClusterLabel :=
  [.event (.beginPass "a"), .perform "a" (.fail (runtimeError "invalid checkpoint"))] ++
    proceed "a" 1 ++ startScript "a" 7 ++ proceed "a" 2

/-- The record of the migration as the pass has read it. -/
def staleRecord : MigrationRecord :=
  { sourceRecord "a" sampleCall (sampleNode "a").registry with status := .transferring }

/-- The pass, which learns that the destination does not know the migration. -/
def passScript : List ClusterLabel :=
  [.call "a" (.reconcile staleRecord) (.ok 0), .perform "a" (.polls 1)] ++ proceed "a" 1 ++
    [.event (.answerQuery "b" "m"), .perform "a" (.answer none)] ++ proceed "a" 2 ++
    startScript "a" 8 ++ proceed "a" 1

end Magellan.MigrationService
