import Magellan.Bidding.Models
import Magellan.Coroutine.Implement
import Magellan.Migration.CommitPoint
import Magellan.Node.Effects

/-!
# Bidding and migrating

What a scheduler evaluation and an operator's request do once a destination is chosen: bid, wait for
the decision, migrate if it is accepted. Only `migrate` gives back what the bid has reserved.
-/

namespace Magellan.SchedulerService

open Coroutine Coro
open Bidding (BidRequest)
open MigrationService (Services MigrateCall migrate Committed bareServices sampleWorld storeFull)

/-! ## The calls -/

inductive BidOp where
  /-- `POST /bids` at the destination. -/
  | submit (bid : BidRequest)
  /-- `GET /bids/{bid_id}` at the destination. -/
  | poll (destinationNodeId : NodeId) (bidId : BidId)
  /-- The address of the destination, and the polls that the deadline leaves time for. -/
  | deadline
  /-- An operation of the node itself. -/
  | node (o : Op)

@[reducible] def BidOp.Ret : BidOp → Type
  | submit _ | poll .. => BidRecord
  | deadline => Nat
  | node o => o.Ret

/-- How the environment resolves an operation. -/
inductive BidChoice where
  /-- The destination serves the request at `now`, and this answer arrives. -/
  | answered (now : Timestamp) (record : BidRecord)
  /-- The destination serves the request at `now`, and the client raises: the answer is lost, or it
  is an error. -/
  | unanswered (now : Timestamp) (e : Exn)
  /-- The request does not arrive. -/
  | fail (e : Exn)
  | polls (count : Nat)
  | node (c : Choice)

/-- A request that finds the bids of `d` as `bids` and is resolved by `c`. -/
def served (w : World) (d : NodeId) (bids : Timestamp → Bids) (bidId : BidId) :
    BidChoice → Option (Except Exn BidRecord × World)
  | .answered now record =>
      if bids now bidId = some record then
        some (.ok record, w.modify d fun s => { s with bids := bids now })
      else none
  | .unanswered now e => some (.error e, w.modify d fun s => { s with bids := bids now })
  | .fail e => raises w e
  | _ => none

/-- One operation of a call of node `n`. -/
def bidExec (n : NodeId) : Semantics BidOp BidOp.Ret Exn BidChoice World
  | .submit bid, c, w =>
      served w bid.destinationNodeId
        (fun now => (w.nodes bid.destinationNodeId).bids.submit
          (Bidding.BidRecord.ofRequest bid now).lease) bid.bidId c
  | .poll d bidId, c, w => served w d (w.nodes d).bids.expireLocked bidId c
  | .deadline, .polls count, w => reads w count
  | .deadline, .fail e, w => raises w e
  | .node o, .node c, w => exec n o c w
  | _, _, _ => none

abbrev BidAsync (α : Type) := Coro BidOp BidOp.Ret Exn α

def timedOut (bid : BidRequest) : Exn := ⟨.timeoutError, s!"Timed out waiting for bid {bid.bidId}"⟩

/-- The loop of `submit_and_wait`. -/
def waitForDecision (bid : BidRequest) : Nat → BidRecord → BidAsync BidRecord
  | polls, record =>
      if record.status = .pending then
        match polls with
        | 0 => raise (timedOut bid)
        | polls + 1 => do
            let record ← op (.poll bid.destinationNodeId bid.bidId)
            waitForDecision bid polls record
      else pure record

def submitAndWait (bid : BidRequest) : BidAsync BidRecord := do
  let polls ← op .deadline
  let record ← op (.submit bid)
  waitForDecision bid polls record

/-- An operation of the node, within a call that bids. -/
def inCall (o : Op) : BidAsync o.Ret := op (BidOp.node o)

/-- The arguments of the call of `migrate` for a bid. -/
def callOf (bid : BidRequest) (migrationAtUtc : Timestamp) (migrationId : MigrationId)
    (result : BidRecord) : MigrateCall where
  destinationNodeId := bid.destinationNodeId
  migrationAtUtc := migrationAtUtc
  bidId := result.bidId
  migrationId := migrationId

/-- Migrate if the bid is accepted, and `finish` with the result of both. -/
def onDecision {α : Type} (services : Services) (n : NodeId) (bid : BidRequest)
    (migrationAtUtc : Timestamp) (migrationId : MigrationId)
    (finish : BidRecord → Option Bool → BidAsync α) (result : BidRecord) : BidAsync α :=
  if result.status = .accepted then do
    let migrated ←
      (migrate services n (callOf bid migrationAtUtc migrationId result)).implement inCall
    finish result (some migrated)
  else finish result none

def bidAndMigrate {α : Type} (services : Services) (n : NodeId) (bid : BidRequest)
    (migrationAtUtc : Timestamp) (migrationId : MigrationId)
    (finish : BidRecord → Option Bool → BidAsync α) : BidAsync α := do
  let result ← submitAndWait bid
  onDecision services n bid migrationAtUtc migrationId finish result

/-- `_evaluate_task_locked` from the bid on. -/
def evaluateTask (services : Services) (n : NodeId) (bid : BidRequest)
    (migrationAtUtc : Timestamp) (migrationId : MigrationId) : BidAsync Unit :=
  bidAndMigrate services n bid migrationAtUtc migrationId fun _ _ => pure ()

/-- The answer to an operator: the bid, whether the task was migrated, and its state after that. -/
structure MigrationAnswer where
  bid : BidRecord
  migrated : Bool
  state : Option TaskRuntimeState

/-- `_request_migration_locked` from the bid on. -/
def requestMigration (services : Services) (n : NodeId) (bid : BidRequest)
    (migrationAtUtc : Timestamp) (migrationId : MigrationId) : BidAsync MigrationAnswer :=
  bidAndMigrate services n bid migrationAtUtc migrationId fun result => fun
    | none => pure ⟨result, false, none⟩
    | some migrated => do
        let state ← inCall .getState
        pure ⟨result, migrated, some state⟩

/-! ## What the end of a call leaves -/

/-- The operations of the node in a run, `migrate`'s and the last look at the state. -/
def nodeSteps (tr : List (BidOp × BidChoice)) : List (Op × Choice) :=
  tr.filterMap fun
    | (.node o, .node c) => some (o, c)
    | _ => none

/-- The answer of the destination that a step brings. -/
def answer? : BidOp × BidChoice → Option BidRecord
  | (_, .answered _ record) => some record
  | _ => none

/-- The last answer of the destination says that the bid is rejected. -/
def KnownRejected (tr : List (BidOp × BidChoice)) : Prop :=
  ∃ record ∈ (tr.filterMap answer?).getLast?, record.status = .rejected

/-- A cancellation of the bid is sent to `d`. -/
def isCancelOf (bidId : BidId) (d : NodeId) : Op × Choice → Bool
  | (.cancelReservation b destination _, _) => b = bidId ∧ destination = d
  | _ => false

/-- The journal of the node has an open record for the bid, which reconciliation resolves. -/
def Unresolved (n : NodeId) (bidId : BidId) (w : World) : Prop :=
  ∃ record ∈ (w.nodes n).journal, record.bidId = bidId ∧ record.status.isTerminal = false

/-- After a call that did `tr` and ended in `v`, nothing that the bid reserves is forgotten. -/
def GivenBack (n : NodeId) (bid : BidRequest) (tr : List (BidOp × BidChoice)) (v : World) : Prop :=
  Committed (nodeSteps tr) ∨ Unresolved n bid.bidId v ∨ KnownRejected tr ∨
    ∃ x ∈ nodeSteps tr, isCancelOf bid.bidId bid.destinationNodeId x = true

instance (n : NodeId) (bid : BidRequest) (tr : List (BidOp × BidChoice)) (v : World) :
    Decidable (GivenBack n bid tr v) := by
  unfold GivenBack Unresolved KnownRejected
  infer_instance

/-- `migrate` writes its record. -/
def isOpening : Op × Choice → Bool
  | (.journalPut _, c) => !c.isFail
  | _ => false

/-- The call gets as far as `migrate`'s `try` block: the bid was accepted in time, the node owned
the task, and its journal took the record. -/
def Opened (tr : List (BidOp × BidChoice)) : Prop := ∃ x ∈ nodeSteps tr, isOpening x = true

instance (tr : List (BidOp × BidChoice)) : Decidable (Opened tr) :=
  inferInstanceAs (Decidable (∃ x ∈ nodeSteps tr, _))

/-! ## What `migrate` gives back -/

section

variable {services : Services} {n : NodeId} {R : World → World → Prop} {w v : World}
  {tr tr' : List (Op × Choice)} {call : MigrateCall} {original : TaskRuntimeState}
  {bindings : List ArtifactBinding} {r : Except Exn Bool}

/-- The destination has said that it activated the task, or its reservation is cancelled. -/
def Released (call : MigrateCall) (tr : List (Op × Choice)) : Prop :=
  Committed tr ∨ ∃ x ∈ tr, isCancelOf call.bidId call.destinationNodeId x = true

theorem Released.mono (h : Released call tr) (sub : tr ⊆ tr') : Released call tr' := by
  rcases h with ⟨x, mem, answer⟩ | ⟨x, mem, cancel⟩
  · exact .inl ⟨x, sub mem, answer⟩
  · exact .inr ⟨x, sub mem, cancel⟩

theorem Released.append_left (h : Released call tr) : Released call (tr ++ tr') :=
  h.mono (List.subset_append_left tr tr')

theorem Released.append_right (h : Released call tr) : Released call (tr' ++ tr) :=
  h.mono (List.subset_append_right tr' tr)

/-- Whatever the block does, its `finally` cancels the reservation. -/
theorem withCleanup_released {p : Async Bool}
    (h : Reach (exec n) R (MigrationService.withCleanup call false p) w tr (.done r) v) :
    Released call tr := by
  obtain ⟨a, tr₁, tr₂, u, rfl, -, rest⟩ := h.andThen_done
  obtain ⟨b, tr₂, tr₃, u', rfl, cleanup, -⟩ := rest.andThen_done
  obtain ⟨c, tr₂, a', u₁, u₂, rfl, -, -, -⟩ := cleanup.perform_done
  refine .append_right (.inr ⟨_, List.mem_cons_self, ?_⟩)
  simp [isCancelOf]

/-- An outcome that shows the activation comes from an answer to a poll. -/
theorem committed_of_confirms
    (h : MigrationService.confirmsActivation
      (MigrationService.resolve (MigrationService.polls tr) (none, false)) = true) :
    Committed tr := by
  rw [MigrationService.resolve_eq] at h
  cases last : (MigrationService.polls tr).getLast? with
  | none =>
      rw [last] at h
      cases h
  | some a =>
      obtain ⟨x, mem, answer⟩ := List.mem_filterMap.mp (List.mem_of_getLast? last)
      refine ⟨x, mem, ?_⟩
      rw [last] at h
      cases a with
      | record record =>
          obtain ⟨o, c⟩ := x
          cases o with
          | awaitStatus d m =>
              cases c with
              | answer shown =>
                  cases shown <;> cases answer
                  exact h
              | _ => cases answer
          | _ => cases answer
      | _ => cases h

theorem resolveOutcome_released {e : Exn} {d : NodeId} {m : MigrationId}
    {outcome : Option MigrationRecord × Bool} {u : World} {tr₁ tr₂ : List (Op × Choice)}
    (polled : Reach (exec n) R (MigrationService.queryRemoteOutcome d m) w tr₁
      (.done (.ok outcome)) u)
    (h : Reach (exec n) R
      (MigrationService.resolveOutcome services n call original bindings e outcome) u tr₂
      (.done r) v) : Released call (tr₁ ++ tr₂) := by
  unfold MigrationService.resolveOutcome at h
  split_ifs at h with activated none_
  · obtain ⟨-, -, result⟩ := MigrationService.queryRemoteOutcome_trace polled
    cases result _ rfl
    exact .append_left (.inl (committed_of_confirms activated))
  · exact (withCleanup_released h).append_right
  · exact (withCleanup_released h).append_right

theorem onMigrateError_released {sourceWasStopped : Bool} {e : Exn}
    (h : Reach (exec n) R (MigrationService.onMigrateError services n call original bindings
      sourceWasStopped false e) w tr (.done r) v) : Released call tr := by
  unfold MigrationService.onMigrateError at h
  split at h
  · rw [MigrationService.outcomeUnknown_eq] at h
    obtain ⟨c, tr, a, u, u', rfl, -, -, h⟩ := h.perform_done
    refine Released.mono ?_ (List.subset_cons_self _ tr)
    cases a with
    | error e' => exact withCleanup_released h
    | ok _ =>
        obtain ⟨a, tr₁, tr₂, u₁, rfl, polled, rest⟩ := Reach.andThen_done h
        cases a with
        | error e' => exact (withCleanup_released rest).append_right
        | ok outcome => exact resolveOutcome_released polled rest
  · exact withCleanup_released h

/-- From the `try` block on, whichever step fails. -/
theorem quiesce_released
    (h : Reach (exec n) R ((MigrationService.quiesce services call).attempt
      (fun
        | none => MigrationService.withCleanup call false (pure false)
        | some bindings =>
            (MigrationService.handOver services n call original bindings).attempt
              (fun _ =>
                (MigrationService.commit services call original bindings).attempt
                  (fun activated => MigrationService.withCleanup call true (pure activated))
                  (MigrationService.onMigrateError services n call original bindings true true))
              (MigrationService.onMigrateError services n call original bindings true false))
      (MigrationService.onMigrateError services n call original [] false false)) w tr (.done r) v) :
    Released call tr := by
  obtain ⟨a, tr₁, tr₂, u, rfl, -, rest⟩ := h.andThen_done
  refine Released.append_right ?_
  cases a with
  | error e => exact onMigrateError_released rest
  | ok prefetched =>
      cases prefetched with
      | none => exact withCleanup_released rest
      | some bindings =>
          obtain ⟨a, tr₂, tr₃, u', rfl, handing, rest⟩ := Reach.andThen_done rest
          rcases MigrationService.handOver_trace handing with
            ⟨pre, x, rfl, direct, -, -⟩ | ⟨-, failed⟩
          · have answer : MigrationService.isCommitAnswer x = true := by
              by_contra other
              rw [MigrationService.not_direct_of_not_commit (Bool.eq_false_of_not_eq_true other)]
                at direct
              cases direct
            exact .append_left (.inl ⟨x, by simp, answer⟩)
          · cases a with
            | ok _ => exact absurd rfl failed
            | error e => exact (onMigrateError_released rest).append_right

/-- A step of `migrate` before its record is written. -/
def isEarly : Op × Choice → Bool
  | (.getState, _) => true
  | (.journalPut _, c) => c.isFail
  | _ => false

/-- `migrate` gives back what its call names once it has written its record, and before that does
nothing. -/
theorem migrate_releases (h : Reach (exec n) R (migrate services n call) w tr (.done r) v) :
    (∀ x ∈ tr, isEarly x = true) ∨
      (∃ x ∈ tr, isOpening x = true) ∧ Released call tr := by
  obtain ⟨c, tr, a, u, u', rfl, -, -, h⟩ := h.perform_done
  cases a with
  | error e =>
      obtain ⟨rfl, -, -⟩ := h.done_inv
      exact .inl (by simp [isEarly])
  | ok original =>
      dsimp only [andThen_done] at h
      split at h
      · obtain ⟨rfl, -, -⟩ := h.done_inv
        exact .inl (by simp [isEarly])
      obtain ⟨c', tr, a, u₁, u₂, rfl, -, put, h⟩ := h.perform_done
      cases a with
      | error e =>
          obtain ⟨rfl, -, -⟩ := h.done_inv
          rcases exec_journalPut put with ⟨⟨e', rfl, -⟩, -⟩ | ⟨ended, -⟩
          · exact .inl (by simp [isEarly, Choice.isFail])
          · cases ended
      | ok _ =>
          have written : c'.isFail = false := isFail_of_returned (x := (_, c')) ⟨u₁, _, u₂, put⟩
          refine .inr ⟨⟨_, List.mem_cons_of_mem _ List.mem_cons_self, ?_⟩, ?_⟩
          · simp [isOpening, written]
          · exact (quiesce_released h).mono fun _ mem =>
              List.mem_cons_of_mem _ (List.mem_cons_of_mem _ mem)

end

/-! ## The bid -/

section

variable {services : Services} {n : NodeId} {bid : BidRequest} {R : World → World → Prop}
  {w v : World} {tr tr' : List (BidOp × BidChoice)} {α : Type}

/-- The destination files the bid under its id, and the node has no record of it yet. -/
structure Fresh (n : NodeId) (bid : BidRequest) (w : World) : Prop where
  keyed : ∀ record, (w.nodes bid.destinationNodeId).bids bid.bidId = some record →
    record.bidId = bid.bidId
  unrecorded : ∀ record ∈ (w.nodes n).journal, record.bidId ≠ bid.bidId

theorem Fresh.star (fresh : Fresh n bid w) (kept : ∀ w v, R w v → Fresh n bid w → Fresh n bid v)
    (steps : Relation.ReflTransGen R w v) : Fresh n bid v := by
  induction steps with
  | refl => exact fresh
  | tail _ step ih => exact kept _ _ step ih

theorem Fresh.setBids {f : Bids → Bids} (fresh : Fresh n bid w)
    (keyed : ∀ record, f (w.nodes bid.destinationNodeId).bids bid.bidId = some record →
      record.bidId = bid.bidId) :
    Fresh n bid (w.modify bid.destinationNodeId fun s => { s with bids := f s.bids }) where
  keyed record found := by
    rw [World.modify_self] at found
    exact keyed record found
  unrecorded record mem := by
    rw [World.modify_nodes] at mem
    refine fresh.unrecorded record ?_
    split at mem <;> exact mem

theorem served_fresh {bids : Timestamp → Bids} {c : BidChoice} {r : Except Exn BidRecord}
    (fresh : Fresh n bid w)
    (keyed : ∀ now record, bids now bid.bidId = some record → record.bidId = bid.bidId)
    (h : served w bid.destinationNodeId bids bid.bidId c = some (r, v)) :
    Fresh n bid v ∧ ∀ record, r = .ok record → record.bidId = bid.bidId := by
  cases c with
  | answered now record =>
      simp only [served] at h
      split at h
      · rename_i found
        cases h
        refine ⟨fresh.setBids (f := fun _ => bids now) (keyed now), fun record eq => ?_⟩
        cases eq
        exact keyed now record found
      · cases h
  | unanswered now e =>
      cases h
      exact ⟨fresh.setBids (f := fun _ => bids now) (keyed now), by simp⟩
  | fail e =>
      cases h
      exact ⟨fresh, by simp⟩
  | _ => cases h

theorem submit_fresh {c : BidChoice} {r : Except Exn BidRecord} (fresh : Fresh n bid w)
    (h : bidExec n (.submit bid) c w = some (r, v)) :
    Fresh n bid v ∧ ∀ record, r = .ok record → record.bidId = bid.bidId := by
  refine served_fresh fresh (fun now record found => ?_) h
  cases existing : (w.nodes bid.destinationNodeId).bids bid.bidId with
  | some old =>
      simp only [Bids.submit, Bidding.BidRecord.ofRequest, existing] at found
      exact fresh.keyed record (existing.trans found)
  | none =>
      simp only [Bids.submit, Bidding.BidRecord.ofRequest, existing, Bids.set, if_true,
        Option.some.injEq] at found
      rw [← found]

theorem expireRecord_bidId {now : Timestamp} {record : BidRecord} :
    (Bids.expireRecord now record).bidId = record.bidId := by
  unfold Bids.expireRecord
  split
  · rfl
  · split <;> rfl

theorem poll_fresh {c : BidChoice} {r : Except Exn BidRecord} (fresh : Fresh n bid w)
    (h : bidExec n (.poll bid.destinationNodeId bid.bidId) c w = some (r, v)) :
    Fresh n bid v ∧ ∀ record, r = .ok record → record.bidId = bid.bidId := by
  refine served_fresh fresh (fun now record found => ?_) h
  obtain ⟨old, existing, rfl⟩ := Option.map_eq_some_iff.mp found
  exact expireRecord_bidId.trans (fresh.keyed old existing)

theorem nodeSteps_append : nodeSteps (tr ++ tr') = nodeSteps tr ++ nodeSteps tr' :=
  List.filterMap_append

/-- Waiting for the decision does nothing at the node; the answer is about the bid. -/
theorem waitForDecision_run {polls : Nat} {record : BidRecord} {r : Except Exn BidRecord}
    (kept : ∀ w v, R w v → Fresh n bid w → Fresh n bid v) (fresh : Fresh n bid w)
    (named : record.bidId = bid.bidId)
    (h : Reach (bidExec n) R (waitForDecision bid polls record) w tr (.done r) v) :
    nodeSteps tr = [] ∧ Fresh n bid v ∧ ∀ record, r = .ok record → record.bidId = bid.bidId := by
  induction polls generalizing record w tr with
  | zero =>
      unfold waitForDecision at h
      split at h
      · obtain ⟨rfl, ended, steps⟩ := h.done_inv
        cases ended
        exact ⟨rfl, fresh.star kept steps, by simp⟩
      · obtain ⟨rfl, ended, steps⟩ := h.done_inv
        cases ended
        refine ⟨rfl, fresh.star kept steps, fun record eq => ?_⟩
        cases eq
        exact named
  | succ polls ih =>
      unfold waitForDecision at h
      split at h
      · obtain ⟨c, tr, a, u, u', rfl, steps, asked, h⟩ := h.perform_done
        obtain ⟨fresh', named'⟩ := poll_fresh (fresh.star kept steps) asked
        cases a with
        | error e =>
            obtain ⟨rfl, ended, steps⟩ := h.done_inv
            cases ended
            exact ⟨rfl, fresh'.star kept steps, by simp⟩
        | ok record =>
            have rest := ih fresh' (named' record rfl) h
            exact rest
      · obtain ⟨rfl, ended, steps⟩ := h.done_inv
        cases ended
        refine ⟨rfl, fresh.star kept steps, fun record eq => ?_⟩
        cases eq
        exact named

theorem submitAndWait_run {r : Except Exn BidRecord}
    (kept : ∀ w v, R w v → Fresh n bid w → Fresh n bid v) (fresh : Fresh n bid w)
    (h : Reach (bidExec n) R (submitAndWait bid) w tr (.done r) v) :
    nodeSteps tr = [] ∧ Fresh n bid v ∧ ∀ record, r = .ok record → record.bidId = bid.bidId := by
  obtain ⟨c, tr, a, u, u', rfl, steps, begun, h⟩ := h.perform_done
  have same : u' = u := by
    cases c <;> cases begun <;> rfl
  subst same
  have fresh' := fresh.star kept steps
  cases a with
  | error e =>
      obtain ⟨rfl, ended, steps⟩ := h.done_inv
      cases ended
      exact ⟨rfl, fresh'.star kept steps, by simp⟩
  | ok polls =>
      obtain ⟨c, tr, a, u, u', rfl, steps, sent, h⟩ := h.perform_done
      obtain ⟨fresh'', named⟩ := submit_fresh (fresh'.star kept steps) sent
      cases a with
      | error e =>
          obtain ⟨rfl, ended, steps⟩ := h.done_inv
          cases ended
          exact ⟨rfl, fresh''.star kept steps, by simp⟩
      | ok record =>
          have waiting := waitForDecision_run kept fresh'' (named record rfl) h
          exact waiting

/-! ## The whole call -/

theorem inCall_run {p : Async α} {r : Except Exn α}
    (h : Reach (bidExec n) R (p.implement inCall) w tr (.done r) v) :
    ∃ tr', nodeSteps tr = tr' ∧ Reach (exec n) R p w tr' (.done r) v := by
  induction p generalizing w tr with
  | done a =>
      obtain ⟨rfl, ended, steps⟩ := h.done_inv
      cases ended
      exact ⟨[], rfl, .rely_star steps .refl⟩
  | perform o k ih =>
      obtain ⟨c, tr, a, u, u', rfl, steps, step, going⟩ := Reach.perform_done h
      cases c with
      | node c =>
          obtain ⟨tr', eq, rest⟩ := ih a going
          refine ⟨(o, c) :: tr', ?_, .rely_star steps (.perform step rest)⟩
          rw [← eq]
          rfl
      | _ => cases step

theorem early_same {o : Op} {c : Choice} {r : Except Exn o.Ret} (early : isEarly (o, c) = true)
    (h : exec n o c w = some (r, v)) : v = w := by
  cases o with
  | getState =>
      rcases exec_cases h with ⟨-, -, -, -, rfl⟩ | h
      · rfl
      · cases c <;> cases h
        rfl
  | journalPut record =>
      cases c with
      | fail e => exact (exec_fail h).2.1
      | _ => cases early
  | _ => cases early

theorem early_fresh {p q : Async α} {tr : List (Op × Choice)}
    (kept : ∀ w v, R w v → Fresh n bid w → Fresh n bid v) (fresh : Fresh n bid w)
    (h : Reach (exec n) R p w tr q v) (early : ∀ x ∈ tr, isEarly x = true) : Fresh n bid v := by
  induction h with
  | refl => exact fresh
  | rely step _ ih => exact ih (kept _ _ step fresh) early
  | perform step _ ih =>
      obtain ⟨first, rest⟩ := List.forall_mem_cons.mp early
      cases early_same first step
      exact ih fresh rest

/-- A part of a call that only looks at the state. -/
def Looks (p : BidAsync α) : Prop := p.Performs (· = .node .getState)

theorem looks_run {p q : BidAsync α} (looks : Looks p)
    (h : Reach (bidExec n) R p w tr q v) : ∀ x ∈ nodeSteps tr, isEarly x = true := by
  intro x mem
  obtain ⟨⟨o, c⟩, mem, eq⟩ := List.mem_filterMap.mp mem
  cases h.performs looks _ mem
  cases c with
  | node c =>
      cases eq
      rfl
  | _ => cases eq

theorem looks_fresh {p q : BidAsync α} (kept : ∀ w v, R w v → Fresh n bid w → Fresh n bid v)
    (fresh : Fresh n bid w) (looks : Looks p) (h : Reach (bidExec n) R p w tr q v) :
    Fresh n bid v := by
  induction h with
  | refl => exact fresh
  | rely step _ ih => exact ih (kept _ _ step fresh) looks
  | @perform o k c w r w' tr q v step _ ih =>
      cases looks.1
      refine ih ?_ (looks.2 _)
      cases c with
      | node c =>
          cases early_same (o := .getState) (c := c) rfl step
          exact fresh
      | _ => cases step

/-- A call that did nothing but look gives its bid back only by knowing that it is rejected. -/
theorem idle_givenBack_iff (fresh : Fresh n bid v) (early : ∀ x ∈ nodeSteps tr, isEarly x = true) :
    GivenBack n bid tr v ↔ KnownRejected tr ∨ Opened tr := by
  have quiet : ∀ x, isEarly x = true → MigrationService.isCommitAnswer x = false ∧
      isCancelOf bid.bidId bid.destinationNodeId x = false ∧ isOpening x = false := by
    rintro ⟨o, c⟩ early
    cases o with
    | getState => exact ⟨rfl, rfl, rfl⟩
    | journalPut record => exact ⟨rfl, rfl, by simpa [isOpening, isEarly] using early⟩
    | _ => cases early
  constructor
  · rintro (⟨x, mem, answer⟩ | ⟨record, mem, named, -⟩ | rejected | ⟨x, mem, cancel⟩)
    · simp [(quiet x (early x mem)).1] at answer
    · exact absurd named (fresh.unrecorded record mem)
    · exact .inl rejected
    · simp [(quiet x (early x mem)).2.1] at cancel
  · rintro (rejected | ⟨x, mem, opening⟩)
    · exact .inr (.inr (.inl rejected))
    · simp [(quiet x (early x mem)).2.2] at opening

theorem bidAndMigrate_givenBack_iff {migrationAtUtc : Timestamp} {migrationId : MigrationId}
    {finish : BidRecord → Option Bool → BidAsync α} {r : Except Exn α}
    (looks : ∀ result migrated, Looks (finish result migrated))
    (kept : ∀ w v, R w v → Fresh n bid w → Fresh n bid v) (fresh : Fresh n bid w)
    (h : Reach (bidExec n) R (bidAndMigrate services n bid migrationAtUtc migrationId finish) w tr
      (.done r) v) : GivenBack n bid tr v ↔ KnownRejected tr ∨ Opened tr := by
  obtain ⟨a, tr₁, tr₂, u, rfl, bidding, rest⟩ := Reach.andThen_done h
  obtain ⟨none_, fresh', named⟩ := submitAndWait_run kept fresh bidding
  cases a with
  | error e =>
      obtain ⟨rfl, -, steps⟩ := rest.done_inv
      refine idle_givenBack_iff (fresh'.star kept steps) ?_
      simp [none_]
  | ok result =>
      dsimp only [onDecision] at rest
      split at rest
      · obtain ⟨a, tr₂, tr₃, u', rfl, migrating, rest⟩ := Reach.andThen_done rest
        obtain ⟨_, rfl, migrating⟩ := inCall_run migrating
        have finishing : (∀ x ∈ nodeSteps tr₃, isEarly x = true) ∧
            (Fresh n bid u' → Fresh n bid v) := by
          cases a with
          | error e =>
              obtain ⟨rfl, -, steps⟩ := rest.done_inv
              exact ⟨by simp [nodeSteps], fun fresh => fresh.star kept steps⟩
          | ok migrated =>
              exact ⟨looks_run (looks _ _) rest,
                fun fresh => looks_fresh kept fresh (looks _ _) rest⟩
        rcases migrate_releases migrating with early | ⟨opened, released⟩
        · refine idle_givenBack_iff (finishing.2 (early_fresh kept fresh' migrating early)) ?_
          rw [nodeSteps_append, nodeSteps_append, none_, List.nil_append]
          exact List.forall_mem_append.mpr ⟨early, finishing.1⟩
        · -- the bid of the call of `migrate` is the one that was submitted
          have sub : nodeSteps tr₂ ⊆ nodeSteps (tr₁ ++ (tr₂ ++ tr₃)) := by
            rw [nodeSteps_append, nodeSteps_append]
            exact List.subset_append_of_subset_right _ (List.subset_append_left _ _)
          obtain ⟨x, mem, opens⟩ := opened
          refine iff_of_true ?_ (.inr ⟨x, sub mem, opens⟩)
          rcases released with ⟨x, mem, answer⟩ | ⟨x, mem, cancel⟩
          · exact .inl ⟨x, sub mem, answer⟩
          · refine .inr (.inr (.inr ⟨x, sub mem, ?_⟩))
            rw [← named result rfl]
            exact cancel
      · refine idle_givenBack_iff (looks_fresh kept fresh' (looks _ _) rest) ?_
        rw [nodeSteps_append, none_, List.nil_append]
        exact looks_run (looks _ _) rest

/-- A bid is given back at the end of an evaluation or of an operator's request exactly if it is
known to be rejected or `migrate` has begun with it. -/
theorem bid_givenBack_iff {migrationAtUtc : Timestamp} {migrationId : MigrationId}
    (kept : ∀ w v, R w v → Fresh n bid w → Fresh n bid v) (fresh : Fresh n bid w) :
    (∀ tr r v, Reach (bidExec n) R (evaluateTask services n bid migrationAtUtc migrationId) w tr
        (.done r) v → (GivenBack n bid tr v ↔ KnownRejected tr ∨ Opened tr)) ∧
      ∀ tr r v, Reach (bidExec n) R (requestMigration services n bid migrationAtUtc migrationId) w
        tr (.done r) v → (GivenBack n bid tr v ↔ KnownRejected tr ∨ Opened tr) := by
  refine ⟨fun tr r v h => bidAndMigrate_givenBack_iff (fun _ _ => .pure _) kept fresh h,
    fun tr r v h => bidAndMigrate_givenBack_iff (fun _ migrated => ?_) kept fresh h⟩
  cases migrated with
  | none => exact .pure _
  | some migrated => exact .bind (.op rfl) fun _ => .pure _

theorem keyed_decide {ttl : Nat} {accept : Bool} {reason : String} {now : Timestamp} {bids : Bids}
    {b : BidId} (keyed : ∀ record, bids b = some record → record.bidId = b) {record : BidRecord}
    (found : bids.decide ttl b accept reason now b = some record) : record.bidId = b := by
  have expired : ∀ record, bids.expireLocked now b = some record → record.bidId = b := by
    intro record found
    obtain ⟨old, existing, rfl⟩ := Option.map_eq_some_iff.mp found
    exact expireRecord_bidId.trans (keyed old existing)
  cases existing : bids.expireLocked now b with
  | none =>
      simp only [Bids.decide, existing] at found
      exact expired record (existing.trans found)
  | some old =>
      have same := expired old existing
      simp only [Bids.decide, existing] at found
      split_ifs at found
      · exact expired record found
      · simp only [Bids.set, if_true, Option.some.injEq] at found
        rw [← found]
        exact same
      · simp only [Bids.set, if_true, Option.some.injEq] at found
        rw [← found]
        exact same

end

/-! ## A bid that times out -/

def sampleBid : BidRequest where
  bidId := "bid2"
  epochId := "t:0"
  taskId := "t"
  sourceNodeId := "a"
  destinationNodeId := "b"
  candidateScore := 0
  submittedAtUtc := 0

def pendingRecord : BidRecord := (Bidding.BidRecord.ofRequest sampleBid 0).lease

/-- The destination has filed the bid. -/
def biddenWorld : World :=
  (sampleWorld .running []).modify "b" fun s => { s with
    bids := ((sampleWorld .running []).nodes "b").bids.submit pendingRecord }

/-- The arbiter of the destination accepts the bid. -/
def accepted (w : World) : World :=
  w.modify "b" fun s => { s with bids := s.bids.decide 30 "bid2" true "rank 1" 1 }

def Arbitrates (w v : World) : Prop := v = accepted w

def acceptedRecord : BidRecord := { pendingRecord with
  status := .accepted
  decidedAtUtc := some 1
  decisionReason := some "rank 1"
  reservationExpiresAtUtc := some 31 }

/-- The bid is pending when the deadline passes: the call raises and sends nothing more, and then
the destination accepts the bid and reserves its capacity. -/
theorem pendingBid_abandoned : ∃ tr q v,
    Reach (bidExec "a") (fun _ _ => False) (evaluateTask bareServices "a" sampleBid 0 "m")
      (sampleWorld .running []) tr q v ∧
    q.outcome? = some (.error (timedOut sampleBid)) ∧ ¬ GivenBack "a" sampleBid tr v ∧
    ((accepted v).nodes "b").bids "bid2" = some acceptedRecord :=
  exists_reach_of_replay [.polls 1, .answered 0 pendingRecord, .answered 0 pendingRecord]
    (by decide)

/-- The prefetch fails, and the bid that was accepted is cancelled. -/
theorem failedPrefetch_givesBack : ∃ tr v,
    Reach (bidExec "a") Arbitrates (evaluateTask bareServices "a" sampleBid 0 "m")
      (sampleWorld .running []) tr (.done (.ok ())) v ∧
    Opened tr ∧ (GivenBack "a" sampleBid tr v ↔ KnownRejected tr ∨ Opened tr) := by
  have decided : ∃ tr q v, Reach (bidExec "a") Arbitrates
      (waitForDecision sampleBid 1 pendingRecord >>=
        onDecision bareServices "a" sampleBid 0 "m" fun _ _ => pure ())
      (accepted biddenWorld) tr q v ∧
      q.outcome? = some (.ok ()) ∧ Opened tr :=
    exists_reach_of_replay ([.answered 1 acceptedRecord] ++ [.ok 0, .ok 0, .fail storeFull, .ok 0,
      .ok 0].map .node) (by decide)
  obtain ⟨tr, q, v, rest, ended, opened⟩ := decided
  cases Coro.eq_done ended
  have kept : ∀ w v, Arbitrates w v → Fresh "a" sampleBid w → Fresh "a" sampleBid v := by
    rintro w _ rfl fresh
    exact fresh.setBids (f := (Bids.decide 30 "bid2" true "rank 1" 1 ·)) fun _ =>
      keyed_decide fresh.keyed
  have fresh : Fresh "a" sampleBid (sampleWorld .running []) :=
    ⟨fun _ found => (by cases found), by decide⟩
  have decides : Arbitrates biddenWorld (accepted biddenWorld) := rfl
  have sent : bidExec "a" (.submit sampleBid) (.answered 0 pendingRecord)
      (sampleWorld .running []) = some (.ok pendingRecord, biddenWorld) := by
    simp only [bidExec, served]
    exact if_pos rfl
  have run : Reach (bidExec "a") Arbitrates (evaluateTask bareServices "a" sampleBid 0 "m")
      (sampleWorld .running [])
      ((.deadline, .polls 1) :: (.submit sampleBid, .answered 0 pendingRecord) :: tr)
      (.done (.ok ())) v := .perform rfl (.perform sent (.rely decides rest))
  exact ⟨_, v, run, opened, (bid_givenBack_iff kept fresh).1 _ _ _ run⟩

end Magellan.SchedulerService
