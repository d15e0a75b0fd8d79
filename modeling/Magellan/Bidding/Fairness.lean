import Magellan.Data.Turns
import Magellan.Bidding.Admission
import Magellan.Bidding.Lifecycle

/-!
# Turns under credit_fair

A pass that decides on one bid of each of `n` tasks for one free slot is a round in which a task with
the greatest credit wins.
-/

namespace Magellan.Bidding

open Registry BidStore

/-! ## A pass as operations of the store -/

section

variable {a : BidArbiter} {registry : List TaskEntry} {clock : Clock} {now : Timestamp}

theorem runAll_append (first second : List Operation) (s : BidStore) :
    runAll (first ++ second) s = runAll second (runAll first s) := List.foldl_append

theorem decideAll_operations (a : BidArbiter) (now : Timestamp) (credits : Dict TaskId Rat) (rank : Nat) (positive : 1 ≤ rank)
    (items : List RankedBid) (x : Admission) (s : BidStore) :
    ∃ operations, (∀ o ∈ operations, o.Admitted) ∧
      (a.decideAll now credits rank items x s).2 = runAll operations s := by
  induction items generalizing rank x s with
  | nil => exact ⟨[], by simp, rfl⟩
  | cons item items ih =>
      obtain ⟨operations, admitted, same⟩ := ih (rank + 1) (by omega)
        (a.decideBid now credits rank item x s).1 (a.decideBid now credits rank item x s).2
      let v := a.verdict x item.bid
      refine ⟨.decide item.bid.bidId v.status v.reason now (a.details credits rank item v) ::
        operations, List.forall_mem_cons.mpr ⟨?_, admitted⟩, ?_⟩
      · simpa [Operation.Admitted, BidArbiter.details] using positive
      · rw [BidArbiter.decideAll_cons, same]
        rfl

theorem printed_operations (printed : List Timestamp) (s : BidStore) :
    printed.foldl (fun s now => (s.expireLocked now).2) s =
      runAll (printed.map .expireReservations) s := by
  induction printed generalizing s with
  | nil => rfl
  | cons now printed ih => exact ih _

theorem decideWindow_operations (a : BidArbiter) (registry : List TaskEntry) (clock : Clock)
    (bids : List BidRecord) (s : BidStore) :
    ∃ operations, (∀ o ∈ operations, o.Admitted) ∧
      (a.decideWindow registry clock bids s).2 = runAll operations s := by
  obtain ⟨decisions, admitted, same⟩ := decideAll_operations a clock.now s.credits 1
    (le_refl 1) (rankBids bids a.strategy s.credits a.nodeResources a.auctionPolicy clock.now)
    (a.availableResources registry (s.activeReservations clock.reservations).1)
    (s.activeReservations clock.reservations).2
  let admission := (a.decideWindow registry clock bids s).1.admission
  refine ⟨.activeReservations clock.reservations :: decisions ++
    .applyCreditOutcomes (admission.accepted.map (·.bidId))
      (admission.competitionRejected.map (·.bidId)) a.auctionPolicy.creditIncrement
      a.auctionPolicy.creditMax a.auctionPolicy.acceptedCreditDecay ::
    clock.printed.map .expireReservations, ?_, ?_⟩
  · intro o member
    simp only [List.cons_append, List.mem_cons, List.mem_append, List.mem_map] at member
    rcases member with rfl | member | rfl | ⟨now, -, rfl⟩
    · trivial
    · exact admitted o member
    · exact ⟨a.auctionPolicy.creditIncrement_pos, a.auctionPolicy.creditMax_pos⟩
    · trivial
  · unfold BidArbiter.decideWindow
    dsimp only
    rw [printed_operations, same, runAll_append]
    rfl

theorem runOnce_operations (a : BidArbiter) (registry : List TaskEntry) (clock : Clock)
    (s : BidStore) : ∃ operations, (∀ o ∈ operations, o.Admitted) ∧
    (a.runOnce registry clock s).store = runAll operations s := by
  have opened : BidArbiter.opened clock s =
      runAll [.expireReservations clock.now, .pendingRecords clock.pending] s := rfl
  cases decided : (a.runOnce registry clock s).auction with
  | none =>
      refine ⟨[.expireReservations clock.now, .pendingRecords clock.pending],
        by simp [Operation.Admitted], ?_⟩
      rw [← opened]
      unfold BidArbiter.runOnce at decided ⊢
      dsimp only at decided ⊢
      split at decided
      case h_1 => rfl
      case h_2 => cases decided
  | some auction =>
      obtain ⟨bids, -, window⟩ := BidArbiter.runOnce_decides decided
      obtain ⟨operations, admitted, same⟩ := decideWindow_operations a registry clock bids
        (BidArbiter.opened clock s)
      refine ⟨.expireReservations clock.now :: .pendingRecords clock.pending :: operations, ?_, ?_⟩
      · simpa [Operation.Admitted] using admitted
      · rw [window] at same
        exact same

theorem sound_runOnce {s : BidStore} (h : s.Sound) : (a.runOnce registry clock s).store.Sound := by
  obtain ⟨operations, admitted, same⟩ := runOnce_operations a registry clock s
  rw [same]
  exact sound_runAll admitted h

end

/-! ## The credits of a pass -/

section

variable {a : BidArbiter} {registry : List TaskEntry} {clock : Clock} {s : BidStore}
  {now : Timestamp} {bidId : BidId}

def BidStore.task? (s : BidStore) (bidId : BidId) : Option TaskId :=
  (s.records.get? bidId).map (·.taskId)

theorem task_expireLocked : (s.expireLocked now).2.task? bidId = s.task? bidId := by
  unfold task?
  rw [get?_expireLocked, Option.map_map]
  congr 1
  funext r
  simp only [Function.comp_apply, BidRecord.expired]
  split <;> rfl

theorem task_setRecord {b : BidId} {r r' : BidRecord} (found : s.records.get? b = some r)
    (same : r'.taskId = r.taskId) : (s.setRecord b r').task? bidId = s.task? bidId := by
  unfold task? setRecord
  rw [Dict.get?_set]
  split
  case isTrue h => rw [h, found, Option.map_some, Option.map_some, same]
  case isFalse => rfl

theorem task_decide (b : BidId) (status : BidStatus) (reason : String) (details : AuctionDetails) :
    (s.decide b status reason now details).2.task? bidId = s.task? bidId := by
  unfold BidStore.decide
  split
  case isTrue => rfl
  case isFalse =>
    cases found : (s.expireLocked now).2.records.get? b with
    | none => simpa only [found] using task_expireLocked
    | some record =>
        simp only [found]
        split
        case isTrue => exact task_expireLocked
        case isFalse =>
          have same : (decided (s.expireLocked now).2.reservationTtl status reason now details
            record).taskId = record.taskId := rfl
          exact (task_setRecord found same).trans task_expireLocked

theorem credits_decide (b : BidId) (status : BidStatus) (reason : String)
    (details : AuctionDetails) : (s.decide b status reason now details).2.credits = s.credits := by
  unfold BidStore.decide
  split
  case isTrue => rfl
  case isFalse =>
    cases found : (s.expireLocked now).2.records.get? b with
    | none => simpa only [found] using credits_expireLocked
    | some record =>
        simp only [found]
        split <;> exact credits_expireLocked

theorem task_decideAll (now : Timestamp) (bidId : BidId) (credits : Dict TaskId Rat) (rank : Nat) (items : List RankedBid)
    (x : Admission) :
    (a.decideAll now credits rank items x s).2.task? bidId = s.task? bidId ∧
      (a.decideAll now credits rank items x s).2.credits = s.credits := by
  induction items generalizing rank x s with
  | nil => exact ⟨rfl, rfl⟩
  | cons item items ih =>
      have rest := ih (rank + 1) (a.decideBid now credits rank item x s).1
        (s := (a.decideBid now credits rank item x s).2)
      rw [BidArbiter.decideAll_cons]
      exact ⟨rest.1.trans (task_decide _ _ _ _), rest.2.trans (credits_decide _ _ _ _)⟩

theorem credit_creditOutcome {after : Rat → Rat} {t : TaskId} (found : s.task? bidId = some t)
    (t' : TaskId) : (creditOutcome after s bidId).credit t' =
      if t' = t then after (s.credit t) else s.credit t' := by
  obtain ⟨record, stored, rfl⟩ := Option.map_eq_some_iff.mp found
  unfold creditOutcome
  rw [stored]
  simp only [BidStore.credit, Dict.getD, Dict.get?_set]
  split <;> rfl

theorem task_creditOutcome (after : Rat → Rat) (b : BidId) :
    (creditOutcome after s b).task? bidId = s.task? bidId := by
  unfold creditOutcome
  cases found : s.records.get? b with
  | none => rfl
  | some record => exact task_setRecord (s := s) found rfl

theorem credit_showCredit (b : BidId) (t : TaskId) : (showCredit s b).credit t = s.credit t := by
  unfold showCredit
  cases s.records.get? b with
  | none => rfl
  | some record =>
      dsimp only
      split <;> rfl

theorem credit_outcomes {after : Rat → Rat} {bids : List BidRecord}
    (found : ∀ bid ∈ bids, s.task? bid.bidId = some bid.taskId)
    (distinct : (bids.map (·.taskId)).Nodup) (t : TaskId) :
    ((bids.map (·.bidId)).foldl (creditOutcome after) s).credit t =
      if t ∈ bids.map (·.taskId) then after (s.credit t) else s.credit t := by
  induction bids generalizing s with
  | nil => simp
  | cons bid bids ih =>
      rw [List.map_cons, List.nodup_cons] at distinct
      obtain ⟨here, rest⟩ := List.forall_mem_cons.mp found
      have kept : ∀ b ∈ bids, (creditOutcome after s bid.bidId).task? b.bidId = some b.taskId :=
        fun b member => (task_creditOutcome after _).trans (rest b member)
      rw [List.map_cons, List.foldl_cons, ih kept distinct.2, credit_creditOutcome here]
      by_cases same : t = bid.taskId
      · rw [same, if_neg distinct.1, if_pos rfl, if_pos (by simp)]
      · by_cases member : t ∈ bids.map (·.taskId)
        · rw [if_pos member, if_neg same, if_pos (by simp [member])]
        · rw [if_neg member, if_neg same, if_neg (by simp [member, same])]

/-! ## One slot and one bid of each task -/

/-- The node's requirements on a bid that do not depend on the other bids. -/
def Eligible (a : BidArbiter) (bid : BidRecord) : Prop :=
  (a.checkCompatibility ((bid.taskContext.map (·.compatibility)).getD {})).compatible ∧
    a.fullLedger.incompatible bid.resourceRequest = none

/-- The auction decides on one eligible bid of each task, for a slot that is free. -/
structure Contested (a : BidArbiter) (tasks : List TaskId) (registry : List TaskEntry)
    (auction : Auction) : Prop where
  bids : (auction.ranked.map (·.bid.taskId)).Perm tasks
  free : countOwned registry a.localNodeId = 0
  unreserved : auction.reservations = []
  eligible : ∀ item ∈ auction.ranked, Eligible a item.bid

/-- The slot is taken, and a bid of another task loses to the one that took it. -/
theorem record_losing {x : Admission} {bid winner : BidRecord} (eligible : Eligible a bid)
    (slots : x.availableSlots = some 0) (accepted : x.accepted = [winner])
    (other : bid.taskId ≠ winner.taskId) :
    x.record bid (a.verdict x bid) =
      { x with competitionRejected := x.competitionRejected ++ [bid] } := by
  have verdict : (a.verdict x bid).status = .rejected ∧ (a.verdict x bid).earnsCredit = true := by
    unfold BidArbiter.verdict
    simp [accepted, other, eligible.1, eligible.2, slots]
  unfold Admission.record
  simp [verdict]

theorem decideAll_losing (now : Timestamp) (s : BidStore) (credits : Dict TaskId Rat) (rank : Nat)
    (items : List RankedBid) {x : Admission} {winner : BidRecord}
    (eligible : ∀ item ∈ items, Eligible a item.bid)
    (slots : x.availableSlots = some 0) (accepted : x.accepted = [winner])
    (others : ∀ item ∈ items, item.bid.taskId ≠ winner.taskId) :
    (a.decideAll now credits rank items x s).1 =
      { x with competitionRejected := x.competitionRejected ++ items.map (·.bid) } := by
  induction items generalizing rank x s with
  | nil => simp [BidArbiter.decideAll]
  | cons item items ih =>
      obtain ⟨eligible_, rest⟩ := List.forall_mem_cons.mp eligible
      obtain ⟨other, others⟩ := List.forall_mem_cons.mp others
      have lost : (a.decideBid now credits rank item x s).1 = _ :=
        record_losing eligible_ slots accepted other
      rw [BidArbiter.decideAll_cons, lost]
      rw [ih _ (rank + 1) rest]
      · simp
      · exact slots
      · exact accepted
      · exact others

theorem record_winning {bid : BidRecord} (slot : a.capacity = some 1)
    (free : countOwned registry a.localNodeId = 0) (eligible : Eligible a bid) :
    ((a.availableResources registry []).record bid
        (a.verdict (a.availableResources registry []) bid)).availableSlots = some 0 ∧
      ((a.availableResources registry []).record bid
        (a.verdict (a.availableResources registry []) bid)).accepted = [bid] ∧
      ((a.availableResources registry []).record bid
        (a.verdict (a.availableResources registry []) bid)).competitionRejected = [] := by
  have owned : ownedResourceRequests registry a.localNodeId = [] := by
    unfold ownedResourceRequests
    rw [List.length_eq_zero_iff.mp free]
    rfl
  have slots : (a.availableResources registry []).availableSlots = some 1 := by
    simp [BidArbiter.availableResources, slot, free]
  have ledger : (a.availableResources registry []).ledger = a.fullLedger := by
    simp [BidArbiter.availableResources, owned, BidArbiter.fullLedger, sumRequests]
  have verdict : (a.verdict (a.availableResources registry []) bid).status = .accepted := by
    unfold BidArbiter.verdict
    simp only [ledger, slots, eligible.2, eligible.1]
    simp [BidArbiter.availableResources]
  unfold Admission.record
  rw [if_pos verdict]
  exact ⟨by simp [slots], by simp [BidArbiter.availableResources], rfl⟩

theorem rankBids_head {bids : List BidRecord} {credits : Dict TaskId Rat}
    {nodeResources : NodeResourceCapacity} {policy : AuctionPolicy} {first : RankedBid}
    {rest : List RankedBid}
    (ranked : rankBids bids .creditFair credits nodeResources policy now = first :: rest) :
    ∀ item ∈ rest, credits.getD item.bid.taskId 0 ≤ credits.getD first.bid.taskId 0 := by
  have sorted := List.pairwise_insertionSort (fun x y : RankedBid => x.sortKey ≤ y.sortKey)
    (bids.map (rankBid .creditFair credits nodeResources policy now))
  have key : ∀ item ∈ first :: rest,
      (ofLex item.sortKey).1 = ((-credits.getD item.bid.taskId 0 : Rat) : WithTop Rat) := by
    intro item member
    rw [← ranked, rankBids, List.mem_insertionSort, List.mem_map] at member
    obtain ⟨bid, -, rfl⟩ := member
    rfl
  unfold rankBids at ranked
  rw [ranked] at sorted
  intro item member
  have order := Prod.Lex.monotone_fst _ _ ((List.pairwise_cons.mp sorted).1 item member)
  simp only [key first List.mem_cons_self, key item (List.mem_cons_of_mem _ member),
    WithTop.coe_le_coe] at order
  exact neg_le_neg_iff.mp order

theorem credit_printed (printed : List Timestamp) (t : TaskId) :
    (printed.foldl (fun s now => (s.expireLocked now).2) s).credit t = s.credit t := by
  induction printed generalizing s with
  | nil => rfl
  | cons now printed ih =>
      rw [List.foldl_cons, ih]
      unfold BidStore.credit
      rw [credits_expireLocked]

theorem credit_shown (bids : List BidId) (t : TaskId) :
    (bids.foldl showCredit s).credit t = s.credit t := by
  induction bids generalizing s with
  | nil => rfl
  | cons b bids ih => rw [List.foldl_cons, ih, credit_showCredit]

theorem task_outcomes (after : Rat → Rat) (bids : List BidId) :
    (bids.foldl (creditOutcome after) s).task? bidId = s.task? bidId := by
  induction bids generalizing s with
  | nil => rfl
  | cons b bids ih => rw [List.foldl_cons, ih, task_creditOutcome]

theorem credit_applyCreditOutcomes {winner : BidRecord} {losers : List BidRecord}
    (found : ∀ bid ∈ winner :: losers, s.task? bid.bidId = some bid.taskId)
    (distinct : ((winner :: losers).map (·.taskId)).Nodup) (increment maximum decay : Rat)
    (t : TaskId) :
    (s.applyCreditOutcomes [winner.bidId] (losers.map (·.bidId)) increment maximum decay).credit t =
      if t = winner.taskId then max 0 (s.credit t * decay)
      else if t ∈ losers.map (·.taskId) then min maximum (s.credit t + increment)
      else s.credit t := by
  obtain ⟨here, rest⟩ := List.forall_mem_cons.mp found
  rw [List.map_cons, List.nodup_cons] at distinct
  unfold applyCreditOutcomes
  show ((_ : List BidId).foldl showCredit _).credit t = _
  rw [credit_shown, credit_outcomes (fun bid member => ?_) distinct.2, List.foldl_cons,
    List.foldl_nil, credit_creditOutcome here]
  · by_cases same : t = winner.taskId
    · rw [if_pos same, if_pos same, if_neg (same ▸ distinct.1), same]
    · rw [if_neg same, if_neg same]
  · rw [List.foldl_cons, List.foldl_nil, task_creditOutcome]
    exact rest bid member

/-- A pass on such bids is a round: a task with the greatest credit wins. -/
theorem round_decideWindow (registry : List TaskEntry) (clock : Clock) {bids : List BidRecord}
    {tasks : List TaskId}
    (strategy : a.strategy = .creditFair) (slot : a.capacity = some 1) (decay : a.auctionPolicy.acceptedCreditDecay = 0)
    (distinct : tasks.Nodup) (some_ : tasks ≠ [])
    (found : ∀ bid ∈ bids, s.task? bid.bidId = some bid.taskId)
    (h : Contested a tasks registry (a.decideWindow registry clock bids s).1) :
    ∃ winner, (a.decideWindow registry clock bids s).1.admission.accepted.map (·.taskId) = [winner] ∧
      Turns.Round tasks a.auctionPolicy.creditIncrement a.auctionPolicy.creditMax winner s.credit
        (a.decideWindow registry clock bids s).2.credit := by
  obtain ⟨same, free, unreserved, eligible⟩ := h
  simp only [BidArbiter.decideWindow] at same unreserved eligible ⊢
  have inStore : ∀ item ∈ rankBids bids a.strategy s.credits a.nodeResources a.auctionPolicy
      clock.now, s.task? item.bid.bidId = some item.bid.taskId := by
    intro item member
    exact found item.bid (rankBids_perm.mem_iff.mp (List.mem_map_of_mem member))
  generalize rankedEq : rankBids bids a.strategy s.credits a.nodeResources a.auctionPolicy
    clock.now = ranked at same eligible inStore ⊢
  rw [unreserved]
  cases ranked with
  | nil => exact absurd same.nil_eq.symm some_
  | cons first rest =>
      obtain ⟨eligible, others⟩ := List.forall_mem_cons.mp eligible
      have tasks_nodup := same.nodup_iff.mpr distinct
      have different : ∀ item ∈ rest, item.bid.taskId ≠ first.bid.taskId := by
        intro item member equal
        rw [List.map_cons, List.nodup_cons] at tasks_nodup
        exact tasks_nodup.1 (equal ▸ List.mem_map_of_mem member)
      obtain ⟨slots, accepted, rejected⟩ := record_winning slot free eligible
      have loop := decideAll_losing clock.now
        (a.decideBid clock.now s.credits 1 first (a.availableResources registry [])
          (s.activeReservations clock.reservations).2).2 s.credits 2 rest others slots accepted
        different
      generalize doneEq : a.decideAll clock.now s.credits 1 (first :: rest)
        (a.availableResources registry []) (s.activeReservations clock.reservations).2 = done
      have admission : done.1 = _ := doneEq ▸ loop
      have winners : done.1.accepted = [first.bid] := by rw [admission, accepted]
      have losers : done.1.competitionRejected = rest.map (·.bid) := by
        rw [admission, rejected, List.nil_append]
      have kept (b : BidId) : done.2.task? b = s.task? b ∧ done.2.credits = s.credits := by
        have decided := task_decideAll (a := a) clock.now b
          (s := (s.activeReservations clock.reservations).2) s.credits 1 (first :: rest)
          (a.availableResources registry [])
        rw [doneEq] at decided
        exact ⟨decided.1.trans task_expireLocked, decided.2.trans credits_expireLocked⟩
      have credit (t : TaskId) : done.2.credit t = s.credit t := by
        unfold BidStore.credit
        rw [(kept "").2]
      have inStore : ∀ bid ∈ first.bid :: rest.map (·.bid),
          done.2.task? bid.bidId = some bid.taskId := by
        intro bid member
        rw [(kept bid.bidId).1]
        have listed : bid ∈ (first :: rest).map (·.bid) := member
        obtain ⟨item, at_, rfl⟩ := List.mem_map.mp listed
        exact inStore item at_
      have bids_nodup : ((first.bid :: rest.map (·.bid)).map (·.taskId)).Nodup := by
        simpa [Function.comp_def] using tasks_nodup
      have after (t : TaskId) := credit_applyCreditOutcomes inStore bids_nodup
        a.auctionPolicy.creditIncrement a.auctionPolicy.creditMax
        a.auctionPolicy.acceptedCreditDecay t
      rw [winners, losers]
      refine ⟨first.bid.taskId, rfl, ?_, ?_, ?_, ?_⟩
      · exact same.mem_iff.mp (by simp)
      · intro t member
        rcases List.mem_cons.mp (same.mem_iff.mpr member) with rfl | member
        · exact le_refl _
        · obtain ⟨item, at_, rfl⟩ := List.mem_map.mp member
          rw [strategy] at rankedEq
          exact rankBids_head rankedEq item at_
      · show (_ : BidStore).credit _ = 0
        rw [credit_printed, List.map_singleton, after, if_pos rfl, decay, mul_zero, max_self]
      · intro t member other
        have loses : t ∈ (rest.map (·.bid)).map (·.taskId) := by
          have listed := same.mem_iff.mpr member
          rw [List.map_cons, List.mem_cons] at listed
          simpa [Function.comp_def] using listed.resolve_left other
        show (_ : BidStore).credit _ = _
        rw [credit_printed, List.map_singleton, after, if_neg other, if_pos loses, credit]

/-! ## Rounds -/

def Operation.KeepsCredits : Operation → Prop
  | .applyCreditOutcomes .. => False
  | _ => True

theorem credits_submit (request : BidRequest) : (s.submit request now).2.credits = s.credits := by
  unfold submit
  cases s.records.get? request.bidId <;> rfl

theorem credits_renew : (s.renew bidId now).2.credits = s.credits := by
  unfold renew
  cases found : (s.expireLocked now).2.records.get? bidId with
  | none => simpa only [found] using credits_expireLocked
  | some record =>
      simp only [found]
      split <;> exact credits_expireLocked

theorem credits_beginActivation (taskId : TaskId) (source destination : NodeId) :
    (s.beginActivation bidId taskId source destination now).2.credits = s.credits := by
  unfold beginActivation
  cases found : (s.expireLocked now).2.records.get? bidId with
  | none => simpa only [found] using credits_expireLocked
  | some record =>
      simp only [found]
      split
      · exact credits_expireLocked
      split <;> exact credits_expireLocked

theorem credits_consume : (s.consume bidId now).2.credits = s.credits := by
  unfold consume
  cases s.records.get? bidId with
  | none => rfl
  | some record =>
      dsimp only
      split <;> rfl

theorem credits_cancel (reason : String) : (s.cancel bidId reason now).2.credits = s.credits := by
  unfold cancel
  cases s.records.get? bidId with
  | none => rfl
  | some record =>
      dsimp only
      split <;> rfl

theorem credit_of_credits {s' : BidStore} (same : s'.credits = s.credits) (t : TaskId) :
    s'.credit t = s.credit t := by
  unfold BidStore.credit
  rw [same]

theorem credit_perform (h : s.Sound) {o : Operation} (keeps : o.KeepsCredits) (t : TaskId) :
    (o.perform s).2.credit t = s.credit t := by
  cases o with
  | submit request now => exact credit_of_credits (credits_submit request) t
  | get | listRecords | pendingRecords | activeReservations | activeReservationCount
  | expireReservations => exact credit_of_credits credits_expireLocked t
  | decide bidId status reason now details =>
      exact credit_of_credits (credits_decide bidId status reason details) t
  | renew => exact credit_of_credits credits_renew t
  | beginActivation bidId taskId source destination now =>
      exact credit_of_credits (credits_beginActivation taskId source destination) t
  | consume => exact credit_of_credits credits_consume t
  | cancel bidId reason now => exact credit_of_credits (credits_cancel reason) t
  | creditsSnapshot => rfl
  | creditFor => rfl
  | applyCreditOutcomes => exact keeps.elim
  | reload =>
      obtain ⟨loaded, performed, -, credits⟩ := reload_eq h
      rw [performed]
      unfold BidStore.credit Dict.getD
      rw [credits]

theorem credit_runAll {operations : List Operation} (h : s.Sound)
    (admitted : ∀ o ∈ operations, o.Admitted) (keeps : ∀ o ∈ operations, o.KeepsCredits)
    (t : TaskId) : (runAll operations s).credit t = s.credit t := by
  induction operations generalizing s with
  | nil => rfl
  | cons o operations ih =>
      obtain ⟨first, rest⟩ := List.forall_mem_cons.mp admitted
      obtain ⟨keep, keeps⟩ := List.forall_mem_cons.mp keeps
      exact (ih (sound_perform h first) rest keeps).trans (credit_perform h keep t)

/-- Passes that each decide on one bid of each task; before each of them the other operations of the
store, a reload from the file among them. The tasks accepted in each pass are listed. -/
inductive Rounds (a : BidArbiter) (tasks : List TaskId) (first : BidStore) :
    List (List TaskId) → BidStore → Prop
  | nil : Rounds a tasks first [] first
  | snoc {accepted : List (List TaskId)} {s : BidStore} {operations : List Operation}
      {registry : List TaskEntry} {clock : Clock} {auction : Auction} :
      Rounds a tasks first accepted s →
      (∀ o ∈ operations, o.Admitted) → (∀ o ∈ operations, o.KeepsCredits) →
      (a.runOnce registry clock (runAll operations s)).auction = some auction →
      Contested a tasks registry auction →
      Rounds a tasks first (accepted ++ [auction.admission.accepted.map (·.taskId)])
        (a.runOnce registry clock (runAll operations s)).store

theorem task_window {bids : List BidRecord} (h : s.Sound)
    (window : a.windowBids clock.now
      ((s.expireReservations clock.now).2.pendingRecords clock.pending).1 = some bids) :
    ∀ bid ∈ bids, (BidArbiter.opened clock s).task? bid.bidId = some bid.taskId := by
  have sound : (BidArbiter.opened clock s).Sound := sound_expireLocked (sound_expireLocked h)
  have listed : ∀ bid ∈ ((s.expireReservations clock.now).2.pendingRecords clock.pending).1,
      bid ∈ (BidArbiter.opened clock s).records.values := by
    intro bid member
    unfold pendingRecords listRecords at member
    rw [List.mem_insertionSort, List.mem_filter, List.mem_insertionSort] at member
    exact member.1
  intro bid member
  have stored := listed bid (by
    unfold BidArbiter.windowBids at window
    split at window
    case h_1 => cases window
    case h_2 =>
      dsimp only at window
      split at window
      case isTrue => cases window
      case isFalse =>
        cases window
        exact (List.mem_filter.mp member).1)
  obtain ⟨key, found⟩ := Dict.mem_values_iff.mp stored
  have same := (sound.records key bid found).key
  unfold task?
  rw [same, found, Option.map_some]

theorem run_of_rounds {tasks : List TaskId} {accepted : List (List TaskId)} {first : BidStore}
    (strategy : a.strategy = .creditFair) (slot : a.capacity = some 1)
    (decay : a.auctionPolicy.acceptedCreditDecay = 0) (distinct : tasks.Nodup)
    (some_ : tasks ≠ []) (sound : first.Sound) (rounds : Rounds a tasks first accepted s) :
    s.Sound ∧ ∃ winners : List TaskId, accepted = winners.map (fun t => [t]) ∧
      Turns.Run tasks a.auctionPolicy.creditIncrement a.auctionPolicy.creditMax winners
        first.credit s.credit := by
  induction rounds with
  | nil => exact ⟨sound, [], rfl, .nil _⟩
  | @snoc accepted s operations registry clock auction _ admitted keeps decided contested ih =>
      obtain ⟨sound, winners, rfl, run⟩ := ih
      have ready := sound_runAll admitted sound
      obtain ⟨bids, window, decision⟩ := BidArbiter.runOnce_decides decided
      have round := round_decideWindow registry clock strategy slot decay
        distinct some_ (task_window ready window)
      rw [decision] at round
      obtain ⟨winner, accepted, round⟩ := round contested
      have credit : (BidArbiter.opened clock (runAll operations s)).credit = s.credit := by
        funext t
        have pass : (BidArbiter.opened clock (runAll operations s)).credit t =
            (runAll operations s).credit t :=
          credit_of_credits (credits_expireLocked.trans credits_expireLocked) t
        exact pass.trans (credit_runAll sound admitted keeps t)
      rw [credit] at round
      refine ⟨sound_runOnce ready, winners ++ [winner], ?_, .snoc run round⟩
      rw [List.map_append, accepted]
      rfl

/-- As many consecutive rounds as there are tasks accept each task once. -/
theorem credit_fair_turns {tasks : List TaskId} {earlier window later : List (List TaskId)}
    {first : BidStore} (strategy : a.strategy = .creditFair) (slot : a.capacity = some 1)
    (decay : a.auctionPolicy.acceptedCreditDecay = 0)
    (room : ((tasks.length - 1 : Nat) : Rat) * a.auctionPolicy.creditIncrement ≤
      a.auctionPolicy.creditMax)
    (distinct : tasks.Nodup) (some_ : tasks ≠ []) (sound : first.Sound)
    (zero : ∀ t ∈ tasks, first.credit t = 0)
    (rounds : Rounds a tasks first (earlier ++ window ++ later) s)
    (length : window.length = tasks.length) : ∀ t ∈ tasks, window.flatten.count t = 1 := by
  obtain ⟨-, winners, split, run⟩ := run_of_rounds strategy slot decay distinct some_ sound rounds
  obtain ⟨before, after, rfl, earlierEq, laterEq⟩ := List.map_eq_append_iff.mp split.symm
  obtain ⟨before, won, rfl, -, windowEq⟩ := List.map_eq_append_iff.mp earlierEq
  have perm := Turns.winners_perm distinct a.auctionPolicy.creditIncrement_pos room zero run
    (by rw [← length, ← windowEq, List.length_map])
  intro t member
  have flat : window.flatten = won := by
    rw [← windowEq]
    exact List.flatMap_def.symm.trans (List.flatMap_singleton' won)
  rw [flat, perm.count_eq]
  exact List.count_eq_one_of_mem distinct member

end

/-- A node with one slot that ranks by credit. -/
def fairArbiter : BidArbiter where
  localNodeId := "b"
  capacity := some 1
  bidWindow := 2
  nodeResources := { cpuCores_pos := unlimitedCores_pos, memoryMb_pos := unlimited_pos }
  auctionPolicy := { defaultPolicy with strategy := .creditFair }
  checkCompatibility := fun _ => {}

def bothSubmit (first second : BidId) (now : Timestamp) : List Operation :=
  [.submit ⟨first, "epoch", "t", none, "a", "b", 1 / 2, now⟩ now,
    .submit ⟨second, "epoch", "u", none, "a", "b", 1 / 4, now⟩ now]

/-- The first reservation is given back and the store is reloaded. -/
def nextRound : List Operation :=
  [.cancel "2" "activation failed" 6, .reload] ++ bothSubmit "3" "4" 7

def firstClock : Clock := ⟨5, 5, 5, []⟩

def secondClock : Clock := ⟨10, 10, 10, []⟩

def afterFirst : BidStore :=
  (fairArbiter.runOnce [] firstClock (runAll (bothSubmit "1" "2" 0) { reservationTtl := 30 })).store

/-- The pass decides on a bid of each task, with nothing reserved, and accepts the winner. -/
def Auction.isRound (winner : TaskId) (auction : Auction) : Bool :=
  (auction.ranked.map (·.bid.taskId)).isPerm ["t", "u"] && auction.reservations.isEmpty &&
    auction.ranked.all (·.bid.taskContext.isNone) &&
    auction.admission.accepted.map (·.taskId) = [winner]

theorem Auction.contested {auction : Auction} {winner : TaskId}
    (h : auction.isRound winner = true) : Contested fairArbiter ["t", "u"] [] auction ∧
      auction.admission.accepted.map (·.taskId) = [winner] := by
  simp only [isRound, Bool.and_eq_true, List.isPerm_iff, List.isEmpty_iff, List.all_eq_true,
    Option.isNone_iff_eq_none, decide_eq_true_eq] at h
  obtain ⟨⟨⟨ranked, unreserved⟩, plain⟩, accepted⟩ := h
  refine ⟨⟨ranked, rfl, unreserved, fun item member => ⟨rfl, ?_⟩⟩, accepted⟩
  unfold BidRecord.resourceRequest
  rw [plain item member]
  decide +kernel

/-- The better score wins, and in the next round the task that lost. -/
theorem bothSubmit_turns : ∃ s,
    Rounds fairArbiter ["t", "u"] { reservationTtl := 30 } [["u"], ["t"]] s ∧
      ∀ t ∈ ["t", "u"], [["u"], ["t"]].flatten.count t = 1 := by
  have firstRound : (fairArbiter.runOnce [] firstClock
      (runAll (bothSubmit "1" "2" 0) { reservationTtl := 30 })).auction.any (·.isRound "u") := by
    decide +kernel
  have secondRound : (fairArbiter.runOnce [] secondClock
      (runAll nextRound afterFirst)).auction.any (·.isRound "t") := by
    decide +kernel
  obtain ⟨first, firstDecided, firstRound⟩ := (Option.any_eq_true ..).mp firstRound
  obtain ⟨second, secondDecided, secondRound⟩ := (Option.any_eq_true ..).mp secondRound
  obtain ⟨firstContested, firstAccepted⟩ := Auction.contested firstRound
  obtain ⟨secondContested, secondAccepted⟩ := Auction.contested secondRound
  have one := Rounds.nil.snoc (by simp [bothSubmit, Operation.Admitted])
    (by simp [bothSubmit, Operation.KeepsCredits]) firstDecided firstContested
  have two := one.snoc (by simp [nextRound, bothSubmit, Operation.Admitted])
    (by simp [nextRound, bothSubmit, Operation.KeepsCredits]) secondDecided secondContested
  rw [firstAccepted, secondAccepted] at two
  have rounds : Rounds fairArbiter ["t", "u"] { reservationTtl := 30 }
    ([] ++ [["u"], ["t"]] ++ []) _ := two
  exact ⟨_, two, credit_fair_turns rfl rfl rfl (by norm_num [fairArbiter, defaultPolicy]) (by decide) (by simp)
    (sound_empty 30) (by decide +kernel) rounds rfl⟩

end Magellan.Bidding
