import Mathlib.Algebra.BigOperators.Group.List.Basic
import Mathlib.Algebra.Order.BigOperators.Group.List
import Magellan.Bidding.Fairness

/-!
# The arbiter comes to rest

Each pass that reports progress lowers the work in the store, that is twice the pending bids and the
active reservations; no operation but a submission raises it.
-/

namespace Magellan.Bidding

open Registry BidStore

/-! ## The work in a store -/

def workLeft : BidStatus → Nat
  | .pending => 2
  | .accepted | .activating => 1
  | _ => 0

/-- What `pending_records` lists. -/
def BidStore.pendingCount (s : BidStore) : Nat := s.records.values.countP (·.status = .pending)

/-- The same bid with no more work than before. -/
structure BidRecord.Settles (r r' : BidRecord) : Prop where
  bidId : r'.bidId = r.bidId
  work_le : workLeft r'.status ≤ workLeft r.status

def BidStore.Settles (s s' : BidStore) : Prop :=
  ∀ b, Option.Rel BidRecord.Settles (s.records.get? b) (s'.records.get? b)

/-- Each record is stored under its own id. -/
def BidStore.Keyed (s : BidStore) : Prop := ∀ b r, s.records.get? b = some r → r.bidId = b

section

variable {s s' s'' : BidStore} {bidId : BidId} {record record' : BidRecord} {now : Timestamp}

theorem BidRecord.Settles.refl (r : BidRecord) : r.Settles r := ⟨rfl, le_refl _⟩

theorem settles_refl (s : BidStore) : s.Settles s := by
  intro b
  cases s.records.get? b with
  | none => exact .none
  | some record => exact .some (.refl record)

theorem settles_trans (first : s.Settles s') (second : s'.Settles s'') : s.Settles s'' := by
  intro b
  have step := first b
  have next := second b
  generalize s.records.get? b = before at step ⊢
  generalize s'.records.get? b = middle at step next
  generalize s''.records.get? b = after at next ⊢
  cases step with
  | none => exact next
  | some settles =>
      cases next with
      | some settles' =>
          exact .some ⟨settles'.bidId.trans settles.bidId, settles'.work_le.trans settles.work_le⟩

theorem keyed_of_settles (h : s.Settles s') (keyed : s.Keyed) : s'.Keyed := by
  intro b record' found'
  have step := h b
  rw [found'] at step
  generalize before : s.records.get? b = old at step
  cases step with
  | some settles => exact settles.bidId.trans (keyed b _ before)

/-- A loaded store is keyed, whatever the file holds. -/
theorem keyed_load {ttl : Nat} {file : Option StateFile} (loaded : load ttl file = some s) :
    s.Keyed := by
  intro b record found
  cases file with
  | none =>
      cases loaded
      cases found
  | some file =>
      obtain ⟨records, -, same⟩ := Option.bind_eq_some_iff.mp loaded
      cases same
      have listed := Dict.mem_of_get?_ofList found
      obtain ⟨r, -, same⟩ := List.mem_map.mp listed
      cases same
      rfl

theorem work_values (records : List BidRecord) :
    2 * records.countP (·.status = .pending) + records.countP (·.status.isActiveReservation) =
      (records.map fun record => workLeft record.status).sum := by
  induction records with
  | nil => rfl
  | cons record records ih =>
      rw [List.countP_cons, List.countP_cons, List.map_cons, List.sum_cons, ← ih]
      cases record.status <;> simp [workLeft, BidStatus.isActiveReservation] <;> omega

/-- The work left for a bid. -/
def BidStore.workOf (s : BidStore) (bidId : BidId) : Nat :=
  ((s.records.get? bidId).map fun record => workLeft record.status).getD 0

theorem work_store (s : BidStore) :
    2 * s.pendingCount + s.activeCount = (s.records.keys.map s.workOf).sum := by
  show 2 * s.records.values.countP _ + s.records.values.countP _ = _
  rw [work_values]
  unfold Dict.values Dict.keys
  rw [List.map_map, List.map_map]
  apply congrArg List.sum
  apply List.map_congr_left
  rintro ⟨b, record⟩ member
  have found := Dict.mem_entries_iff.mp member
  simp [BidStore.workOf, found]

theorem workOf_le (h : s.Settles s') (b : BidId) : s'.workOf b ≤ s.workOf b := by
  have step := h b
  unfold BidStore.workOf
  generalize s.records.get? b = before at step ⊢
  generalize s'.records.get? b = after at step ⊢
  cases step with
  | none => exact le_refl 0
  | some settles => exact settles.work_le

theorem keys_perm (h : s.Settles s') : s'.records.keys.Perm s.records.keys := by
  apply (List.perm_ext_iff_of_nodup s'.records.nodup s.records.nodup).mpr
  intro b
  have step := h b
  have same : s'.records.get? b = none ↔ s.records.get? b = none := by
    generalize s.records.get? b = before at step ⊢
    generalize s'.records.get? b = after at step ⊢
    cases step with
    | none => exact Iff.rfl
    | some => simp
  rw [Dict.get?_eq_none_iff, Dict.get?_eq_none_iff] at same
  exact not_iff_not.mp same

theorem work_le (h : s.Settles s') :
    2 * s'.pendingCount + s'.activeCount ≤ 2 * s.pendingCount + s.activeCount := by
  rw [work_store, work_store, ((keys_perm h).map _).sum_eq]
  apply List.sum_le_sum
  intro b _
  exact workOf_le h b

theorem work_lt (h : s.Settles s') (less : s'.workOf bidId < s.workOf bidId) :
    2 * s'.pendingCount + s'.activeCount < 2 * s.pendingCount + s.activeCount := by
  rw [work_store, work_store, ((keys_perm h).map _).sum_eq]
  apply List.sum_lt_sum
  · intro b _
    exact workOf_le h b
  · refine ⟨bidId, ?_, less⟩
    by_contra absent
    have none_ := Dict.get?_eq_none_iff.mpr absent
    unfold BidStore.workOf at less
    rw [none_] at less
    exact Nat.not_lt_zero _ less

/-! ## Operations -/

theorem settles_expireLocked (s : BidStore) (now : Timestamp) : s.Settles (s.expireLocked now).2 := by
  intro b
  rw [get?_expireLocked]
  cases s.records.get? b with
  | none => exact .none
  | some record =>
      refine .some ?_
      unfold BidRecord.expired
      split
      · exact ⟨rfl, Nat.zero_le _⟩
      · exact .refl record

theorem settles_setRecord (found : s.records.get? bidId = some record)
    (settles : record.Settles record') : s.Settles (s.setRecord bidId record') := by
  intro b
  unfold setRecord
  rw [Dict.get?_set]
  split
  case isTrue same =>
    rw [same, found]
    exact .some settles
  case isFalse => exact settles_refl s b

theorem settles_modify (found : (s.expireLocked now).2.records.get? bidId = some record)
    (settles : record.Settles record') :
    s.Settles ((s.expireLocked now).2.setRecord bidId record') :=
  settles_trans (settles_expireLocked s now) (settles_setRecord found settles)

theorem settles_decide (s : BidStore) (now : Timestamp) (bidId : BidId) (status : BidStatus)
    (reason : String) (details : AuctionDetails) :
    s.Settles (s.decide bidId status reason now details).2 := by
  unfold BidStore.decide
  split
  case isTrue => exact settles_refl s
  case isFalse known =>
    cases found : (s.expireLocked now).2.records.get? bidId with
    | none =>
        simp only [found]
        exact settles_expireLocked s now
    | some record =>
        simp only [found]
        split
        case isTrue => exact settles_expireLocked s now
        case isFalse pending =>
          refine settles_modify found ⟨rfl, ?_⟩
          rw [not_not.mp pending]
          by_cases accepted : status = .accepted
          · simp [decided, accepted, workLeft]
          · have rejected : status = .rejected := not_not.mp fun other => known ⟨accepted, other⟩
            simp [decided, rejected, workLeft]

theorem settles_renew (s : BidStore) (now : Timestamp) (bidId : BidId) :
    s.Settles (s.renew bidId now).2 := by
  unfold renew
  cases found : (s.expireLocked now).2.records.get? bidId with
  | none =>
      simp only [found]
      exact settles_expireLocked s now
  | some record =>
      simp only [found]
      split
      case isTrue => exact settles_expireLocked s now
      case isFalse => exact settles_modify found ⟨rfl, le_refl _⟩

theorem settles_beginActivation (s : BidStore) (now : Timestamp) (bidId : BidId) (taskId : TaskId)
    (source destination : NodeId) :
    s.Settles (s.beginActivation bidId taskId source destination now).2 := by
  unfold beginActivation
  cases found : (s.expireLocked now).2.records.get? bidId with
  | none =>
      simp only [found]
      exact settles_expireLocked s now
  | some record =>
      simp only [found]
      split
      case isTrue => exact settles_expireLocked s now
      split
      case isTrue => exact settles_expireLocked s now
      case isFalse accepted =>
        refine settles_modify found ⟨rfl, ?_⟩
        rw [not_not.mp accepted]
        exact le_refl 1

theorem settles_consume (s : BidStore) (now : Timestamp) (bidId : BidId) :
    s.Settles (s.consume bidId now).2 := by
  unfold consume
  cases found : s.records.get? bidId with
  | none => exact settles_refl s
  | some record =>
      dsimp only
      split
      · exact settles_refl s
      · exact settles_setRecord found ⟨rfl, Nat.zero_le _⟩

theorem settles_cancel (s : BidStore) (now : Timestamp) (bidId : BidId) (reason : String) :
    s.Settles (s.cancel bidId reason now).2 := by
  unfold cancel
  cases found : s.records.get? bidId with
  | none => exact settles_refl s
  | some record =>
      dsimp only
      split
      · exact settles_refl s
      · exact settles_setRecord found ⟨rfl, Nat.zero_le _⟩

theorem settles_foldl {ι : Type} {f : BidStore → ι → BidStore} (each : ∀ (s : BidStore) (i : ι), s.Settles (f s i))
    (items : List ι) (s : BidStore) : s.Settles (items.foldl f s) := by
  induction items generalizing s with
  | nil => exact settles_refl s
  | cons item items ih => exact settles_trans (each s item) (ih (f s item))

theorem settles_creditOutcome (after : Rat → Rat) (s : BidStore) (bidId : BidId) :
    s.Settles (creditOutcome after s bidId) := by
  unfold creditOutcome
  cases found : s.records.get? bidId with
  | none => exact settles_refl s
  | some record => exact settles_setRecord found ⟨rfl, le_refl _⟩

theorem settles_showCredit (s : BidStore) (bidId : BidId) : s.Settles (showCredit s bidId) := by
  unfold showCredit
  cases found : s.records.get? bidId with
  | none => exact settles_refl s
  | some record =>
      dsimp only
      split
      · exact settles_setRecord found ⟨rfl, le_refl _⟩
      · exact settles_refl s

theorem settles_applyCreditOutcomes (s : BidStore) (accepted rejected : List BidId)
    (increment maximum decay : Rat) :
    s.Settles (s.applyCreditOutcomes accepted rejected increment maximum decay) := by
  have first := settles_foldl (settles_creditOutcome fun before => max 0 (before * decay)) accepted s
  have second := settles_foldl
    (settles_creditOutcome fun before => min maximum (before + increment)) rejected
    (accepted.foldl (creditOutcome fun before => max 0 (before * decay)) s)
  exact settles_trans (settles_trans first second) (settles_foldl settles_showCredit _ _)

/-- The store stays in memory, and no bid is submitted. -/
def Operation.Settles : Operation → Prop
  | .submit .. | .reload => False
  | _ => True

theorem settles_perform (s : BidStore) {o : Operation} (settles : o.Settles) :
    s.Settles (o.perform s).2 := by
  cases o with
  | submit | reload => exact settles.elim
  | get | listRecords | pendingRecords | activeReservations | activeReservationCount
  | expireReservations => exact settles_expireLocked s _
  | decide => exact settles_decide s _ _ _ _ _
  | renew => exact settles_renew s _ _
  | beginActivation => exact settles_beginActivation s _ _ _ _ _
  | consume => exact settles_consume s _ _
  | cancel => exact settles_cancel s _ _ _
  | creditsSnapshot | creditFor => exact settles_refl s
  | applyCreditOutcomes => exact settles_applyCreditOutcomes s _ _ _ _ _

theorem settles_runAll {operations : List Operation} (settles : ∀ o ∈ operations, o.Settles)
    (s : BidStore) : s.Settles (runAll operations s) := by
  induction operations generalizing s with
  | nil => exact settles_refl s
  | cons o operations ih =>
      obtain ⟨first, rest⟩ := List.forall_mem_cons.mp settles
      exact settles_trans (settles_perform s first) (ih rest _)

/-! ## A pass -/

variable {a : BidArbiter} {registry : List TaskEntry} {clock : Clock}

theorem verdict_decides (x : Admission) (bid : BidRecord) :
    (a.verdict x bid).status = .accepted ∨ (a.verdict x bid).status = .rejected := by
  unfold BidArbiter.verdict
  dsimp only
  split
  · exact .inr rfl
  split
  · exact .inr rfl
  split
  · exact .inr rfl
  split
  · exact .inr rfl
  split
  · exact .inr rfl
  · exact .inl rfl

theorem workOf_decide {status : BidStatus} (known : status = .accepted ∨ status = .rejected)
    (reason : String) (details : AuctionDetails) :
    (s.decide bidId status reason now details).2.workOf bidId ≤ 1 := by
  have decides : ¬ (status ≠ .accepted ∧ status ≠ .rejected) := by tauto
  unfold BidStore.decide
  rw [if_neg decides]
  unfold BidStore.workOf
  cases found : (s.expireLocked now).2.records.get? bidId with
  | none => simp [found]
  | some record =>
      simp only [found]
      by_cases pending : record.status = .pending
      · rw [if_neg (not_not.mpr pending)]
        rcases known with rfl | rfl <;> simp [persistLocked, setRecord, decided, workLeft]
      · rw [if_pos pending]
        simp only [found]
        cases status : record.status <;> simp_all [workLeft]

theorem settles_decideBid (s : BidStore) (now : Timestamp) (credits : Dict TaskId Rat) (rank : Nat)
    (item : RankedBid) (x : Admission) : s.Settles (a.decideBid now credits rank item x s).2 :=
  settles_decide s now _ _ _ _

theorem settles_decideAll (s : BidStore) (now : Timestamp) (credits : Dict TaskId Rat) (rank : Nat)
    (items : List RankedBid) (x : Admission) :
    s.Settles (a.decideAll now credits rank items x s).2 := by
  induction items generalizing rank x s with
  | nil => exact settles_refl s
  | cons item items ih => exact settles_trans (settles_decideBid s now credits rank item x) (ih _ _ _)

theorem workOf_decideAll {item : RankedBid} {items : List RankedBid} (member : item ∈ items)
    (s : BidStore) (now : Timestamp) (credits : Dict TaskId Rat) (rank : Nat) (x : Admission) :
    (a.decideAll now credits rank items x s).2.workOf item.bid.bidId ≤ 1 := by
  induction items generalizing rank x s with
  | nil => cases member
  | cons first items ih =>
      rcases List.mem_cons.mp member with rfl | later
      · have here : (a.decideBid now credits rank item x s).2.workOf item.bid.bidId ≤ 1 :=
          workOf_decide (verdict_decides x item.bid) _ _
        exact (workOf_le (settles_decideAll _ now credits _ items _) _).trans here
      · exact ih later _ _ _

theorem settles_afterDecisions (s : BidStore) (accepted rejected : List BidId)
    (increment maximum decay : Rat) (printed : List Timestamp) :
    s.Settles (printed.foldl (fun s now => (s.expireLocked now).2)
      (s.applyCreditOutcomes accepted rejected increment maximum decay)) :=
  settles_trans (settles_applyCreditOutcomes s accepted rejected increment maximum decay)
    (settles_foldl settles_expireLocked printed _)

theorem settles_decideWindow (a : BidArbiter) (registry : List TaskEntry) (clock : Clock)
    (bids : List BidRecord) (s : BidStore) : s.Settles (a.decideWindow registry clock bids s).2 := by
  have reservations := settles_expireLocked s clock.reservations
  apply settles_trans reservations
  apply settles_trans (settles_decideAll _ clock.now _ 1 _ _)
  exact settles_afterDecisions _ _ _ _ _ _ _

theorem workOf_decideWindow (a : BidArbiter) (registry : List TaskEntry) (clock : Clock)
    {bid : BidRecord} {bids : List BidRecord} (member : bid ∈ bids) (s : BidStore) :
    (a.decideWindow registry clock bids s).2.workOf bid.bidId ≤ 1 := by
  have ranked : ((rankBids bids a.strategy s.credits a.nodeResources a.auctionPolicy
    clock.now).map (·.bid)).Perm bids := rankBids_perm
  obtain ⟨item, listed, rfl⟩ := List.mem_map.mp (ranked.mem_iff.mpr member)
  apply (workOf_le (settles_afterDecisions _ _ _ _ _ _ _) _).trans
  exact workOf_decideAll listed _ _ _ _ _

theorem settles_opened (s : BidStore) (clock : Clock) : s.Settles (BidArbiter.opened clock s) :=
  settles_trans (settles_expireLocked s _) (settles_expireLocked _ _)

/-- The bids of a window are pending in the store that the pass has read. -/
theorem window_pending {bids : List BidRecord} (window : a.windowBids clock.now
    ((s.expireReservations clock.now).2.pendingRecords clock.pending).1 = some bids) :
    bids ≠ [] ∧ ∀ bid ∈ bids,
      bid ∈ (BidArbiter.opened clock s).records.values ∧ bid.status = .pending := by
  have listed : ∀ bid ∈ ((s.expireReservations clock.now).2.pendingRecords clock.pending).1,
      bid ∈ (BidArbiter.opened clock s).records.values ∧ bid.status = .pending := by
    intro bid member
    unfold pendingRecords listRecords at member
    rw [List.mem_insertionSort, List.mem_filter, List.mem_insertionSort, decide_eq_true_eq] at member
    exact member
  generalize ((s.expireReservations clock.now).2.pendingRecords clock.pending).1 = pending
    at window listed
  cases pending with
  | nil => cases window
  | cons first rest =>
      unfold BidArbiter.windowBids at window
      dsimp only at window
      split at window
      case isTrue => cases window
      case isFalse =>
        cases window
        refine ⟨?_, fun bid member => listed bid (List.mem_filter.mp member).1⟩
        apply List.ne_nil_of_mem (a := first)
        exact List.mem_filter.mpr ⟨List.mem_cons_self, by simp⟩

theorem get?_of_window {bid : BidRecord} (keyed : s.Keyed)
    (member : bid ∈ (BidArbiter.opened clock s).records.values) :
    (BidArbiter.opened clock s).records.get? bid.bidId = some bid := by
  obtain ⟨b, found⟩ := Dict.mem_values_iff.mp member
  rw [keyed_of_settles (settles_opened s clock) keyed b bid found]
  exact found

theorem settles_runOnce (a : BidArbiter) (registry : List TaskEntry) (clock : Clock) (s : BidStore) :
    s.Settles (a.runOnce registry clock s).store := by
  cases decided : (a.runOnce registry clock s).auction with
  | none =>
      unfold BidArbiter.runOnce at decided ⊢
      dsimp only at decided ⊢
      split at decided
      case h_1 => exact settles_opened s clock
      case h_2 => cases decided
  | some auction =>
      obtain ⟨bids, -, window⟩ := BidArbiter.runOnce_decides decided
      have after := settles_decideWindow a registry clock bids (BidArbiter.opened clock s)
      rw [window] at after
      exact settles_trans (settles_opened s clock) after

theorem expired_work_lt (some_ : (s.expireLocked now).1 ≠ []) :
    ∃ b, (s.expireLocked now).2.workOf b < s.workOf b := by
  have lapsed : (s.records.values.filter (BidRecord.lapsed now)).map (BidRecord.expire now) ≠ [] := by
    intro none_
    apply some_
    unfold expireLocked
    rw [if_pos none_]
  obtain ⟨record, listed⟩ := List.exists_mem_of_ne_nil _ fun none_ => lapsed (List.map_eq_nil_iff.mpr none_)
  obtain ⟨stored, lapsed⟩ := List.mem_filter.mp listed
  obtain ⟨b, found⟩ := Dict.mem_values_iff.mp stored
  refine ⟨b, ?_⟩
  unfold BidStore.workOf
  rw [get?_expireLocked, found]
  have active : record.status.isActiveReservation := by
    unfold BidRecord.lapsed at lapsed
    exact (Bool.and_eq_true_iff.mp lapsed).1
  simp only [Option.map_some, Option.getD_some, BidRecord.expired, lapsed, if_true]
  cases status : record.status <;> simp_all [BidStatus.isActiveReservation, workLeft, BidRecord.expire]

theorem work_lt_of_progressed (keyed : s.Keyed)
    (progressed : (a.runOnce registry clock s).progressed = true) :
    2 * (a.runOnce registry clock s).store.pendingCount +
        (a.runOnce registry clock s).store.activeCount < 2 * s.pendingCount + s.activeCount := by
  cases decided : (a.runOnce registry clock s).auction with
  | none =>
      unfold BidArbiter.runOnce at decided progressed ⊢
      dsimp only at decided progressed ⊢
      split at decided
      case h_2 => cases decided
      case h_1 none_ =>
        rw [none_] at progressed
        have some_ : (s.expireLocked clock.now).1 ≠ [] := of_decide_eq_true progressed
        obtain ⟨b, less⟩ := expired_work_lt some_
        apply work_lt (settles_opened s clock)
        exact (workOf_le (settles_expireLocked _ clock.pending) b).trans_lt less
  | some auction =>
      obtain ⟨bids, window, decision⟩ := BidArbiter.runOnce_decides decided
      obtain ⟨some_, pending⟩ := window_pending window
      obtain ⟨bid, member⟩ := List.exists_mem_of_ne_nil _ some_
      have stored := get?_of_window keyed (pending bid member).1
      have before : (BidArbiter.opened clock s).workOf bid.bidId = 2 := by
        unfold BidStore.workOf
        rw [stored, Option.map_some, (pending bid member).2]
        rfl
      have after := workOf_decideWindow a registry clock member (BidArbiter.opened clock s)
      rw [decision] at after
      apply work_lt (settles_runOnce a registry clock s)
      have kept := workOf_le (settles_opened s clock) bid.bidId
      rw [before] at kept
      exact (Nat.lt_succ_of_le after).trans_le kept

/-- The bids of the window are in the store after the pass, and none of them is pending. -/
def Decides (a : BidArbiter) (clock : Clock) (before after : BidStore) : Prop :=
  ∃ bids, a.windowBids clock.now
      ((before.expireReservations clock.now).2.pendingRecords clock.pending).1 = some bids ∧
    ∀ bid ∈ bids, ∃ record, after.records.get? bid.bidId = some record ∧ record.status ≠ .pending

theorem decides_runOnce {auction : Auction} (keyed : s.Keyed)
    (decided : (a.runOnce registry clock s).auction = some auction) :
    Decides a clock s (a.runOnce registry clock s).store := by
  obtain ⟨bids, window, decision⟩ := BidArbiter.runOnce_decides decided
  refine ⟨bids, window, ?_⟩
  intro bid member
  have stored := get?_of_window keyed ((window_pending window).2 bid member).1
  have after := workOf_decideWindow a registry clock member (BidArbiter.opened clock s)
  have kept := settles_decideWindow a registry clock bids (BidArbiter.opened clock s) bid.bidId
  rw [decision] at after kept
  rw [stored] at kept
  unfold BidStore.workOf at after
  generalize (a.runOnce registry clock s).store.records.get? bid.bidId = last at after kept ⊢
  cases kept with
  | @some _ record _ =>
      refine ⟨record, rfl, ?_⟩
      intro pending
      rw [Option.map_some, pending] at after
      exact absurd after (by decide)

end

/-! ## The loop -/

/-- What happens between two passes of the loop, and what the next one reads. -/
structure Turn where
  operations : List Operation
  registry : List TaskEntry
  clock : Clock

/-- A pass of the loop, with the store at its start. -/
structure Round where
  turn : Turn
  before : BidStore
  pass : Pass

namespace BidArbiter

def round (a : BidArbiter) (turn : Turn) (s : BidStore) : Round where
  turn := turn
  before := runAll turn.operations s
  pass := a.runOnce turn.registry turn.clock (runAll turn.operations s)

/-- The passes that the loop makes one after the other. -/
def run (a : BidArbiter) : List Turn → BidStore → List Round
  | [], _ => []
  | turn :: turns, s => a.round turn s :: a.run turns (a.round turn s).pass.store

end BidArbiter

section

variable {a : BidArbiter} {s : BidStore} {turns : List Turn}

/-- While no bid is submitted, the loop is told to go on at once only so many times. -/
theorem comes_to_rest (keyed : s.Keyed)
    (settles : ∀ turn ∈ turns, ∀ o ∈ turn.operations, o.Settles) :
    (a.run turns s).countP (·.pass.progressed) ≤ 2 * s.pendingCount + s.activeCount ∧
      ∀ round ∈ a.run turns s, round.pass.auction ≠ none →
        Decides a round.turn.clock round.before round.pass.store := by
  induction turns generalizing s with
  | nil => exact ⟨Nat.zero_le _, by simp [BidArbiter.run]⟩
  | cons turn turns ih =>
      obtain ⟨here, rest⟩ := List.forall_mem_cons.mp settles
      have quiet := settles_runAll here s
      have ready := keyed_of_settles quiet keyed
      have pass := settles_runOnce a turn.registry turn.clock (runAll turn.operations s)
      obtain ⟨count, decide_⟩ := ih (keyed_of_settles pass ready) rest
      have before := work_le quiet
      have after := work_le pass
      have less : (a.round turn s).pass.progressed = true →
          2 * (a.round turn s).pass.store.pendingCount + (a.round turn s).pass.store.activeCount <
            2 * (runAll turn.operations s).pendingCount + (runAll turn.operations s).activeCount :=
        work_lt_of_progressed ready
      unfold BidArbiter.run
      constructor
      · rw [List.countP_cons]
        split
        case isTrue progressed =>
          have lower := less progressed
          have later : (a.run turns (a.round turn s).pass.store).countP (·.pass.progressed) ≤
            2 * (a.round turn s).pass.store.pendingCount + (a.round turn s).pass.store.activeCount := count
          omega
        case isFalse =>
          exact count.trans (after.trans before)
      · intro round member
        rcases List.mem_cons.mp member with rfl | later
        · intro auctioned
          obtain ⟨auction, decided⟩ := Option.ne_none_iff_exists'.mp auctioned
          exact decides_runOnce ready decided
        · exact decide_ round later

end

/-- The bid is accepted in the first pass, and its reservation runs out before the second. -/
theorem oneBid_rests : ∃ rounds, smallArbiter.run
      [⟨[], [], ⟨5, 5, 5, [5]⟩⟩, ⟨[.renew "bid" 6], [], ⟨40, 40, 40, []⟩⟩] oneBid = rounds ∧
    rounds.countP (·.pass.progressed) = 2 ∧
    rounds.countP (·.pass.progressed) ≤ 2 * oneBid.pendingCount + oneBid.activeCount ∧
    ∀ round ∈ rounds, round.pass.auction ≠ none →
      Decides smallArbiter round.turn.clock round.before round.pass.store := by
  have keyed : oneBid.Keyed := fun b r found =>
    ((sound_submit (sound_empty 30) _).records b r found).key
  refine ⟨_, rfl, by decide +kernel, comes_to_rest keyed ?_⟩
  simp [Operation.Settles]

end Magellan.Bidding
