import Magellan.Bidding.Arbiter

/-!
# What a pass admits

The loop keeps the slots and the ledger in step with the bids it has accepted; the store adds no
reservation to those that the pass has counted but the accepted ones.
-/

namespace Magellan.Bidding

open Registry BidStore

def Admission.demand (x : Admission) : ResourceVector :=
  sumRequests (x.accepted.map (·.resourceRequest))

/-- What the loop keeps, next to `taken` slots and `used` resources. -/
structure Fits (a : BidArbiter) (taken : Nat) (used : ResourceVector) (x : Admission) : Prop where
  slots : x.availableSlots = a.capacity.map fun capacity => capacity - taken - x.accepted.length
  room : ∀ capacity ∈ a.capacity, x.accepted ≠ [] → taken + x.accepted.length ≤ capacity
  cpu : Tracks a.nodeResources.cpuCores used.cpuCores x.demand.cpuCores x.ledger.cpuCores
  memory : Tracks (a.nodeResources.memoryMb.map (↑)) used.memoryMb x.demand.memoryMb
    x.ledger.memoryMb
  gpu : Tracks (a.nodeResources.gpuCount.map (↑)) used.gpuCount x.demand.gpuCount x.ledger.gpuCount
  tasks : (x.accepted.map (·.taskId)).Nodup

section

variable {a : BidArbiter} {x : Admission} {bid : BidRecord} {taken : Nat} {used : ResourceVector}
  {registry : List TaskEntry} {s : BidStore} {now : Timestamp}

theorem fits_availableResources (reservations : List BidRecord) :
    Fits a (countOwned registry a.localNodeId + reservations.length)
      (sumRequests (ownedResourceRequests registry a.localNodeId ++
        reservations.map (·.resourceRequest)))
      (a.availableResources registry reservations) where
  slots := by
    simp only [BidArbiter.availableResources, List.length_nil, Nat.sub_zero, Nat.sub_sub]
  room := fun _ _ some_ => absurd rfl some_
  cpu := Tracks.start _ _
  memory := by
    have none_ : ((a.availableResources registry reservations).demand.memoryMb : Rat) = 0 :=
      Nat.cast_zero
    rw [none_]
    exact Tracks.start _ _
  gpu := by
    have none_ : ((a.availableResources registry reservations).demand.gpuCount : Rat) = 0 :=
      Nat.cast_zero
    rw [none_]
    exact Tracks.start _ _
  tasks := List.nodup_nil

theorem verdict_accepted (h : (a.verdict x bid).status = .accepted) :
    bid.taskId ∉ x.accepted.map (·.taskId) ∧ x.availableSlots ≠ some 0 ∧
      x.ledger.incompatible bid.resourceRequest = none := by
  unfold BidArbiter.verdict at h
  dsimp only at h
  split at h
  case isTrue => cases h
  case isFalse new =>
    split at h
    case isTrue => cases h
    split at h
    case h_1 => cases h
    case h_2 =>
      split at h
      case isTrue => cases h
      case isFalse slots =>
        split at h
        case h_1 => cases h
        case h_2 fits => exact ⟨new, slots, fits⟩

theorem fits_record (h : Fits a taken used x) : Fits a taken used (x.record bid (a.verdict x bid)) := by
  unfold Admission.record
  split
  case isTrue accepted =>
    obtain ⟨new, slots, fits⟩ := verdict_accepted accepted
    obtain ⟨cpu, memory, gpu⟩ := ResourceLedger.fits_of_compatible fits
    have more : sumRequests ((x.accepted ++ [bid]).map (·.resourceRequest)) =
        x.demand.add (.ofRequest bid.resourceRequest) := by
      rw [List.map_append, sumRequests_append, List.map_singleton]
      simp [Admission.demand, sumRequests_eq, ResourceVector.ofRequest]
    refine ⟨?_, ?_, ?_, ?_, ?_, ?_⟩
    · simp only [h.slots, Option.map_map, List.length_append, List.length_singleton]
      congr 1
    · intro capacity limited _
      have left := h.slots
      rw [limited, Option.map_some] at left
      rw [left] at slots
      rw [List.length_append, List.length_singleton]
      have positive : capacity - taken - x.accepted.length ≠ 0 := fun zero => slots (by rw [zero])
      omega
    · unfold Admission.demand
      rw [more]
      exact h.cpu.consume bid.resourceRequest.cpuCores_pos.le cpu
    · unfold Admission.demand
      have total : ((x.demand.add (.ofRequest bid.resourceRequest)).memoryMb : Rat) =
          x.demand.memoryMb + bid.resourceRequest.memoryMb := Nat.cast_add _ _
      rw [more, total]
      exact h.memory.consume (Nat.cast_nonneg _) memory
    · unfold Admission.demand
      have total : ((x.demand.add (.ofRequest bid.resourceRequest)).gpuCount : Rat) =
          x.demand.gpuCount + bid.resourceRequest.gpuCount := Nat.cast_add _ _
      rw [more, total]
      exact h.gpu.consume (Nat.cast_nonneg _) gpu
    · rw [List.map_append, List.map_singleton]
      exact h.tasks.append (List.nodup_singleton _) (by simpa using new)
  case isFalse =>
    split
    case isTrue => exact ⟨h.slots, h.room, h.cpu, h.memory, h.gpu, h.tasks⟩
    case isFalse => exact h

/-! ## The reservations in the store -/

/-- What `active_reservation_count` counts. -/
def BidStore.activeCount (s : BidStore) : Nat :=
  s.records.values.countP (·.status.isActiveReservation)

theorem activeCount_expireLocked_le : (s.expireLocked now).2.activeCount ≤ s.activeCount := by
  unfold activeCount
  rw [records_expireLocked, Dict.values_map, List.countP_map]
  apply List.countP_mono_left
  intro r _ active
  simp only [Function.comp_apply, BidRecord.expired] at active
  split at active
  case isTrue => simp [BidRecord.expire, BidStatus.isActiveReservation] at active
  case isFalse => exact active

theorem activeCount_decide_le (bidId : BidId) (status : BidStatus) (reason : String)
    (details : AuctionDetails) : (s.decide bidId status reason now details).2.activeCount ≤
      s.activeCount + if status = .accepted then 1 else 0 := by
  have expired : (s.expireLocked now).2.activeCount ≤ s.activeCount := activeCount_expireLocked_le
  unfold BidStore.decide
  split
  case isTrue => exact Nat.le_add_right _ _
  case isFalse known =>
    cases found : (s.expireLocked now).2.records.get? bidId with
    | none =>
        simp only [found]
        omega
    | some record =>
        simp only [found]
        split
        case isTrue => exact expired.trans (Nat.le_add_right _ _)
        case isFalse =>
          have one := (s.expireLocked now).2.records.countP_values_set_le bidId
            (decided (s.expireLocked now).2.reservationTtl status reason now details record)
            (·.status.isActiveReservation)
          have active : status.isActiveReservation ↔ status = .accepted := by
            refine ⟨fun active => ?_, fun accepted => by rw [accepted]; rfl⟩
            by_contra other
            have rejected := not_not.mp fun h => known ⟨other, h⟩
            rw [rejected] at active
            cases active
          simp only [decided, active] at one
          exact one.trans (Nat.add_le_add_right expired _)

theorem activeCount_set {bidId : BidId} {r r' : BidRecord} (found : s.records.get? bidId = some r)
    (same : r'.status = r.status) : (s.setRecord bidId r').activeCount = s.activeCount := by
  have present : bidId ∈ s.records.keys := by
    by_contra absent
    rw [Dict.get?_eq_none_iff.mpr absent] at found
    cases found
  unfold activeCount setRecord
  rw [Dict.countP_values, Dict.countP_values, Dict.keys_set_of_mem present]
  apply List.countP_congr
  intro b _
  rw [Dict.get?_set]
  split
  case isTrue h =>
    rw [h, found]
    simp [same]
  case isFalse => exact Iff.rfl

theorem activeCount_creditOutcome (after : Rat → Rat) (bidId : BidId) :
    (creditOutcome after s bidId).activeCount = s.activeCount := by
  unfold creditOutcome
  cases found : s.records.get? bidId with
  | none => rfl
  | some record => exact activeCount_set (s := s) found rfl

theorem activeCount_showCredit (bidId : BidId) : (showCredit s bidId).activeCount = s.activeCount := by
  unfold showCredit
  cases found : s.records.get? bidId with
  | none => rfl
  | some record =>
      dsimp only
      split
      case isTrue => exact activeCount_set found rfl
      case isFalse => rfl

theorem activeCount_applyCreditOutcomes (accepted rejected : List BidId)
    (increment maximum decay : Rat) :
    (s.applyCreditOutcomes accepted rejected increment maximum decay).activeCount =
      s.activeCount := by
  have fold (f : BidStore → BidId → BidStore) (keeps : ∀ s b, (f s b).activeCount = s.activeCount)
      (bids : List BidId) (s : BidStore) : (bids.foldl f s).activeCount = s.activeCount := by
    induction bids generalizing s with
    | nil => rfl
    | cons bid bids ih => rw [List.foldl_cons, ih, keeps]
  show (((accepted ++ rejected).foldl showCredit _).activeCount) = _
  rw [fold _ fun s b => activeCount_showCredit b, fold _ fun s b => activeCount_creditOutcome _ b,
    fold _ fun s b => activeCount_creditOutcome _ b]

/-! ## A pass -/

theorem fits_decideAll (credits : Dict TaskId Rat) (rank : Nat) (items : List RankedBid)
    (h : Fits a taken used x) : Fits a taken used (a.decideAll now credits rank items x s).1 := by
  induction items generalizing rank x s with
  | nil => exact h
  | cons item items ih => exact ih _ (fits_record h)

theorem accepted_record (v : Verdict) : (x.record bid v).accepted.length =
    x.accepted.length + if v.status = .accepted then 1 else 0 := by
  unfold Admission.record
  by_cases accepted : v.status = .accepted
  · simp [accepted]
  · rw [if_neg accepted, if_neg accepted]
    split <;> rfl

theorem activeCount_decideAll_le (credits : Dict TaskId Rat) (rank : Nat)
    (items : List RankedBid) : (a.decideAll now credits rank items x s).2.activeCount + x.accepted.length ≤
      s.activeCount + (a.decideAll now credits rank items x s).1.accepted.length := by
  induction items generalizing rank x s with
  | nil => exact le_refl _
  | cons item items ih =>
      have one : (a.decideBid now credits rank item x s).2.activeCount ≤ s.activeCount +
          if (a.verdict x item.bid).status = .accepted then 1 else 0 :=
        activeCount_decide_le _ _ _ _
      have more : (a.decideBid now credits rank item x s).1.accepted.length =
          x.accepted.length + if (a.verdict x item.bid).status = .accepted then 1 else 0 :=
        accepted_record _
      have rest := ih (rank + 1) (x := (a.decideBid now credits rank item x s).1)
        (s := (a.decideBid now credits rank item x s).2)
      rw [BidArbiter.decideAll_cons]
      omega

theorem activeCount_printed_le (printed : List Timestamp) :
    (printed.foldl (fun s now => (s.expireLocked now).2) s).activeCount ≤ s.activeCount := by
  induction printed generalizing s with
  | nil => exact le_refl _
  | cons now printed ih => exact ih.trans activeCount_expireLocked_le

/-- What a pass that accepts a bid leaves within the limits of the node. -/
structure Safe (a : BidArbiter) (registry : List TaskEntry) (after : BidStore) (auction : Auction) :
    Prop where
  slots : ∀ capacity ∈ a.capacity,
    countOwned registry a.localNodeId + after.activeCount ≤ capacity
  cpu : ∀ limit ∈ a.nodeResources.cpuCores, 0 < auction.admission.demand.cpuCores →
    (sumRequests (ownedResourceRequests registry a.localNodeId)).cpuCores +
      (sumRequests (auction.reservations.map (·.resourceRequest))).cpuCores +
      auction.admission.demand.cpuCores ≤ limit
  memory : ∀ limit ∈ a.nodeResources.memoryMb, 0 < auction.admission.demand.memoryMb →
    (sumRequests (ownedResourceRequests registry a.localNodeId)).memoryMb +
      (sumRequests (auction.reservations.map (·.resourceRequest))).memoryMb +
      auction.admission.demand.memoryMb ≤ limit
  gpu : ∀ limit ∈ a.nodeResources.gpuCount, 0 < auction.admission.demand.gpuCount →
    (sumRequests (ownedResourceRequests registry a.localNodeId)).gpuCount +
      (sumRequests (auction.reservations.map (·.resourceRequest))).gpuCount +
      auction.admission.demand.gpuCount ≤ limit
  tasks : (auction.admission.accepted.map (·.taskId)).Nodup

theorem length_activeReservations : (s.activeReservations now).1.length =
    (s.activeReservations now).2.activeCount := by
  unfold activeReservations activeCount
  rw [List.countP_eq_length_filter]

theorem activeCount_decideWindow_le (a : BidArbiter) (registry : List TaskEntry) (s : BidStore)
    (clock : Clock) (bids : List BidRecord) :
    (a.decideWindow registry clock bids s).2.activeCount ≤
      (a.decideWindow registry clock bids s).1.reservations.length +
        (a.decideWindow registry clock bids s).1.admission.accepted.length := by
  unfold BidArbiter.decideWindow
  apply activeCount_printed_le _ |>.trans
  rw [activeCount_applyCreditOutcomes]
  dsimp only
  rw [length_activeReservations]
  exact (Nat.le_add_right _ _).trans (activeCount_decideAll_le _ _ _)

theorem fits_decideWindow (a : BidArbiter) (registry : List TaskEntry) (s : BidStore) (clock : Clock)
    (bids : List BidRecord) :
    Fits a (countOwned registry a.localNodeId +
        (a.decideWindow registry clock bids s).1.reservations.length)
      (sumRequests (ownedResourceRequests registry a.localNodeId ++
        (a.decideWindow registry clock bids s).1.reservations.map (·.resourceRequest)))
      (a.decideWindow registry clock bids s).1.admission :=
  fits_decideAll _ _ _ (fits_availableResources _)

theorem safe_decideWindow (a : BidArbiter) (registry : List TaskEntry) (s : BidStore) (clock : Clock)
    (bids : List BidRecord)
    (some_ : (a.decideWindow registry clock bids s).1.admission.accepted ≠ []) :
    Safe a registry (a.decideWindow registry clock bids s).2
      (a.decideWindow registry clock bids s).1 := by
  have fits := fits_decideWindow a registry s clock bids
  have count := activeCount_decideWindow_le a registry s clock bids
  rw [sumRequests_append] at fits
  refine ⟨?_, ?_, ?_, ?_, fits.tasks⟩
  · intro capacity limited
    have room := fits.room capacity limited some_
    omega
  · intro limit limited positive
    exact fits.cpu.within limit limited positive
  · intro limit limited positive
    have within := fits.memory.within limit (Option.mem_map_of_mem _ limited)
      (Nat.cast_pos.mpr positive)
    exact_mod_cast within
  · intro limit limited positive
    have within := fits.gpu.within limit (Option.mem_map_of_mem _ limited)
      (Nat.cast_pos.mpr positive)
    exact_mod_cast within

/-- Whatever the strategy, the credits, the bids, the owned tasks and the reservations. -/
theorem runOnce_safe {clock : Clock} {auction : Auction}
    (decided : (a.runOnce registry clock s).auction = some auction)
    (some_ : auction.admission.accepted ≠ []) :
    Safe a registry (a.runOnce registry clock s).store auction := by
  obtain ⟨bids, -, window⟩ := BidArbiter.runOnce_decides decided
  have safe := safe_decideWindow a registry (BidArbiter.opened clock s) clock bids
  rw [window] at safe
  exact safe some_

end

/-- A node with one slot and four cores, and one bid for it. -/
theorem fourCores_pos : ∀ limit ∈ some (4 : Rat), 0 < limit := by norm_num

theorem unlimitedCores_pos : ∀ limit ∈ (none : Option Rat), 0 < limit := by simp

theorem unlimited_pos : ∀ limit ∈ (none : Option Nat), 0 < limit := by simp

def smallArbiter : BidArbiter where
  localNodeId := "b"
  capacity := some 1
  bidWindow := 2
  nodeResources := {
    cpuCores := some 4
    cpuCores_pos := fourCores_pos
    memoryMb_pos := unlimited_pos }
  auctionPolicy := defaultPolicy
  checkCompatibility := fun _ => {}

def oneBid : BidStore :=
  (BidStore.submit ⟨"bid", "epoch", "t", none, "a", "b", 1 / 2, 0⟩ 0 { reservationTtl := 30 }).2

theorem oneBid_safe : ∃ auction,
    (smallArbiter.runOnce [] ⟨5, 5, 5, [5]⟩ oneBid).auction = some auction ∧
      auction.admission.demand.cpuCores = 1 ∧
      Safe smallArbiter [] (smallArbiter.runOnce [] ⟨5, 5, 5, [5]⟩ oneBid).store auction := by
  have some_ : (smallArbiter.runOnce [] ⟨5, 5, 5, [5]⟩ oneBid).auction.isSome := by decide +kernel
  obtain ⟨auction, decided⟩ := Option.isSome_iff_exists.mp some_
  have demand : (smallArbiter.runOnce [] ⟨5, 5, 5, [5]⟩ oneBid).auction.map
      (·.admission.demand.cpuCores) = some 1 := by decide +kernel
  have accepted : (smallArbiter.runOnce [] ⟨5, 5, 5, [5]⟩ oneBid).auction.map
      (·.admission.accepted.length) = some 1 := by decide +kernel
  rw [decided, Option.map_some, Option.some.injEq] at demand accepted
  refine ⟨auction, decided, demand, runOnce_safe decided fun none_ => ?_⟩
  rw [none_] at accepted
  cases accepted

end Magellan.Bidding
