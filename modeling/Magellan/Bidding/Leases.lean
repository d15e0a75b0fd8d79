import Magellan.Bidding.BidStore

/-!
# Reservations as the migrations see them

The migration service is modelled with the leases alone. Each operation of the store acts on them as
the operation of that model does.
-/

namespace Magellan.Bidding

open BidStore

def BidStore.leases (s : BidStore) : Bids := fun bidId => (s.records.get? bidId).map (·.lease)

section

variable {s : BidStore} {bidId : BidId} {now : Timestamp}

@[simp] theorem leases_persistLocked : (persistLocked s).leases = s.leases := rfl

@[simp] theorem leases_setRecord (record : BidRecord) :
    (s.setRecord bidId record).leases = s.leases.set bidId record.lease := by
  funext b
  simp only [leases, setRecord, Bids.set, Dict.get?_set]
  split <;> rfl

theorem lease_expired (record : BidRecord) :
    (record.expired now).lease = Bids.expireRecord now record.lease := by
  unfold BidRecord.expired BidRecord.lapsed Bids.expireRecord
  cases expiry : record.reservationExpiresAtUtc with
  | none => simp
  | some expires =>
      simp only [Option.any_some, Bool.and_eq_true, decide_eq_true_eq]
      by_cases lapsed : record.status.isActiveReservation ∧ expires ≤ now
      · rw [if_pos lapsed, if_pos lapsed]
        simp only [BidRecord.expire, expiry]
      · rw [if_neg lapsed, if_neg lapsed]

theorem leases_expireLocked : (s.expireLocked now).2.leases = s.leases.expireLocked now := by
  funext b
  simp only [leases, get?_expireLocked, Bids.expireLocked, Option.map_map]
  congr 1
  funext record
  exact lease_expired record

theorem leases_eq_some {record : BidRecord} (found : s.records.get? bidId = some record) :
    s.leases bidId = some record.lease := by
  simp only [leases, found, Option.map_some]

theorem leases_eq_none (found : s.records.get? bidId = none) : s.leases bidId = none := by
  simp only [leases, found, Option.map_none]

theorem leases_submit (request : BidRequest) :
    (s.submit request now).2.leases = s.leases.submit (BidRecord.ofRequest request now).lease := by
  unfold submit Bids.submit
  cases found : s.records.get? request.bidId with
  | some existing =>
      have lease := leases_eq_some found
      simp only [BidRecord.ofRequest, lease]
  | none =>
      have lease := leases_eq_none found
      simp only [BidRecord.ofRequest, lease, leases_persistLocked, leases_setRecord]

theorem leases_decide (accept : Bool) (reason : String) (details : AuctionDetails) :
    (s.decide bidId (if accept then .accepted else .rejected) reason now details).2.leases =
      s.leases.decide s.reservationTtl bidId accept reason now := by
  have known : ¬ ((if accept then BidStatus.accepted else .rejected) ≠ .accepted ∧
      (if accept then BidStatus.accepted else .rejected) ≠ .rejected) := by
    cases accept <;> simp
  have ttl : (s.expireLocked now).2.reservationTtl = s.reservationTtl := reservationTtl_expireLocked
  unfold BidStore.decide Bids.decide
  rw [if_neg known, ← leases_expireLocked]
  cases found : (s.expireLocked now).2.records.get? bidId with
  | none =>
      have lease := leases_eq_none found
      simp [found, lease]
  | some record =>
      have lease := leases_eq_some found
      simp only [found, lease]
      by_cases pending : record.status = .pending
      · cases accept <;> simp [pending, decided, ttl]
      · simp [pending]

theorem leases_renew :
    (s.renew bidId now).2.leases = s.leases.renew s.reservationTtl bidId now := by
  have ttl : (s.expireLocked now).2.reservationTtl = s.reservationTtl := reservationTtl_expireLocked
  unfold renew Bids.renew
  rw [← leases_expireLocked]
  cases found : (s.expireLocked now).2.records.get? bidId with
  | none =>
      have lease := leases_eq_none found
      simp [found, lease]
  | some record =>
      have lease := leases_eq_some found
      simp only [found, lease]
      by_cases active : record.status.isActiveReservation
      · simp [active, ttl]
      · simp [active]

theorem leases_beginActivation (taskId : TaskId) (source destination : NodeId) :
    ((s.beginActivation bidId taskId source destination now).1.map (·.lease),
      (s.beginActivation bidId taskId source destination now).2.leases) =
      s.leases.beginActivation bidId taskId source destination now := by
  unfold beginActivation Bids.beginActivation
  rw [← leases_expireLocked]
  cases found : (s.expireLocked now).2.records.get? bidId with
  | none =>
      have lease := leases_eq_none found
      simp [found, lease, Except.map]
  | some record =>
      have lease := leases_eq_some found
      simp only [found, lease]
      split_ifs <;> simp [Except.map]

theorem leases_consume :
    ((s.consume bidId now).1.map (·.lease), (s.consume bidId now).2.leases) =
      s.leases.consume bidId now := by
  unfold consume Bids.consume
  cases found : s.records.get? bidId with
  | none =>
      have lease := leases_eq_none found
      simp [lease, Except.map]
  | some record =>
      have lease := leases_eq_some found
      simp only [lease]
      split_ifs <;> simp [Except.map]

theorem leases_cancel (reason : String) :
    ((s.cancel bidId reason now).1.map (·.lease), (s.cancel bidId reason now).2.leases) =
      s.leases.cancel bidId reason now := by
  unfold cancel Bids.cancel
  cases found : s.records.get? bidId with
  | none =>
      have lease := leases_eq_none found
      simp [lease, Except.map]
  | some record =>
      have lease := leases_eq_some found
      simp only [lease]
      split_ifs <;> simp [Except.map]

end

end Magellan.Bidding
