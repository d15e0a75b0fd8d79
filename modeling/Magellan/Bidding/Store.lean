import Magellan.State.TaskModels

/-!
# Capacity reservations

The lease part of a bid record and the operations of the store on it. A store is the map of its
records; every operation that changes it also writes it to its file, so a restart reads it back.
-/

namespace Magellan

inductive BidStatus where
  | pending
  | accepted
  | activating
  | consumed
  | rejected
  | cancelled
  | expired
  deriving DecidableEq, Repr

def BidStatus.value : BidStatus → String
  | .pending => "pending"
  | .accepted => "accepted"
  | .activating => "activating"
  | .consumed => "consumed"
  | .rejected => "rejected"
  | .cancelled => "cancelled"
  | .expired => "expired"

/-- The statuses that hold capacity. -/
def BidStatus.isActiveReservation : BidStatus → Bool
  | .accepted | .activating => true
  | _ => false

structure BidRecord where
  bidId : BidId
  taskId : TaskId
  sourceNodeId : NodeId
  destinationNodeId : NodeId
  status : BidStatus := .pending
  receivedAtUtc : Timestamp
  decidedAtUtc : Option Timestamp := none
  decisionReason : Option String := none
  reservationExpiresAtUtc : Option Timestamp := none
  activationStartedAtUtc : Option Timestamp := none
  consumedAtUtc : Option Timestamp := none
  deriving DecidableEq

abbrev Bids := BidId → Option BidRecord

namespace Bids

def set (b : Bids) (bidId : BidId) (r : BidRecord) : Bids :=
  fun i => if i = bidId then some r else b i

def unknownBid (bidId : BidId) : Exn := ⟨.keyError, s!"Unknown bid: {bidId}"⟩

def expireRecord (now : Timestamp) (r : BidRecord) : BidRecord :=
  match r.reservationExpiresAtUtc with
  | none => r
  | some expires =>
      if r.status.isActiveReservation ∧ expires ≤ now then
        { r with
          status := .expired
          decidedAtUtc := some now
          decisionReason := some "Capacity reservation expired before activation completed" }
      else r

def expireLocked (now : Timestamp) (b : Bids) : Bids := fun i => (b i).map (expireRecord now)

def submit (r : BidRecord) (b : Bids) : Bids :=
  match b r.bidId with
  | some _ => b
  | none => b.set r.bidId { r with status := .pending }

/-- The arbiter's decision on a pending bid; `ttl` is the store's reservation time. -/
def decide (ttl : Nat) (bidId : BidId) (accept : Bool) (reason : String) (now : Timestamp)
    (b : Bids) : Bids :=
  let b := b.expireLocked now
  match b bidId with
  | none => b
  | some r =>
      if r.status ≠ .pending then b
      else if accept then
        b.set bidId { r with
          status := .accepted
          decidedAtUtc := some now
          decisionReason := some reason
          reservationExpiresAtUtc := some (now + ttl) }
      else
        b.set bidId { r with
          status := .rejected
          decidedAtUtc := some now
          decisionReason := some reason }

def renew (ttl : Nat) (bidId : BidId) (now : Timestamp) (b : Bids) : Bids :=
  let b := b.expireLocked now
  match b bidId with
  | none => b
  | some r =>
      if r.status.isActiveReservation then
        b.set bidId { r with reservationExpiresAtUtc := some (now + ttl) }
      else b

/-- Expiry is applied, and written, also when the call then raises. -/
def beginActivation (bidId : BidId) (taskId : TaskId) (sourceNodeId destinationNodeId : NodeId)
    (now : Timestamp) (b : Bids) : Except Exn BidRecord × Bids :=
  let b := b.expireLocked now
  match b bidId with
  | none => (.error (unknownBid bidId), b)
  | some r =>
      if ¬ (r.taskId = taskId ∧ r.sourceNodeId = sourceNodeId ∧
          r.destinationNodeId = destinationNodeId) then
        (.error (runtimeError s!"Reservation {bidId} does not match the activation request"), b)
      else if r.status ≠ .accepted then
        (.error (runtimeError
          s!"Reservation {bidId} is not activatable; status={r.status.value}"), b)
      else
        let r := { r with
          status := .activating
          activationStartedAtUtc := some now
          decisionReason := some "Reservation claimed by destination activation" }
        (.ok r, b.set bidId r)

def consume (bidId : BidId) (now : Timestamp) (b : Bids) : Except Exn BidRecord × Bids :=
  match b bidId with
  | none => (.error (unknownBid bidId), b)
  | some r =>
      if r.status ≠ .activating then
        (.error (runtimeError s!"Cannot consume bid {bidId}; status={r.status.value}"), b)
      else
        let r := { r with
          status := .consumed
          consumedAtUtc := some now
          reservationExpiresAtUtc := none
          decisionReason := some "Destination activation completed" }
        (.ok r, b.set bidId r)

def cancel (bidId : BidId) (reason : String) (now : Timestamp) (b : Bids) :
    Except Exn BidRecord × Bids :=
  match b bidId with
  | none => (.error (unknownBid bidId), b)
  | some r =>
      if r.status = .consumed ∨ r.status = .rejected ∨ r.status = .expired ∨
          r.status = .cancelled then (.ok r, b)
      else
        let r := { r with
          status := .cancelled
          decidedAtUtc := some now
          reservationExpiresAtUtc := none
          decisionReason := some reason }
        (.ok r, b.set bidId r)

end Bids

end Magellan
