import Mathlib.Data.List.Sort
import Mathlib.Data.String.Basic
import Magellan.Data.Dict
import Magellan.Bidding.Models

/-!
# The bid store

The records and credits of one daemon, and the file that holds them. An operation runs under the lock
of the store; it returns a value or raises, and what it changed before it raised stays changed.
-/

namespace Magellan.Bidding

/-! ## The state file -/

/-- The JSON object of a record. -/
structure RecordDump where
  request : BidRequest
  status : String
  receivedAtUtc : Timestamp
  decidedAtUtc : Option Timestamp
  decisionReason : Option String
  reservationExpiresAtUtc : Option Timestamp
  activationStartedAtUtc : Option Timestamp
  consumedAtUtc : Option Timestamp
  auctionStrategy : Option String
  auctionRank : Option Int
  auctionCreditBefore : Rat
  auctionCreditAfter : Rat
  resourceFit : Option Bool
  compatibilityFit : Option Bool
  compatibilityReasons : List String
  auctionMetrics : List (String × MetricValue)
  deriving DecidableEq

namespace BidRecord

def request (r : BidRecord) : BidRequest where
  bidId := r.bidId
  epochId := r.epochId
  taskId := r.taskId
  taskContext := r.taskContext
  sourceNodeId := r.sourceNodeId
  destinationNodeId := r.destinationNodeId
  candidateScore := r.candidateScore
  submittedAtUtc := r.submittedAtUtc

/-- `record.model_dump(mode="json")` -/
def modelDump (r : BidRecord) : RecordDump where
  request := r.request
  status := r.status.value
  receivedAtUtc := r.receivedAtUtc
  decidedAtUtc := r.decidedAtUtc
  decisionReason := r.decisionReason
  reservationExpiresAtUtc := r.reservationExpiresAtUtc
  activationStartedAtUtc := r.activationStartedAtUtc
  consumedAtUtc := r.consumedAtUtc
  auctionStrategy := r.auctionStrategy.map AuctionStrategy.value
  auctionRank := r.auctionRank
  auctionCreditBefore := r.auctionCreditBefore
  auctionCreditAfter := r.auctionCreditAfter
  resourceFit := r.resourceFit
  compatibilityFit := r.compatibilityFit
  compatibilityReasons := r.compatibilityReasons
  auctionMetrics := r.auctionMetrics

/-- The bounds that the model declares and an assignment does not check. -/
structure Valid (r : BidRecord) : Prop where
  rank : ∀ rank ∈ r.auctionRank, 1 ≤ rank
  creditBefore : 0 ≤ r.auctionCreditBefore
  creditAfter : 0 ≤ r.auctionCreditAfter

instance (r : BidRecord) : Decidable r.Valid :=
  decidable_of_iff ((∀ rank ∈ r.auctionRank, 1 ≤ rank) ∧ 0 ≤ r.auctionCreditBefore ∧
    0 ≤ r.auctionCreditAfter) ⟨fun ⟨a, b, c⟩ => ⟨a, b, c⟩, fun ⟨a, b, c⟩ => ⟨a, b, c⟩⟩

/-- `BidRecord.model_validate(item)`; `none` where it raises. -/
def modelValidate (d : RecordDump) : Option BidRecord := do
  let status ← BidStatus.ofValue d.status
  let auctionStrategy ← AuctionStrategy.ofOptional d.auctionStrategy
  let record : BidRecord := {
    bidId := d.request.bidId
    taskId := d.request.taskId
    sourceNodeId := d.request.sourceNodeId
    destinationNodeId := d.request.destinationNodeId
    status := status
    receivedAtUtc := d.receivedAtUtc
    decidedAtUtc := d.decidedAtUtc
    decisionReason := d.decisionReason
    reservationExpiresAtUtc := d.reservationExpiresAtUtc
    activationStartedAtUtc := d.activationStartedAtUtc
    consumedAtUtc := d.consumedAtUtc
    epochId := d.request.epochId
    taskContext := d.request.taskContext
    candidateScore := d.request.candidateScore
    submittedAtUtc := d.request.submittedAtUtc
    auctionStrategy := auctionStrategy
    auctionRank := d.auctionRank
    auctionCreditBefore := d.auctionCreditBefore
    auctionCreditAfter := d.auctionCreditAfter
    resourceFit := d.resourceFit
    compatibilityFit := d.compatibilityFit
    compatibilityReasons := d.compatibilityReasons
    auctionMetrics := d.auctionMetrics }
  if record.Valid then some record else none

end BidRecord

/-- The parsed file: a list of records in the stores that knew no auctions. -/
inductive StateFile where
  | list (records : List RecordDump)
  | object (records : List RecordDump) (credits : List (TaskId × Rat))

def StateFile.recordValues : StateFile → List RecordDump
  | .list records | .object records _ => records

def StateFile.creditValues : StateFile → List (TaskId × Rat)
  | .list _ => []
  | .object _ credits => credits

/-! ## The store -/

structure BidStore where
  reservationTtl : Nat
  records : Dict BidId BidRecord := .empty
  credits : Dict TaskId Rat := .empty
  stateFile : Option StateFile := none

namespace BidStore

/-- A store on the file; `none` where a record in it is not valid. -/
def load (reservationTtl : Nat) : Option StateFile → Option BidStore
  | none => some { reservationTtl }
  | some file => do
      let records ← file.recordValues.mapM BidRecord.modelValidate
      some {
        reservationTtl := reservationTtl
        records := .ofList (records.map fun record => (record.bidId, record))
        credits := .ofList (file.creditValues.map fun (taskId, value) => (taskId, max 0 value))
        stateFile := some file }

def persistLocked (s : BidStore) : BidStore :=
  { s with stateFile := some (.object (s.records.values.map BidRecord.modelDump)
      (s.credits.entries.insertionSort fun a b => a.1 ≤ b.1)) }

def credit (s : BidStore) (taskId : TaskId) : Rat := s.credits.getD taskId 0

def setRecord (s : BidStore) (bidId : BidId) (record : BidRecord) : BidStore :=
  { s with records := s.records.set bidId record }

end BidStore

/-- The reservation has run out at `now`. -/
def BidRecord.lapsed (now : Timestamp) (r : BidRecord) : Bool :=
  r.status.isActiveReservation && r.reservationExpiresAtUtc.any (· ≤ now)

def BidRecord.expire (now : Timestamp) (r : BidRecord) : BidRecord :=
  { r with
    status := .expired
    decidedAtUtc := some now
    decisionReason := some "Capacity reservation expired before activation completed" }

def BidRecord.expired (now : Timestamp) (r : BidRecord) : BidRecord :=
  if r.lapsed now then r.expire now else r

namespace BidStore

def expireLocked (now : Timestamp) (s : BidStore) : List BidRecord × BidStore :=
  let expired := (s.records.values.filter (BidRecord.lapsed now)).map (BidRecord.expire now)
  if expired = [] then ([], s)
  else
    (expired, persistLocked { s with
      records := s.records.map (BidRecord.expired now) })

def submit (request : BidRequest) (now : Timestamp) (s : BidStore) : BidRecord × BidStore :=
  match s.records.get? request.bidId with
  | some existing => (existing, s)
  | none =>
      let record := BidRecord.ofRequest request now
      (record, persistLocked (s.setRecord record.bidId record))

def get (bidId : BidId) (now : Timestamp) (s : BidStore) : Option BidRecord × BidStore :=
  let s := (s.expireLocked now).2
  (s.records.get? bidId, s)

/-- The newest first. -/
def listRecords (now : Timestamp) (s : BidStore) : List BidRecord × BidStore :=
  let s := (s.expireLocked now).2
  (s.records.values.insertionSort fun a b => b.receivedAtUtc ≤ a.receivedAtUtc, s)

def pendingRecords (now : Timestamp) (s : BidStore) : List BidRecord × BidStore :=
  let (records, s) := s.listRecords now
  ((records.filter (·.status = .pending)).insertionSort
    fun a b => a.receivedAtUtc ≤ b.receivedAtUtc, s)

def activeReservations (now : Timestamp) (s : BidStore) : List BidRecord × BidStore :=
  let s := (s.expireLocked now).2
  (s.records.values.filter (·.status.isActiveReservation), s)

def activeReservationCount (now : Timestamp) (s : BidStore) : Nat × BidStore :=
  let s := (s.expireLocked now).2
  (s.records.values.countP (·.status.isActiveReservation), s)

def expireReservations (now : Timestamp) (s : BidStore) : List BidRecord × BidStore :=
  s.expireLocked now

/-- What the arbiter reports with a decision. -/
structure AuctionDetails where
  auctionStrategy : Option AuctionStrategy := none
  auctionRank : Option Int := none
  auctionCreditBefore : Rat := 0
  resourceFit : Option Bool := none
  compatibilityFit : Option Bool := none
  compatibilityReasons : List String := []
  auctionMetrics : List (String × MetricValue) := []

/-- The record of a pending bid after the decision. -/
def decided (ttl : Nat) (status : BidStatus) (reason : String) (now : Timestamp)
    (details : AuctionDetails) (r : BidRecord) : BidRecord :=
  { r with
    status := status
    decidedAtUtc := some now
    decisionReason := some reason
    reservationExpiresAtUtc :=
      if status = .accepted then some (now + ttl) else r.reservationExpiresAtUtc
    auctionStrategy := details.auctionStrategy
    auctionRank := details.auctionRank
    auctionCreditBefore := max 0 details.auctionCreditBefore
    auctionCreditAfter := max 0 details.auctionCreditBefore
    resourceFit := details.resourceFit
    compatibilityFit := details.compatibilityFit
    compatibilityReasons := details.compatibilityReasons
    auctionMetrics := details.auctionMetrics }

def decide (bidId : BidId) (status : BidStatus) (reason : String) (now : Timestamp)
    (details : AuctionDetails) (s : BidStore) : Except Exn BidRecord × BidStore :=
  if status ≠ .accepted ∧ status ≠ .rejected then
    (.error ⟨.valueError, "An arbiter decision must accept or reject a bid"⟩, s)
  else
    let s := (s.expireLocked now).2
    match s.records.get? bidId with
    | none => (.error (Bids.unknownBid bidId), s)
    | some record =>
        if record.status ≠ .pending then (.ok record, s)
        else
          let record := decided s.reservationTtl status reason now details record
          (.ok record, persistLocked (s.setRecord bidId record))

def renew (bidId : BidId) (now : Timestamp) (s : BidStore) : Except Exn BidRecord × BidStore :=
  let s := (s.expireLocked now).2
  match s.records.get? bidId with
  | none => (.error (Bids.unknownBid bidId), s)
  | some record =>
      if ¬ record.status.isActiveReservation then
        (.error (runtimeError s!"Cannot renew bid {bidId}; status={record.status.value}"), s)
      else
        let record := { record with reservationExpiresAtUtc := some (now + s.reservationTtl) }
        (.ok record, persistLocked (s.setRecord bidId record))

def beginActivation (bidId : BidId) (taskId : TaskId) (sourceNodeId destinationNodeId : NodeId)
    (now : Timestamp) (s : BidStore) : Except Exn BidRecord × BidStore :=
  let s := (s.expireLocked now).2
  match s.records.get? bidId with
  | none => (.error (Bids.unknownBid bidId), s)
  | some record =>
      if ¬ (record.taskId = taskId ∧ record.sourceNodeId = sourceNodeId ∧
          record.destinationNodeId = destinationNodeId) then
        (.error (runtimeError s!"Reservation {bidId} does not match the activation request"), s)
      else if record.status ≠ .accepted then
        (.error (runtimeError
          s!"Reservation {bidId} is not activatable; status={record.status.value}"), s)
      else
        let record := { record with
          status := .activating
          activationStartedAtUtc := some now
          decisionReason := some "Reservation claimed by destination activation" }
        (.ok record, persistLocked (s.setRecord bidId record))

def consume (bidId : BidId) (now : Timestamp) (s : BidStore) : Except Exn BidRecord × BidStore :=
  match s.records.get? bidId with
  | none => (.error (Bids.unknownBid bidId), s)
  | some record =>
      if record.status ≠ .activating then
        (.error (runtimeError s!"Cannot consume bid {bidId}; status={record.status.value}"), s)
      else
        let record := { record with
          status := .consumed
          consumedAtUtc := some now
          reservationExpiresAtUtc := none
          decisionReason := some "Destination activation completed" }
        (.ok record, persistLocked (s.setRecord bidId record))

def cancel (bidId : BidId) (reason : String) (now : Timestamp) (s : BidStore) :
    Except Exn BidRecord × BidStore :=
  match s.records.get? bidId with
  | none => (.error (Bids.unknownBid bidId), s)
  | some record =>
      if record.status = .consumed ∨ record.status = .rejected ∨ record.status = .expired ∨
          record.status = .cancelled then (.ok record, s)
      else
        let record := { record with
          status := .cancelled
          decidedAtUtc := some now
          reservationExpiresAtUtc := none
          decisionReason := some reason }
        (.ok record, persistLocked (s.setRecord bidId record))

/-- The credit of the bid's task after the auction, also noted in the bid. -/
def creditOutcome (after : Rat → Rat) (s : BidStore) (bidId : BidId) : BidStore :=
  match s.records.get? bidId with
  | none => s
  | some record =>
      let value := after (s.credit record.taskId)
      { s with
        credits := s.credits.set record.taskId value
        records := s.records.set bidId { record with auctionCreditAfter := value } }

/-- A bid that shows no credit shows that of its task. -/
def showCredit (s : BidStore) (bidId : BidId) : BidStore :=
  match s.records.get? bidId with
  | none => s
  | some record =>
      if record.auctionCreditAfter = 0 then
        s.setRecord bidId { record with auctionCreditAfter := s.credit record.taskId }
      else s

/-- The two sets of bids, each in the order of its iteration. -/
def applyCreditOutcomes (acceptedBidIds rejectedCompetitionBidIds : List BidId)
    (increment maximum acceptedDecay : Rat) (s : BidStore) : BidStore :=
  let s := acceptedBidIds.foldl (creditOutcome fun before => max 0 (before * acceptedDecay)) s
  let s := rejectedCompetitionBidIds.foldl
    (creditOutcome fun before => min maximum (before + increment)) s
  persistLocked ((acceptedBidIds ++ rejectedCompetitionBidIds).foldl showCredit s)

section

variable {s : BidStore} {now : Timestamp}

theorem records_expireLocked :
    (s.expireLocked now).2.records = s.records.map (BidRecord.expired now) := by
  unfold expireLocked
  by_cases none_ : (s.records.values.filter (BidRecord.lapsed now)).map (BidRecord.expire now) = []
  · rw [if_pos none_]
    rw [List.map_eq_nil_iff, List.filter_eq_nil_iff] at none_
    apply Dict.ext
    symm
    apply (List.map_congr_left _).trans (List.map_id _)
    rintro ⟨b, r⟩ member
    have kept : ¬ r.lapsed now := none_ r (List.mem_map.mpr ⟨_, member, rfl⟩)
    simp [BidRecord.expired, kept]
  · rw [if_neg none_]
    rfl

@[simp] theorem get?_expireLocked (bidId : BidId) :
    (s.expireLocked now).2.records.get? bidId =
      (s.records.get? bidId).map (BidRecord.expired now) := by
  rw [records_expireLocked, Dict.get?_map]

theorem reservationTtl_expireLocked :
    (s.expireLocked now).2.reservationTtl = s.reservationTtl := by
  unfold expireLocked
  dsimp only
  split <;> rfl

@[simp] theorem credits_expireLocked : (s.expireLocked now).2.credits = s.credits := by
  unfold expireLocked
  dsimp only
  split <;> rfl

end

end BidStore

end Magellan.Bidding
