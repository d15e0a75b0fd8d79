import Magellan.Bidding.BidStore

/-!
# The life of a bid

What any sequence of operations of the store, with any times and with restarts from the file between
them, does to the status of a bid and to the file.
-/

namespace Magellan.Bidding

open BidStore

/-! ## Operations and their history -/

inductive Operation where
  | submit (request : BidRequest) (now : Timestamp)
  | get (bidId : BidId) (now : Timestamp)
  | listRecords (now : Timestamp)
  | pendingRecords (now : Timestamp)
  | activeReservations (now : Timestamp)
  | activeReservationCount (now : Timestamp)
  | expireReservations (now : Timestamp)
  | decide (bidId : BidId) (status : BidStatus) (reason : String) (now : Timestamp)
      (details : AuctionDetails)
  | renew (bidId : BidId) (now : Timestamp)
  | beginActivation (bidId : BidId) (taskId : TaskId) (sourceNodeId destinationNodeId : NodeId)
      (now : Timestamp)
  | consume (bidId : BidId) (now : Timestamp)
  | cancel (bidId : BidId) (reason : String) (now : Timestamp)
  | creditsSnapshot
  | creditFor (taskId : TaskId)
  | applyCreditOutcomes (acceptedBidIds rejectedCompetitionBidIds : List BidId)
      (increment maximum acceptedDecay : Rat)
  | reload

/-- What the callers pass: the ranks of an auction are counted from one, and the increment and the
maximum are those of an auction policy. -/
def Operation.Admitted : Operation → Prop
  | .decide _ _ _ _ details => ∀ rank ∈ details.auctionRank, 1 ≤ rank
  | .applyCreditOutcomes _ _ increment maximum _ => 0 < increment ∧ 0 < maximum
  | _ => True

/-- The outcome without the value returned, and the store afterwards. -/
def Operation.perform (s : BidStore) : Operation → Except Exn Unit × BidStore
  | .submit request now => (.ok (), (s.submit request now).2)
  | .get bidId now => (.ok (), (s.get bidId now).2)
  | .listRecords now => (.ok (), (s.listRecords now).2)
  | .pendingRecords now => (.ok (), (s.pendingRecords now).2)
  | .activeReservations now => (.ok (), (s.activeReservations now).2)
  | .activeReservationCount now => (.ok (), (s.activeReservationCount now).2)
  | .expireReservations now => (.ok (), (s.expireReservations now).2)
  | .decide bidId status reason now details =>
      let (outcome, s) := s.decide bidId status reason now details
      (outcome.map fun _ => (), s)
  | .renew bidId now =>
      let (outcome, s) := s.renew bidId now
      (outcome.map fun _ => (), s)
  | .beginActivation bidId taskId sourceNodeId destinationNodeId now =>
      let (outcome, s) := s.beginActivation bidId taskId sourceNodeId destinationNodeId now
      (outcome.map fun _ => (), s)
  | .consume bidId now =>
      let (outcome, s) := s.consume bidId now
      (outcome.map fun _ => (), s)
  | .cancel bidId reason now =>
      let (outcome, s) := s.cancel bidId reason now
      (outcome.map fun _ => (), s)
  | .creditsSnapshot => (.ok (), s)
  | .creditFor _ => (.ok (), s)
  | .applyCreditOutcomes accepted rejected increment maximum decay =>
      (.ok (), s.applyCreditOutcomes accepted rejected increment maximum decay)
  | .reload =>
      match load s.reservationTtl s.stateFile with
      | some loaded => (.ok (), loaded)
      | none => (.error ⟨.valueError, "Invalid bid record"⟩, s)

structure Event where
  operation : Operation
  before : BidStore
  outcome : Except Exn Unit
  after : BidStore

def event (o : Operation) (s : BidStore) : Event := ⟨o, s, (o.perform s).1, (o.perform s).2⟩

def runAll (operations : List Operation) (s : BidStore) : BidStore :=
  operations.foldl (fun s o => (o.perform s).2) s

def history : List Operation → BidStore → List Event
  | [], _ => []
  | o :: operations, s => event o s :: history operations (o.perform s).2

def BidStore.status? (s : BidStore) (bidId : BidId) : Option BidStatus :=
  (s.records.get? bidId).map (·.status)

/-- A successful activation of the bid. -/
def Event.begins (bidId : BidId) (e : Event) : Bool :=
  match e.operation, e.outcome with
  | .beginActivation b .., .ok _ => b = bidId
  | _, _ => false

def Event.consumes (bidId : BidId) (e : Event) : Bool :=
  e.before.status? bidId ≠ some .consumed ∧ e.after.status? bidId = some .consumed

/-- The activation is the one the bid was made for, in time. -/
def Event.Claims (bidId : BidId) (e : Event) : Prop :=
  ∃ record now expires, e.before.records.get? bidId = some record ∧
    e.operation = .beginActivation bidId record.taskId record.sourceNodeId
      record.destinationNodeId now ∧
    record.reservationExpiresAtUtc = some expires ∧ now < expires

/-- The file holds the records and the credits. -/
def BidStore.Reloads (s : BidStore) : Prop :=
  ∃ loaded, load s.reservationTtl s.stateFile = some loaded ∧ loaded.records = s.records ∧
    ∀ taskId, loaded.credits.get? taskId = s.credits.get? taskId

/-! ## Coherent stores -/

structure BidRecord.Coherent (bidId : BidId) (r : BidRecord) : Prop where
  key : r.bidId = bidId
  valid : r.Valid
  leased : r.status.isActiveReservation → r.reservationExpiresAtUtc ≠ none

structure BidStore.Coherent (s : BidStore) : Prop where
  records : ∀ bidId record, s.records.get? bidId = some record → record.Coherent bidId
  credits : ∀ taskId value, s.credits.get? taskId = some value → 0 ≤ value

structure BidStore.Sound (s : BidStore) : Prop extends s.Coherent where
  reloads : s.Reloads

section

variable {s : BidStore} {bidId : BidId} {record : BidRecord} {now : Timestamp}

theorem ofValue_value (status : BidStatus) : BidStatus.ofValue status.value = some status := by
  cases status <;> decide

theorem ofOptional_value (strategy : Option AuctionStrategy) :
    AuctionStrategy.ofOptional (strategy.map AuctionStrategy.value) = some strategy := by
  cases strategy with
  | none => rfl
  | some strategy => cases strategy <;> decide

theorem validate_dump (h : record.Valid) :
    BidRecord.modelValidate record.modelDump = some record := by
  unfold BidRecord.modelValidate
  have status : BidStatus.ofValue record.modelDump.status = some record.status :=
    ofValue_value record.status
  have strategy : AuctionStrategy.ofOptional record.modelDump.auctionStrategy =
      some record.auctionStrategy := ofOptional_value record.auctionStrategy
  rw [status, strategy]
  show (if record.Valid then some record else none) = some record
  exact if_pos h

theorem mapM_validate_dump (records : List BidRecord) (h : ∀ record ∈ records, record.Valid) :
    (records.map BidRecord.modelDump).mapM BidRecord.modelValidate = some records := by
  induction records with
  | nil => rfl
  | cons record records ih =>
      obtain ⟨valid, rest⟩ := List.forall_mem_cons.mp h
      rw [List.map_cons, List.mapM_cons, validate_dump valid, ih rest]
      rfl

/-- A dictionary is given by its values where they name their keys. -/
theorem ofList_values {d : Dict BidId BidRecord} (h : ∀ b r, d.get? b = some r → r.bidId = b) :
    Dict.ofList (d.values.map fun record => (record.bidId, record)) = d := by
  have entries : d.values.map (fun record => (record.bidId, record)) = d.entries := by
    unfold Dict.values
    rw [List.map_map]
    apply (List.map_congr_left _).trans (List.map_id d.entries)
    rintro ⟨b, r⟩ member
    have key := h b r (Dict.mem_entries_iff.mp member)
    simp [key]
  apply Dict.ext
  rw [entries]
  exact Dict.entries_ofList d.nodup

theorem ofList_sorted {d : Dict TaskId Rat} (h : ∀ t v, d.get? t = some v → 0 ≤ v)
    {sorted : List (TaskId × Rat)} (perm : sorted.Perm d.entries) (t : TaskId) :
    (Dict.ofList (sorted.map fun e => (e.1, max 0 e.2))).get? t = d.get? t := by
  have same : (sorted.map fun e => (e.1, max 0 e.2)) = sorted := by
    apply (List.map_congr_left _).trans (List.map_id sorted)
    rintro ⟨t, v⟩ member
    have positive := h t v (Dict.mem_entries_iff.mp (perm.mem_iff.mp member))
    simp [max_eq_right positive]
  rw [same]
  apply Dict.get?_eq_of_perm
  rw [Dict.entries_ofList ((perm.map Prod.fst).nodup_iff.mpr d.nodup)]
  exact perm

theorem reloads_persistLocked (h : s.Coherent) : (persistLocked s).Reloads := by
  have valid : ∀ record ∈ s.records.values, record.Valid := by
    intro record member
    obtain ⟨b, found⟩ := Dict.mem_values_iff.mp member
    exact (h.records b record found).valid
  have read := mapM_validate_dump _ valid
  refine ⟨{
    reservationTtl := s.reservationTtl
    records := .ofList (s.records.values.map fun record => (record.bidId, record))
    credits := .ofList ((s.credits.entries.insertionSort fun a b => a.1 ≤ b.1).map
      fun e => (e.1, max 0 e.2))
    stateFile := (persistLocked s).stateFile }, ?_, ?_, fun taskId => ?_⟩
  · simp only [load, persistLocked, StateFile.recordValues, read]
    rfl
  · exact ofList_values fun b r found => (h.records b r found).key
  · exact ofList_sorted h.credits (List.perm_insertionSort _ _) taskId

theorem sound_persistLocked (h : s.Coherent) : (persistLocked s).Sound :=
  ⟨⟨h.records, h.credits⟩, reloads_persistLocked h⟩

theorem coherent_setRecord (h : s.Coherent) (one : record.Coherent bidId) :
    (s.setRecord bidId record).Coherent := by
  refine ⟨fun b r found => ?_, h.credits⟩
  simp only [setRecord, Dict.get?_set] at found
  split at found
  case isTrue same =>
    cases found
    rw [same]
    exact one
  case isFalse => exact h.records b r found

/-! ## Expiry -/

theorem coherent_expired (h : record.Coherent bidId) : (record.expired now).Coherent bidId := by
  unfold BidRecord.expired
  split
  · exact ⟨h.key, ⟨h.valid.rank, h.valid.creditBefore, h.valid.creditAfter⟩,
      by simp [BidRecord.expire, BidStatus.isActiveReservation]⟩
  · exact h

theorem sound_expireLocked (h : s.Sound) : (s.expireLocked now).2.Sound := by
  have coherent : (s.expireLocked now).2.Coherent := by
    refine ⟨fun b r found => ?_, fun t v found => ?_⟩
    · rw [get?_expireLocked, Option.map_eq_some_iff] at found
      obtain ⟨r, found, rfl⟩ := found
      exact coherent_expired (h.records b r found)
    · rw [credits_expireLocked] at found
      exact h.credits t v found
  unfold expireLocked at coherent ⊢
  dsimp only at coherent ⊢
  split at coherent
  case isTrue none_ => rwa [if_pos none_]
  case isFalse some_ =>
    rw [if_neg some_]
    exact sound_persistLocked ⟨coherent.records, coherent.credits⟩

/-! ## What an operation does to one record -/

/-- How the status of a bid can change; the flag is set where an activation claims the bid. -/
inductive StatusStep : Option BidStatus → Option BidStatus → Bool → Prop
  | same (status : Option BidStatus) : StatusStep status status false
  | submit : StatusStep none (some .pending) false
  | accept : StatusStep (some .pending) (some .accepted) false
  | reject : StatusStep (some .pending) (some .rejected) false
  | begin : StatusStep (some .accepted) (some .activating) true
  | consume : StatusStep (some .activating) (some .consumed) false
  | cancel {status : BidStatus} (open_ : ¬ status.IsFinal) :
      StatusStep (some status) (some .cancelled) false
  | expire {status : BidStatus} (active : status.isActiveReservation) :
      StatusStep (some status) (some .expired) false

theorem get?_of_expireLocked (found : (s.expireLocked now).2.records.get? bidId = some record)
    (open_ : record.status ≠ .expired) :
    s.records.get? bidId = some record ∧ record.lapsed now = false := by
  rw [get?_expireLocked, Option.map_eq_some_iff] at found
  obtain ⟨r, found, rfl⟩ := found
  unfold BidRecord.expired at open_ ⊢
  by_cases lapsed : r.lapsed now
  · rw [if_pos lapsed] at open_
    exact absurd rfl open_
  · rw [if_neg lapsed]
    exact ⟨found, by simpa using lapsed⟩

theorem status_expireLocked (b : BidId) :
    StatusStep (s.status? b) ((s.expireLocked now).2.status? b) false := by
  unfold BidStore.status?
  rw [get?_expireLocked]
  cases s.records.get? b with
  | none => exact .same _
  | some r =>
      simp only [Option.map_some, BidRecord.expired]
      by_cases lapsed : r.lapsed now
      · rw [if_pos lapsed]
        refine .expire ?_
        unfold BidRecord.lapsed at lapsed
        exact (Bool.and_eq_true_iff.mp lapsed).1
      · rw [if_neg lapsed]
        exact .same _

@[simp] theorem status?_persistLocked (b : BidId) : (persistLocked s).status? b = s.status? b := rfl

@[simp] theorem status?_setRecord (b : BidId) :
    (s.setRecord bidId record).status? b = if b = bidId then some record.status else s.status? b := by
  simp only [BidStore.status?, setRecord, Dict.get?_set]
  split <;> rfl

theorem status_modify {r : BidRecord} {claimed : Bool}
    (found : (s.expireLocked now).2.records.get? bidId = some record)
    (open_ : record.status ≠ .expired)
    (step : StatusStep (some record.status) (some r.status) claimed) (b : BidId) :
    StatusStep (s.status? b)
      ((persistLocked ((s.expireLocked now).2.setRecord bidId r)).status? b)
      (decide (bidId = b) && claimed) := by
  rw [status?_persistLocked, status?_setRecord]
  by_cases same : b = bidId
  · have before := (get?_of_expireLocked found open_).1
    rw [if_pos same, same]
    simp only [BidStore.status?, before, Option.map_some, decide_true, Bool.true_and]
    exact step
  · rw [if_neg same]
    simp only [Ne.symm same, decide_false, Bool.false_and]
    exact status_expireLocked b

theorem status_submit (request : BidRequest) (b : BidId) :
    StatusStep (s.status? b) ((s.submit request now).2.status? b) false := by
  unfold submit
  cases found : s.records.get? request.bidId with
  | some existing => exact .same _
  | none =>
      simp only [status?_persistLocked, status?_setRecord, BidRecord.ofRequest]
      by_cases same : b = request.bidId
      · have before : s.status? b = none := by
          unfold BidStore.status?
          rw [same, found]
          rfl
        rw [if_pos same, before]
        exact .submit
      · rw [if_neg same]
        exact .same _

theorem status_decide (status : BidStatus) (reason : String) (details : AuctionDetails)
    (b : BidId) :
    StatusStep (s.status? b) ((s.decide bidId status reason now details).2.status? b) false := by
  unfold BidStore.decide
  split
  case isTrue => exact .same _
  case isFalse known =>
    cases found : (s.expireLocked now).2.records.get? bidId with
    | none =>
        simp only [found]
        exact status_expireLocked b
    | some record =>
        simp only [found]
        by_cases pending : record.status = .pending
        · rw [if_neg (not_not.mpr pending)]
          have step : StatusStep (some record.status) (some status) false := by
            rw [pending]
            by_cases accepted : status = .accepted
            · rw [accepted]
              exact .accept
            · have rejected : status = .rejected := not_not.mp fun other => known ⟨accepted, other⟩
              rw [rejected]
              exact .reject
          simpa using status_modify found (by simp [pending])
            (r := decided _ status reason now details record) step b
        · rw [if_pos pending]
          exact status_expireLocked b

theorem status_renew (b : BidId) :
    StatusStep (s.status? b) ((s.renew bidId now).2.status? b) false := by
  unfold renew
  cases found : (s.expireLocked now).2.records.get? bidId with
  | none =>
      simp only [found]
      exact status_expireLocked b
  | some record =>
      simp only [found]
      by_cases active : record.status.isActiveReservation
      · rw [if_neg (not_not.mpr active)]
        have open_ : record.status ≠ .expired := by
          rintro expired
          rw [expired] at active
          cases active
        simpa using status_modify found open_ (.same _) b
      · rw [if_pos active]
        exact status_expireLocked b

theorem status_beginActivation (taskId : TaskId) (source destination : NodeId) (b : BidId) :
    StatusStep (s.status? b)
      ((s.beginActivation bidId taskId source destination now).2.status? b)
      (decide (bidId = b) && (s.beginActivation bidId taskId source destination now).1.isOk) := by
  unfold beginActivation
  cases found : (s.expireLocked now).2.records.get? bidId with
  | none => simpa [found, Except.isOk, Except.toBool] using status_expireLocked b
  | some record =>
      simp only [found]
      split
      case isTrue => simpa [Except.isOk, Except.toBool] using status_expireLocked b
      split
      case isTrue => simpa [Except.isOk, Except.toBool] using status_expireLocked b
      case isFalse accepted =>
        have accepted := not_not.mp accepted
        have step : StatusStep (some record.status) (some .activating) true := by
          rw [accepted]
          exact .begin
        exact status_modify found (by simp [accepted]) step b

theorem status_set {r : BidRecord} (found : s.records.get? bidId = some record)
    (step : StatusStep (some record.status) (some r.status) false) (b : BidId) :
    StatusStep (s.status? b) ((persistLocked (s.setRecord bidId r)).status? b) false := by
  rw [status?_persistLocked, status?_setRecord]
  by_cases same : b = bidId
  · rw [if_pos same, same]
    simp only [BidStore.status?, found, Option.map_some]
    exact step
  · rw [if_neg same]
    exact .same _

theorem status_consume (b : BidId) :
    StatusStep (s.status? b) ((s.consume bidId now).2.status? b) false := by
  unfold consume
  cases found : s.records.get? bidId with
  | none => exact .same _
  | some record =>
      dsimp only
      split
      case isTrue => exact .same _
      case isFalse activating =>
        have step : StatusStep (some record.status) (some .consumed) false := by
          rw [not_not.mp activating]
          exact .consume
        exact status_set found step b

theorem status_cancel (reason : String) (b : BidId) :
    StatusStep (s.status? b) ((s.cancel bidId reason now).2.status? b) false := by
  unfold cancel
  cases found : s.records.get? bidId with
  | none => exact .same _
  | some record =>
      dsimp only
      split
      case isTrue => exact .same _
      case isFalse settled =>
        have open_ : ¬ record.status.IsFinal := by
          unfold BidStatus.IsFinal
          tauto
        exact status_set found (.cancel open_) b

/-! ## Credits -/

theorem status_creditOutcome (after : Rat → Rat) (b b' : BidId) :
    (creditOutcome after s b).status? b' = s.status? b' := by
  unfold creditOutcome
  cases found : s.records.get? b with
  | none => rfl
  | some record =>
      simp only [BidStore.status?, Dict.get?_set]
      split
      case isTrue same => rw [same, found, Option.map_some, Option.map_some]
      case isFalse => rfl

theorem status_showCredit (b b' : BidId) : (showCredit s b).status? b' = s.status? b' := by
  unfold showCredit
  cases found : s.records.get? b with
  | none => rfl
  | some record =>
      dsimp only
      split
      case isTrue =>
        rw [status?_setRecord]
        split
        case isTrue same => simp only [same, BidStore.status?, found, Option.map_some]
        case isFalse => rfl
      case isFalse => rfl

theorem status_applyCreditOutcomes (accepted rejected : List BidId) (increment maximum decay : Rat)
    (b : BidId) :
    (s.applyCreditOutcomes accepted rejected increment maximum decay).status? b = s.status? b := by
  have fold (f : BidStore → BidId → BidStore) (keeps : ∀ s b', (f s b').status? b = s.status? b)
      (bids : List BidId) (s : BidStore) : (bids.foldl f s).status? b = s.status? b := by
    induction bids generalizing s with
    | nil => rfl
    | cons bid bids ih => rw [List.foldl_cons, ih, keeps]
  unfold applyCreditOutcomes
  rw [status?_persistLocked, fold _ (fun s b' => status_showCredit b' b),
    fold _ (fun s b' => status_creditOutcome _ b' b),
    fold _ (fun s b' => status_creditOutcome _ b' b)]

theorem credit_nonneg (h : s.Coherent) (taskId : TaskId) : 0 ≤ s.credit taskId := by
  unfold BidStore.credit Dict.getD
  cases value : s.credits.get? taskId with
  | none => exact le_refl 0
  | some v => exact h.credits taskId v value

theorem coherent_creditOutcome {after : Rat → Rat} (positive : ∀ x, 0 ≤ x → 0 ≤ after x)
    (h : s.Coherent) (b : BidId) : (creditOutcome after s b).Coherent := by
  unfold creditOutcome
  cases found : s.records.get? b with
  | none => exact h
  | some record =>
      have value := positive _ (credit_nonneg h record.taskId)
      have one := h.records b record found
      refine ⟨fun b' r found' => ?_, fun t v found' => ?_⟩
      · simp only [Dict.get?_set] at found'
        split at found'
        case isTrue same =>
          cases found'
          rw [same]
          exact ⟨one.key, ⟨one.valid.rank, one.valid.creditBefore, value⟩, one.leased⟩
        case isFalse => exact h.records b' r found'
      · simp only [Dict.get?_set] at found'
        split at found'
        case isTrue =>
          cases found'
          exact value
        case isFalse => exact h.credits t v found'

theorem coherent_showCredit (h : s.Coherent) (b : BidId) : (showCredit s b).Coherent := by
  unfold showCredit
  cases found : s.records.get? b with
  | none => exact h
  | some record =>
      dsimp only
      split
      case isTrue =>
        have one := h.records b record found
        exact coherent_setRecord h ⟨one.key,
          ⟨one.valid.rank, one.valid.creditBefore, credit_nonneg h record.taskId⟩, one.leased⟩
      case isFalse => exact h

theorem sound_applyCreditOutcomes (h : s.Coherent) (accepted rejected : List BidId)
    {increment maximum : Rat} (increment_pos : 0 < increment) (maximum_pos : 0 < maximum)
    (decay : Rat) : (s.applyCreditOutcomes accepted rejected increment maximum decay).Sound := by
  have fold {f : BidStore → BidId → BidStore} (keeps : ∀ s b, s.Coherent → (f s b).Coherent)
      (bids : List BidId) (s : BidStore) (h : s.Coherent) : (bids.foldl f s).Coherent := by
    induction bids generalizing s with
    | nil => exact h
    | cons bid bids ih => exact ih _ (keeps s bid h)
  unfold applyCreditOutcomes
  apply sound_persistLocked
  apply fold fun s b h => coherent_showCredit h b
  apply fold fun s b h => coherent_creditOutcome (fun x positive => ?_) h b
  · apply fold fun s b h => coherent_creditOutcome (fun x positive => ?_) h b
    · exact h
    · exact le_max_left _ _
  · exact le_min maximum_pos.le (add_nonneg positive increment_pos.le)

/-! ## Every operation -/

theorem reload_eq (h : s.Sound) : ∃ loaded, (Operation.perform s .reload) = (.ok (), loaded) ∧
    loaded.records = s.records ∧ ∀ t, loaded.credits.get? t = s.credits.get? t := by
  obtain ⟨loaded, read, records, credits⟩ := h.reloads
  refine ⟨loaded, ?_, records, credits⟩
  simp only [Operation.perform, read]

theorem begins_beginActivation (taskId : TaskId) (source destination : NodeId) (b : BidId) :
    (event (.beginActivation bidId taskId source destination now) s).begins b =
      (decide (bidId = b) && (s.beginActivation bidId taskId source destination now).1.isOk) := by
  simp only [event, Event.begins, Operation.perform]
  cases (s.beginActivation bidId taskId source destination now).1 with
  | error => simp [Except.map, Except.isOk, Except.toBool]
  | ok => simp [Except.map, Except.isOk, Except.toBool]

theorem status_step (h : s.Sound) (o : Operation) (b : BidId) :
    StatusStep (s.status? b) ((o.perform s).2.status? b) ((event o s).begins b) := by
  cases o with
  | submit request now => exact status_submit request b
  | get | listRecords | pendingRecords | activeReservations | activeReservationCount
  | expireReservations => exact status_expireLocked b
  | decide bidId status reason now details => exact status_decide status reason details b
  | renew => exact status_renew b
  | beginActivation bidId taskId source destination now =>
      rw [begins_beginActivation]
      exact status_beginActivation taskId source destination b
  | consume => exact status_consume b
  | cancel bidId reason now => exact status_cancel reason b
  | creditsSnapshot => exact .same _
  | creditFor => exact .same _
  | applyCreditOutcomes accepted rejected increment maximum decay =>
      have same := status_applyCreditOutcomes (s := s) accepted rejected increment maximum decay b
      simp only [Operation.perform, same]
      exact .same _
  | reload =>
      obtain ⟨loaded, performed, records, -⟩ := reload_eq h
      rw [performed]
      simp only [BidStore.status?, records]
      exact .same _

theorem sound_modify (h : s.Sound) (one : record.Coherent bidId) :
    (persistLocked (s.setRecord bidId record)).Sound :=
  sound_persistLocked (coherent_setRecord h.toCoherent one)

theorem sound_submit (h : s.Sound) (request : BidRequest) : (s.submit request now).2.Sound := by
  unfold submit
  cases s.records.get? request.bidId with
  | some existing => exact h
  | none =>
      refine sound_modify h ⟨rfl, ⟨?_, le_refl _, le_refl _⟩, ?_⟩
      · simp [BidRecord.ofRequest]
      · simp [BidRecord.ofRequest, BidStatus.isActiveReservation]

theorem sound_decide (h : s.Sound) (status : BidStatus) (reason : String) {details : AuctionDetails}
    (rank : ∀ rank ∈ details.auctionRank, 1 ≤ rank) :
    (s.decide bidId status reason now details).2.Sound := by
  unfold BidStore.decide
  split
  case isTrue => exact h
  case isFalse known =>
    have expired : (s.expireLocked now).2.Sound := sound_expireLocked h
    cases found : (s.expireLocked now).2.records.get? bidId with
    | none => simpa only [found] using expired
    | some record =>
        have one := expired.records bidId record found
        simp only [found]
        split
        case isTrue => exact expired
        case isFalse =>
          refine sound_modify expired ⟨one.key, ⟨rank, le_max_left _ _, le_max_left _ _⟩, ?_⟩
          intro active
          by_cases accepted : status = .accepted
          · simp [decided, accepted]
          · have rejected : status = .rejected := not_not.mp fun other => known ⟨accepted, other⟩
            simp [decided, rejected, BidStatus.isActiveReservation] at active

theorem sound_renew (h : s.Sound) : (s.renew bidId now).2.Sound := by
  have expired : (s.expireLocked now).2.Sound := sound_expireLocked h
  unfold renew
  cases found : (s.expireLocked now).2.records.get? bidId with
  | none => simpa only [found] using expired
  | some record =>
      have one := expired.records bidId record found
      simp only [found]
      split
      case isTrue => exact expired
      case isFalse =>
        exact sound_modify expired ⟨one.key,
          ⟨one.valid.rank, one.valid.creditBefore, one.valid.creditAfter⟩, by simp⟩

theorem sound_beginActivation (h : s.Sound) (taskId : TaskId) (source destination : NodeId) :
    (s.beginActivation bidId taskId source destination now).2.Sound := by
  have expired : (s.expireLocked now).2.Sound := sound_expireLocked h
  unfold beginActivation
  cases found : (s.expireLocked now).2.records.get? bidId with
  | none => simpa only [found] using expired
  | some record =>
      have one := expired.records bidId record found
      simp only [found]
      split
      case isTrue => exact expired
      split
      case isTrue => exact expired
      case isFalse accepted =>
        refine sound_modify expired ⟨one.key,
          ⟨one.valid.rank, one.valid.creditBefore, one.valid.creditAfter⟩, fun _ => ?_⟩
        exact one.leased (by simp [not_not.mp accepted, BidStatus.isActiveReservation])

theorem sound_consume (h : s.Sound) : (s.consume bidId now).2.Sound := by
  unfold consume
  cases found : s.records.get? bidId with
  | none => exact h
  | some record =>
      have one := h.records bidId record found
      dsimp only
      split
      case isTrue => exact h
      case isFalse =>
        exact sound_modify h ⟨one.key,
          ⟨one.valid.rank, one.valid.creditBefore, one.valid.creditAfter⟩,
          by simp [BidStatus.isActiveReservation]⟩

theorem sound_cancel (h : s.Sound) (reason : String) : (s.cancel bidId reason now).2.Sound := by
  unfold cancel
  cases found : s.records.get? bidId with
  | none => exact h
  | some record =>
      have one := h.records bidId record found
      dsimp only
      split
      case isTrue => exact h
      case isFalse =>
        exact sound_modify h ⟨one.key,
          ⟨one.valid.rank, one.valid.creditBefore, one.valid.creditAfter⟩,
          by simp [BidStatus.isActiveReservation]⟩

theorem sound_reload (h : s.Sound) : (Operation.perform s .reload).2.Sound := by
  obtain ⟨loaded, read, records, credits⟩ := h.reloads
  have performed : (Operation.perform s .reload).2 = loaded := by
    simp only [Operation.perform, read]
  have file : loaded.reservationTtl = s.reservationTtl ∧ loaded.stateFile = s.stateFile := by
    unfold load at read
    cases stored : s.stateFile with
    | none =>
        rw [stored] at read
        cases read
        exact ⟨rfl, rfl⟩
    | some file =>
        rw [stored] at read
        obtain ⟨values, -, loaded_eq⟩ := Option.bind_eq_some_iff.mp read
        cases loaded_eq
        exact ⟨rfl, rfl⟩
  rw [performed]
  refine ⟨⟨?_, ?_⟩, ?_⟩
  · rw [records]
    exact h.records
  · intro t v found
    rw [credits] at found
    exact h.credits t v found
  · unfold BidStore.Reloads
    rw [file.1, file.2]
    exact ⟨loaded, read, rfl, fun _ => rfl⟩

theorem sound_perform (h : s.Sound) {o : Operation} (admitted : o.Admitted) :
    (o.perform s).2.Sound := by
  cases o with
  | submit request now => exact sound_submit h request
  | get | listRecords | pendingRecords | activeReservations | activeReservationCount
  | expireReservations => exact sound_expireLocked h
  | decide bidId status reason now details => exact sound_decide h status reason admitted
  | renew => exact sound_renew h
  | beginActivation bidId taskId source destination now =>
      exact sound_beginActivation h taskId source destination
  | consume => exact sound_consume h
  | cancel bidId reason now => exact sound_cancel h reason
  | creditsSnapshot => exact h
  | creditFor => exact h
  | applyCreditOutcomes accepted rejected increment maximum decay =>
      exact sound_applyCreditOutcomes h.toCoherent accepted rejected admitted.1 admitted.2 decay
  | reload => exact sound_reload h

theorem beginActivation_ok (h : s.Sound) {taskId : TaskId} {source destination : NodeId}
    (ok : (s.beginActivation bidId taskId source destination now).1.isOk) :
    ∃ record expires, s.records.get? bidId = some record ∧ record.taskId = taskId ∧
      record.sourceNodeId = source ∧ record.destinationNodeId = destination ∧
      record.reservationExpiresAtUtc = some expires ∧ now < expires := by
  unfold beginActivation at ok
  cases found : (s.expireLocked now).2.records.get? bidId with
  | none => simp [found, Except.isOk, Except.toBool] at ok
  | some record =>
      simp only [found] at ok
      split at ok
      case isTrue => simp [Except.isOk, Except.toBool] at ok
      case isFalse matching =>
        obtain ⟨task, source, destination⟩ := not_not.mp matching
        split at ok
        case isTrue => simp [Except.isOk, Except.toBool] at ok
        case isFalse accepted =>
          have accepted := not_not.mp accepted
          obtain ⟨before, alive⟩ := get?_of_expireLocked found (by simp [accepted])
          have active : record.status.isActiveReservation := by
            simp [accepted, BidStatus.isActiveReservation]
          obtain ⟨expires, lease⟩ :=
            Option.ne_none_iff_exists'.mp ((h.records bidId record before).leased active)
          refine ⟨record, expires, before, task, source, destination, lease, ?_⟩
          simpa [BidRecord.lapsed, active, lease] using alive

theorem claims_of_begins (h : s.Sound) {o : Operation} (begins : (event o s).begins bidId) :
    (event o s).Claims bidId := by
  cases o with
  | beginActivation b taskId source destination now =>
      rw [begins_beginActivation, Bool.and_eq_true, decide_eq_true_iff] at begins
      obtain ⟨rfl, ok⟩ := begins
      obtain ⟨record, expires, found, rfl, rfl, rfl, lease, alive⟩ := beginActivation_ok h ok
      exact ⟨record, now, expires, found, rfl, lease, alive⟩
  | _ => simp [event, Event.begins] at begins

/-! ## Runs -/

theorem history_append (first second : List Operation) (s : BidStore) :
    history (first ++ second) s = history first s ++ history second (runAll first s) := by
  induction first generalizing s with
  | nil => rfl
  | cons o first ih => exact congrArg (event o s :: ·) (ih (o.perform s).2)

theorem history_cut {operations : List Operation} {s : BidStore} {earlier later : List Event}
    {e : Event} (h : history operations s = earlier ++ e :: later) :
    ∃ first o second, operations = first ++ o :: second ∧ earlier = history first s ∧
      e = event o (runAll first s) ∧ later = history second (o.perform (runAll first s)).2 := by
  induction operations generalizing s earlier with
  | nil => simp [history] at h
  | cons o operations ih =>
      cases earlier with
      | nil =>
          rw [history, List.nil_append, List.cons.injEq] at h
          exact ⟨[], o, operations, rfl, rfl, h.1.symm, h.2.symm⟩
      | cons x earlier =>
          rw [history, List.cons_append, List.cons.injEq] at h
          obtain ⟨first, o', second, rfl, rfl, rfl, rfl⟩ := ih h.2
          exact ⟨o :: first, o', second, rfl, by rw [history, h.1], rfl, rfl⟩

theorem sound_runAll {operations : List Operation} (admitted : ∀ o ∈ operations, o.Admitted)
    (h : s.Sound) : (runAll operations s).Sound := by
  induction operations generalizing s with
  | nil => exact h
  | cons o operations ih =>
      obtain ⟨first, rest⟩ := List.forall_mem_cons.mp admitted
      exact ih rest (sound_perform h first)

/-- How often a bid in the given status has been claimed, and consumed. -/
def Phase (begins consumes : Nat) : Option BidStatus → Prop
  | some .activating => begins = 1 ∧ consumes = 0
  | some .consumed => begins = 1 ∧ consumes = 1
  | some .expired | some .cancelled => begins ≤ 1 ∧ consumes = 0
  | _ => begins = 0 ∧ consumes = 0

theorem phase_step {before after : Option BidStatus} {claimed : Bool} {begins consumes : Nat}
    (step : StatusStep before after claimed) (h : Phase begins consumes before) :
    Phase (begins + claimed.toNat)
      (consumes + (decide (before ≠ some .consumed ∧ after = some .consumed)).toNat) after := by
  cases step with
  | same => 
      have same : ¬ (before ≠ some .consumed ∧ before = some .consumed) := fun h => h.1 h.2
      simpa [same] using h
  | submit | accept | reject | begin | consume => simpa [Phase] using h
  | cancel open_ => 
      rename_i status
      cases status <;> simp_all [Phase, BidStatus.IsFinal]
  | expire active => 
      rename_i status
      cases status <;> simp_all [Phase, BidStatus.isActiveReservation]

theorem phase_run {operations : List Operation} (admitted : ∀ o ∈ operations, o.Admitted)
    (h : s.Sound) {begins consumes : Nat} (phase : Phase begins consumes (s.status? bidId)) :
    Phase (begins + (history operations s).countP (Event.begins bidId))
      (consumes + (history operations s).countP (Event.consumes bidId))
      ((runAll operations s).status? bidId) := by
  induction operations generalizing s begins consumes with
  | nil => exact phase
  | cons o operations ih =>
      obtain ⟨first, rest⟩ := List.forall_mem_cons.mp admitted
      have next := ih rest (sound_perform h first) (phase_step (status_step h o bidId) phase)
      have count (p : Bool) (n : Nat) : (n + if p then 1 else 0) = p.toNat + n := by
        cases p <;> simp [Nat.add_comm]
      rw [history, List.countP_cons, List.countP_cons, count, count, ← Nat.add_assoc,
        ← Nat.add_assoc]
      exact next

theorem sound_empty (ttl : Nat) : ({ reservationTtl := ttl } : BidStore).Sound := by
  refine ⟨⟨?_, ?_⟩, ⟨_, rfl, rfl, fun _ => rfl⟩⟩
  · intro b r found
    cases found
  · intro t v found
    cases found

/-- What holds of a bid in every run. -/
structure Lifecycle (operations : List Operation) (s : BidStore) : Prop where
  final : ∀ e ∈ history operations s, ∀ b status, e.before.status? b = some status →
    status.IsFinal → e.after.status? b = some status
  leased : ∀ e ∈ history operations s, ∀ b record, e.after.records.get? b = some record →
    record.status.isActiveReservation → record.reservationExpiresAtUtc ≠ none
  claimed : ∀ e ∈ history operations s, ∀ b, e.begins b → e.Claims b
  consumed : ∀ earlier e later, history operations s = earlier ++ e :: later →
    ∀ b, e.consumes b → earlier.countP (Event.begins b) = 1 ∧
      (earlier ++ later).countP (Event.consumes b) = 0
  reloads : ∀ e ∈ history operations s, e.after.Reloads

theorem final_step {status : BidStatus} {after : Option BidStatus} {claimed : Bool}
    (step : StatusStep (some status) after claimed) (final : status.IsFinal) :
    after = some status := by
  cases step with
  | same => rfl
  | cancel open_ => exact absurd final open_
  | expire active => cases status <;> simp_all [BidStatus.IsFinal, BidStatus.isActiveReservation]
  | accept | reject | begin | consume => simp [BidStatus.IsFinal] at final

theorem Phase.consumes_le {begins consumes : Nat} {status : Option BidStatus}
    (h : Phase begins consumes status) : consumes ≤ 1 := by
  rcases status with _ | status
  · exact h.2.le.trans zero_le_one
  · cases status with
    | consumed => exact h.2.le
    | _ => exact h.2.le.trans zero_le_one

theorem activating_of_consumed {before after : Option BidStatus} {claimed : Bool}
    (step : StatusStep before after claimed) (other : before ≠ some .consumed)
    (consumed : after = some .consumed) : before = some .activating := by
  cases step with
  | same => exact absurd consumed other
  | consume => rfl
  | _ => cases consumed

theorem consumed_of_cut {first second : List Operation} {o : Operation}
    (admitted : ∀ x ∈ first ++ o :: second, x.Admitted) (h : s.Sound)
    (phase : Phase 0 0 (s.status? bidId)) (consumes : (event o (runAll first s)).consumes bidId) :
    (history first s).countP (Event.begins bidId) = 1 ∧
      (history first s ++ history second (o.perform (runAll first s)).2).countP
        (Event.consumes bidId) = 0 := by
  have before := List.forall_mem_append.mp admitted |>.1
  have earlier := phase_run before h phase
  have change := of_decide_eq_true consumes
  rw [activating_of_consumed (status_step (sound_runAll before h) o bidId) change.1 change.2]
    at earlier
  have total := (phase_run admitted h phase).consumes_le
  rw [history_append, history, List.countP_append, List.countP_cons_of_pos consumes] at total
  rw [List.countP_append]
  obtain ⟨begins, none_⟩ := earlier
  omega

/-- From an empty store, whatever the times and wherever the store is reloaded. -/
theorem bid_lifecycle (ttl : Nat) (operations : List Operation)
    (admitted : ∀ o ∈ operations, o.Admitted) :
    Lifecycle operations { reservationTtl := ttl } := by
  have start := sound_empty ttl
  have at_ {e : Event} (member : e ∈ history operations { reservationTtl := ttl }) :
      ∃ o s, o.Admitted ∧ s.Sound ∧ e = event o s := by
    obtain ⟨earlier, later, cut⟩ := List.append_of_mem member
    obtain ⟨first, o, second, rfl, -, same, -⟩ := history_cut cut
    rw [List.forall_mem_append] at admitted
    exact ⟨o, _, admitted.2 o (by simp), sound_runAll admitted.1 start, same⟩
  refine ⟨?_, ?_, ?_, ?_, ?_⟩
  · intro e member b status before final
    obtain ⟨o, s, -, sound, rfl⟩ := at_ member
    have step := status_step sound o b
    rw [show s.status? b = some status from before] at step
    exact final_step step final
  · intro e member b record found active
    obtain ⟨o, s, admitted, sound, rfl⟩ := at_ member
    exact ((sound_perform sound admitted).records b record found).leased active
  · intro e member b begins
    obtain ⟨o, s, -, sound, rfl⟩ := at_ member
    exact claims_of_begins sound begins
  · intro earlier e later cut b consumes
    obtain ⟨first, o, second, rfl, rfl, rfl, rfl⟩ := history_cut cut
    exact consumed_of_cut admitted start ⟨rfl, rfl⟩ consumes
  · intro e member
    obtain ⟨o, s, admitted, sound, rfl⟩ := at_ member
    exact (sound_perform sound admitted).reloads

end

/-- A bid that is accepted, activated and consumed, with a restart after its activation. -/
def consumedBid : List Operation :=
  [.submit ⟨"bid", "epoch", "t", none, "a", "b", 1 / 2, 0⟩ 0,
    .decide "bid" .accepted "selected" 5 { auctionRank := some 1 },
    .beginActivation "bid" "t" "a" "b" 7, .reload, .consume "bid" 3]

theorem consumedBid_lifecycle :
    Lifecycle consumedBid { reservationTtl := 30 } ∧
      (runAll consumedBid { reservationTtl := 30 }).status? "bid" = some .consumed := by
  refine ⟨bid_lifecycle 30 consumedBid ?_, ?_⟩
  · simp [consumedBid, Operation.Admitted]
  · decide +kernel

end Magellan.Bidding
