import Magellan.Migration.Activation

/-!
# The reservation of an activation

An activation claims the reservation that the request names, and its rollback cancels what the
request names, claimed or not. What a run does to the bids is read off its operations on the store.
-/

namespace Magellan.MigrationService

open Coroutine Coro

/-! ## The bid store in a run -/

def isBidOp : Op → Bool
  | .getBid _ | .beginActivation .. | .consumeBid _ | .cancelBid .. => true
  | _ => false

/-- What a step does to the bids. -/
def bidStep (b : Bids) : Op × Choice → Bids
  | (.getBid _, .ok now) => b.expireLocked now
  | (.beginActivation bidId task source destination, .ok now) =>
      (b.beginActivation bidId task source destination now).2
  | (.consumeBid bidId, .ok now) => (b.consume bidId now).2
  | (.cancelBid bidId reason, .ok now) => (b.cancel bidId reason now).2
  | _ => b

/-- The steps of a run that go to the bid store. -/
def bidSteps (tr : List (Op × Choice)) : List (Op × Choice) := tr.filter fun x => isBidOp x.1

section

variable {n : NodeId} {o : Op} {c : Choice} {w v : World} {tr tr' : List (Op × Choice)} {α : Type}

theorem bidSteps_append : bidSteps (tr ++ tr') = bidSteps tr ++ bidSteps tr' :=
  List.filter_append tr tr'

theorem bidStep_quiet (quiet : isBidOp o = false) (b : Bids) : bidStep b (o, c) = b := by
  cases o <;> first | rfl | cases quiet

theorem exec_bids {r : Except Exn o.Ret} (h : exec n o c w = some (r, v)) :
    (v.nodes n).bids = bidStep (w.nodes n).bids (o, c) := by
  rcases exec_cases h with ⟨e, rfl, -, -, rfl⟩ | h
  · cases o <;> rfl
  unfold effect at h
  split at h <;> (try simp only [reads, writes, raises, bidResult] at h) <;>
    (try split at h) <;> cases h <;> first
      | rfl
      | simp only [World.modify_self, World.putRecord_self, World.putState_self, bidStep]

theorem bids_foldl_bidSteps (b : Bids) : (bidSteps tr).foldl bidStep b = tr.foldl bidStep b := by
  induction tr generalizing b with
  | nil => rfl
  | cons x tr ih =>
      obtain ⟨o, c⟩ := x
      by_cases bid : isBidOp o
      · rw [bidSteps, List.filter_cons, if_pos bid, List.foldl_cons, List.foldl_cons]
        exact ih _
      · rw [bidSteps, List.filter_cons, if_neg bid, List.foldl_cons,
          bidStep_quiet (Bool.eq_false_of_not_eq_true bid)]
        exact ih b

theorem run_bids {p : Async α} {r : Except Exn α} (h : Runs n p w tr r v) :
    (v.nodes n).bids = (bidSteps tr).foldl bidStep (w.nodes n).bids := by
  rw [bids_foldl_bidSteps]
  unfold Runs at h
  generalize (Coro.done r : Async α) = q at h
  induction h with
  | refl => rfl
  | rely step _ ih =>
      rw [ih]
      exact congrArg (fun s => List.foldl bidStep s.bids _) step
  | perform step _ ih => rw [List.foldl_cons, ih, exec_bids step]

theorem bidSteps_of_performs {p : Async α} {r : Except Exn α} (h : Runs n p w tr r v)
    (quiet : p.Performs (isBidOp · = false)) : bidSteps tr = [] := by
  rw [bidSteps, List.filter_eq_nil_iff]
  intro x mem bid
  rw [h.performs quiet x mem] at bid
  cases bid

/-- What comes before the first operation on the bids leaves them as they are. -/
theorem bind_quiet {p : Async α} {f : α → Async β} {r : Except Exn β}
    (h : Runs n (p >>= f) w tr r v) (quiet : p.Performs (isBidOp · = false)) :
    (∃ e, r = .error e ∧ bidSteps tr = []) ∨
      ∃ x u tr', bidSteps tr = bidSteps tr' ∧ (u.nodes n).bids = (w.nodes n).bids ∧
        Runs n (f x) u tr' r v := by
  obtain ⟨a, tr₁, tr₂, u, rfl, first, rest⟩ := bind_run h
  have none_ := bidSteps_of_performs first quiet
  have same : (u.nodes n).bids = (w.nodes n).bids := by rw [run_bids first, none_]; rfl
  rw [bidSteps_append, none_, List.nil_append]
  rcases rest with ⟨e, -, rfl, rfl, -⟩ | ⟨x, -, rest⟩
  · exact .inl ⟨e, rfl, rfl⟩
  · exact .inr ⟨x, u, tr₂, rfl, same, rest⟩

end

/-! ## The claim -/

/-- The operation that claims the reservation of the request. -/
def claimOp (request : MigrationActivationRequest) : Op :=
  .beginActivation request.bidId request.taskId request.sourceNodeId request.destinationNodeId

/-- The bid can be claimed for the request at `now`. -/
structure Claimable (request : MigrationActivationRequest) (now : Timestamp) (bid : BidRecord) :
    Prop where
  task : bid.taskId = request.taskId
  source : bid.sourceNodeId = request.sourceNodeId
  destination : bid.destinationNodeId = request.destinationNodeId
  accepted : (Bids.expireRecord now bid).status = .accepted

/-- The claim, resolved by `c`, moves the named bid of `b` to `ACTIVATING`. -/
def Succeeds (request : MigrationActivationRequest) (b : Bids) (c : Choice) : Prop :=
  ∃ now bid, c = .ok now ∧ b request.bidId = some bid ∧ Claimable request now bid

/-- A bid after a step that lets the bids expire. -/
def aged : Choice → Option BidRecord → Option BidRecord
  | .ok now => Option.map (Bids.expireRecord now)
  | _ => id

section

variable {request : MigrationActivationRequest} {b : Bids} {c : Choice} {now : Timestamp}

theorem expireRecord_same (now : Timestamp) (bid : BidRecord) :
    (Bids.expireRecord now bid).taskId = bid.taskId ∧
      (Bids.expireRecord now bid).sourceNodeId = bid.sourceNodeId ∧
      (Bids.expireRecord now bid).destinationNodeId = bid.destinationNodeId := by
  unfold Bids.expireRecord
  split
  · exact ⟨rfl, rfl, rfl⟩
  · split <;> exact ⟨rfl, rfl, rfl⟩

/-- A claim that fails lets bids expire and does nothing else. -/
theorem claim_fails (fails : ¬ Succeeds request b (.ok now)) :
    ∃ e, b.beginActivation request.bidId request.taskId request.sourceNodeId
      request.destinationNodeId now = (.error e, b.expireLocked now) := by
  unfold Bids.beginActivation
  cases found : b request.bidId with
  | none =>
      simp only [Bids.expireLocked, found, Option.map_none]
      exact ⟨_, rfl⟩
  | some bid =>
      obtain ⟨task, source, destination⟩ := expireRecord_same now bid
      simp only [Bids.expireLocked, found, Option.map_some]
      by_cases other : ¬ ((Bids.expireRecord now bid).taskId = request.taskId ∧
          (Bids.expireRecord now bid).sourceNodeId = request.sourceNodeId ∧
          (Bids.expireRecord now bid).destinationNodeId = request.destinationNodeId)
      · rw [if_pos other]
        exact ⟨_, rfl⟩
      · rw [if_neg other]
        by_cases refused : (Bids.expireRecord now bid).status ≠ .accepted
        · rw [if_pos refused]
          exact ⟨_, rfl⟩
        · rw [not_not, task, source, destination] at other
          exact absurd
            ⟨now, bid, rfl, found, other.1, other.2.1, other.2.2, not_not.mp refused⟩ fails

theorem exec_claim {n : NodeId} {w v : World} {r : Except Exn BidRecord}
    (h : exec n (claimOp request) c w = some (r, v)) :
    (∃ e, r = .error e) ∨ Succeeds request (w.nodes n).bids c := by
  rcases exec_cases h with ⟨e, -, -, rfl, -⟩ | h
  · exact .inl ⟨e, rfl⟩
  cases c with
  | ok now =>
      refine or_iff_not_imp_right.mpr fun fails => ?_
      obtain ⟨e, refused⟩ := claim_fails fails
      simp only [claimOp, effect, bidResult, refused, Option.some.injEq, Prod.mk.injEq] at h
      exact ⟨e, h.1.symm⟩
  | _ => cases h

/-- The claim leaves every bid to its time, but the one that it moves to `ACTIVATING`. -/
theorem claim_at {i : BidId} (other : i ≠ request.bidId ∨ ¬ Succeeds request b c) :
    bidStep b (claimOp request, c) i = aged c (b i) := by
  cases c with
  | ok now =>
      by_cases succeeds : Succeeds request b (.ok now)
      · have away : i ≠ request.bidId := other.resolve_right (not_not.mpr succeeds)
        simp only [claimOp, bidStep, aged, Bids.beginActivation]
        split
        · rfl
        · split_ifs
          · rfl
          · exact if_neg away
          · rfl
      · obtain ⟨e, refused⟩ := claim_fails succeeds
        simp only [claimOp, bidStep, aged, refused, Bids.expireLocked]
  | _ => rfl

end

/-! ## What a call does to the reservations -/

/-- The operation consumes or cancels the bid. -/
def Settles (bidId : BidId) : Op → Prop
  | .consumeBid i | .cancelBid i _ => i = bidId
  | _ => False

def Commits (r : Except Exn MigrationActivationResponse) : Prop :=
  ∃ response, r = .ok response ∧ response.activated = true

/-- The operations on the bids of a call that finds `b` and ends with `r`. -/
inductive Course (request : MigrationActivationRequest) (b : Bids)
    (r : Except Exn MigrationActivationResponse) : List (Op × Choice) → Prop
  | idle : Course request b r []
  | claimed (c : Choice) (rest : List (Op × Choice)) (succeeds : Succeeds request b c)
      (settles : ∀ x ∈ rest, Settles request.bidId x.1) :
      Course request b r ((claimOp request, c) :: rest)
  | failed (c : Choice) (failure : ¬ Commits r) : Course request b r [(claimOp request, c)]
  | cancelled (c c' : Choice) (reason : String) (failure : ¬ Commits r) :
      Course request b r [(claimOp request, c), (.cancelBid request.bidId reason, c')]

section

variable {services : Services} {n : NodeId} {w v : World} {tr : List (Op × Choice)}
  {request : MigrationActivationRequest}

theorem replaceCheckpoint_bids {r : Except Exn Unit}
    (h : Runs n (replaceCheckpoint request) w tr r v) :
    ∃ c, bidSteps tr = [(claimOp request, c)] ∧
      ((∃ e, r = .error e) ∨ Succeeds request (w.nodes n).bids c) := by
  obtain ⟨c, tr', a, u, u', rfl, here, step, rest⟩ := perform_local h
  refine ⟨c, ?_, ?_⟩
  · have quiet : bidSteps tr' = [] := by
      cases a with
      | error e =>
          rw [(done_local rest).1]
          rfl
      | ok bid =>
          refine bidSteps_of_performs rest ?_
          exact .bind (.op rfl) fun _ => .bind (.ite (.raise _) (.pure _)) fun _ =>
            .bind (.op rfl) fun _ =>
              .bind (.bind (.op rfl) fun _ => .ite (.op rfl) (.pure _)) fun _ =>
                .bind (.bind (.op rfl) fun _ => .ite (.op rfl) (.pure _)) fun _ => .op rfl
    rw [bidSteps, List.filter_cons_of_pos rfl]
    exact congrArg _ quiet
  · rw [← here]
    rcases exec_claim step with ⟨e, rfl⟩ | succeeds
    · exact .inl ⟨e, (done_local rest).2.1⟩
    · exact .inr succeeds

theorem rollbackActivation_bids {originalState : TaskRuntimeState} {replaced started : Bool}
    {e : Exn} {r : Except Exn MigrationActivationResponse}
    (h : Runs n (rollbackActivation n request originalState replaced started e) w tr r v) :
    ¬ Commits r ∧ (bidSteps tr = [] ∨
      ∃ reason c, bidSteps tr = [(.cancelBid request.bidId reason, c)]) := by
  have fails : ∀ e', ¬ Commits (.error e') := by
    rintro e' ⟨_, eq, -⟩
    cases eq
  have stops : (onlyIf started (ignoreErrors stopTask)).Performs (isBidOp · = false) :=
    .ite (.tryExcept (.bind (LocalProcess.stop_performs.mono fun o h => by
      cases o <;> first | rfl | cases h) fun _ => .pure _) fun _ => .pure _) (.pure _)
  rcases bind_quiet h stops with ⟨e, rfl, none_⟩ | ⟨_, u₁, tr₁, same, -, h⟩
  · exact ⟨fails e, .inl none_⟩
  rw [same]
  rcases bind_quiet h (.ite (.bind (.op rfl) fun _ => .ite (.op rfl) (.pure _)) (.pure _)) with
    ⟨e, rfl, none_⟩ | ⟨_, u₂, tr₂, same, -, h⟩
  · exact ⟨fails e, .inl none_⟩
  rw [same]
  rcases bind_quiet h (.bind (.op rfl) fun _ => .ite (.op rfl) (.pure _)) with
    ⟨e, rfl, none_⟩ | ⟨_, u₃, tr₃, same, -, h⟩
  · exact ⟨fails e, .inl none_⟩
  rw [same]
  rcases bind_quiet h (.op rfl) with ⟨e, rfl, none_⟩ | ⟨_, u₄, tr₄, same, -, h⟩
  · exact ⟨fails e, .inl none_⟩
  rw [same]
  rcases bind_quiet h (.op rfl) with ⟨e, rfl, none_⟩ | ⟨_, u₅, tr₅, same, -, h⟩
  · exact ⟨fails e, .inl none_⟩
  rw [same]
  obtain ⟨a, tr₆, tr₇, u₆, rfl, cancels, h⟩ := bind_run h
  have last : ¬ Commits r ∧ bidSteps tr₇ = [] := by
    rcases h with ⟨e, -, rfl, rfl, -⟩ | ⟨_, -, h⟩
    · exact ⟨fails e, rfl⟩
    · obtain ⟨c, tr', a, u, u', rfl, -, -, h⟩ := perform_local h
      cases a with
      | error e =>
          obtain ⟨rfl, rfl, -⟩ := done_local h
          exact ⟨fails e, rfl⟩
      | ok _ =>
          obtain ⟨rfl, rfl, -⟩ := done_local h
          refine ⟨?_, rfl⟩
          rintro ⟨response, eq, activated⟩
          cases eq
          cases activated
  refine ⟨last.1, .inr ⟨s!"Destination activation rolled back: {e.describe}", ?_⟩⟩
  obtain ⟨c, tr', a, u, u', rfl, -, -, rest⟩ := perform_local cancels
  refine ⟨c, ?_⟩
  have ended : tr' = [] := by cases a <;> exact (done_local rest).1
  rw [bidSteps_append, last.2, ended]
  rfl

/-- The rollback of a transaction that made the claim. -/
theorem course_of_rollback {b : Bids} {c : Choice} {tr₁ tr₂ : List (Op × Choice)}
    {r : Except Exn MigrationActivationResponse} (claim : bidSteps tr₁ = [(claimOp request, c)])
    (undone : ¬ Commits r ∧ (bidSteps tr₂ = [] ∨
      ∃ reason c', bidSteps tr₂ = [(.cancelBid request.bidId reason, c')])) :
    Course request b r (bidSteps (tr₁ ++ tr₂)) := by
  rw [bidSteps_append, claim]
  rcases undone with ⟨failure, none_ | ⟨reason, c', cancel⟩⟩
  · rw [none_]
    exact .failed c failure
  · rw [cancel]
    exact .cancelled c c' reason failure

theorem activationTransaction_course {originalState : TaskRuntimeState}
    {r : Except Exn MigrationActivationResponse}
    (h : Runs n (activationTransaction services n request originalState) w tr r v) :
    Course request (w.nodes n).bids r (bidSteps tr) := by
  obtain ⟨a, tr₁, tr', u₁, rfl, first, rest⟩ := andThen_local h
  obtain ⟨c, claim, result⟩ := replaceCheckpoint_bids first
  cases a with
  | error e => exact course_of_rollback claim (rollbackActivation_bids rest)
  | ok _ =>
      have succeeds : Succeeds request (w.nodes n).bids c := by
        rcases result with ⟨e, eq⟩ | succeeds
        · cases eq
        · exact succeeds
      obtain ⟨a, tr₂, tr'', u₂, rfl, second, rest⟩ := andThen_local rest
      have quiet : bidSteps tr₂ = [] := by
        refine bidSteps_of_performs second ?_
        exact .bind (.op rfl) fun _ => .bind (.op rfl) fun _ => .bind (.op rfl) fun _ =>
          (LocalProcess.start_performs n).mono fun o h => by cases o <;> first | rfl | cases h
      cases a with
      | error e =>
          refine course_of_rollback claim ?_
          rw [bidSteps_append, quiet]
          exact rollbackActivation_bids rest
      | ok state =>
          rw [bidSteps_append, claim, bidSteps_append, quiet, List.nil_append, List.singleton_append]
          refine .claimed c _ succeeds ?_
          obtain ⟨a, tr₃, tr₄, u₃, rfl, third, rest⟩ := andThen_local rest
          have consumes : ∀ x ∈ bidSteps tr₃, Settles request.bidId x.1 := by
            have each := third.performs (P := fun o => isBidOp o = true → Settles request.bidId o)
              (.bind (mergeRequestPolicy_performs fun _ => by simp [isBidOp]) fun _ =>
                .bind (.op fun _ => rfl) fun _ => .bind (.op (by simp [isBidOp])) fun _ =>
                  .bind (.bind (.op (by simp [isBidOp])) fun _ => .ite (.op (by simp [isBidOp]))
                    (.pure _)) fun _ => .bind (.op (by simp [isBidOp])) fun _ => .pure _)
            intro x mem
            obtain ⟨mem, bid⟩ := List.mem_filter.mp mem
            exact each x mem bid
          rw [bidSteps_append]
          intro x mem
          rcases List.mem_append.mp mem with mem | mem
          · exact consumes x mem
          cases a with
          | ok response =>
              rw [(done_local rest).1] at mem
              cases mem
          | error e =>
              rcases (rollbackActivation_bids rest).2 with none_ | ⟨reason, c', cancel⟩
              · rw [none_] at mem
                cases mem
              · rw [cancel] at mem
                cases List.mem_singleton.mp mem
                rfl

theorem activateIncoming_course {r : Except Exn MigrationActivationResponse}
    (h : Runs n (activateIncoming services n request) w tr r v) :
    Course request (w.nodes n).bids r (bidSteps tr) := by
  unfold activateIncoming at h
  split at h
  · rw [(done_local h).1]
    exact .idle
  rcases bind_quiet h (.op rfl) with ⟨e, rfl, none_⟩ | ⟨state, u₁, tr₁, steps₁, same₁, h⟩
  · rw [none_]
    exact .idle
  rcases bind_quiet h (.op rfl) with ⟨e, rfl, none_⟩ | ⟨existing, u₂, tr₂, steps₂, same₂, h⟩
  · rw [steps₁, none_]
    exact .idle
  rcases bind_quiet h (mergeRequestPolicy_performs fun _ => rfl) with
    ⟨e, rfl, none_⟩ | ⟨_, u₃, tr₃, steps₃, same₃, h⟩
  · rw [steps₁, steps₂, none_]
    exact .idle
  rw [steps₁, steps₂, steps₃, ← same₁, ← same₂, ← same₃]
  have puts : ∀ record, (putRecord existing record).Performs (isBidOp · = false) := fun record => by
    cases existing <;> exact .op rfl
  split at h
  · have quiet := bidSteps_of_performs h (.bind (puts _) fun _ => .pure _)
    rw [quiet]
    exact .idle
  split at h
  · rw [(done_local h).1]
    exact .idle
  rcases bind_quiet h (puts _) with ⟨e, rfl, none_⟩ | ⟨_, u₄, tr₄, steps₄, same₄, h⟩
  · rw [none_]
    exact .idle
  rw [steps₄, ← same₄]
  exact activationTransaction_course h

end

/-! ## A failed activation and the reservations of others -/

def isClosed : BidStatus → Bool
  | .consumed | .rejected | .expired | .cancelled => true
  | _ => false

def terms (bid : BidRecord) : BidStatus × Option Timestamp :=
  (bid.status, bid.reservationExpiresAtUtc)

/-- The reservation `before` ran out during the run. -/
structure Lapsed (tr : List (Op × Choice)) (before after : BidRecord) : Prop where
  reserved : before.status.isActiveReservation
  time : ∃ o now expires, (o, .ok now) ∈ tr ∧ before.reservationExpiresAtUtc = some expires ∧
    expires ≤ now
  status : after.status = .expired
  expiry : after.reservationExpiresAtUtc = before.reservationExpiresAtUtc

/-- The bid has the same status and expiry afterwards, unless it expired by time. -/
def Spared (tr : List (Op × Choice)) (before after : Option BidRecord) : Prop :=
  after.map terms = before.map terms ∨
    ∃ bid bid', before = some bid ∧ after = some bid' ∧ Lapsed tr bid bid'

/-- The call has moved the named bid to `ACTIVATING`. -/
def Claimed (request : MigrationActivationRequest) (b : Bids) (tr : List (Op × Choice)) : Prop :=
  ∃ c, (claimOp request, c) ∈ tr ∧ Succeeds request b c

/-- The named bid exists and is open when the claim has been refused. -/
def StillOpen (request : MigrationActivationRequest) (b : Bids) (c : Choice) : Prop :=
  ∃ bid, aged c (b request.bidId) = some bid ∧ isClosed bid.status = false

/-- The handler gets to cancel the named bid. -/
def Cancels (request : MigrationActivationRequest) (tr : List (Op × Choice)) : Prop :=
  ∃ reason now, (Op.cancelBid request.bidId reason, Choice.ok now) ∈ tr

section

variable {services : Services} {n : NodeId} {w v : World} {tr : List (Op × Choice)}
  {request : MigrationActivationRequest} {b : Bids} {c : Choice} {i : BidId}

theorem mem_bidSteps {o : Op} (bid : isBidOp o = true) :
    (o, c) ∈ bidSteps tr ↔ (o, c) ∈ tr := by
  rw [bidSteps, List.mem_filter, and_iff_left bid]

theorem bidStep_settles {o : Op} {j : BidId} (settles : Settles j o) (other : i ≠ j) :
    bidStep b (o, c) i = b i := by
  cases o with
  | consumeBid k =>
      cases settles
      cases c <;> try rfl
      simp only [bidStep, Bids.consume]
      split
      · rfl
      · split
        · rfl
        · exact if_neg other
  | cancelBid k reason =>
      cases settles
      cases c <;> try rfl
      simp only [bidStep, Bids.cancel]
      split
      · rfl
      · split
        · rfl
        · exact if_neg other
  | _ => exact settles.elim

theorem foldl_settles {rest : List (Op × Choice)} {j : BidId} (other : i ≠ j)
    (settles : ∀ x ∈ rest, Settles j x.1) (b : Bids) : rest.foldl bidStep b i = b i := by
  induction rest generalizing b with
  | nil => rfl
  | cons x rest ih =>
      rw [List.foldl_cons, ih (fun y mem => settles y (List.mem_cons_of_mem x mem)),
        bidStep_settles (settles x (List.mem_cons_self ..)) other]

theorem spared_aged {o : Op} (mem : (o, c) ∈ tr) (before : Option BidRecord) :
    Spared tr before (aged c before) := by
  cases c with
  | ok now =>
      cases before with
      | none => exact .inl rfl
      | some bid =>
          cases expiry : bid.reservationExpiresAtUtc with
          | none => exact .inl (by simp [aged, Bids.expireRecord, expiry])
          | some expires =>
              by_cases lapsed : bid.status.isActiveReservation ∧ expires ≤ now
              · refine .inr ⟨bid, _, rfl, rfl, lapsed.1, ⟨o, now, expires, mem, expiry, lapsed.2⟩,
                  ?_, ?_⟩
                · simp [Bids.expireRecord, expiry, lapsed]
                · simp [Bids.expireRecord, expiry, lapsed]
              · exact .inl (by simp [aged, Bids.expireRecord, expiry, lapsed])
  | _ => exact .inl rfl

/-- A cancelled bid that was open has not been spared. -/
theorem cancelled_not_spared {before : Option BidRecord} {bid after : BidRecord}
    (still : aged c before = some bid) (open_ : isClosed bid.status = false)
    (cancelled : after.status = .cancelled) : ¬ Spared tr before (some after) := by
  rintro (same | ⟨_, _, -, eq, lapsed⟩)
  · cases before with
    | none => cases same
    | some bid' =>
        have status : after.status = bid'.status := congrArg Prod.fst (Option.some.inj same)
        have kept : bid.status = bid'.status := by
          cases c with
          | ok now =>
              cases Option.some.inj still
              unfold Bids.expireRecord at open_ ⊢
              split
              · rfl
              · split
                · rename_i reserved
                  rw [← status, cancelled] at reserved
                  cases reserved.1
                · rfl
          | _ =>
              cases Option.some.inj still
              rfl
        rw [kept, ← status, cancelled] at open_
        cases open_
  · cases Option.some.inj eq
    have status := lapsed.status
    rw [cancelled] at status
    cases status

theorem cancel_closed {reason : String} {now : Timestamp}
    (closed : ∀ bid, b i = some bid → isClosed bid.status = true) : (b.cancel i reason now).2 = b := by
  unfold Bids.cancel
  cases found : b i with
  | none => rfl
  | some bid =>
      have spent := closed bid found
      have decided : bid.status = .consumed ∨ bid.status = .rejected ∨ bid.status = .expired ∨
          bid.status = .cancelled := by
        cases status : bid.status <;> rw [status] at spent <;> first | decide | cases spent
      simp only [if_pos decided]

theorem cancel_open (reason : String) (now : Timestamp) {bid : BidRecord} (found : b i = some bid)
    (open_ : isClosed bid.status = false) :
    ∃ bid', (b.cancel i reason now).2 i = some bid' ∧ bid'.status = .cancelled := by
  have undecided : ¬ (bid.status = .consumed ∨ bid.status = .rejected ∨ bid.status = .expired ∨
      bid.status = .cancelled) := by
    rintro (status | status | status | status) <;> rw [status] at open_ <;> cases open_
  unfold Bids.cancel
  simp only [found, if_neg undecided]
  exact ⟨_, if_pos rfl, rfl⟩

end

/-! ## The lease of another task -/

/-- A bid for the task `"other"`, accepted by `"b"` with a lease of 60. -/
def otherLease : Bids :=
  Bids.decide 60 "bid" true "capacity" 10 (Bids.submit {
    bidId := "bid"
    taskId := "other"
    sourceNodeId := "c"
    destinationNodeId := "b"
    receivedAtUtc := 10 } fun _ => none)

def leaseWorld : World where
  nodes _ := { registry := { taskId := "t", ownerNodeId := "a", generation := 1, status := .running }, bids := otherLease }

def strayRequest : MigrationActivationRequest where
  migrationId := "m"
  bidId := "bid"
  taskId := "t"
  sourceNodeId := "a"
  destinationNodeId := "b"
  generation := 2
  migrationAtUtc := 20

/-- The claim is refused, and the rollback cancels the lease. -/
theorem strayRequest_run : ∃ tr r v,
    Runs "b" (activateIncoming {} "b" strayRequest) leaseWorld tr r v ∧
      r.toOption.any (·.activated) = false ∧
      ((v.nodes "b").bids "bid").map terms = some (.cancelled, none) := by
  obtain ⟨tr, q, v, reach, ended, result, after⟩ : ∃ tr q v, Reach (exec "b") (Elsewhere "b")
      (activateIncoming {} "b" strayRequest) leaseWorld tr q v ∧ q.outcome?.isSome ∧
        q.outcome?.all (fun r => !r.toOption.any (·.activated)) ∧
        ((v.nodes "b").bids "bid").map terms = some (.cancelled, none) :=
    exists_reach_of_replay (List.replicate 3 (.ok 0) ++ List.replicate 6 (.ok 20)) (by decide)
  obtain ⟨r, ended⟩ := Option.isSome_iff_exists.mp ended
  rw [ended] at result
  cases Coro.eq_done ended
  exact ⟨tr, r, v, reach, by simpa using result, after⟩

end Magellan.MigrationService
