import Mathlib.Algebra.Order.Ring.Rat
import Mathlib.Logic.Function.Iterate
import Mathlib.Tactic.Linarith
import Mathlib.Tactic.Ring
import Magellan.Bidding.Rest

/-!
# Credits of tasks with several bids

A pass changes the credit of a task once for each of its bids that is accepted or loses to others. What
it does to the task follows from the bids of the task that the node could serve, in the order of their
ranks.
-/

namespace Magellan.Bidding

open Registry BidStore

/-! ## Gains -/

section

variable {increment maximum : Rat}

def gain (increment maximum before : Rat) : Rat := min maximum (before + increment)

theorem gain_iterate (nonneg : 0 ≤ increment) (n : Nat) (before : Rat) :
    (gain increment maximum)^[n + 1] before = min maximum (before + (n + 1) * increment) := by
  induction n generalizing before with
  | zero =>
      rw [Function.iterate_one]
      simp [gain]
  | succ n ih =>
      have more : 0 ≤ ((n : Rat) + 1) * increment :=
        mul_nonneg (by exact_mod_cast Nat.zero_le (n + 1)) nonneg
      rw [Function.iterate_succ_apply, ih]
      unfold gain
      push_cast
      rw [add_mul (n + 1 : Rat) 1 increment, one_mul]
      rcases le_total maximum (before + increment) with le | le
      · rw [min_eq_left le, min_eq_left (by linarith), min_eq_left (by linarith)]
      · rw [min_eq_right le]
        congr 1
        ring

theorem gain_le_iff (positive : 0 < increment) (n : Nat) (before : Rat) :
    (gain increment maximum)^[n] before ≤ before + increment ↔
      n ≤ 1 ∨ maximum ≤ before + increment := by
  cases n with
  | zero => simp [positive.le]
  | succ n =>
      rw [gain_iterate positive.le, min_le_iff, or_comm]
      apply or_congr_left
      constructor
      · intro le
        by_contra two
        have many : (1 : Rat) ≤ n := by exact_mod_cast (by omega : 1 ≤ n)
        have more := mul_le_mul_of_nonneg_right many positive.le
        linarith
      · intro le
        have none_ : n = 0 := by omega
        simp [none_]

theorem gain_eq_iff (positive : 0 < increment) (n : Nat) (before : Rat) :
    (gain increment maximum)^[n] before = before ↔ n = 0 ∨ before = maximum := by
  cases n with
  | zero => simp
  | succ n =>
      have more : 0 < ((n : Rat) + 1) * increment :=
        mul_pos (by exact_mod_cast Nat.succ_pos n) positive
      rw [gain_iterate positive.le]
      constructor
      · intro same
        rcases min_choice maximum (before + (n + 1) * increment) with first | second
        · exact .inr (same.symm.trans first)
        · linarith
      · intro h
        rcases h with none_ | rfl
        · cases none_
        · exact min_eq_left (by linarith)

theorem gain_iterate_le {before : Rat} (le : before ≤ maximum) (n : Nat) :
    (gain increment maximum)^[n] before ≤ maximum := by
  cases n with
  | zero => exact le
  | succ n =>
      rw [Function.iterate_succ_apply']
      exact min_le_left _ _

end

/-! ## The loop of a pass -/

/-- The loop variables after the decisions on some bids. -/
def BidArbiter.decisions (a : BidArbiter) (x : Admission) (bids : List BidRecord) : Admission :=
  bids.foldl (fun x bid => x.record bid (a.verdict x bid)) x

/-- A bid of the task that the node could serve if it had nothing else to do. -/
def Contends (a : BidArbiter) (t : TaskId) (bid : BidRecord) : Prop := bid.taskId = t ∧ Eligible a bid

/-- What the bids ranked before it have left is enough for the bid. -/
def Room (x : Admission) (bid : BidRecord) : Prop :=
  x.availableSlots ≠ some 0 ∧ x.ledger.incompatible bid.resourceRequest = none

/-- A bid that is in the list, with those ranked before it. -/
def Ranked (bids before : List BidRecord) (bid : BidRecord) : Prop :=
  ∃ after, bids = before ++ bid :: after

/-- A contending bid of the task finds room. -/
def SomeFits (a : BidArbiter) (x : Admission) (bids : List BidRecord) (t : TaskId) : Prop :=
  ∃ before bid, Ranked bids before bid ∧ Contends a t bid ∧ Room (a.decisions x before) bid

/-- The first contending bid of the task finds room. -/
def FirstFits (a : BidArbiter) (x : Admission) (bids : List BidRecord) (t : TaskId) : Prop :=
  ∃ before bid, Ranked bids before bid ∧ Contends a t bid ∧ Room (a.decisions x before) bid ∧
    ∀ b ∈ before, ¬ Contends a t b

instance (a : BidArbiter) (t : TaskId) : DecidablePred (Contends a t) := fun bid =>
  inferInstanceAs (Decidable (bid.taskId = t ∧ _ ∧ _))

def Admission.Selected (x : Admission) (t : TaskId) : Prop := ∃ bid ∈ x.accepted, bid.taskId = t

/-- How many bids of the task have lost to others. -/
def Admission.losses (x : Admission) (t : TaskId) : Nat :=
  x.competitionRejected.countP (·.taskId = t)

section

variable {a : BidArbiter} {x : Admission} {bid : BidRecord} {bids before : List BidRecord}
  {t : TaskId}

theorem decideAll_decisions (now : Timestamp) (s : BidStore) (credits : Dict TaskId Rat) (rank : Nat)
    (items : List RankedBid) (x : Admission) :
    (a.decideAll now credits rank items x s).1 = a.decisions x (items.map (·.bid)) := by
  induction items generalizing rank x s with
  | nil => rfl
  | cons item items ih => exact ih _ _ _

theorem decisions_snoc : a.decisions x (bids ++ [bid]) =
    (a.decisions x bids).record bid (a.verdict (a.decisions x bids) bid) := List.foldl_append

theorem ranked_snoc {b : BidRecord} : Ranked (bids ++ [bid]) before b ↔
    Ranked bids before b ∨ (before = bids ∧ b = bid) := by
  constructor
  · rintro ⟨after, split⟩
    rcases List.eq_nil_or_concat after with rfl | ⟨after, last, rfl⟩
    · obtain ⟨same, last⟩ := List.append_inj' split rfl
      exact .inr ⟨same.symm, (List.singleton_inj.mp last).symm⟩
    · rw [List.concat_eq_append, ← List.cons_append, ← List.append_assoc] at split
      exact .inl ⟨after, (List.append_inj' split rfl).1⟩
  · rintro (⟨after, rfl⟩ | ⟨rfl, rfl⟩)
    · exact ⟨after ++ [bid], by simp⟩
    · exact ⟨[], rfl⟩

theorem someFits_snoc : SomeFits a x (bids ++ [bid]) t ↔
    SomeFits a x bids t ∨ (Contends a t bid ∧ Room (a.decisions x bids) bid) := by
  unfold SomeFits
  simp only [ranked_snoc]
  constructor
  · rintro ⟨before, b, ranked | ⟨rfl, rfl⟩, contends, room⟩
    · exact .inl ⟨before, b, ranked, contends, room⟩
    · exact .inr ⟨contends, room⟩
  · rintro (⟨before, b, ranked, contends, room⟩ | ⟨contends, room⟩)
    · exact ⟨before, b, .inl ranked, contends, room⟩
    · exact ⟨bids, bid, .inr ⟨rfl, rfl⟩, contends, room⟩

theorem firstFits_snoc : FirstFits a x (bids ++ [bid]) t ↔ FirstFits a x bids t ∨
    (Contends a t bid ∧ Room (a.decisions x bids) bid ∧ ∀ b ∈ bids, ¬ Contends a t b) := by
  unfold FirstFits
  simp only [ranked_snoc]
  constructor
  · rintro ⟨before, b, ranked | ⟨rfl, rfl⟩, first⟩
    · exact .inl ⟨before, b, ranked, first⟩
    · exact .inr first
  · rintro (⟨before, b, ranked, first⟩ | first)
    · exact ⟨before, b, .inl ranked, first⟩
    · exact ⟨bids, bid, .inr ⟨rfl, rfl⟩, first⟩

theorem someFits_of_firstFits (h : FirstFits a x bids t) : SomeFits a x bids t := by
  obtain ⟨before, bid, ranked, contends, room, -⟩ := h
  exact ⟨before, bid, ranked, contends, room⟩

theorem exists_contends (h : SomeFits a x bids t) : ∃ bid ∈ bids, Contends a t bid := by
  obtain ⟨before, bid, ⟨after, rfl⟩, contends, -⟩ := h
  exact ⟨bid, by simp, contends⟩

theorem selected_iff : x.Selected t ↔ t ∈ x.accepted.map (·.taskId) := List.mem_map.symm

/-! ### One decision -/

/-- A bid that the node cannot serve changes nothing. -/
theorem record_ineligible (ineligible : ¬ Eligible a bid) : x.record bid (a.verdict x bid) = x := by
  have verdict : (a.verdict x bid).status = .rejected ∧ (a.verdict x bid).earnsCredit = false := by
    unfold BidArbiter.verdict
    dsimp only
    split
    case isTrue => exact ⟨rfl, rfl⟩
    split
    case isTrue => exact ⟨rfl, rfl⟩
    case isFalse compatible =>
      split
      case h_1 => exact ⟨rfl, rfl⟩
      case h_2 feasible => exact absurd ⟨not_not.mp compatible, feasible⟩ ineligible
  unfold Admission.record
  simp [verdict]

/-- Nor does a further bid of a task that has been selected. -/
theorem record_duplicate (selected : x.Selected bid.taskId) :
    x.record bid (a.verdict x bid) = x := by
  have verdict : (a.verdict x bid).status = .rejected ∧ (a.verdict x bid).earnsCredit = false := by
    unfold BidArbiter.verdict
    rw [if_pos (selected_iff.mp selected)]
    exact ⟨rfl, rfl⟩
  unfold Admission.record
  simp [verdict]

theorem record_fits (eligible : Eligible a bid) (new : ¬ x.Selected bid.taskId) (room : Room x bid) :
    (x.record bid (a.verdict x bid)).accepted = x.accepted ++ [bid] ∧
      (x.record bid (a.verdict x bid)).competitionRejected = x.competitionRejected := by
  rw [selected_iff] at new
  have verdict : (a.verdict x bid).status = .accepted := by
    unfold BidArbiter.verdict
    rw [if_neg new]
    simp [eligible.1, eligible.2, room.1, room.2]
  unfold Admission.record
  rw [if_pos verdict]
  exact ⟨rfl, rfl⟩

theorem record_loses (eligible : Eligible a bid) (new : ¬ x.Selected bid.taskId)
    (full : ¬ Room x bid) :
    (x.record bid (a.verdict x bid)).accepted = x.accepted ∧
      (x.record bid (a.verdict x bid)).competitionRejected = x.competitionRejected ++ [bid] := by
  rw [selected_iff] at new
  have verdict : (a.verdict x bid).status = .rejected ∧ (a.verdict x bid).earnsCredit = true := by
    unfold BidArbiter.verdict
    rw [if_neg new]
    simp only [eligible.1, eligible.2, not_true_eq_false, if_false]
    split
    case isTrue => exact ⟨rfl, rfl⟩
    case isFalse slots =>
      split
      case h_1 => exact ⟨rfl, rfl⟩
      case h_2 fits => exact absurd ⟨slots, fits⟩ full
  unfold Admission.record
  simp [verdict]

theorem record_other (other : bid.taskId ≠ t) :
    ((x.record bid (a.verdict x bid)).Selected t ↔ x.Selected t) ∧
      (x.record bid (a.verdict x bid)).losses t = x.losses t := by
  unfold Admission.record Admission.Selected Admission.losses
  split
  case isTrue => simp [other]
  case isFalse =>
    split
    case isTrue => simp [other]
    case isFalse => exact ⟨Iff.rfl, rfl⟩

/-! ### All decisions -/

/-- What the pass makes of a task, in terms of the bids and of the room that each of them finds. -/
structure Outcome (a : BidArbiter) (x : Admission) (bids : List BidRecord) (t : TaskId) : Prop where
  selected : (a.decisions x bids).Selected t ↔ SomeFits a x bids t
  lost : ¬ SomeFits a x bids t → (a.decisions x bids).losses t = (bids.filter (Contends a t)).length
  spared : SomeFits a x bids t → ((a.decisions x bids).losses t = 0 ↔ FirstFits a x bids t)

theorem outcome_decisions (accepted : x.accepted = []) (rejected : x.competitionRejected = [])
    (bids : List BidRecord) : Outcome a x bids t := by
  induction bids using List.reverseRecOn with
  | nil =>
      have nobody : ¬ SomeFits a x [] t := by
        rintro ⟨before, bid, ⟨after, split⟩, -⟩
        simp at split
      refine ⟨?_, ?_, fun h => absurd h nobody⟩
      · simp [BidArbiter.decisions, Admission.Selected, accepted, nobody]
      · intro _
        simp [BidArbiter.decisions, Admission.losses, rejected]
  | append_singleton bids bid ih =>
      obtain ⟨selected, lost, spared⟩ := ih
      by_cases contends : Contends a t bid
      case neg =>
        have same : ((a.decisions x (bids ++ [bid])).Selected t ↔ (a.decisions x bids).Selected t) ∧
            (a.decisions x (bids ++ [bid])).losses t = (a.decisions x bids).losses t := by
          rw [decisions_snoc]
          by_cases other : bid.taskId = t
          · rw [record_ineligible fun eligible => contends ⟨other, eligible⟩]
            exact ⟨Iff.rfl, rfl⟩
          · exact record_other other
        have some_ : SomeFits a x (bids ++ [bid]) t ↔ SomeFits a x bids t := by
          simp [someFits_snoc, contends]
        have first : FirstFits a x (bids ++ [bid]) t ↔ FirstFits a x bids t := by
          simp [firstFits_snoc, contends]
        refine ⟨?_, ?_, ?_⟩
        · rw [same.1, some_, selected]
        · rw [same.2, some_, List.filter_append]
          simpa [contends] using lost
        · rw [same.2, some_, first]
          exact spared
      case pos =>
        obtain ⟨rfl, eligible⟩ := id contends
        by_cases taken : SomeFits a x bids bid.taskId
        · have same : a.decisions x (bids ++ [bid]) = a.decisions x bids := by
            rw [decisions_snoc, record_duplicate (selected.mpr taken)]
          have some_ : SomeFits a x (bids ++ [bid]) bid.taskId := someFits_snoc.mpr (.inl taken)
          obtain ⟨b, member, earlier⟩ := exists_contends taken
          have first : FirstFits a x (bids ++ [bid]) bid.taskId ↔ FirstFits a x bids bid.taskId := by
            rw [firstFits_snoc]
            refine or_iff_left ?_
            rintro ⟨-, -, nobody⟩
            exact nobody b member earlier
          rw [← same] at selected spared
          refine ⟨?_, fun nobody => absurd some_ nobody, fun _ => (spared taken).trans first.symm⟩
          exact iff_of_true (selected.mpr taken) some_
        · have new : ¬ (a.decisions x bids).Selected bid.taskId := fun h => taken (selected.mp h)
          have notFirst : ¬ FirstFits a x bids bid.taskId := fun h => taken (someFits_of_firstFits h)
          have count := lost taken
          by_cases room : Room (a.decisions x bids) bid
          · obtain ⟨acceptedEq, rejectedEq⟩ := record_fits eligible new room
            rw [← decisions_snoc] at acceptedEq rejectedEq
            have some_ : SomeFits a x (bids ++ [bid]) bid.taskId :=
              someFits_snoc.mpr (.inr ⟨contends, room⟩)
            refine ⟨iff_of_true ⟨bid, by simp [acceptedEq], rfl⟩ some_,
              fun nobody => absurd some_ nobody, fun _ => ?_⟩
            have losses : (a.decisions x (bids ++ [bid])).losses bid.taskId =
                (bids.filter (Contends a bid.taskId)).length := by
              rw [← count]
              unfold Admission.losses
              rw [rejectedEq]
            rw [losses, firstFits_snoc, List.length_eq_zero_iff, List.filter_eq_nil_iff]
            simp [notFirst, contends, room]
          · obtain ⟨acceptedEq, rejectedEq⟩ := record_loses eligible new room
            rw [← decisions_snoc] at acceptedEq rejectedEq
            have nobody : ¬ SomeFits a x (bids ++ [bid]) bid.taskId := by
              rw [someFits_snoc]
              rintro (h | ⟨-, h⟩)
              · exact taken h
              · exact room h
            refine ⟨?_, fun _ => ?_, fun h => absurd h nobody⟩
            · unfold Admission.Selected at new ⊢
              rw [acceptedEq]
              exact iff_of_false new nobody
            · unfold Admission.losses at count ⊢
              rw [rejectedEq, List.countP_append, count, List.filter_append, List.length_append]
              simp [contends]

theorem decisions_subset (a : BidArbiter) {x : Admission} {before bids : List BidRecord}
    (later : before ⊆ bids) (accepted : x.accepted ⊆ bids) (rejected : x.competitionRejected ⊆ bids) : (a.decisions x before).accepted ⊆ bids ∧
      (a.decisions x before).competitionRejected ⊆ bids := by
  induction before generalizing x with
  | nil => exact ⟨accepted, rejected⟩
  | cons bid before ih =>
      obtain ⟨here, rest⟩ := List.cons_subset.mp later
      refine ih rest ?_ ?_
      · unfold Admission.record
        dsimp only
        split
        case isTrue => exact List.append_subset.mpr ⟨accepted, List.cons_subset.mpr ⟨here, by simp⟩⟩
        case isFalse => split <;> exact accepted
      · unfold Admission.record
        dsimp only
        split
        case isTrue => exact rejected
        case isFalse =>
          split
          case isTrue => exact List.append_subset.mpr ⟨rejected, List.cons_subset.mpr ⟨here, by simp⟩⟩
          case isFalse => exact rejected

/-! ## The credit of a task -/

variable {s : BidStore} {registry : List TaskEntry} {clock : Clock}

theorem credit_outcomes_count (after : Rat → Rat) (t : TaskId)
    (found : ∀ bid ∈ bids, s.task? bid.bidId = some bid.taskId) :
    ((bids.map (·.bidId)).foldl (creditOutcome after) s).credit t =
      after^[bids.countP (·.taskId = t)] (s.credit t) := by
  induction bids generalizing s with
  | nil => rfl
  | cons bid bids ih =>
      obtain ⟨here, rest⟩ := List.forall_mem_cons.mp found
      have kept : ∀ b ∈ bids, (creditOutcome after s bid.bidId).task? b.bidId = some b.taskId :=
        fun b member => (task_creditOutcome after _).trans (rest b member)
      rw [List.map_cons, List.foldl_cons, ih kept, credit_creditOutcome here, List.countP_cons]
      by_cases own : bid.taskId = t
      · rw [if_pos own.symm, if_pos (decide_eq_true own), own, Function.iterate_succ_apply]
      · rw [if_neg (Ne.symm own), if_neg (by simpa using own), Nat.add_zero]

/-- The credit after the auction is that of the losses, after the task has spent. -/
theorem credit_decideWindow (a : BidArbiter) (registry : List TaskEntry) (clock : Clock)
    (t : TaskId) (found : ∀ bid ∈ bids, s.task? bid.bidId = some bid.taskId) :
    (a.decideWindow registry clock bids s).2.credit t =
      (gain a.auctionPolicy.creditIncrement a.auctionPolicy.creditMax)^[
        (a.decideWindow registry clock bids s).1.admission.losses t]
        ((fun before => max 0 (before * a.auctionPolicy.acceptedCreditDecay))^[
          (a.decideWindow registry clock bids s).1.admission.accepted.countP (·.taskId = t)]
          (s.credit t)) := by
  have ranked : ((rankBids bids a.strategy s.credits a.nodeResources a.auctionPolicy
    clock.now).map (·.bid)).Perm bids := rankBids_perm
  have subset := decisions_subset a
    (x := a.availableResources registry (s.activeReservations clock.reservations).1)
    ranked.subset (List.nil_subset _) (List.nil_subset _)
  unfold BidArbiter.decideWindow
  dsimp only
  rw [← decideAll_decisions clock.now (s.activeReservations clock.reservations).2 s.credits 1] at subset
  generalize done : a.decideAll clock.now s.credits 1 _ _ _ = result at subset ⊢
  have kept (b : BidId) : result.2.task? b = s.task? b ∧ result.2.credits = s.credits := by
    have loop := task_decideAll (a := a) clock.now b
      (s := (s.activeReservations clock.reservations).2) s.credits 1
      (rankBids bids a.strategy s.credits a.nodeResources a.auctionPolicy clock.now)
      (a.availableResources registry (s.activeReservations clock.reservations).1)
    rw [done] at loop
    exact ⟨loop.1.trans task_expireLocked, loop.2.trans credits_expireLocked⟩
  have stored : ∀ bid ∈ bids, result.2.task? bid.bidId = some bid.taskId := by
    intro bid member
    rw [(kept bid.bidId).1]
    exact found bid member
  have credit : result.2.credit t = s.credit t := by
    unfold BidStore.credit
    rw [(kept "").2]
  show ((_ : List Timestamp).foldl _ (BidStore.applyCreditOutcomes ..)).credit t = _
  rw [credit_printed]
  unfold applyCreditOutcomes
  show ((_ : List BidId).foldl showCredit _).credit t = _
  have later : ∀ bid ∈ result.1.competitionRejected,
      ((result.1.accepted.map (·.bidId)).foldl
        (creditOutcome fun before => max 0 (before * a.auctionPolicy.acceptedCreditDecay))
        result.2).task? bid.bidId = some bid.taskId := by
    intro bid member
    rw [task_outcomes]
    exact stored bid (subset.2 member)
  have spent := credit_outcomes_count
    (fun before => max 0 (before * a.auctionPolicy.acceptedCreditDecay)) t
    fun bid member => stored bid (subset.1 member)
  have gained := credit_outcomes_count
    (gain a.auctionPolicy.creditIncrement a.auctionPolicy.creditMax) t later
  rw [credit_shown]
  rw [spent, credit] at gained
  exact gained

theorem countP_accepted : x.accepted.countP (·.taskId = t) =
    (x.accepted.map (·.taskId)).count t := by
  rw [List.count, List.countP_map]
  rfl

theorem countP_of_selected (distinct : (x.accepted.map (·.taskId)).Nodup) (selected : x.Selected t) :
    x.accepted.countP (·.taskId = t) = 1 := by
  rw [countP_accepted]
  exact List.count_eq_one_of_mem distinct (selected_iff.mp selected)

theorem countP_of_new (new : ¬ x.Selected t) : x.accepted.countP (·.taskId = t) = 0 := by
  rw [countP_accepted]
  exact List.count_eq_zero_of_not_mem fun h => new (selected_iff.mpr h)

/-- What a round is to do to the credit of a task. -/
structure CreditPerTask (a : BidArbiter) (x : Admission) (t : TaskId) (before after : Rat) : Prop where
  accepted : x.Selected t → after = before * a.auctionPolicy.acceptedCreditDecay
  one : ¬ x.Selected t → after ≤ before + a.auctionPolicy.creditIncrement
  bounded : ¬ x.Selected t → before ≤ a.auctionPolicy.creditMax → after ≤ a.auctionPolicy.creditMax
  lost : ¬ x.Selected t → before < after → ∃ bid ∈ x.competitionRejected, bid.taskId = t

/-- At most one bid of the task contends, or the first that does finds room; or another increment does
not show, as the credit that the accepted task keeps is the maximum, or that of a task which is not
accepted is within one increment of it. -/
def CountsOnce (a : BidArbiter) (x : Admission) (bids : List BidRecord) (t : TaskId) (before : Rat) :
    Prop :=
  (bids.filter (Contends a t)).length ≤ 1 ∨ FirstFits a x bids t ∨
    (SomeFits a x bids t ∧ before * a.auctionPolicy.acceptedCreditDecay = a.auctionPolicy.creditMax) ∨
    (¬ SomeFits a x bids t ∧
      a.auctionPolicy.creditMax ≤ before + a.auctionPolicy.creditIncrement)

theorem firstFits_of_alone (alone : (bids.filter (Contends a t)).length ≤ 1)
    (some_ : SomeFits a x bids t) : FirstFits a x bids t := by
  obtain ⟨before, bid, ⟨after, rfl⟩, contends, room⟩ := some_
  refine ⟨before, bid, ⟨after, rfl⟩, contends, room, ?_⟩
  intro b member earlier
  rw [List.filter_append, List.length_append, List.filter_cons_of_pos (by simpa using contends),
    List.length_cons] at alone
  have one : 0 < (before.filter (Contends a t)).length :=
    List.length_pos_of_mem (List.mem_filter.mpr ⟨member, by simpa using earlier⟩)
  omega

theorem decideWindow_admission (a : BidArbiter) (registry : List TaskEntry) (clock : Clock)
    (bids : List BidRecord) (s : BidStore) : (a.decideWindow registry clock bids s).1.admission =
      a.decisions (a.availableResources registry (a.decideWindow registry clock bids s).1.reservations)
        ((a.decideWindow registry clock bids s).1.ranked.map (·.bid)) :=
  decideAll_decisions ..

/-- An accepted task whose own bids have lost to others, too. -/
theorem creditPerTask_selected_iff {n : Nat} {before : Rat} (nonneg : 0 ≤ before)
    (selected : x.Selected t) :
    CreditPerTask a x t before
        ((gain a.auctionPolicy.creditIncrement a.auctionPolicy.creditMax)^[n]
          (max 0 (before * a.auctionPolicy.acceptedCreditDecay))) ↔
      n = 0 ∨ before * a.auctionPolicy.acceptedCreditDecay = a.auctionPolicy.creditMax := by
  rw [max_eq_right (mul_nonneg nonneg a.auctionPolicy.acceptedCreditDecay_bounds.1),
    ← gain_eq_iff a.auctionPolicy.creditIncrement_pos]
  constructor
  · intro h
    exact h.accepted selected
  · intro same
    exact ⟨fun _ => same, fun h => absurd selected h, fun h => absurd selected h,
      fun h => absurd selected h⟩

theorem creditPerTask_losing_iff {before : Rat} (new : ¬ x.Selected t) :
    CreditPerTask a x t before
        ((gain a.auctionPolicy.creditIncrement a.auctionPolicy.creditMax)^[x.losses t] before) ↔
      x.losses t ≤ 1 ∨ a.auctionPolicy.creditMax ≤ before + a.auctionPolicy.creditIncrement := by
  rw [← gain_le_iff a.auctionPolicy.creditIncrement_pos]
  constructor
  · intro h
    exact h.one new
  · intro one
    refine ⟨fun h => absurd h new, fun _ => one, fun _ le => gain_iterate_le le _, fun _ less => ?_⟩
    have some_ : 0 < x.losses t := by
      by_contra none_
      rw [Nat.eq_zero_of_not_pos none_] at less
      exact lt_irrefl _ less
    obtain ⟨bid, member, own⟩ := List.countP_pos_iff.mp some_
    exact ⟨bid, member, of_decide_eq_true own⟩

theorem creditPerTask_decideWindow_iff (a : BidArbiter) (registry : List TaskEntry) (clock : Clock)
    (t : TaskId) (nonneg : 0 ≤ s.credit t)
    (found : ∀ bid ∈ bids, s.task? bid.bidId = some bid.taskId) :
    CreditPerTask a (a.decideWindow registry clock bids s).1.admission t (s.credit t)
        ((a.decideWindow registry clock bids s).2.credit t) ↔
      CountsOnce a (a.availableResources registry (a.decideWindow registry clock bids s).1.reservations)
        ((a.decideWindow registry clock bids s).1.ranked.map (·.bid)) t (s.credit t) := by
  have distinct := (fits_decideWindow a registry s clock bids).tasks
  have admission := decideWindow_admission a registry clock bids s
  rw [credit_decideWindow a registry clock t found]
  generalize (a.decideWindow registry clock bids s).1.ranked.map (·.bid) = ranked at admission ⊢
  generalize start : a.availableResources registry
    (a.decideWindow registry clock bids s).1.reservations = x at admission ⊢
  generalize (a.decideWindow registry clock bids s).1.admission = last at admission distinct ⊢
  have outcome : Outcome a x ranked t := by
    rw [← start]
    exact outcome_decisions rfl rfl ranked
  obtain ⟨selected, lost, spared⟩ := outcome
  rw [← admission] at selected lost spared
  unfold CountsOnce
  by_cases some_ : SomeFits a x ranked t
  · rw [countP_of_selected distinct (selected.mpr some_), Function.iterate_one,
      creditPerTask_selected_iff nonneg (selected.mpr some_), spared some_]
    have alone (h : (ranked.filter (Contends a t)).length ≤ 1) := firstFits_of_alone h some_
    tauto
  · have new : ¬ last.Selected t := fun h => some_ (selected.mp h)
    have notFirst : ¬ FirstFits a x ranked t := fun h => some_ (someFits_of_firstFits h)
    rw [countP_of_new new, Function.iterate_zero_apply, creditPerTask_losing_iff new, lost some_]
    tauto

/-- Exactly when a round counts once for a task. -/
theorem creditPerTask_iff {auction : Auction} (keyed : s.Keyed) (t : TaskId) (nonneg : 0 ≤ s.credit t)
    (decided : (a.runOnce registry clock s).auction = some auction) :
    CreditPerTask a auction.admission t (s.credit t) ((a.runOnce registry clock s).store.credit t) ↔
      CountsOnce a (a.availableResources registry auction.reservations)
        (auction.ranked.map (·.bid)) t (s.credit t) := by
  obtain ⟨bids, window, decision⟩ := BidArbiter.runOnce_decides decided
  have found : ∀ bid ∈ bids, (BidArbiter.opened clock s).task? bid.bidId = some bid.taskId := by
    intro bid member
    unfold BidStore.task?
    rw [get?_of_window keyed ((window_pending window).2 bid member).1, Option.map_some]
  have same : (BidArbiter.opened clock s).credit t = s.credit t :=
    credit_of_credits (credits_expireLocked.trans credits_expireLocked) t
  have iff := creditPerTask_decideWindow_iff a registry clock t (same.symm ▸ nonneg) found
  rw [decision, same] at iff
  exact iff

end

/-- A bid of one core that comes first, and two bids of another task, of four cores and of one. -/
def rivalBids : BidStore :=
  runAll [.submit ⟨"1", "epoch", "u", none, "a", "b", 1 / 4, 0⟩ 0,
    .submit ⟨"2", "epoch", "t",
      some { resourceRequest := { cpuCores := 4, cpuCores_pos := four_pos } }, "a", "b", 1 / 2, 0⟩ 0,
    .submit ⟨"3", "epoch", "t", none, "a", "b", 3 / 4, 0⟩ 0] { reservationTtl := 30 }

/-- The same node with room for two tasks. -/
def fourCores : BidArbiter := { smallArbiter with capacity := some 2 }

/-- The second task is accepted with its smaller bid, and yet it gains. -/
theorem acceptedTask_gains : ∃ auction,
    (fourCores.runOnce [] firstClock rivalBids).auction = some auction ∧
      auction.admission.Selected "t" ∧ rivalBids.credit "t" = 0 ∧
      (fourCores.runOnce [] firstClock rivalBids).store.credit "t" = 1 ∧
      ¬ CreditPerTask fourCores auction.admission "t" (rivalBids.credit "t")
        ((fourCores.runOnce [] firstClock rivalBids).store.credit "t") := by
  have decided : (fourCores.runOnce [] firstClock rivalBids).auction.map
      (·.admission.accepted.map (·.taskId)) = some ["u", "t"] := by decide +kernel
  have before : rivalBids.credit "t" = 0 := by decide +kernel
  have after : (fourCores.runOnce [] firstClock rivalBids).store.credit "t" = 1 := by decide +kernel
  obtain ⟨auction, found, accepted⟩ := Option.map_eq_some_iff.mp decided
  have selected : auction.admission.Selected "t" := by
    rw [selected_iff, accepted]
    decide
  refine ⟨auction, found, selected, before, after, ?_⟩
  intro h
  have spent := h.accepted selected
  rw [before, after, zero_mul] at spent
  exact absurd spent (by decide)

/-- Without the larger bid the round counts once for the task. -/
theorem creditPerTask_sample : ∃ auction,
    (fourCores.runOnce [] firstClock (rivalBids.cancel "2" "withdrawn" 1).2).auction = some auction ∧
      (CreditPerTask fourCores auction.admission "t" ((rivalBids.cancel "2" "withdrawn" 1).2.credit "t")
          ((fourCores.runOnce [] firstClock (rivalBids.cancel "2" "withdrawn" 1).2).store.credit "t") ↔
        CountsOnce fourCores (fourCores.availableResources [] auction.reservations)
          (auction.ranked.map (·.bid)) "t" ((rivalBids.cancel "2" "withdrawn" 1).2.credit "t")) := by
  have decided : (fourCores.runOnce [] firstClock
      (rivalBids.cancel "2" "withdrawn" 1).2).auction.isSome := by decide +kernel
  obtain ⟨auction, decided⟩ := Option.isSome_iff_exists.mp decided
  have sound : rivalBids.Sound := sound_runAll (by simp [Operation.Admitted]) (sound_empty 30)
  have kept : (rivalBids.cancel "2" "withdrawn" 1).2.Sound := sound_cancel sound "withdrawn"
  exact ⟨auction, decided, creditPerTask_iff (fun b r found => (kept.records b r found).key) "t"
    (credit_nonneg kept.toCoherent "t") decided⟩

end Magellan.Bidding
