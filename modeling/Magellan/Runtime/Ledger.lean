import Magellan.Runtime.Accounting
import Mathlib.Tactic.Ring
import Mathlib.Tactic.Linarith

/-!
# The accounting of a task against its status timeline

Each settlement charges the time since the last accounted instant to the status that the record has
now, and every change of the status moves that instant without a charge.
-/

namespace Magellan.Accounting

open Registry

/-! ## The service's clock -/

structure Clock where
  localNodeId : NodeId
  traceSecondsPerRealSecond : Rat
  positive : 0 < traceSecondsPerRealSecond

def evaluationSecondsForWallSeconds (c : Clock) (wallSeconds : Rat) : Rat :=
  max 0 wallSeconds * c.traceSecondsPerRealSecond

/-- `(now_wall - last_wall).total_seconds()`, cut off at zero. -/
def elapsedWallSeconds (nowWall lastWall : Timestamp) : Rat :=
  max 0 (((nowWall : Rat) - lastWall) / 1000000)

/-- The elapsed evaluation time that `settle_task` computes. -/
def elapsedEvalSeconds (c : Clock) (nowWall : Timestamp) (s : TaskRuntimeState) : Rat :=
  match s.lastAccountedAtUtc with
  | none => 0
  | some last => evaluationSecondsForWallSeconds c (elapsedWallSeconds nowWall last)

/-! ## Runs -/

inductive Event where
  | settle (i : SettleInput)
  | markRunning (pid : Pid) (runtimeAdapter : Option String) (launchCommand : Option (List String))
      (resumedFromCheckpoint : Bool)
  | markPaused (pausedAtUtc resumeAtUtc resumeWallAtUtc : Timestamp) (reason : String)
  | markResumed
  | stop

/-- The changes of the status, the latest first. -/
abbrev Timeline := List (Timestamp × TaskStatus)

/-- The record, and what really happened. -/
structure Ledger where
  record : TaskRuntimeState
  timeline : Timeline

/-- A change of the status at `now`; one that raises changes nothing. -/
def Ledger.change (now : Timestamp) (l : Ledger) : Except Exn TaskRuntimeState → Ledger
  | .error _ => l
  | .ok s => ⟨s, (now, s.status) :: l.timeline⟩

/-- One event at the real time `now`. The process is alive while it is recorded. -/
def Ledger.step (c : Clock) (now : Timestamp) (l : Ledger) : Event → Ledger
  | .settle i =>
      let i := { i with elapsedEvalSeconds := elapsedEvalSeconds c i.nowWall l.record }
      { l with record := settleTask c.localNodeId (fun _ => true) i l.record }
  | .markRunning pid runtimeAdapter launchCommand resumedFromCheckpoint =>
      l.change now (Registry.markRunning c.localNodeId pid runtimeAdapter launchCommand
        resumedFromCheckpoint now l.record)
  | .markPaused pausedAtUtc resumeAtUtc resumeWallAtUtc reason =>
      l.change now (Registry.markPaused c.localNodeId pausedAtUtc resumeAtUtc resumeWallAtUtc reason
        now l.record)
  | .markResumed => l.change now (Registry.markResumed c.localNodeId now l.record)
  | .stop => l.change now (.ok (Registry.markStopped l.record))

/-- A settlement is given a time that was read before. -/
def Event.Possible (now : Timestamp) : Event → Prop
  | .settle i => i.nowWall ≤ now
  | _ => True

/-- A settlement is not given a time before the last accounted instant, and the status of a task
that is charged changes at the last accounted instant. -/
def Event.Orderly (now : Timestamp) (s : TaskRuntimeState) : Event → Prop
  | .settle i => ∀ last, s.lastAccountedAtUtc = some last → last ≤ i.nowWall
  | .markPaused .. => s.status = .running → s.lastAccountedAtUtc = some now
  | .markResumed => s.status = .paused → s.lastAccountedAtUtc = some now
  | .markRunning .. | .stop =>
      s.status = .running ∨ s.status = .paused → s.lastAccountedAtUtc = some now

/-- The ledgers that are reached from `l` by events at times that do not decrease, with the time of
the last of them. -/
inductive Runs (c : Clock) (allowed : Timestamp → TaskRuntimeState → Event → Prop) (l : Ledger)
    (start : Timestamp) : Timestamp → Ledger → Prop
  | start : Runs c allowed l start start l
  | step {now : Timestamp} {m : Ledger} (later : Timestamp) (e : Event)
      (before : Runs c allowed l start now m) (order : now ≤ later) (possible : e.Possible later)
      (ok : allowed later m.record e) : Runs c allowed l start later (m.step c later e)

/-! ## The true time -/

/-- The time until `t` in which the task had the status `kind`. -/
def spent (kind : TaskStatus) : Timeline → Timestamp → Nat
  | [], _ => 0
  | (since, status) :: earlier, t =>
      (if status = kind then t - since else 0) + spent kind earlier (min since t)

/-- A kind of charge. -/
inductive Kind where
  | running
  | paused

def Kind.status : Kind → TaskStatus
  | .running => .running
  | .paused => .paused

def Kind.accumulated : Kind → TaskAccountingSnapshot → Rat
  | .running => (·.accumulatedRuntimeSeconds)
  | .paused => (·.accumulatedPausedSeconds)

/-- What should have been accumulated since the ledger had `base`, up to `t`. -/
def due (c : Clock) (kind : Kind) (base : TaskAccountingSnapshot) (timeline : Timeline)
    (t : Timestamp) : Rat :=
  kind.accumulated base + c.traceSecondsPerRealSecond * ((spent kind.status timeline t : Rat) / 1000000)

/-- Both totals are what they should be up to the last accounted instant. -/
def Exact (c : Clock) (base : TaskAccountingSnapshot) (l : Ledger) : Prop :=
  ∀ last, l.record.lastAccountedAtUtc = some last →
    ∀ kind : Kind, kind.accumulated l.record.accounting = due c kind base l.timeline last

/-! ## One event -/

variable {c : Clock} {kind : Kind} {base : TaskAccountingSnapshot} {now : Timestamp} {l : Ledger}

theorem spent_cons (kind : TaskStatus) (since : Timestamp) (status : TaskStatus)
    (earlier : Timeline) (t : Timestamp) :
    spent kind ((since, status) :: earlier) t =
      (if status = kind then t - since else 0) + spent kind earlier (min since t) :=
  rfl

/-- The record is local, and a task that is charged has a process. -/
structure Charged (c : Clock) (s : TaskRuntimeState) : Prop where
  own : s.ownerNodeId = c.localNodeId
  process : s.status = .running ∨ s.status = .paused → ∃ pid, s.pid = some pid

/-- What is charged is what is due, and from the last accounted instant on the true time grows with
the status that the record has. -/
structure Balanced (c : Clock) (base : TaskAccountingSnapshot) (now : Timestamp) (l : Ledger)
    (kind : Kind) : Prop where
  accounted : ∀ last, l.record.lastAccountedAtUtc = some last →
    last ≤ now ∧ kind.accumulated l.record.accounting = due c kind base l.timeline last ∧
      ∀ t, last ≤ t → spent kind.status l.timeline t =
        spent kind.status l.timeline last + if l.record.status = kind.status then t - last else 0
  fresh : l.record.lastAccountedAtUtc = none →
    l.record.status ≠ kind.status ∧ kind.accumulated l.record.accounting = kind.accumulated base ∧
      ∀ t, spent kind.status l.timeline t = 0

theorem elapsed_eq (c : Clock) {last nowWall : Timestamp} (order : last ≤ nowWall) :
    evaluationSecondsForWallSeconds c (elapsedWallSeconds nowWall last) =
      c.traceSecondsPerRealSecond * (((nowWall - last : Nat) : Rat) / 1000000) := by
  have nonneg : (0 : Rat) ≤ ((nowWall : Rat) - last) / 1000000 := by
    have cast : (last : Rat) ≤ nowWall := by exact_mod_cast order
    linarith
  unfold evaluationSecondsForWallSeconds elapsedWallSeconds
  rw [max_eq_right nonneg, max_eq_right nonneg, Nat.cast_sub order]
  ring

theorem elapsed_nonneg (c : Clock) (w : Rat) : 0 ≤ evaluationSecondsForWallSeconds c w :=
  mul_nonneg (le_max_left _ _) c.positive.le

theorem settle_charges (kind : Kind) (now : Timestamp) {i : SettleInput} (h : Charged c l.record) :
    (l.step c now (.settle i)).record.lastAccountedAtUtc = some i.nowWall ∧
      (l.step c now (.settle i)).record.status = l.record.status ∧
      kind.accumulated (l.step c now (.settle i)).record.accounting =
        kind.accumulated l.record.accounting +
          if l.record.status = kind.status then elapsedEvalSeconds c i.nowWall l.record else 0 := by
  have nonneg : 0 ≤ elapsedEvalSeconds c i.nowWall l.record := by
    unfold elapsedEvalSeconds
    split
    · exact le_refl 0
    · exact elapsed_nonneg c _
  have alive (charged : l.record.status = .running ∨ l.record.status = .paused) :
      (l.record.pid.any fun _ => true) = true := by
    obtain ⟨pid, process⟩ := h.process charged
    rw [process]
    rfl
  simp only [Ledger.step, settleTask, h.own, ne_eq, not_true_eq_false, if_false, recordAccounting,
    settleArgs]
  cases mark : l.record.lastAccountedAtUtc with
  | none =>
      have nothing : elapsedEvalSeconds c i.nowWall l.record = 0 := by
        rw [elapsedEvalSeconds, mark]
      cases kind <;> simp [Kind.accumulated, nothing]
  | some last =>
      by_cases running : l.record.status = .running
      · simp only [running, alive (.inl running), reduceCtorEq, if_false, and_self, if_true]
        cases kind with
        | running => simp [Kind.accumulated, Kind.status, nonneg]
        | paused => simp [Kind.accumulated, Kind.status]
      · by_cases paused : l.record.status = .paused
        · simp only [paused, alive (.inr paused), reduceCtorEq, if_false, and_self, if_true,
            false_and]
          cases kind with
          | running => simp [Kind.accumulated, Kind.status]
          | paused => simp [Kind.accumulated, Kind.status, nonneg]
        · simp only [running, paused, reduceCtorEq, if_false, false_and]
          cases kind with
          | running => simp [Kind.accumulated, Kind.status, running]
          | paused => simp [Kind.accumulated, Kind.status, paused]

theorem Balanced.settle {i : SettleInput} (h : Balanced c base now l kind)
    (charged : Charged c l.record) {later : Timestamp} (possible : i.nowWall ≤ later)
    (orderly : ∀ last, l.record.lastAccountedAtUtc = some last → last ≤ i.nowWall) :
    Balanced c base later (l.step c later (.settle i)) kind := by
  obtain ⟨mark, status, total⟩ := settle_charges kind later (i := i) charged
  have timeline : (l.step c later (.settle i)).timeline = l.timeline := rfl
  refine ⟨fun last here => ?_, fun none_ => by rw [mark] at none_; cases none_⟩
  rw [mark] at here
  cases here
  rw [timeline, status]
  cases before : l.record.lastAccountedAtUtc with
  | none =>
      obtain ⟨other, same, zero⟩ := h.fresh before
      refine ⟨possible, ?_, fun t _ => ?_⟩
      · rw [total, if_neg other, same, due, zero]
        simp
      · rw [zero, zero, if_neg other]
  | some last =>
      obtain ⟨-, same, ahead⟩ := h.accounted last before
      have order : last ≤ i.nowWall := orderly last before
      have elapsed : elapsedEvalSeconds c i.nowWall l.record =
          c.traceSecondsPerRealSecond * (((i.nowWall - last : Nat) : Rat) / 1000000) := by
        rw [elapsedEvalSeconds, before]
        exact elapsed_eq c order
      refine ⟨possible, ?_, fun t after => ?_⟩
      · rw [total, same, due, due, ahead i.nowWall order]
        by_cases here : l.record.status = kind.status
        · rw [if_pos here, if_pos here, elapsed, Nat.cast_add]
          ring
        · simp [here]
      · rw [ahead t (order.trans after), ahead i.nowWall order]
        by_cases here : l.record.status = kind.status
        · rw [if_pos here, if_pos here, if_pos here, Nat.add_assoc,
            Nat.add_comm (i.nowWall - last), Nat.sub_add_sub_cancel after order]
        · simp [here]

/-- A change of the status keeps the balance where the task was not charged, or where it takes place
at the last accounted instant. -/
theorem Balanced.change (h : Balanced c base now l kind) {later : Timestamp} (order : now ≤ later)
    {s : TaskRuntimeState} (same : s.accounting = l.record.accounting)
    (orderly : l.record.status = kind.status → l.record.lastAccountedAtUtc = some later)
    (mark : s.lastAccountedAtUtc = some later ∨
      s.lastAccountedAtUtc = l.record.lastAccountedAtUtc ∧ s.status ≠ kind.status) :
    Balanced c base later ⟨s, (later, s.status) :: l.timeline⟩ kind := by
  -- until the change the time is what it was, and after it the new status counts
  have before (t : Timestamp) (early : t ≤ later) :
      spent kind.status ((later, s.status) :: l.timeline) t = spent kind.status l.timeline t := by
    rw [spent_cons, Nat.sub_eq_zero_of_le early, Nat.min_eq_right early]
    simp
  have after (t : Timestamp) (late : later ≤ t) :
      spent kind.status ((later, s.status) :: l.timeline) t =
        spent kind.status l.timeline later + if s.status = kind.status then t - later else 0 := by
    rw [spent_cons, Nat.min_eq_left late, Nat.add_comm]
  have here : kind.accumulated l.record.accounting = due c kind base l.timeline later := by
    cases last_ : l.record.lastAccountedAtUtc with
    | none =>
        obtain ⟨-, total, zero⟩ := h.fresh last_
        rw [total, due, zero]
        simp
    | some last =>
        obtain ⟨early, total, ahead⟩ := h.accounted last last_
        rw [total, due, due, ahead later (early.trans order)]
        by_cases charged : l.record.status = kind.status
        · have at_ := orderly charged
          rw [last_] at at_
          cases at_
          simp
        · simp [charged]
  have due_before (t : Timestamp) (early : t ≤ later) :
      due c kind base ((later, s.status) :: l.timeline) t = due c kind base l.timeline t := by
    rw [due, due, before t early]
  constructor
  · intro last mark'
    dsimp only at mark' ⊢
    rcases mark with new | ⟨old, idle⟩
    · rw [new] at mark'
      cases mark'
      refine ⟨le_refl _, ?_, fun t late => ?_⟩
      · rw [same, here, due_before later (le_refl _)]
      · rw [after t late, before later (le_refl _)]
    · rw [old] at mark'
      obtain ⟨early, total, ahead⟩ := h.accounted last mark'
      refine ⟨early.trans order, ?_, fun t late => ?_⟩
      · rw [same, total, due_before last (early.trans order)]
      · rw [if_neg idle, Nat.add_zero, before last (early.trans order)]
        rcases le_total t later with before_ | after_
        · rw [before t before_, ahead t late]
          by_cases charged : l.record.status = kind.status
          · have at_ := orderly charged
            rw [mark'] at at_
            cases at_
            rw [le_antisymm before_ late]
            simp
          · simp [charged]
        · rw [after t after_, if_neg idle, Nat.add_zero, ahead later (early.trans order)]
          by_cases charged : l.record.status = kind.status
          · have at_ := orderly charged
            rw [mark'] at at_
            cases at_
            simp
          · simp [charged]
  · intro none_
    dsimp only at none_ ⊢
    rcases mark with new | ⟨old, idle⟩
    · rw [new] at none_
      cases none_
    · rw [old] at none_
      obtain ⟨-, total, zero⟩ := h.fresh none_
      refine ⟨idle, by rw [same, total], fun t => ?_⟩
      rw [spent_cons, if_neg idle, zero]

theorem Balanced.mono (h : Balanced c base now l kind) {later : Timestamp} (order : now ≤ later) :
    Balanced c base later l kind where
  accounted := fun last mark =>
    have ⟨early, rest⟩ := h.accounted last mark
    ⟨early.trans order, rest⟩
  fresh := h.fresh

/-- What the events keep. -/
structure Kept (c : Clock) (base : TaskAccountingSnapshot) (now : Timestamp) (l : Ledger) : Prop where
  charged : Charged c l.record
  balanced : ∀ kind, Balanced c base now l kind

theorem Kept.change (h : Kept c base now l) {later : Timestamp} (order : now ≤ later)
    {result : Except Exn TaskRuntimeState}
    (ok : ∀ s, result = .ok s → Charged c s ∧ s.accounting = l.record.accounting ∧
      ∀ kind : Kind, (l.record.status = kind.status → l.record.lastAccountedAtUtc = some later) ∧
        (s.lastAccountedAtUtc = some later ∨
          s.lastAccountedAtUtc = l.record.lastAccountedAtUtc ∧ s.status ≠ kind.status)) :
    Kept c base later (l.change later result) := by
  cases result with
  | error e => exact ⟨h.charged, fun kind => (h.balanced kind).mono order⟩
  | ok s =>
      obtain ⟨charged, same, kinds⟩ := ok s rfl
      refine ⟨charged, fun kind => ?_⟩
      obtain ⟨orderly, mark⟩ := kinds kind
      exact (h.balanced kind).change order same orderly mark

theorem charged_of_orderly {s : TaskRuntimeState} {later : Timestamp}
    (orderly : s.status = .running ∨ s.status = .paused → s.lastAccountedAtUtc = some later)
    (kind : Kind) (here : s.status = kind.status) : s.lastAccountedAtUtc = some later := by
  cases kind with
  | running => exact orderly (.inl here)
  | paused => exact orderly (.inr here)

theorem Kept.step (h : Kept c base now l) {later : Timestamp} (order : now ≤ later) {e : Event}
    (possible : e.Possible later) (orderly : e.Orderly later l.record) :
    Kept c base later (l.step c later e) := by
  cases e with
  | settle i =>
      refine ⟨⟨?_, ?_⟩, fun kind => (h.balanced kind).settle h.charged possible orderly⟩
      · simp only [Ledger.step, settleTask, h.charged.own, ne_eq, not_true_eq_false, if_false]
        exact h.charged.own
      · simp only [Ledger.step, settleTask, h.charged.own, ne_eq, not_true_eq_false, if_false]
        exact h.charged.process
  | markRunning pid runtimeAdapter launchCommand resumedFromCheckpoint =>
      apply h.change order
      intro s marked
      unfold Registry.markRunning at marked
      split_ifs at marked
      cases marked
      exact ⟨⟨h.charged.own, fun _ => ⟨pid, rfl⟩⟩, rfl,
        fun kind => ⟨charged_of_orderly orderly kind, .inl rfl⟩⟩
  | markPaused pausedAtUtc resumeAtUtc resumeWallAtUtc reason =>
      apply h.change order
      intro s marked
      unfold Registry.markPaused at marked
      split_ifs at marked with other wrong
      cases marked
      obtain ⟨running, process⟩ := not_or.mp wrong
      rw [not_not] at running
      obtain ⟨pid, here⟩ := Option.ne_none_iff_exists'.mp process
      exact ⟨⟨h.charged.own, fun _ => ⟨pid, here⟩⟩, rfl, fun kind => ⟨fun _ => orderly running, .inl rfl⟩⟩
  | markResumed =>
      apply h.change order
      intro s marked
      unfold Registry.markResumed at marked
      split_ifs at marked with other wrong
      cases marked
      obtain ⟨paused, process⟩ := not_or.mp wrong
      rw [not_not] at paused
      obtain ⟨pid, here⟩ := Option.ne_none_iff_exists'.mp process
      exact ⟨⟨h.charged.own, fun _ => ⟨pid, here⟩⟩, rfl, fun kind => ⟨fun _ => orderly paused, .inl rfl⟩⟩
  | stop =>
      show Kept c base later (l.change later (.ok (Registry.markStopped l.record)))
      apply h.change order
      intro s marked
      cases marked
      unfold Registry.markStopped
      split_ifs with completed
      · refine ⟨h.charged, rfl, fun kind => ⟨charged_of_orderly orderly kind, .inr ⟨rfl, ?_⟩⟩⟩
        rw [completed]
        cases kind <;> decide
      · refine ⟨⟨h.charged.own, ?_⟩, rfl,
          fun kind => ⟨charged_of_orderly orderly kind, .inr ⟨rfl, ?_⟩⟩⟩
        · rintro (impossible | impossible) <;> cases impossible
        · show TaskStatus.stopped ≠ kind.status
          cases kind <;> decide

/-- In every run whose events are orderly, the totals are exact at every time. -/
theorem accounting_exact (c : Clock) {s : TaskRuntimeState} (own : s.ownerNodeId = c.localNodeId)
    (idle : ∀ kind : Kind, s.status ≠ kind.status) {start now : Timestamp}
    (before : ∀ last, s.lastAccountedAtUtc = some last → last ≤ start) {l : Ledger}
    (run : Runs c (fun now s e => e.Orderly now s) ⟨s, []⟩ start now l) :
    Exact c s.accounting l := by
  have kept : Kept c s.accounting now l := by
    induction run with
    | start =>
        refine ⟨⟨own, ?_⟩, fun kind => ⟨fun last mark => ⟨before last mark, ?_, fun t _ => ?_⟩,
          fun _ => ⟨idle kind, rfl, fun _ => rfl⟩⟩⟩
        · rintro (running | paused)
          · exact absurd running (idle .running)
          · exact absurd paused (idle .paused)
        · simp [due, spent]
        · rw [if_neg (idle kind)]
          rfl
    | step later e _ order possible orderly ih => exact ih.step order possible orderly
  intro last mark kind
  exact ((kept.balanced kind).accounted last mark).2.1

/-! ## A pause of ten seconds -/

def sampleClock : Clock := ⟨"a", 1, by decide⟩

def sampleRecord : TaskRuntimeState := { taskId := "t", ownerNodeId := "a", status := .stopped }

def settleAt (nowWall : Timestamp) : Event := .settle ⟨nowWall, 0, 0, 0, none, none, none, none, none, none⟩

/-- The task runs for ten seconds and is then paused, which settles it first. -/
def samplePaused : Ledger :=
  let started := Ledger.step sampleClock 0 ⟨sampleRecord, []⟩ (.markRunning 7 none none false)
  let settled := started.step sampleClock 10000000 (settleAt 10000000)
  settled.step sampleClock 10000000 (.markPaused 10000000 90000000 90000000 "carbon")

/-- Ten seconds later it is settled at once. -/
def sampleSettled : Ledger := samplePaused.step sampleClock 20000000 (settleAt 20000000)

/-- The round in between had read its time before the pause. -/
def sampleStale : Ledger :=
  (samplePaused.step sampleClock 12000000 (settleAt 8000000)).step sampleClock 20000000 (settleAt 20000000)

theorem Runs.mono {allowed allowed' : Timestamp → TaskRuntimeState → Event → Prop} {start : Timestamp}
    (weaker : ∀ now s e, allowed now s e → allowed' now s e) {l m : Ledger}
    (run : Runs c allowed l start now m) : Runs c allowed' l start now m := by
  induction run with
  | start => exact .start
  | step later e _ order possible ok ih => exact .step later e ih order possible (weaker _ _ _ ok)

theorem samplePaused_run :
    Runs sampleClock (fun now s e => e.Orderly now s) ⟨sampleRecord, []⟩ 0 10000000 samplePaused := by
  have idle : (Event.markRunning 7 none none false).Orderly 0 sampleRecord := by
    rintro (impossible | impossible) <;> cases impossible
  have started : Runs sampleClock (fun now s e => e.Orderly now s) ⟨sampleRecord, []⟩ 0 0
      (Ledger.step sampleClock 0 ⟨sampleRecord, []⟩ (.markRunning 7 none none false)) :=
    .step 0 (.markRunning 7 none none false) .start (le_refl 0) trivial idle
  have settled := started.step 10000000 (settleAt 10000000) (Nat.zero_le _) (le_refl (10000000 : Nat))
    (fun last mark => by cases mark; exact Nat.zero_le _)
  exact settled.step 10000000 (.markPaused 10000000 90000000 90000000 "carbon") (le_refl _) trivial fun _ => rfl

theorem accounting_exact_sample : Exact sampleClock sampleRecord.accounting sampleSettled := by
  have run := samplePaused_run.step 20000000 (settleAt 20000000) (by decide) (le_refl (20000000 : Nat))
    (fun last mark => by cases mark; decide)
  apply accounting_exact sampleClock rfl _ _ run
  · intro kind
    cases kind <;> decide
  · intro last mark
    cases mark

/-- The two seconds before the pause are charged as running and once more as paused. -/
theorem stale_settlement_charges_twice :
    Runs sampleClock (fun _ _ _ => True) ⟨sampleRecord, []⟩ 0 20000000 sampleStale ∧
      ¬ Exact sampleClock sampleRecord.accounting sampleStale := by
  constructor
  · have before := samplePaused_run.mono fun _ _ _ _ => trivial
    have stale := before.step 12000000 (settleAt 8000000) (by decide)
      (show (8000000 : Nat) ≤ 12000000 by decide) trivial
    exact stale.step 20000000 _ (by decide) (le_refl (20000000 : Nat)) trivial
  · intro exact_
    have paused := exact_ 20000000 (by decide +kernel) .paused
    revert paused
    decide +kernel

end Magellan.Accounting
