import Magellan.Experiments.Replay
import Magellan.Scheduler.Selection

/-!
# What a replay conserves

Each step starts where and when the one before it has ended, and what it takes is added to the totals:
the steps of an outcome add up to it.
-/

namespace Magellan.Planning

namespace ReplayStep

variable (step : PolicyStep)

def pauseOverheadSeconds : Rat := step.details.pauseOverheadSeconds.getD 0

/-- Where a migration has gone. -/
def target : Option NodeId := if step.action = .migrate then step.destinationNodeId else none

structure Nonneg : Prop where
  elapsed : 0 ≤ step.elapsedSeconds
  compute : 0 ≤ step.computeSeconds
  idle : 0 ≤ step.idleSeconds
  migration : 0 ≤ step.migrationSeconds
  carbon : 0 ≤ step.carbonGrams
  cost : 0 ≤ step.costUsd

end ReplayStep

theorem ReplayStep.validated_ok {step result : PolicyStep} (h : step.validated = .ok result) :
    result = step ∧ step.Nonneg := by
  unfold ReplayStep.validated at h
  obtain ⟨u, checked, h⟩ := Except.bind_eq_ok.mp h
  cases h
  have nonneg := nonneg_of_requireNonneg checked
  exact ⟨rfl, nonneg ("elapsed_seconds", _) (by simp), nonneg ("compute_seconds", _) (by simp),
    nonneg ("idle_seconds", _) (by simp), nonneg ("migration_seconds", _) (by simp),
    nonneg ("carbon_grams", _) (by simp), nonneg ("cost_usd", _) (by simp)⟩

/-- What one step, decided so, does to the state of a replay. -/
structure Advances (decision : DecisionResult) (s s' : ReplayState) (step : PolicyStep) : Prop where
  steps : s'.steps = s.steps ++ [step]
  decided : step.details.decision = decision
  nonneg : step.Nonneg
  overhead_nonneg : 0 ≤ step.pauseOverheadSeconds
  source : step.sourceNodeId = s.currentNodeId
  started : step.startedAt = s.currentTime
  finished : step.finishedAt = s'.currentTime
  time : s'.currentTime = s.currentTime + step.elapsedSeconds
  elapsed : step.elapsedSeconds =
    step.computeSeconds + step.idleSeconds + step.pauseOverheadSeconds + step.migrationSeconds
  remaining : s'.remaining = s.remaining - step.computeSeconds
  remaining_nonneg : 0 ≤ s.remaining → 0 ≤ s'.remaining
  compute : s'.computeSeconds = s.computeSeconds + step.computeSeconds
  idle : s'.pausedIdleSeconds = s.pausedIdleSeconds + step.idleSeconds
  overhead : s'.pauseOverheadSeconds = s.pauseOverheadSeconds + step.pauseOverheadSeconds
  migration : s'.migrationSeconds = s.migrationSeconds + step.migrationSeconds
  carbon : s'.accumulatedCarbon = s.accumulatedCarbon + step.carbonGrams
  cost : s'.accumulatedCost = s.accumulatedCost + step.costUsd
  migrations : s'.migrations = s.migrations + if step.action = .migrate then 1 else 0
  pauses : s'.pauses = s.pauses + if step.action = .pause then 1 else 0
  owner : s'.currentNodeId = step.target.getD s.currentNodeId
  ownerPath : s'.ownerPath = s.ownerPath ++ step.target.toList

namespace ReplayArguments

variable {a : ReplayArguments} {index : Nat} {s s' : ReplayState} {node : NodeConfig}
  {decision : DecisionResult}

theorem goOn_advances (h : a.goOn index s node decision = .ok s') :
    ∃ step, Advances decision s s' step := by
  unfold goOn at h
  obtain ⟨metrics, -, h⟩ := Except.bind_eq_ok.mp h
  obtain ⟨step, validated, h⟩ := Except.bind_eq_ok.mp h
  obtain ⟨rfl, nonneg⟩ := ReplayStep.validated_ok validated
  cases h
  have enough : 0 ≤ s.remaining - min (a.cluster.epochSeconds : Rat) s.remaining :=
    sub_nonneg.mpr (min_le_right _ _)
  refine ⟨_, { steps := rfl, decided := rfl, nonneg, overhead_nonneg := le_rfl, source := rfl, started := rfl
               finished := rfl, time := rfl, elapsed := ?_, remaining := max_eq_right enough
               remaining_nonneg := fun _ => le_max_left _ _, compute := rfl
               idle := (add_zero _).symm, overhead := (add_zero _).symm
               migration := (add_zero _).symm, carbon := rfl, cost := rfl, migrations := rfl
               pauses := rfl, owner := rfl, ownerPath := (List.append_nil _).symm }⟩
  show _ = _ + 0 + 0 + 0
  rw [add_zero, add_zero, add_zero]

theorem pauseFirst_advances (h : a.pauseFirst index s node decision = .ok s') :
    ∃ step, Advances decision s s' step := by
  unfold pauseFirst pauseMetrics at h
  obtain ⟨paused, measured, h⟩ := Except.bind_eq_ok.mp h
  obtain ⟨pause, -, measured⟩ := Except.bind_eq_ok.mp measured
  obtain ⟨resume, -, measured⟩ := Except.bind_eq_ok.mp measured
  cases measured
  obtain ⟨step, validated, h⟩ := Except.bind_eq_ok.mp h
  obtain ⟨rfl, nonneg⟩ := ReplayStep.validated_ok validated
  cases h
  refine ⟨_, { steps := rfl, decided := rfl, nonneg
               overhead_nonneg := add_nonneg a.policy.pause.pause_nonneg a.policy.pause.resume_nonneg
               source := rfl, started := rfl, finished := rfl, time := rfl, elapsed := ?_
               remaining := (sub_zero _).symm, remaining_nonneg := id
               compute := (add_zero _).symm, idle := rfl, overhead := rfl
               migration := (add_zero _).symm, carbon := rfl, cost := (add_zero _).symm
               migrations := rfl, pauses := rfl, owner := rfl
               ownerPath := (List.append_nil _).symm }⟩
  simp only [ReplayStep.pauseOverheadSeconds, Option.getD_some]
  ring

theorem migrateTo_advances {destinationId : NodeId} (named : node.id = s.currentNodeId)
    (h : a.migrateTo index s node decision destinationId = .ok s') : ∃ step, Advances decision s s' step := by
  unfold migrateTo at h
  obtain ⟨destination, -, h⟩ := Except.bind_eq_ok.mp h
  obtain ⟨edge, -, h⟩ := Except.bind_eq_ok.mp h
  obtain ⟨metrics, -, h⟩ := Except.bind_eq_ok.mp h
  obtain ⟨step, validated, h⟩ := Except.bind_eq_ok.mp h
  obtain ⟨rfl, nonneg⟩ := ReplayStep.validated_ok validated
  cases h
  refine ⟨_, { steps := rfl, decided := rfl, nonneg, overhead_nonneg := le_rfl, source := named, started := rfl
               finished := rfl, time := rfl, elapsed := ?_, remaining := (sub_zero _).symm
               remaining_nonneg := id, compute := (add_zero _).symm, idle := (add_zero _).symm
               overhead := (add_zero _).symm, migration := rfl, carbon := rfl, cost := rfl
               migrations := rfl, pauses := rfl, owner := rfl, ownerPath := rfl }⟩
  simp only [ReplayStep.pauseOverheadSeconds, Option.getD_none]
  ring

theorem step_advances (h : a.step index s = .ok s') :
    ∃ decision policyStore step, a.evaluate s = .ok (decision, policyStore) ∧
      Advances decision s s' step := by
  unfold step at h
  obtain ⟨⟨decision, policyStore⟩, decided, h⟩ := Except.bind_eq_ok.mp h
  obtain ⟨node, found, h⟩ := Except.bind_eq_ok.mp h
  -- The policy store is no part of what is accounted for.
  have recorded {step : PolicyStep} (advances : Advances decision { s with policyStore } s' step) :
      ∃ decision policyStore step, a.evaluate s = .ok (decision, policyStore) ∧
        Advances decision s s' step := ⟨decision, policyStore, step, decided, { advances with }⟩
  cases action : decision.selected.action with
  | continue_ =>
      simp only [action] at h
      obtain ⟨step, advances⟩ := goOn_advances h
      exact recorded advances
  | pause =>
      simp only [action] at h
      obtain ⟨step, advances⟩ := pauseFirst_advances h
      exact recorded advances
  | migrate =>
      simp only [action] at h
      cases destination : decision.selected.destinationNodeId with
      | none => simp [destination] at h
      | some destinationId =>
          simp only [destination] at h
          obtain ⟨step, advances⟩ := migrateTo_advances (ClusterConfig.id_of_getNode found).1 h
          exact recorded advances

end ReplayArguments

/-! ## The steps of a run -/

def targets (steps : List PolicyStep) : List NodeId := steps.filterMap ReplayStep.target

/-- The owner that the migrations have reached. -/
def ownerAfter (start : NodeId) (steps : List PolicyStep) : NodeId :=
  steps.foldl (fun owner step => step.target.getD owner) start

/-- The steps follow one another in time. -/
def Contiguous : Instant → List PolicyStep → Instant → Prop
  | from_, [], until_ => from_ = until_
  | from_, step :: rest, until_ => step.startedAt = from_ ∧ Contiguous step.finishedAt rest until_

theorem Contiguous.snoc {from_ until_ : Instant} {steps : List PolicyStep} {step : PolicyStep}
    (contiguous : Contiguous from_ steps until_) (started : step.startedAt = until_) :
    Contiguous from_ (steps ++ [step]) step.finishedAt := by
  induction steps generalizing from_ with
  | nil => exact ⟨started.trans contiguous.symm, rfl⟩
  | cons first rest ih => exact ⟨contiguous.1, ih contiguous.2⟩

theorem targets_snoc (steps : List PolicyStep) (step : PolicyStep) :
    targets (steps ++ [step]) = targets steps ++ step.target.toList := by
  unfold targets
  rw [List.filterMap_append]
  cases reached : step.target <;> simp [reached]

theorem ownerAfter_snoc (start : NodeId) (steps : List PolicyStep) (step : PolicyStep) :
    ownerAfter start (steps ++ [step]) = step.target.getD (ownerAfter start steps) := by
  unfold ownerAfter
  rw [List.foldl_append]
  rfl

/-- What the steps of a replay add up to so far. -/
structure Accounted (a : ReplayArguments) (s : ReplayState) : Prop where
  contiguous : Contiguous a.start s.steps s.currentTime
  nonneg : ∀ step ∈ s.steps, step.Nonneg ∧ 0 ≤ step.pauseOverheadSeconds
  elapsed : s.currentTime - a.start = (s.steps.map (·.elapsedSeconds)).sum
  split : s.currentTime - a.start =
    s.computeSeconds + s.pausedIdleSeconds + s.pauseOverheadSeconds + s.migrationSeconds
  remaining : s.remaining = a.workload.durationSeconds - s.computeSeconds
  remaining_nonneg : 0 ≤ s.remaining
  compute : s.computeSeconds = (s.steps.map (·.computeSeconds)).sum
  idle : s.pausedIdleSeconds = (s.steps.map (·.idleSeconds)).sum
  overhead : s.pauseOverheadSeconds = (s.steps.map ReplayStep.pauseOverheadSeconds).sum
  migration : s.migrationSeconds = (s.steps.map (·.migrationSeconds)).sum
  carbon : s.accumulatedCarbon = (s.steps.map (·.carbonGrams)).sum
  cost : s.accumulatedCost = (s.steps.map (·.costUsd)).sum
  migrations : s.migrations = (s.steps.filter (·.action = .migrate)).length
  pauses : s.pauses = (s.steps.filter (·.action = .pause)).length
  sources : ∀ before step after, s.steps = before ++ step :: after →
    step.sourceNodeId = ownerAfter a.workload.startNodeId before
  owner : s.currentNodeId = ownerAfter a.workload.startNodeId s.steps
  ownerPath : s.ownerPath = a.workload.startNodeId :: targets s.steps

theorem accounted_initial (a : ReplayArguments) : Accounted a a.initial where
  contiguous := rfl
  nonneg := by
    intro step member
    cases member
  elapsed := sub_self _
  split := by
    show a.start - a.start = 0 + 0 + 0 + 0
    rw [sub_self, add_zero, add_zero, add_zero]
  remaining := (sub_zero _).symm
  remaining_nonneg := a.workload.duration_pos.le
  compute := rfl
  idle := rfl
  overhead := rfl
  migration := rfl
  carbon := rfl
  cost := rfl
  migrations := rfl
  pauses := rfl
  sources := by
    intro before step after same
    cases before <;> cases same
  owner := rfl
  ownerPath := rfl

section

variable {a : ReplayArguments} {s s' : ReplayState} {step : PolicyStep} {decision : DecisionResult}

theorem Advances.sum (advances : Advances decision s s' step) {total total' : Rat} {field : PolicyStep → Rat}
    (holds : total = (s.steps.map field).sum) (more : total' = total + field step) :
    total' = (s'.steps.map field).sum := by
  rw [advances.steps, List.map_append, List.sum_append, ← holds, more]
  simp

theorem Advances.count (advances : Advances decision s s' step) {count count' : Nat} {p : PolicyStep → Bool}
    (holds : count = (s.steps.filter p).length) (more : count' = count + if p step then 1 else 0) :
    count' = (s'.steps.filter p).length := by
  rw [advances.steps, List.filter_append, List.length_append, ← holds, more]
  cases holdsOf : p step with
  | true => rw [List.filter_cons_of_pos holdsOf, if_pos rfl]; rfl
  | false => rw [List.filter_cons_of_neg (Bool.not_eq_true _ ▸ holdsOf), if_neg Bool.false_ne_true]; rfl

theorem Accounted.advance (accounted : Accounted a s) (advances : Advances decision s s' step) :
    Accounted a s' where
  contiguous := by
    rw [advances.steps, ← advances.finished]
    exact accounted.contiguous.snoc advances.started
  nonneg := by
    intro other member
    rw [advances.steps] at member
    rcases List.mem_append.mp member with old | new
    · exact accounted.nonneg other old
    · rw [List.mem_singleton.mp new]
      exact ⟨advances.nonneg, advances.overhead_nonneg⟩
  elapsed := by
    apply advances.sum accounted.elapsed
    rw [advances.time]
    ring
  split := by
    have before := accounted.split
    rw [advances.time, advances.elapsed, advances.compute, advances.idle, advances.overhead,
      advances.migration]
    linarith
  remaining := by
    rw [advances.remaining, advances.compute, accounted.remaining]
    ring
  remaining_nonneg := advances.remaining_nonneg accounted.remaining_nonneg
  compute := advances.sum accounted.compute advances.compute
  idle := advances.sum accounted.idle advances.idle
  overhead := advances.sum accounted.overhead advances.overhead
  migration := advances.sum accounted.migration advances.migration
  carbon := advances.sum accounted.carbon advances.carbon
  cost := advances.sum accounted.cost advances.cost
  migrations := advances.count accounted.migrations (by simpa using advances.migrations)
  pauses := advances.count accounted.pauses (by simpa using advances.pauses)
  sources := by
    intro before other after same
    rw [advances.steps] at same
    rcases List.append_eq_append_iff.mp same with ⟨middle, rfl, tail⟩ | ⟨middle, steps_eq, tail⟩
    · cases middle with
      | nil =>
          cases tail
          rw [advances.source, accounted.owner, List.append_nil]
      | cons first middle =>
          cases middle <;> cases tail
    · cases middle with
      | nil =>
          cases tail
          rw [advances.source, accounted.owner, steps_eq, List.append_nil]
      | cons first middle =>
          cases tail
          exact accounted.sources before _ middle steps_eq
  owner := by rw [advances.owner, advances.steps, ownerAfter_snoc, accounted.owner]
  ownerPath := by rw [advances.ownerPath, advances.steps, targets_snoc, accounted.ownerPath, List.cons_append]

end

/-! ## The outcome -/

/-- The outcome is the account of its steps. -/
structure Conserves (a : ReplayArguments) (outcome : PolicyOutcome ReplayDetails) : Prop where
  makespan : outcome.makespanSeconds = (outcome.steps.map (·.elapsedSeconds)).sum
  compute : outcome.computeSeconds = (outcome.steps.map (·.computeSeconds)).sum
  idle : outcome.pausedIdleSeconds = (outcome.steps.map (·.idleSeconds)).sum
  overhead : outcome.pauseOverheadSeconds = (outcome.steps.map ReplayStep.pauseOverheadSeconds).sum
  migration : outcome.migrationSeconds = (outcome.steps.map (·.migrationSeconds)).sum
  carbon : outcome.carbonGrams = (outcome.steps.map (·.carbonGrams)).sum
  cost : outcome.costUsd = (outcome.steps.map (·.costUsd)).sum
  migrations : outcome.migrations = (outcome.steps.filter (·.action = .migrate)).length
  pauses : outcome.pauses = (outcome.steps.filter (·.action = .pause)).length
  contiguous : Contiguous a.start outcome.steps (a.start + outcome.makespanSeconds)
  split : outcome.makespanSeconds = outcome.computeSeconds + outcome.pausedIdleSeconds +
    outcome.pauseOverheadSeconds + outcome.migrationSeconds
  duration : |outcome.computeSeconds - a.workload.durationSeconds| ≤ 1 / 1000000000
  sources : ∀ before step after, outcome.steps = before ++ step :: after →
    step.sourceNodeId = ownerAfter a.workload.startNodeId before
  ownerPath : outcome.ownerPath = a.workload.startNodeId :: targets outcome.steps

namespace ReplayArguments

variable {a : ReplayArguments} {s : ReplayState}

theorem accounted_of_rounds {rounds : Nat}
    (run : Budget.Rounds isDone a.step rounds 1 a.initial s) : Accounted a s := by
  refine run.keeps (P := fun _ s => Accounted a s) ?_ (accounted_initial a)
  intro index s s' accounted _ ran
  obtain ⟨decision, policyStore, step, -, advances⟩ := step_advances ran
  exact accounted.advance advances

theorem outcome_validated (accounted : Accounted a s) :
    (a.outcome s).validated = .ok (a.outcome s) := by
  have sum_nonneg {field : PolicyStep → Rat} (nonneg : ∀ step ∈ s.steps, 0 ≤ field step) :
      0 ≤ (s.steps.map field).sum := List.sum_nonneg (List.forall_mem_map.mpr nonneg)
  have compute : 0 ≤ s.computeSeconds :=
    accounted.compute ▸ sum_nonneg fun step member => (accounted.nonneg step member).1.compute
  have idle : 0 ≤ s.pausedIdleSeconds :=
    accounted.idle ▸ sum_nonneg fun step member => (accounted.nonneg step member).1.idle
  have overhead : 0 ≤ s.pauseOverheadSeconds :=
    accounted.overhead ▸ sum_nonneg fun step member => (accounted.nonneg step member).2
  have migration : 0 ≤ s.migrationSeconds :=
    accounted.migration ▸ sum_nonneg fun step member => (accounted.nonneg step member).1.migration
  have carbon : 0 ≤ s.accumulatedCarbon :=
    accounted.carbon ▸ sum_nonneg fun step member => (accounted.nonneg step member).1.carbon
  have cost : 0 ≤ s.accumulatedCost :=
    accounted.cost ▸ sum_nonneg fun step member => (accounted.nonneg step member).1.cost
  have makespan : 0 ≤ s.currentTime - a.start := by
    rw [accounted.split]
    positivity
  unfold PolicyOutcome.validated
  rw [requireNonneg_ok]
  · rfl
  · intro field member
    simp only [outcome, List.mem_cons, List.not_mem_nil, or_false] at member
    rcases member with rfl | rfl | rfl | rfl | rfl | rfl | rfl
    · exact makespan
    · exact compute
    · exact idle
    · exact overhead
    · exact migration
    · exact carbon
    · exact cost

theorem conserves_of_accounted (accounted : Accounted a s) (done : isDone s = true) :
    Conserves a (a.outcome s) where
  makespan := accounted.elapsed
  compute := accounted.compute
  idle := accounted.idle
  overhead := accounted.overhead
  migration := accounted.migration
  carbon := accounted.carbon
  cost := accounted.cost
  migrations := accounted.migrations
  pauses := accounted.pauses
  contiguous := by
    show Contiguous a.start s.steps (a.start + (s.currentTime - a.start))
    rw [add_sub_cancel]
    exact accounted.contiguous
  split := accounted.split
  duration := by
    have remaining := accounted.remaining
    have nonneg := accounted.remaining_nonneg
    have small : s.remaining ≤ 1 / 1000000000 := of_decide_eq_true done
    show |s.computeSeconds - a.workload.durationSeconds| ≤ 1 / 1000000000
    rw [abs_le]
    constructor <;> linarith
  sources := accounted.sources
  ownerPath := accounted.ownerPath

variable (a) in
/-- What a replay asks before its first decision. -/
def Supported : Prop :=
  (a.label = .temporalOnly ∨ a.label = .magellanCausal) ∧
    ∃ node, a.cluster.getNode a.workload.startNodeId = .ok node

theorem replay_of_supported (supported : a.Supported) :
    a.replayCausalPolicy = (do
      let s ← Budget.loop isDone a.step a.exhausted a.maxDecisions 1 a.initial
      (a.outcome s).validated) := by
  obtain ⟨label, node, found⟩ := supported
  have known : ¬ (a.label ≠ .temporalOnly ∧ a.label ≠ .magellanCausal) :=
    fun ⟨notTemporal, notCausal⟩ => label.elim notTemporal notCausal
  rw [replayCausalPolicy, if_neg known, found, Except.ok_bind]

theorem supported_of_replay {outcome : PolicyOutcome ReplayDetails}
    (h : a.replayCausalPolicy = .ok outcome) : a.Supported := by
  unfold replayCausalPolicy at h
  split_ifs at h with unknown
  obtain ⟨node, found, -⟩ := Except.bind_eq_ok.mp h
  exact ⟨by tauto, node, found⟩

theorem replay_ok_iff {outcome : PolicyOutcome ReplayDetails} :
    a.replayCausalPolicy = .ok outcome ↔
      a.Supported ∧ ∃ decisions < a.maxDecisions, ∃ s,
        Budget.Rounds isDone a.step decisions 1 a.initial s ∧ isDone s = true ∧
          a.outcome s = outcome := by
  constructor
  · intro returned
    have supported := supported_of_replay returned
    rw [replay_of_supported supported] at returned
    obtain ⟨s, looped, validated⟩ := Except.bind_eq_ok.mp returned
    obtain ⟨decisions, less, run, done⟩ := Budget.loop_eq_ok_iff.mp looped
    rw [outcome_validated (accounted_of_rounds run)] at validated
    cases validated
    exact ⟨supported, decisions, less, s, run, done, rfl⟩
  · rintro ⟨supported, decisions, less, s, run, done, rfl⟩
    rw [replay_of_supported supported, Budget.loop_eq_ok_iff.mpr ⟨decisions, less, run, done⟩,
      Except.ok_bind, outcome_validated (accounted_of_rounds run)]

end ReplayArguments

/-- Whatever a replay returns accounts for its work, its time and its money. -/
theorem replay_conserves {a : ReplayArguments} {outcome : PolicyOutcome ReplayDetails}
    (h : a.replayCausalPolicy = .ok outcome) : Conserves a outcome := by
  obtain ⟨-, decisions, -, s, run, done, rfl⟩ := ReplayArguments.replay_ok_iff.mp h
  exact ReplayArguments.conserves_of_accounted (ReplayArguments.accounted_of_rounds run) done

/-- A workload of half an hour that is moved from Boston to France at once: three decisions. -/
def halfHour (maxDecisions : Nat) : ReplayArguments where
  math := sampleMath
  label := .magellanCausal
  cluster := pairCluster
  policy := carbonPolicy
  workload := {
    durationSeconds := 1800, powerKw := 1, checkpointBytes := 1000
    duration_pos := halfHour_pos
    power_pos := one_positive
    costCap_pos := uncapped_pos }
  carbonStore := pairStore
  graph := { cluster := pairCluster }
  start := 600
  maxDecisions

theorem replay_conserves_sample :
    ∃ outcome, (halfHour 10).replayCausalPolicy = .ok outcome ∧ Conserves (halfHour 10) outcome := by
  have returns : (halfHour 10).replayCausalPolicy.isOk = true := by decide +kernel
  cases replayed : (halfHour 10).replayCausalPolicy with
  | error e =>
      rw [replayed] at returns
      cases returns
  | ok outcome => exact ⟨outcome, rfl, replay_conserves replayed⟩

end Magellan.Planning
