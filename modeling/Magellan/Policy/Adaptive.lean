import Magellan.Policy.Models
import Magellan.Scheduler.Scoring

/-!
# The adaptive policy

Bounded weights for a task, and ranges of its estimates over the latest evaluations. Of a task's
policy state the time of its last update is left out.
-/

namespace Magellan.Planning

structure PolicyDecisionRecord where
  decisionIndex : Nat
  evaluatedAt : Instant
  selected : ScoredAction
  context : AdaptiveDecisionContext
  reason : String

structure AdaptiveTaskPolicyState where
  taskId : TaskId
  baselineWeights : WeightVector
  effectiveWeights : WeightVector
  multipliers : WeightMultipliers := .neutral
  signals : AdaptationSignals := .none
  normalization : RollingNormalizationState := {}
  decisionCount : Nat := 0
  decisionHistory : List PolicyDecisionRecord := []

abbrev AdaptivePolicyStore := Dict TaskId AdaptiveTaskPolicyState

/-- `_clamp`. -/
def clamp (value lower upper : Rat) : Rat := max lower (min upper value)

theorem clamp_range {value lower upper : Rat} (range : lower ≤ upper) :
    lower ≤ clamp value lower upper ∧ clamp value lower upper ≤ upper :=
  ⟨le_max_left _ _, max_le range (min_le_left _ _)⟩

theorem clamp_mono {value value' lower upper : Rat} (le : value ≤ value') :
    clamp value lower upper ≤ clamp value' lower upper :=
  max_le_max_left _ (min_le_min_left _ le)

/-- `_weights_from_config`. -/
def weightsFromConfig (weights : ObjectiveWeights) : WeightVector :=
  WeightVector.normalized
    ⟨weights.time, weights.carbon, weights.cost, weights.time_nonneg, weights.carbon_nonneg,
      weights.cost_nonneg, weights.total_pos⟩

/-- The last items of a list, at most so many. -/
def lastItems {α : Type} (items : List α) (limit : Nat) : List α := items.drop (items.length - limit)

/-! ## Ranges -/

def RollingMetricState.append (metric : RollingMetricState) (limit : Nat) (measurements : List Rat)
    (observedAt : Instant) : Except Exn RollingMetricState :=
  if measurements = [] then .error (valueError "min() iterable argument is empty")
  else do
    let sample ← MetricRangeSample.validated (minimum measurements) (maximum measurements) observedAt
    return lastItems (metric ++ [sample]) limit

def RollingMetricState.bounds (metric : RollingMetricState) : Rat × Rat :=
  (minimum (metric.map (·.minimum)), maximum (metric.map (·.maximum)))

/-! ## Signals -/

section Signals

variable (task : TaskProfile) (estimates : List RawActionEstimate) (at_ : Instant)

def budgetSlack : Option Rat :=
  task.costCapUsd.map fun cap => clamp (max 0 (cap - task.accumulatedCostUsd) / cap) 0 1

def deadlineSlackRatio : Option Rat :=
  match task.deadlineAt, task.estimatedRemainingSeconds with
  | some deadline, some remaining => some (max 0 (deadline - at_) / max remaining (1 / 1000000000))
  | _, _ => none

def carbonOpportunity : Rat :=
  let localCarbons := (estimates.filter (·.action.isLocal)).map (·.carbonGrams)
  let migrationCarbons := (estimates.filter (!·.action.isLocal)).map (·.carbonGrams)
  if localCarbons = [] ∨ migrationCarbons = [] then 0
  else
    clamp ((minimum localCarbons - minimum migrationCarbons) /
      max (minimum localCarbons) (1 / 1000000000)) 0 1

theorem budgetSlack_range : ∀ value ∈ budgetSlack task, 0 ≤ value ∧ value ≤ 1 := by
  intro value present
  obtain ⟨cap, -, rfl⟩ := Option.map_eq_some_iff.mp present
  exact clamp_range zero_le_one

theorem deadlineSlackRatio_nonneg : ∀ value ∈ deadlineSlackRatio task at_, 0 ≤ value := by
  intro value present
  unfold deadlineSlackRatio at present
  split at present
  · cases present
    exact div_nonneg (le_max_left _ _) (le_max_of_le_right (by norm_num))
  · cases present

theorem carbonOpportunity_range :
    0 ≤ carbonOpportunity estimates ∧ carbonOpportunity estimates ≤ 1 := by
  simp only [carbonOpportunity]
  split_ifs
  · exact ⟨le_rfl, zero_le_one⟩
  · exact clamp_range zero_le_one

/-- `_signals`. -/
def adaptationSignals (telemetryConfidence carbonForecastConfidence : Rat) : AdaptationSignals where
  budgetSlackFraction := budgetSlack task
  deadlineSlackRatio := deadlineSlackRatio task at_
  carbonOpportunityFraction := carbonOpportunity estimates
  telemetryConfidence := clamp telemetryConfidence 0 1
  carbonForecastConfidence := clamp carbonForecastConfidence 0 1
  costCapExhausted := task.costCapUsd.any fun cap => max 0 (cap - task.accumulatedCostUsd) ≤ 0
  deadlineAtRisk := (deadlineSlackRatio task at_).any (· ≤ 1)
  budgetSlack_range := budgetSlack_range task
  deadlineSlack_nonneg := deadlineSlackRatio_nonneg task at_
  carbonOpportunity_range := carbonOpportunity_range estimates
  telemetryConfidence_range := clamp_range zero_le_one
  forecastConfidence_range := clamp_range zero_le_one

end Signals

/-! ## Weights -/

def timePressure (signals : AdaptationSignals) : Rat :=
  match signals.deadlineSlackRatio with
  | none => 0
  | some ratio => if signals.deadlineAtRisk then 1 else clamp (1 - ratio) 0 1

def costPressure (signals : AdaptationSignals) : Rat :=
  match signals.budgetSlackFraction with
  | none => 0
  | some slack => 1 - slack

structure AdaptivePolicyService where
  policy : AdaptivePolicy
  baseline : WeightVector

namespace AdaptivePolicyService

variable (math : MathModule) (service : AdaptivePolicyService)

def stateFor (store : AdaptivePolicyStore) (taskId : TaskId) : AdaptiveTaskPolicyState :=
  (store.get? taskId).getD
    { taskId, baselineWeights := service.baseline, effectiveWeights := service.baseline }

def carbonSignal (signals : AdaptationSignals) : Rat :=
  let powerConfidence := max signals.telemetryConfidence service.policy.confidenceFloor
  let forecastConfidence := max signals.carbonForecastConfidence service.policy.confidenceFloor
  -- The power `** 0.5`.
  let combinedConfidence := math.sqrt (powerConfidence * forecastConfidence)
  signals.carbonOpportunityFraction * combinedConfidence

/-- A multiplier within the bound. -/
def multiplier (pressure : Rat) : Rat :=
  clamp (1 + service.policy.multiplierBoundFraction * pressure)
    (1 - service.policy.multiplierBoundFraction) (1 + service.policy.multiplierBoundFraction)

theorem multiplier_pos (pressure : Rat) : 0 < service.multiplier pressure := by
  have bound := service.policy.multiplierBound_range.2
  apply lt_of_lt_of_le _ (le_max_left _ _)
  linarith

def multipliers (signals : AdaptationSignals) : WeightMultipliers where
  time := service.multiplier (timePressure signals)
  carbon := service.multiplier (service.carbonSignal math signals)
  cost := service.multiplier (costPressure signals)
  time_pos := service.multiplier_pos _
  carbon_pos := service.multiplier_pos _
  cost_pos := service.multiplier_pos _

/-- `_adapt`. -/
def adapt (baseline : WeightVector) (signals : AdaptationSignals) : WeightMultipliers × WeightVector :=
  let multipliers := service.multipliers math signals
  (multipliers, (baseline.scaled multipliers).normalized)

/-! ## Decisions -/

/-- `_append_ranges`. -/
def appendRanges (normalization : RollingNormalizationState) (estimates : List RawActionEstimate)
    (observedAt : Instant) : Except Exn (RollingNormalizationState × NormalizationBounds) := do
  let limit := service.policy.rollingWindowEpochs
  let time ← normalization.time.append limit (estimates.map (·.timeSeconds)) observedAt
  let carbon ← normalization.carbon.append limit (estimates.map (·.carbonGrams)) observedAt
  let cost ← normalization.cost.append limit (estimates.map (·.costUsd)) observedAt
  let bounds ← NormalizationBounds.validated {
    timeMin := time.bounds.1
    timeMax := time.bounds.2
    carbonMin := carbon.bounds.1
    carbonMax := carbon.bounds.2
    costMin := cost.bounds.1
    costMax := cost.bounds.2 }
  return (⟨time, carbon, cost⟩, bounds)

def prepare (store : AdaptivePolicyStore) (task : TaskProfile) (estimates : List RawActionEstimate)
    (at_ : Instant) (telemetryConfidence carbonForecastConfidence : Rat) :
    Except Exn (AdaptiveDecisionContext × AdaptivePolicyStore) := do
  let state := service.stateFor store task.taskId
  let (normalization, bounds) ← service.appendRanges state.normalization estimates at_
  let signals := adaptationSignals task estimates at_ telemetryConfidence carbonForecastConfidence
  let (multipliers, effective) :=
    if service.policy.enabled then service.adapt math state.baselineWeights signals
    else (.neutral, state.baselineWeights)
  let context : AdaptiveDecisionContext := {
    taskId := task.taskId
    baselineWeights := state.baselineWeights
    effectiveWeights := effective
    multipliers
    signals
    normalizationBounds := bounds }
  return (context, store.set task.taskId
    { state with normalization, effectiveWeights := effective, multipliers, signals })

def recordDecision (store : AdaptivePolicyStore) (decision : DecisionResult)
    (context : AdaptiveDecisionContext) (at_ : Instant) : AdaptivePolicyStore :=
  let state := service.stateFor store context.taskId
  let record : PolicyDecisionRecord := {
    decisionIndex := state.decisionCount + 1
    evaluatedAt := at_
    selected := decision.selected
    context
    reason := decision.reason }
  store.set context.taskId { state with
    decisionCount := state.decisionCount + 1
    decisionHistory := lastItems (state.decisionHistory ++ [record]) service.policy.decisionHistoryLimit
    effectiveWeights := context.effectiveWeights
    multipliers := context.multipliers
    signals := context.signals }

end AdaptivePolicyService

end Magellan.Planning
