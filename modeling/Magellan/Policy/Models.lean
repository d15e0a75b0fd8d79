import Mathlib.Algebra.BigOperators.Group.Finset.Basic
import Mathlib.Data.Fintype.Basic
import Magellan.Config.Models
import Magellan.Carbon.Store

/-!
# Weights, signals and ranges of the adaptive policy
-/

namespace Magellan.Planning

inductive Metric where
  | time
  | carbon
  | cost
  deriving DecidableEq

instance : Fintype Metric := ⟨{.time, .carbon, .cost}, fun m => by cases m <;> simp⟩

theorem sum_metric (f : Metric → Rat) : ∑ m, f m = f .time + f .carbon + f .cost := by
  show ∑ m ∈ {Metric.time, Metric.carbon, Metric.cost}, f m = _
  rw [Finset.sum_insert (by simp), Finset.sum_insert (by simp), Finset.sum_singleton, add_assoc]

structure WeightVector where
  time : Rat
  carbon : Rat
  cost : Rat
  time_nonneg : 0 ≤ time
  carbon_nonneg : 0 ≤ carbon
  cost_nonneg : 0 ≤ cost
  total_pos : 0 < time + carbon + cost

namespace WeightVector

variable (weights : WeightVector)

def weight : Metric → Rat
  | .time => weights.time
  | .carbon => weights.carbon
  | .cost => weights.cost

theorem weight_nonneg (m : Metric) : 0 ≤ weights.weight m := by
  cases m with
  | time => exact weights.time_nonneg
  | carbon => exact weights.carbon_nonneg
  | cost => exact weights.cost_nonneg

def total : Rat := weights.time + weights.carbon + weights.cost

def normalized : WeightVector where
  time := weights.time / weights.total
  carbon := weights.carbon / weights.total
  cost := weights.cost / weights.total
  time_nonneg := div_nonneg weights.time_nonneg weights.total_pos.le
  carbon_nonneg := div_nonneg weights.carbon_nonneg weights.total_pos.le
  cost_nonneg := div_nonneg weights.cost_nonneg weights.total_pos.le
  total_pos := by
    rw [← add_div, ← add_div]
    exact div_pos weights.total_pos weights.total_pos

@[simp] theorem total_normalized : weights.normalized.total = 1 := by
  simp only [total, normalized]
  rw [← add_div, ← add_div]
  exact div_self weights.total_pos.ne'

end WeightVector

structure WeightMultipliers where
  time : Rat := 1
  carbon : Rat := 1
  cost : Rat := 1
  time_pos : 0 < time := by norm_num
  carbon_pos : 0 < carbon := by norm_num
  cost_pos : 0 < cost := by norm_num

def WeightMultipliers.neutral : WeightMultipliers := ⟨1, 1, 1, one_positive, one_positive, one_positive⟩

def WeightMultipliers.multiplier (multipliers : WeightMultipliers) : Metric → Rat
  | .time => multipliers.time
  | .carbon => multipliers.carbon
  | .cost => multipliers.cost

/-- Each weight times its multiplier. -/
def WeightVector.scaled (weights : WeightVector) (multipliers : WeightMultipliers) : WeightVector where
  time := weights.time * multipliers.time
  carbon := weights.carbon * multipliers.carbon
  cost := weights.cost * multipliers.cost
  time_nonneg := mul_nonneg weights.time_nonneg multipliers.time_pos.le
  carbon_nonneg := mul_nonneg weights.carbon_nonneg multipliers.carbon_pos.le
  cost_nonneg := mul_nonneg weights.cost_nonneg multipliers.cost_pos.le
  total_pos := by
    have time := mul_nonneg weights.time_nonneg multipliers.time_pos.le
    have carbon := mul_nonneg weights.carbon_nonneg multipliers.carbon_pos.le
    have cost := mul_nonneg weights.cost_nonneg multipliers.cost_pos.le
    by_contra none
    have noTime : weights.time * multipliers.time = 0 := by linarith
    have noCarbon : weights.carbon * multipliers.carbon = 0 := by linarith
    have noCost : weights.cost * multipliers.cost = 0 := by linarith
    rw [mul_eq_zero_iff_right multipliers.time_pos.ne'] at noTime
    rw [mul_eq_zero_iff_right multipliers.carbon_pos.ne'] at noCarbon
    rw [mul_eq_zero_iff_right multipliers.cost_pos.ne'] at noCost
    have total := weights.total_pos
    rw [noTime, noCarbon, noCost] at total
    norm_num at total

structure AdaptationSignals where
  budgetSlackFraction : Option Rat := none
  deadlineSlackRatio : Option Rat := none
  carbonOpportunityFraction : Rat := 0
  telemetryConfidence : Rat := 0
  carbonForecastConfidence : Rat := 0
  costCapExhausted : Bool := false
  deadlineAtRisk : Bool := false
  budgetSlack_range : ∀ value ∈ budgetSlackFraction, 0 ≤ value ∧ value ≤ 1 := by simp
  deadlineSlack_nonneg : ∀ value ∈ deadlineSlackRatio, 0 ≤ value := by simp
  carbonOpportunity_range : 0 ≤ carbonOpportunityFraction ∧ carbonOpportunityFraction ≤ 1 := by norm_num
  telemetryConfidence_range : 0 ≤ telemetryConfidence ∧ telemetryConfidence ≤ 1 := by norm_num
  forecastConfidence_range : 0 ≤ carbonForecastConfidence ∧ carbonForecastConfidence ≤ 1 := by norm_num

def AdaptationSignals.none : AdaptationSignals where
  deadlineSlack_nonneg := none_nonneg
  carbonOpportunity_range := no_fraction
  telemetryConfidence_range := no_fraction
  forecastConfidence_range := no_fraction

/-- The least and the greatest estimate of a metric at an evaluation. -/
structure MetricRangeSample where
  minimum : Rat
  maximum : Rat
  observedAt : Instant
  minimum_nonneg : 0 ≤ minimum
  minimum_le : minimum ≤ maximum

def MetricRangeSample.validated (minimum maximum : Rat) (observedAt : Instant) :
    Except Exn MetricRangeSample :=
  if nonneg : 0 ≤ minimum then
    if le : minimum ≤ maximum then .ok ⟨minimum, maximum, observedAt, nonneg, le⟩
    else .error (valueError "Metric range maximum must be >= minimum")
  else .error (validationError "MetricRangeSample" "minimum")

/-- `RollingMetricState`, the latest samples last. -/
abbrev RollingMetricState := List MetricRangeSample

structure RollingNormalizationState where
  time : RollingMetricState := []
  carbon : RollingMetricState := []
  cost : RollingMetricState := []

structure NormalizationBounds where
  timeMin : Rat
  timeMax : Rat
  carbonMin : Rat
  carbonMax : Rat
  costMin : Rat
  costMax : Rat

def NormalizationBounds.least (bounds : NormalizationBounds) : Metric → Rat
  | .time => bounds.timeMin
  | .carbon => bounds.carbonMin
  | .cost => bounds.costMin

def NormalizationBounds.greatest (bounds : NormalizationBounds) : Metric → Rat
  | .time => bounds.timeMax
  | .carbon => bounds.carbonMax
  | .cost => bounds.costMax

def NormalizationBounds.validated (bounds : NormalizationBounds) : Except Exn NormalizationBounds := do
  requireNonneg "NormalizationBounds" [("time_min", bounds.timeMin), ("time_max", bounds.timeMax),
    ("carbon_min", bounds.carbonMin), ("carbon_max", bounds.carbonMax),
    ("cost_min", bounds.costMin), ("cost_max", bounds.costMax)]
  return bounds

structure AdaptiveDecisionContext where
  taskId : TaskId
  baselineWeights : WeightVector
  effectiveWeights : WeightVector
  multipliers : WeightMultipliers
  signals : AdaptationSignals
  normalizationBounds : NormalizationBounds

end Magellan.Planning
