import Magellan.Data.Shares
import Magellan.Scheduler.Scores

/-!
# Bounded weights

The effective weights are shares of the baseline under multipliers that grow with a pressure each: the
time's with the deadline, the carbon's with the opportunity, the cost's with the budget.
-/

namespace Magellan.Planning

namespace AdaptivePolicyService

variable (math : MathModule) (service : AdaptivePolicyService)

/-- What makes a metric more important. -/
def pressure (signals : AdaptationSignals) : Metric → Rat
  | .time => timePressure signals
  | .carbon => service.carbonSignal math signals
  | .cost => costPressure signals

theorem multipliers_eq (signals : AdaptationSignals) (m : Metric) :
    (service.multipliers math signals).multiplier m = service.multiplier (service.pressure math signals m) := by
  cases m <;> rfl

variable {math service} {signals signals' : AdaptationSignals}

theorem pressure_nonneg (m : Metric) : 0 ≤ service.pressure math signals m := by
  cases m with
  | time =>
      show 0 ≤ timePressure signals
      unfold timePressure
      split
      · exact le_rfl
      · split_ifs
        · exact zero_le_one
        · exact (clamp_range zero_le_one).1
  | carbon => exact mul_nonneg signals.carbonOpportunity_range.1 (math.sqrt_nonneg _)
  | cost =>
      show 0 ≤ costPressure signals
      unfold costPressure
      split
      · exact le_rfl
      · rename_i slack present
        exact sub_nonneg.mpr (signals.budgetSlack_range slack present).2

theorem multiplier_range {p : Rat} (nonneg : 0 ≤ p) :
    1 ≤ service.multiplier p ∧
      service.multiplier p ≤ 1 + service.policy.multiplierBoundFraction := by
  have bound := service.policy.multiplierBound_range.1
  unfold multiplier
  constructor
  · apply le_max_of_le_right
    apply le_min
    · linarith
    · linarith [mul_nonneg bound nonneg]
  · exact (clamp_range (by linarith)).2

theorem multiplier_mono {p p' : Rat} (le : p ≤ p') : service.multiplier p ≤ service.multiplier p' := by
  apply clamp_mono
  have more := mul_le_mul_of_nonneg_left le service.policy.multiplierBound_range.1
  linarith

theorem effective_eq (baseline : WeightVector) (m : Metric) :
    (service.adapt math baseline signals).2.weight m =
      share baseline.weight (service.multipliers math signals).multiplier m := by
  unfold share
  rw [sum_metric]
  cases m <;> rfl

end AdaptivePolicyService

/-! ## Stronger signals -/

/-- The second signals press more for a metric, and are the same for the others. -/
def PressesMore (signals signals' : AdaptationSignals) : Metric → Prop
  | .time =>
    (∃ slack slack', signals.deadlineSlackRatio = some slack ∧
      signals'.deadlineSlackRatio = some slack' ∧ slack' ≤ slack) ∧
    signals'.budgetSlackFraction = signals.budgetSlackFraction ∧
    signals'.carbonOpportunityFraction = signals.carbonOpportunityFraction ∧
    signals'.telemetryConfidence = signals.telemetryConfidence ∧
    signals'.carbonForecastConfidence = signals.carbonForecastConfidence
  | .carbon =>
    (signals.carbonOpportunityFraction ≤ signals'.carbonOpportunityFraction ∧
      signals.telemetryConfidence ≤ signals'.telemetryConfidence ∧
      signals.carbonForecastConfidence ≤ signals'.carbonForecastConfidence) ∧
    signals'.deadlineSlackRatio = signals.deadlineSlackRatio ∧
    signals'.budgetSlackFraction = signals.budgetSlackFraction
  | .cost =>
    (∃ slack slack', signals.budgetSlackFraction = some slack ∧
      signals'.budgetSlackFraction = some slack' ∧ slack' ≤ slack) ∧
    signals'.deadlineSlackRatio = signals.deadlineSlackRatio ∧
    signals'.carbonOpportunityFraction = signals.carbonOpportunityFraction ∧
    signals'.telemetryConfidence = signals.telemetryConfidence ∧
    signals'.carbonForecastConfidence = signals.carbonForecastConfidence

/-- The deadline is at risk where its slack says so. -/
def AdaptationSignals.Coherent (signals : AdaptationSignals) : Prop :=
  signals.deadlineAtRisk = signals.deadlineSlackRatio.any (· ≤ 1)

theorem adaptationSignals_coherent (task : TaskProfile) (estimates : List RawActionEstimate)
    (at_ : Instant) (telemetryConfidence carbonForecastConfidence : Rat) :
    (adaptationSignals task estimates at_ telemetryConfidence carbonForecastConfidence).Coherent := rfl

section Pressure

variable {math : MathModule} {service : AdaptivePolicyService} {signals signals' : AdaptationSignals}

theorem timePressure_eq (coherent : signals.Coherent) :
    timePressure signals = if signals.deadlineSlackRatio.any (· ≤ 1) then 1 else 0 := by
  unfold timePressure
  rw [coherent]
  cases signals.deadlineSlackRatio with
  | none => rfl
  | some slack =>
      by_cases tight : slack ≤ 1
      · simp [tight]
      · have negative : 1 - slack ≤ 0 := by linarith
        simp [tight, clamp, min_eq_right (negative.trans zero_le_one), negative]

theorem carbonSignal_mono (monotone : Monotone math.sqrt)
    (opportunity : signals.carbonOpportunityFraction ≤ signals'.carbonOpportunityFraction)
    (telemetry : signals.telemetryConfidence ≤ signals'.telemetryConfidence)
    (forecast : signals.carbonForecastConfidence ≤ signals'.carbonForecastConfidence) :
    service.carbonSignal math signals ≤ service.carbonSignal math signals' := by
  have floor := service.policy.confidenceFloor_range.1
  apply mul_le_mul opportunity _ (math.sqrt_nonneg _) signals'.carbonOpportunity_range.1
  apply monotone
  exact mul_le_mul (max_le_max_right _ telemetry) (max_le_max_right _ forecast)
    (le_max_of_le_right floor) (le_max_of_le_right floor)

theorem pressure_of_pressesMore (monotone : Monotone math.sqrt) (coherent : signals.Coherent)
    (coherent' : signals'.Coherent) {m : Metric} (more : PressesMore signals signals' m) :
    service.pressure math signals m ≤ service.pressure math signals' m ∧
      ∀ other ≠ m, service.pressure math signals' other = service.pressure math signals other := by
  have carbon_eq (opportunity : signals'.carbonOpportunityFraction = signals.carbonOpportunityFraction)
      (telemetry : signals'.telemetryConfidence = signals.telemetryConfidence)
      (forecast : signals'.carbonForecastConfidence = signals.carbonForecastConfidence) :
      service.carbonSignal math signals' = service.carbonSignal math signals := by
    simp only [AdaptivePolicyService.carbonSignal, opportunity, telemetry, forecast]
  have time_eq (deadline : signals'.deadlineSlackRatio = signals.deadlineSlackRatio) :
      timePressure signals' = timePressure signals := by
    rw [timePressure_eq coherent, timePressure_eq coherent', deadline]
  have cost_eq (budget : signals'.budgetSlackFraction = signals.budgetSlackFraction) :
      costPressure signals' = costPressure signals := by
    simp only [costPressure, budget]
  cases m with
  | time =>
      obtain ⟨⟨slack, slack', present, present', le⟩, budget, opportunity, telemetry, forecast⟩ := more
      constructor
      · show timePressure signals ≤ timePressure signals'
        rw [timePressure_eq coherent, timePressure_eq coherent', present, present']
        by_cases tight : slack ≤ 1
        · simp [tight, le.trans tight]
        · simp only [Option.any_some, decide_eq_true_eq, if_neg tight]
          split_ifs
          · exact zero_le_one
          · exact le_rfl
      · intro other ne
        cases other with
        | time => exact absurd rfl ne
        | carbon => exact carbon_eq opportunity telemetry forecast
        | cost => exact cost_eq budget
  | carbon =>
      obtain ⟨⟨opportunity, telemetry, forecast⟩, deadline, budget⟩ := more
      refine ⟨carbonSignal_mono monotone opportunity telemetry forecast, fun other ne => ?_⟩
      cases other with
      | time => exact time_eq deadline
      | carbon => exact absurd rfl ne
      | cost => exact cost_eq budget
  | cost =>
      obtain ⟨⟨slack, slack', present, present', le⟩, deadline, opportunity, telemetry, forecast⟩ := more
      constructor
      · show costPressure signals ≤ costPressure signals'
        simp only [costPressure, present, present']
        exact sub_le_sub_left le 1
      · intro other ne
        cases other with
        | time => exact time_eq deadline
        | carbon => exact carbon_eq opportunity telemetry forecast
        | cost => exact absurd rfl ne

end Pressure

/-- The effective weights add up to one and stay within the bound of the baseline, and a signal that
presses more for a metric does not lower its weight nor raise another. -/
theorem adapted_weights_bounded {math : MathModule} (monotone : Monotone math.sqrt)
    (service : AdaptivePolicyService) {baseline : WeightVector} (normalized : baseline.total = 1)
    (task : TaskProfile) (estimates : List RawActionEstimate) (at_ : Instant)
    (telemetryConfidence carbonForecastConfidence : Rat) :
    let bound := service.policy.multiplierBoundFraction
    let signals := adaptationSignals task estimates at_ telemetryConfidence carbonForecastConfidence
    let adapted := service.adapt math baseline signals
    adapted.2.total = 1 ∧
      (∀ m, 1 ≤ adapted.1.multiplier m ∧ adapted.1.multiplier m ≤ 1 + bound) ∧
      (∀ m, baseline.weight m / (1 + bound) ≤ adapted.2.weight m ∧
        adapted.2.weight m ≤ baseline.weight m * (1 + bound)) ∧
      ∀ (task' : TaskProfile) (estimates' : List RawActionEstimate) (at' : Instant)
        (telemetryConfidence' carbonForecastConfidence' : Rat) (m : Metric),
        let signals' := adaptationSignals task' estimates' at' telemetryConfidence'
          carbonForecastConfidence'
        let adapted' := service.adapt math baseline signals'
        PressesMore signals signals' m →
          adapted.2.weight m ≤ adapted'.2.weight m ∧
            ∀ other ≠ m, adapted'.2.weight other ≤ adapted.2.weight other := by
  intro bound signals adapted
  have whole : ∑ m, baseline.weight m = 1 := by
    rw [sum_metric]
    exact normalized
  have range (s : AdaptationSignals) (m : Metric) :
      1 ≤ (service.multipliers math s).multiplier m ∧
        (service.multipliers math s).multiplier m ≤ 1 + bound := by
    rw [service.multipliers_eq math s m]
    exact AdaptivePolicyService.multiplier_range (AdaptivePolicyService.pressure_nonneg m)
  have least (m : Metric) := (range signals m).1
  have greatest (m : Metric) := (range signals m).2
  have effective (s : AdaptationSignals) (m : Metric) : (service.adapt math baseline s).2.weight m =
      share baseline.weight (service.multipliers math s).multiplier m :=
    AdaptivePolicyService.effective_eq baseline m
  refine ⟨WeightVector.total_normalized _, range signals, fun m => ⟨?_, ?_⟩, ?_⟩
  · exact (Share.div_le baseline.weight_nonneg whole least greatest m).trans_eq (effective signals m).symm
  · exact (effective signals m).trans_le (Share.le_mul baseline.weight_nonneg whole least greatest m)
  · intro task' estimates' at' telemetryConfidence' carbonForecastConfidence' m signals' adapted' more
    obtain ⟨own, others⟩ : service.pressure math signals m ≤ service.pressure math signals' m ∧
        ∀ other ≠ m, service.pressure math signals' other = service.pressure math signals other :=
      pressure_of_pressesMore monotone (adaptationSignals_coherent ..) (adaptationSignals_coherent ..)
        more
    have grows : (service.multipliers math signals).multiplier m ≤
        (service.multipliers math signals').multiplier m := by
      rw [service.multipliers_eq, service.multipliers_eq]
      exact AdaptivePolicyService.multiplier_mono own
    have same : ∀ other ≠ m, (service.multipliers math signals').multiplier other =
        (service.multipliers math signals).multiplier other := by
      intro other ne
      rw [service.multipliers_eq, service.multipliers_eq, others other ne]
    have some : 0 < ∑ m, baseline.weight m * (service.multipliers math signals).multiplier m :=
      zero_lt_one.trans_le (Share.one_le_sum baseline.weight_nonneg whole least)
    have positive (m : Metric) : 0 ≤ (service.multipliers math signals).multiplier m :=
      zero_le_one.trans (least m)
    constructor
    · calc adapted.2.weight m = share baseline.weight (service.multipliers math signals).multiplier m :=
            effective signals m
        _ ≤ share baseline.weight (service.multipliers math signals').multiplier m :=
            Share.own_le baseline.weight_nonneg grows same some positive
        _ = adapted'.2.weight m := (effective signals' m).symm
    · intro other ne
      calc adapted'.2.weight other =
            share baseline.weight (service.multipliers math signals').multiplier other :=
            effective signals' other
        _ ≤ share baseline.weight (service.multipliers math signals).multiplier other :=
            Share.other_le baseline.weight_nonneg grows same some positive ne
        _ = adapted.2.weight other := (effective signals other).symm

/-- The square root to six digits. -/
def fixedSqrt (x : Rat) : Rat := (Nat.sqrt ⌊x * 1000000000000⌋.toNat : Rat) / 1000000

theorem fixedSqrt_monotone : Monotone fixedSqrt := by
  intro x y le
  apply div_le_div_of_nonneg_right _ (by norm_num)
  exact_mod_cast Nat.sqrt_le_sqrt (Int.toNat_le_toNat (Int.floor_mono
    (mul_le_mul_of_nonneg_right le (by norm_num))))

def fixedMath : MathModule where
  sin := fun x => x
  cos := fun _ => 1
  asin := fun x => x
  sqrt := fixedSqrt
  radians := fun x => x
  sqrt_nonneg := fun _ => div_nonneg (Nat.cast_nonneg _) (by norm_num)
  asin_nonneg := fun _ nonneg => nonneg

/-- A task with a deadline. -/
def dueTask (deadlineAt : Instant) : TaskProfile where
  taskId := "task"
  currentNodeId := "boston"
  powerKw := 1
  checkpointBytes := 1000
  estimatedRemainingSeconds := some 3600
  deadlineAt := some deadlineAt

/-- A deadline that is missed weighs more than one that is far away. -/
theorem adapted_weights_sample :
    let baseline := weightsFromConfig samplePolicy.weights
    let estimates := [sampleEstimate .continue_ 900 100 1, sampleEstimate .migrate 1000 50 1]
    let service : AdaptivePolicyService := ⟨samplePolicy.adaptive, baseline⟩
    let weights (deadlineAt : Instant) :=
      (service.adapt fixedMath baseline (adaptationSignals (dueTask deadlineAt) estimates 0 0 0)).2
    (weights 7200).weight .time ≤ (weights 3000).weight .time := by
  intro baseline estimates service weights
  have normalized : baseline.total = 1 := WeightVector.total_normalized _
  have monotone : Monotone fixedMath.sqrt := fixedSqrt_monotone
  have bounded := adapted_weights_bounded monotone service normalized (dueTask 7200) estimates 0 0 0
  have tighter : PressesMore (adaptationSignals (dueTask 7200) estimates 0 0 0)
      (adaptationSignals (dueTask 3000) estimates 0 0 0) .time :=
    ⟨⟨2, 5 / 6, by decide +kernel, by decide +kernel, by norm_num⟩, rfl, rfl, rfl, rfl⟩
  exact (bounded.2.2.2 (dueTask 3000) estimates 0 0 0 .time tighter).1

end Magellan.Planning
