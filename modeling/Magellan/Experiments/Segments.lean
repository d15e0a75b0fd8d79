import Magellan.Carbon.Averages
import Magellan.Experiments.Comparison
import Magellan.Scheduler.Selection

/-!
# Segments

A segment of whole minutes is charged the same in one piece and in two.
-/

namespace Magellan.Planning

section

variable {carbonStore : CarbonStore} {nodeId : NodeId} {series : Series} {start : Instant}

theorem computeSegment_of_average {node : NodeConfig} {seconds powerKw intensity : Rat}
    (positive : 0 < seconds) (read : carbonStore.average node.id start seconds = .ok intensity) :
    computeSegment carbonStore start node seconds powerKw =
      .ok ⟨seconds, powerKw * node.pue * secondsToHours seconds * intensity,
        node.computePriceUsdPerHour * secondsToHours seconds⟩ := by
  unfold computeSegment activeSegment
  rw [if_neg (not_le.mpr positive), read]
  rfl

theorem computeSegment_additive {m n : Nat} (someM : 0 < m) (someN : 0 < n) {node : NodeConfig}
    (powerKw : Rat) (inside : carbonStore.Inside node.id series start (60 * m + 60 * n)) :
    ∃ whole first second,
      computeSegment carbonStore start node (60 * m + 60 * n) powerKw = .ok whole ∧
      computeSegment carbonStore start node (60 * m) powerKw = .ok first ∧
      computeSegment carbonStore (start + 60 * m) node (60 * n) powerKw = .ok second ∧
      whole.carbonGrams = first.carbonGrams + second.carbonGrams ∧
      whole.costUsd = first.costUsd + second.costUsd := by
  have positiveM : (0 : Rat) < 60 * m := mul_pos (by norm_num) (Nat.cast_pos.mpr someM)
  have positiveN : (0 : Rat) < 60 * n := mul_pos (by norm_num) (Nat.cast_pos.mpr someN)
  obtain ⟨whole, first, second, read, read', read'', sums⟩ :=
    CarbonStore.average_additive someM someN inside
  refine ⟨_, _, _, computeSegment_of_average (add_pos positiveM positiveN) read,
    computeSegment_of_average positiveM read', computeSegment_of_average positiveN read'', ?_, ?_⟩
  · have energy (seconds intensity : Rat) :
        powerKw * node.pue * secondsToHours seconds * intensity =
          powerKw * node.pue / 3600 * (intensity * seconds) := by
      unfold secondsToHours
      ring
    rw [energy, energy, energy, sums]
    ring
  · unfold secondsToHours
    ring

/-- Averages over whole minutes add up, and with them what is charged for them; an average is the mean
of values in its window; along a line it is off the line's own mean by at most half a minute. -/
theorem averages_consistent (carbonStore : CarbonStore) (nodeId : NodeId) (series : Series)
    (start : Instant) :
    (∀ m n : Nat, 0 < m → 0 < n →
      carbonStore.Inside nodeId series start (60 * m + 60 * n) →
        (∃ whole first second,
          carbonStore.average nodeId start (60 * m + 60 * n) = .ok whole ∧
          carbonStore.average nodeId start (60 * m) = .ok first ∧
          carbonStore.average nodeId (start + 60 * m) (60 * n) = .ok second ∧
          whole * (60 * m + 60 * n) = first * (60 * m) + second * (60 * n)) ∧
        ∀ (node : NodeConfig) (powerKw : Rat), node.id = nodeId → ∃ whole first second,
          computeSegment carbonStore start node (60 * m + 60 * n) powerKw = .ok whole ∧
          computeSegment carbonStore start node (60 * m) powerKw = .ok first ∧
          computeSegment carbonStore (start + 60 * m) node (60 * n) powerKw = .ok second ∧
          whole.carbonGrams = first.carbonGrams + second.carbonGrams ∧
          whole.costUsd = first.costUsd + second.costUsd) ∧
    ∀ duration : Rat, 0 < duration → carbonStore.Inside nodeId series start duration →
      (∃ average values,
        carbonStore.average nodeId start duration = .ok average ∧
        (CarbonStore.sampleIndex start duration).mapM (carbonStore.valueAt nodeId) = .ok values ∧
        average = mean values ∧
        (∃ t value, start ≤ t ∧ t ≤ start + duration ∧ carbonStore.valueAt nodeId t = .ok value ∧
          value ≤ average) ∧
        ∃ t value, start ≤ t ∧ t ≤ start + duration ∧ carbonStore.valueAt nodeId t = .ok value ∧
          average ≤ value) ∧
      ∀ line : Line, (∀ sample ∈ series.samples, sample.value = line.value sample.at_) →
        ∃ average, carbonStore.average nodeId start duration = .ok average ∧
          |average - line.mean start duration| ≤ |line.slope| * 30 ∧
          (line.mean start duration : ℝ) =
            (∫ t in (start : ℝ)..(start + duration : ℝ), (line.origin + line.slope * t : ℝ)) /
              duration := by
  constructor
  · intro m n someM someN inside
    refine ⟨CarbonStore.average_additive someM someN inside, ?_⟩
    rintro node powerKw rfl
    exact computeSegment_additive someM someN powerKw inside
  · intro duration positive inside
    refine ⟨CarbonStore.average_mean inside positive, fun line onLine => ?_⟩
    obtain ⟨average, read, close⟩ := CarbonStore.average_line onLine inside positive
    exact ⟨average, read, close, line.mean_eq_integral positive⟩

end

/-- One minute and the two after it, while Boston's intensity falls. -/
theorem averages_consistent_sample :
    ∃ whole first second,
      pairStore.average "boston" 0 (60 * (1 : Nat) + 60 * (2 : Nat)) = .ok whole ∧
      pairStore.average "boston" 0 (60 * (1 : Nat)) = .ok first ∧
      pairStore.average "boston" (0 + 60 * (1 : Nat)) (60 * (2 : Nat)) = .ok second ∧
      whole * (60 * (1 : Nat) + 60 * (2 : Nat)) = first * (60 * (1 : Nat)) + second * (60 * (2 : Nat)) := by
  have inside : pairStore.Inside "boston" fallingSeries 0 (60 * (1 : Nat) + 60 * (2 : Nat)) :=
    ⟨rfl, by decide +kernel, by decide +kernel⟩
  exact ((averages_consistent pairStore "boston" fallingSeries 0).1 1 2 one_pos two_pos inside).1

end Magellan.Planning
