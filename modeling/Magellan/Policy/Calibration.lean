import Mathlib.Data.Prod.Lex
import Mathlib.Data.String.Basic
import Magellan.Scheduler.Scores

/-!
# Calibration of the baseline

The weights are selected by what they have led to. Each candidate is scored by its own weights, so one
that is better in every metric may be passed over, but only where its own score is higher.
-/

namespace Magellan.Planning

structure CalibrationCandidate where
  weights : WeightVector
  totalTimeSeconds : Rat
  totalCarbonGrams : Rat
  totalCostUsd : Rat
  label : Option String := none
  totalTime_nonneg : 0 ≤ totalTimeSeconds := by norm_num
  totalCarbon_nonneg : 0 ≤ totalCarbonGrams := by norm_num
  totalCost_nonneg : 0 ≤ totalCostUsd := by norm_num

def CalibrationCandidate.total (candidate : CalibrationCandidate) : Metric → Rat
  | .time => candidate.totalTimeSeconds
  | .carbon => candidate.totalCarbonGrams
  | .cost => candidate.totalCostUsd

structure CalibrationScore where
  candidate : CalibrationCandidate
  normalizedTime : Rat
  normalizedCarbon : Rat
  normalizedCost : Rat
  score : Rat

def CalibrationScore.validated (scored : CalibrationScore) : Except Exn CalibrationScore := do
  requireNonneg "CalibrationScore" [("normalized_time", scored.normalizedTime),
    ("normalized_time", 1 - scored.normalizedTime), ("normalized_carbon", scored.normalizedCarbon),
    ("normalized_carbon", 1 - scored.normalizedCarbon), ("normalized_cost", scored.normalizedCost),
    ("normalized_cost", 1 - scored.normalizedCost), ("score", scored.score)]
  return scored

structure CalibrationResult where
  selected : CalibrationScore
  feasibleCandidateCount : Nat
  rejectedCandidateCount : Nat
  ranked : List CalibrationScore

/-- `round(x, 12)`, to the even neighbour from the middle. -/
def round12 (x : Rat) : Rat :=
  let scaled := x * 1000000000000
  let below := ⌊scaled⌋
  let rounded :=
    if scaled - below < 1 / 2 then below
    else if 1 / 2 < scaled - below then below + 1
    else if below % 2 = 0 then below else below + 1
  rounded / 1000000000000

abbrev WeightKey := Rat ×ₗ Rat ×ₗ Rat

/-- `_weight_key`. -/
def weightKey (weights : WeightVector) : WeightKey :=
  toLex (round12 weights.normalized.time,
    toLex (round12 weights.normalized.carbon, round12 weights.normalized.cost))

abbrev RankingKey := Rat ×ₗ Rat ×ₗ Rat ×ₗ Rat ×ₗ WeightKey ×ₗ String

def CalibrationScore.rankingKey (scored : CalibrationScore) : RankingKey :=
  toLex (scored.score, toLex (scored.candidate.totalCarbonGrams,
    toLex (scored.candidate.totalTimeSeconds, toLex (scored.candidate.totalCostUsd,
      toLex (weightKey scored.candidate.weights, scored.candidate.label.getD "")))))

section Select

variable (candidates : List CalibrationCandidate) (costCapUsd deadlineSeconds : Option Rat)

/-- The candidate meets the hard constraints. -/
def isFeasible (candidate : CalibrationCandidate) : Bool :=
  (costCapUsd.all fun cap => candidate.totalCostUsd ≤ cap) &&
    deadlineSeconds.all fun deadline => candidate.totalTimeSeconds ≤ deadline

/-- The score of a candidate by its own weights, normalized over the feasible ones. -/
def calibrationScore (feasible : List CalibrationCandidate) (candidate : CalibrationCandidate) :
    CalibrationScore :=
  let weights := candidate.weights.normalized
  let normalizedTime := minmax (feasible.map (·.totalTimeSeconds)) candidate.totalTimeSeconds
  let normalizedCarbon := minmax (feasible.map (·.totalCarbonGrams)) candidate.totalCarbonGrams
  let normalizedCost := minmax (feasible.map (·.totalCostUsd)) candidate.totalCostUsd
  { candidate, normalizedTime, normalizedCarbon, normalizedCost
    score := weights.time * normalizedTime + weights.carbon * normalizedCarbon +
      weights.cost * normalizedCost }

def selectCalibratedBaseline : Except Exn CalibrationResult :=
  if candidates = [] then .error (valueError "At least one calibration candidate is required")
  else
    let feasible := candidates.filter (isFeasible costCapUsd deadlineSeconds)
    if feasible = [] then .error (valueError "No calibration candidates satisfy hard constraints")
    else do
      let scored ← feasible.mapM fun candidate => (calibrationScore feasible candidate).validated
      match rankBy (·.rankingKey) scored with
      | [] => .error ⟨.indexError, "list index out of range"⟩
      | selected :: others =>
        return {
          selected
          feasibleCandidateCount := feasible.length
          rejectedCandidateCount := candidates.length - feasible.length
          ranked := selected :: others }

end Select

/-! ## What is selected -/

theorem minimum_perm {values values' : List Rat} (same : values.Perm values') :
    minimum values = minimum values' := by
  by_cases empty : values = []
  · rw [empty] at same ⊢
    rw [List.nil_perm.mp same]
  · have some : values' ≠ [] := fun empty' => empty (List.perm_nil.mp (empty' ▸ same))
    rw [minimum_eq_iff empty]
    exact ⟨same.mem_iff.mpr (minimum_mem some), fun value member => minimum_le (same.mem_iff.mp member)⟩

theorem maximum_perm {values values' : List Rat} (same : values.Perm values') :
    maximum values = maximum values' := by
  by_cases empty : values = []
  · rw [empty] at same ⊢
    rw [List.nil_perm.mp same]
  · have some : values' ≠ [] := fun empty' => empty (List.perm_nil.mp (empty' ▸ same))
    rw [maximum_eq_iff empty]
    exact ⟨same.mem_iff.mpr (maximum_mem some), fun value member => le_maximum (same.mem_iff.mp member)⟩

theorem minmax_perm {values values' : List Rat} (same : values.Perm values') (value : Rat) :
    minmax values value = minmax values' value := by
  unfold minmax
  rw [minimum_perm same, maximum_perm same]

section Selected

variable {candidates feasible feasible' : List CalibrationCandidate}
  {costCapUsd deadlineSeconds : Option Rat} {candidate other : CalibrationCandidate}

theorem calibrationScore_perm (same : feasible.Perm feasible') (candidate : CalibrationCandidate) :
    calibrationScore feasible candidate = calibrationScore feasible' candidate := by
  have column (f : CalibrationCandidate → Rat) (value : Rat) :
      minmax (feasible.map f) value = minmax (feasible'.map f) value := minmax_perm (same.map f) value
  simp only [calibrationScore, column]

theorem validated_calibrationScore (member : candidate ∈ feasible) :
    (calibrationScore feasible candidate).validated = .ok (calibrationScore feasible candidate) := by
  have column (f : CalibrationCandidate → Rat) :
      0 ≤ minmax (feasible.map f) (f candidate) ∧ minmax (feasible.map f) (f candidate) ≤ 1 :=
    minmax_range (List.mem_map_of_mem member)
  have time := column (·.totalTimeSeconds)
  have carbon := column (·.totalCarbonGrams)
  have cost := column (·.totalCostUsd)
  unfold CalibrationScore.validated
  rw [requireNonneg_ok]
  · rfl
  · intro field inside
    simp only [List.mem_cons, List.not_mem_nil, or_false] at inside
    rcases inside with rfl | rfl | rfl | rfl | rfl | rfl | rfl
    · exact time.1
    · exact sub_nonneg.mpr time.2
    · exact carbon.1
    · exact sub_nonneg.mpr carbon.2
    · exact cost.1
    · exact sub_nonneg.mpr cost.2
    · exact add_nonneg (add_nonneg (mul_nonneg candidate.weights.normalized.time_nonneg time.1)
        (mul_nonneg candidate.weights.normalized.carbon_nonneg carbon.1))
        (mul_nonneg candidate.weights.normalized.cost_nonneg cost.1)

theorem selectCalibratedBaseline_cases (some : candidates ≠ []) (costCapUsd deadlineSeconds : Option Rat) :
    (∃ e, selectCalibratedBaseline candidates costCapUsd deadlineSeconds = .error e) ∧
        candidates.filter (isFeasible costCapUsd deadlineSeconds) = [] ∨
      ∃ result, selectCalibratedBaseline candidates costCapUsd deadlineSeconds = .ok result ∧
        ∃ chosen ∈ candidates.filter (isFeasible costCapUsd deadlineSeconds),
          result.selected =
            calibrationScore (candidates.filter (isFeasible costCapUsd deadlineSeconds)) chosen ∧
          ∀ other ∈ candidates.filter (isFeasible costCapUsd deadlineSeconds),
            result.selected.rankingKey ≤ (calibrationScore
              (candidates.filter (isFeasible costCapUsd deadlineSeconds)) other).rankingKey := by
  simp only [selectCalibratedBaseline, if_neg some]
  set feasible := candidates.filter (isFeasible costCapUsd deadlineSeconds)
  by_cases none : feasible = []
  · rw [if_pos none]
    exact .inl ⟨⟨_, rfl⟩, none⟩
  · right
    rw [if_neg none, Except.mapM_eq_ok fun candidate member => validated_calibrationScore member,
      Except.ok_bind]
    cases ranking : rankBy (·.rankingKey) (feasible.map (calibrationScore feasible)) with
    | nil =>
        have empty : (feasible.map (calibrationScore feasible)) = [] := by
          have same : (rankBy (·.rankingKey) (feasible.map (calibrationScore feasible))).Perm
              (feasible.map (calibrationScore feasible)) := RankBy.perm
          rw [ranking] at same
          exact List.nil_perm.mp same
        exact absurd (List.map_eq_nil_iff.mp empty) none
    | cons selected others =>
        have first : selected ∈ (rankBy (·.rankingKey) (feasible.map (calibrationScore feasible))).head? := by
          rw [ranking]
          rfl
        obtain ⟨chosen, member, rfl⟩ := List.mem_map.mp (RankBy.mem_iff.mp (List.mem_of_mem_head? first))
        refine ⟨_, rfl, chosen, member, rfl, fun other inside => ?_⟩
        exact RankBy.first_le first _ (List.mem_map_of_mem inside)

/-- The candidate is as good in every metric and better in one. -/
def Dominates (candidate other : CalibrationCandidate) : Prop :=
  (∀ m, candidate.total m ≤ other.total m) ∧ ∃ m, candidate.total m < other.total m

instance : Decidable (Dominates candidate other) := instDecidableAnd

theorem rankingKey_le {a b : CalibrationScore} (le : a.rankingKey ≤ b.rankingKey) :
    a.score < b.score ∨ a.score = b.score ∧
      (a.candidate.totalCarbonGrams < b.candidate.totalCarbonGrams ∨
        a.candidate.totalCarbonGrams = b.candidate.totalCarbonGrams ∧
          (a.candidate.totalTimeSeconds < b.candidate.totalTimeSeconds ∨
            a.candidate.totalTimeSeconds = b.candidate.totalTimeSeconds ∧
              a.candidate.totalCostUsd ≤ b.candidate.totalCostUsd)) := by
  unfold CalibrationScore.rankingKey at le
  rcases Prod.Lex.toLex_le_toLex.mp le with score | ⟨score, le⟩
  · exact .inl score
  refine .inr ⟨score, ?_⟩
  rcases Prod.Lex.toLex_le_toLex.mp le with carbon | ⟨carbon, le⟩
  · exact .inl carbon
  refine .inr ⟨carbon, ?_⟩
  rcases Prod.Lex.toLex_le_toLex.mp le with time | ⟨time, le⟩
  · exact .inl time
  refine .inr ⟨time, ?_⟩
  rcases Prod.Lex.toLex_le_toLex.mp le with cost | ⟨cost, -⟩
  · exact cost.le
  · exact cost.le

/-- One that dominates what comes before it has a higher score of its own. -/
theorem score_lt_of_dominates
    (le : (calibrationScore feasible candidate).rankingKey ≤ (calibrationScore feasible other).rankingKey)
    (dominates : Dominates other candidate) :
    (calibrationScore feasible candidate).score < (calibrationScore feasible other).score := by
  obtain ⟨all, m, better⟩ := dominates
  have time : other.totalTimeSeconds ≤ candidate.totalTimeSeconds := all .time
  have carbon : other.totalCarbonGrams ≤ candidate.totalCarbonGrams := all .carbon
  have cost : other.totalCostUsd ≤ candidate.totalCostUsd := all .cost
  rcases rankingKey_le le with score | ⟨-, lessCarbon | ⟨sameCarbon, lessTime | ⟨sameTime, lessCost⟩⟩⟩
  · exact score
  · exact absurd carbon (not_le.mpr lessCarbon)
  · exact absurd time (not_le.mpr lessTime)
  · -- All totals are the same.
    change candidate.totalCarbonGrams = other.totalCarbonGrams at sameCarbon
    change candidate.totalTimeSeconds = other.totalTimeSeconds at sameTime
    change candidate.totalCostUsd ≤ other.totalCostUsd at lessCost
    cases m with
    | time => exact absurd sameTime better.ne'
    | carbon => exact absurd sameCarbon better.ne'
    | cost => exact absurd lessCost (not_le.mpr better)

theorem score_le_of_same_weights (member : candidate ∈ feasible) (member' : other ∈ feasible)
    (same : other.weights.normalized = candidate.weights.normalized)
    (dominates : Dominates other candidate) :
    (calibrationScore feasible other).score ≤ (calibrationScore feasible candidate).score := by
  have column (f : CalibrationCandidate → Rat) (le : f other ≤ f candidate) :
      minmax (feasible.map f) (f other) ≤ minmax (feasible.map f) (f candidate) := by
    rw [minmax_eq_withinBounds (List.mem_map_of_mem member),
      minmax_eq_withinBounds (List.mem_map_of_mem member')]
    exact withinBounds_mono le
  simp only [calibrationScore, same]
  exact add_le_add (add_le_add
    (mul_le_mul_of_nonneg_left (column _ (dominates.1 .time)) candidate.weights.normalized.time_nonneg)
    (mul_le_mul_of_nonneg_left (column _ (dominates.1 .carbon)) candidate.weights.normalized.carbon_nonneg))
    (mul_le_mul_of_nonneg_left (column _ (dominates.1 .cost)) candidate.weights.normalized.cost_nonneg)

end Selected

/-- Calibration fails just where no candidate meets the constraints. Else it selects one that does, whose
score is lower than that of any candidate that dominates it, which has other weights; and what the
selection is ranked by does not depend on the order of the candidates. -/
theorem calibration_selects {candidates : List CalibrationCandidate} (some : candidates ≠ [])
    (costCapUsd deadlineSeconds : Option Rat) :
    let feasible := candidates.filter (isFeasible costCapUsd deadlineSeconds)
    ((∃ e, selectCalibratedBaseline candidates costCapUsd deadlineSeconds = .error e) ↔
        ∀ candidate ∈ candidates, isFeasible costCapUsd deadlineSeconds candidate = false) ∧
      ∀ result, selectCalibratedBaseline candidates costCapUsd deadlineSeconds = .ok result →
        result.selected.candidate ∈ feasible ∧
        (∀ other ∈ feasible, Dominates other result.selected.candidate →
          result.selected.score < (calibrationScore feasible other).score ∧
            other.weights.normalized ≠ result.selected.candidate.weights.normalized) ∧
        ∀ candidates' : List CalibrationCandidate, candidates'.Perm candidates →
          ∃ result', selectCalibratedBaseline candidates' costCapUsd deadlineSeconds = .ok result' ∧
            result'.selected.rankingKey = result.selected.rankingKey := by
  intro feasible
  have infeasible : feasible = [] ↔
      ∀ candidate ∈ candidates, isFeasible costCapUsd deadlineSeconds candidate = false := by
    simp only [feasible, List.filter_eq_nil_iff, Bool.not_eq_true]
  constructor
  · rw [← infeasible]
    rcases selectCalibratedBaseline_cases some costCapUsd deadlineSeconds with
      ⟨error, none⟩ | ⟨result, ok, chosen, member, -⟩
    · exact ⟨fun _ => none, fun _ => error⟩
    · refine ⟨fun ⟨e, error⟩ => ?_, fun none => absurd none (List.ne_nil_of_mem member)⟩
      rw [ok] at error
      cases error
  · intro result ok
    rcases selectCalibratedBaseline_cases some costCapUsd deadlineSeconds with
      ⟨⟨e, error⟩, -⟩ | ⟨result₁, ok₁, chosen, member, selected, least⟩
    · rw [ok] at error
      cases error
    rw [ok] at ok₁
    cases ok₁
    have candidate_eq : result.selected.candidate = chosen := by
      rw [selected]
      rfl
    refine ⟨candidate_eq ▸ member, ?_, ?_⟩
    · intro other inside dominates
      rw [candidate_eq] at dominates ⊢
      have before := least other inside
      rw [selected] at before
      have lower := score_lt_of_dominates before dominates
      rw [selected]
      exact ⟨lower, fun same =>
        absurd (score_le_of_same_weights member inside same dominates) (not_le.mpr lower)⟩
    · intro candidates' same
      have some' : candidates' ≠ [] := fun empty => some (List.nil_perm.mp (empty ▸ same))
      have sameFeasible : (candidates'.filter (isFeasible costCapUsd deadlineSeconds)).Perm feasible :=
        same.filter _
      rcases selectCalibratedBaseline_cases some' costCapUsd deadlineSeconds with
        ⟨-, none⟩ | ⟨result', ok', chosen', member', selected', least'⟩
      · rw [none] at sameFeasible
        exact absurd (List.nil_perm.mp sameFeasible) (List.ne_nil_of_mem member)
      · refine ⟨result', ok', le_antisymm ?_ ?_⟩
        · have le := least' chosen (sameFeasible.mem_iff.mpr member)
          rwa [calibrationScore_perm sameFeasible, ← selected] at le
        · have le := least chosen' (sameFeasible.mem_iff.mp member')
          rwa [← calibrationScore_perm sameFeasible, ← selected'] at le

/-- Only the time counts, by a weight that is not normalized, or only the carbon. -/
def timeWeights (time : Rat) (positive : 0 < time) : WeightVector where
  time
  carbon := 0
  cost := 0
  time_nonneg := positive.le
  carbon_nonneg := zero_nonneg
  cost_nonneg := zero_nonneg
  total_pos := by rwa [add_zero, add_zero]

def carbonWeights : WeightVector where
  time := 0
  carbon := 1
  cost := 0
  time_nonneg := zero_nonneg
  carbon_nonneg := one_nonneg
  cost_nonneg := zero_nonneg
  total_pos := by rw [zero_add, add_zero]; exact zero_lt_one

def sampleCandidate (weights : WeightVector) (time carbon : Nat) : CalibrationCandidate where
  weights
  totalTimeSeconds := time
  totalCarbonGrams := carbon
  totalCostUsd := 0
  totalTime_nonneg := natCast_nonneg time
  totalCarbon_nonneg := natCast_nonneg carbon
  totalCost_nonneg := zero_nonneg

def sampleCandidates : List CalibrationCandidate :=
  [sampleCandidate (timeWeights 1 one_positive) 0 10, sampleCandidate carbonWeights 0 5,
    sampleCandidate (timeWeights 1 one_positive) 10 0]

theorem calibration_selects_sample :
    ∃ result, selectCalibratedBaseline sampleCandidates none (some 5) = .ok result ∧
      result.selected.candidate ∈ sampleCandidates.filter (isFeasible none (some 5)) := by
  have isOk : (selectCalibratedBaseline sampleCandidates none (some 5)).isOk = true := by decide +kernel
  cases selected : selectCalibratedBaseline sampleCandidates none (some 5) with
  | error e => simp [selected, Except.isOk, Except.toBool] at isOk
  | ok result =>
      exact ⟨result, rfl, ((calibration_selects (List.cons_ne_nil _ _) none (some 5)).2 result selected).1⟩

/-- The first candidate is selected, which the second one dominates; and of two that differ in the
scale of their weights the first is selected, whichever it is. -/
theorem dominated_candidate_selected :
    (∃ result, selectCalibratedBaseline sampleCandidates none none = .ok result ∧
      ∃ other ∈ sampleCandidates, Dominates other result.selected.candidate) ∧
    ((selectCalibratedBaseline [sampleCandidate (timeWeights 1 one_pos) 0 0,
        sampleCandidate (timeWeights 2 two_pos) 0 0] none none).toOption.map
          (·.selected.candidate.weights.time) = some 1 ∧
      (selectCalibratedBaseline [sampleCandidate (timeWeights 2 two_pos) 0 0,
        sampleCandidate (timeWeights 1 one_pos) 0 0] none none).toOption.map
          (·.selected.candidate.weights.time) = some 2) := by
  refine ⟨?_, by decide +kernel, by decide +kernel⟩
  have dominated : (selectCalibratedBaseline sampleCandidates none none).toOption.map (fun result =>
      decide (Dominates (sampleCandidate carbonWeights 0 5) result.selected.candidate)) =
        some true := by decide +kernel
  cases selected : selectCalibratedBaseline sampleCandidates none none with
  | error e => simp [selected, Except.toOption] at dominated
  | ok result =>
      rw [selected] at dominated
      exact ⟨result, rfl, sampleCandidate carbonWeights 0 5, by simp [sampleCandidates],
        of_decide_eq_true (Option.some.inj dominated)⟩

end Magellan.Planning
