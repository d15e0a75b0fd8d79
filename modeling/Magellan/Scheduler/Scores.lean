import Magellan.Data.Fallible
import Magellan.Policy.Adaptive

/-!
# Laws of the scores

An action is scored by three weights and a normalization of each metric. Scores are between zero and
one, follow the order of the metrics, and do not depend on the scale of a metric.
-/

namespace Magellan.Planning

def RawActionEstimate.metric (estimate : RawActionEstimate) : Metric → Rat
  | .time => estimate.timeSeconds
  | .carbon => estimate.carbonGrams
  | .cost => estimate.costUsd

/-- The estimate is one that its model admits. -/
def RawActionEstimate.Valid (estimate : RawActionEstimate) : Prop := ∀ m, 0 ≤ estimate.metric m

/-! ## Normalizations -/

/-- What `minmaxNormalize` does to each of the values. -/
def minmax (values : List Rat) (value : Rat) : Rat :=
  if maximum values = minimum values then 0 else position (minimum values) (maximum values) value

/-- What `normalizeWithBounds` does to each of the values. -/
def withinBounds (least greatest value : Rat) : Rat :=
  if greatest ≤ least then 0 else max 0 (min 1 (position least greatest value))

theorem minmaxNormalize_eq (values : List Rat) : minmaxNormalize values = values.map (minmax values) := by
  unfold minmaxNormalize minmax
  split_ifs <;> rfl

theorem normalizeWithBounds_eq (values : List Rat) (least greatest : Rat) :
    normalizeWithBounds values least greatest = values.map (withinBounds least greatest) := by
  unfold normalizeWithBounds withinBounds
  split_ifs <;> rfl

section Position

variable {least greatest value value' : Rat}

theorem position_mono (range : least ≤ greatest) (le : value ≤ value') :
    position least greatest value ≤ position least greatest value' :=
  div_le_div_of_nonneg_right (sub_le_sub_right le least) (sub_nonneg.mpr range)

theorem position_lt (range : least < greatest) (lt : value < value') :
    position least greatest value < position least greatest value' :=
  div_lt_div_of_pos_right (sub_lt_sub_right lt least) (sub_pos.mpr range)

theorem position_range (above : least ≤ value) (below : value ≤ greatest) :
    0 ≤ position least greatest value ∧ position least greatest value ≤ 1 := by
  have span : 0 ≤ greatest - least := sub_nonneg.mpr (above.trans below)
  exact ⟨div_nonneg (sub_nonneg.mpr above) span,
    div_le_one_of_le₀ (sub_le_sub_right below least) span⟩

theorem withinBounds_of_between (above : least ≤ value) (below : value ≤ greatest) :
    withinBounds least greatest value =
      if greatest ≤ least then 0 else position least greatest value := by
  obtain ⟨nonneg, le_one⟩ := position_range above below
  unfold withinBounds
  rw [min_eq_right le_one, max_eq_right nonneg]

theorem withinBounds_mono (le : value ≤ value') :
    withinBounds least greatest value ≤ withinBounds least greatest value' := by
  unfold withinBounds
  split_ifs with degenerate
  · exact le_rfl
  · exact clamp_mono (position_mono (not_le.mp degenerate).le le)

theorem withinBounds_range :
    0 ≤ withinBounds least greatest value ∧ withinBounds least greatest value ≤ 1 := by
  unfold withinBounds
  split_ifs
  · exact ⟨le_rfl, zero_le_one⟩
  · exact clamp_range zero_le_one

theorem minmax_eq_withinBounds {values : List Rat} (member : value ∈ values) :
    minmax values value = withinBounds (minimum values) (maximum values) value := by
  have above := minimum_le member
  have below := le_maximum member
  rw [withinBounds_of_between above below]
  unfold minmax
  split_ifs with same degenerate degenerate
  · rfl
  · exact absurd same.le degenerate
  · exact absurd (degenerate.antisymm (above.trans below)) same
  · rfl

theorem minmax_range {values : List Rat} (member : value ∈ values) :
    0 ≤ minmax values value ∧ minmax values value ≤ 1 := by
  rw [minmax_eq_withinBounds member]
  exact withinBounds_range

end Position

/-! ## Scorers -/

/-- A weight and bounds for each metric. -/
structure Scorer where
  weight : Metric → Rat
  least : Metric → Rat
  greatest : Metric → Rat

/-- What actions are scored with, without and with an adaptive context. -/
def scorer (estimates : List RawActionEstimate) (policy : ScoringPolicy) :
    Option AdaptiveDecisionContext → Scorer
  | none =>
    { weight
        | .time => policy.weights.normalized.1
        | .carbon => policy.weights.normalized.2.1
        | .cost => policy.weights.normalized.2.2
      least m := minimum (estimates.map (·.metric m))
      greatest m := maximum (estimates.map (·.metric m)) }
  | some context =>
    { weight := context.effectiveWeights.weight
      least := context.normalizationBounds.least
      greatest := context.normalizationBounds.greatest }

namespace Scorer

variable (s : Scorer)

def normalized (estimate : RawActionEstimate) (m : Metric) : Rat :=
  withinBounds (s.least m) (s.greatest m) (estimate.metric m)

def score (estimate : RawActionEstimate) : Rat :=
  s.weight .time * s.normalized estimate .time + s.weight .carbon * s.normalized estimate .carbon +
    s.weight .cost * s.normalized estimate .cost

def scored (estimate : RawActionEstimate) : ScoredAction where
  toRawActionEstimate := estimate
  normalizedTime := s.normalized estimate .time
  normalizedCarbon := s.normalized estimate .carbon
  normalizedCost := s.normalized estimate .cost
  score := s.score estimate

structure Convex : Prop where
  nonneg : ∀ m, 0 ≤ s.weight m
  total : s.weight .time + s.weight .carbon + s.weight .cost = 1

/-- The bounds contain the estimates. -/
def Covers (estimates : List RawActionEstimate) : Prop :=
  ∀ estimate ∈ estimates, ∀ m, s.least m ≤ estimate.metric m ∧ estimate.metric m ≤ s.greatest m

variable {s} {estimate estimate' : RawActionEstimate}

theorem score_nonneg (nonneg : ∀ m, 0 ≤ s.weight m) : 0 ≤ s.score estimate := by
  have part (m : Metric) : 0 ≤ s.weight m * s.normalized estimate m :=
    mul_nonneg (nonneg m) withinBounds_range.1
  exact add_nonneg (add_nonneg (part .time) (part .carbon)) (part .cost)

theorem score_le_one (convex : s.Convex) : s.score estimate ≤ 1 := by
  have part (m : Metric) : s.weight m * s.normalized estimate m ≤ s.weight m :=
    mul_le_of_le_one_right (convex.nonneg m) withinBounds_range.2
  rw [← convex.total]
  exact add_le_add (add_le_add (part .time) (part .carbon)) (part .cost)

theorem score_mono (nonneg : ∀ m, 0 ≤ s.weight m) (le : ∀ m, estimate.metric m ≤ estimate'.metric m) :
    s.score estimate ≤ s.score estimate' := by
  have part (m : Metric) : s.weight m * s.normalized estimate m ≤
      s.weight m * s.normalized estimate' m :=
    mul_le_mul_of_nonneg_left (withinBounds_mono (le m)) (nonneg m)
  exact add_le_add (add_le_add (part .time) (part .carbon)) (part .cost)

/-- Within the bounds, a better value of every metric is a better score. -/
theorem score_lt (convex : s.Convex) {estimates : List RawActionEstimate} (covers : s.Covers estimates)
    (member : estimate ∈ estimates) (member' : estimate' ∈ estimates)
    (lt : ∀ m, estimate.metric m < estimate'.metric m) : s.score estimate < s.score estimate' := by
  have better (m : Metric) : s.normalized estimate m < s.normalized estimate' m := by
    have inside := covers estimate member m
    have inside' := covers estimate' member' m
    have range : s.least m < s.greatest m := inside.1.trans_lt ((lt m).trans_le inside'.2)
    unfold normalized
    rw [withinBounds_of_between inside.1 inside.2, withinBounds_of_between inside'.1 inside'.2,
      if_neg (not_le.mpr range), if_neg (not_le.mpr range)]
    exact position_lt range (lt m)
  have part (m : Metric) : 0 ≤ s.weight m * (s.normalized estimate' m - s.normalized estimate m) :=
    mul_nonneg (convex.nonneg m) (sub_pos.mpr (better m)).le
  have strict (m : Metric) (positive : 0 < s.weight m) :
      0 < s.weight m * (s.normalized estimate' m - s.normalized estimate m) :=
    mul_pos positive (sub_pos.mpr (better m))
  have total := convex.total
  rw [← sub_pos]
  have split : s.score estimate' - s.score estimate =
      s.weight .time * (s.normalized estimate' .time - s.normalized estimate .time) +
        s.weight .carbon * (s.normalized estimate' .carbon - s.normalized estimate .carbon) +
        s.weight .cost * (s.normalized estimate' .cost - s.normalized estimate .cost) := by
    unfold score
    ring
  rw [split]
  -- Some weight is positive.
  rcases (convex.nonneg .time).lt_or_eq with time | noTime
  · exact add_pos_of_pos_of_nonneg (add_pos_of_pos_of_nonneg (strict _ time) (part _)) (part _)
  · rcases (convex.nonneg .carbon).lt_or_eq with carbon | noCarbon
    · exact add_pos_of_pos_of_nonneg (add_pos_of_nonneg_of_pos (part _) (strict _ carbon)) (part _)
    · refine add_pos_of_nonneg_of_pos (add_nonneg (part _) (part _)) (strict _ ?_)
      linarith

end Scorer

/-! ## The scores of a list -/

section ScoreActions

variable {estimates : List RawActionEstimate} {policy : ScoringPolicy}
  {context : Option AdaptiveDecisionContext}

theorem scorer_weight_nonneg (m : Metric) : 0 ≤ (scorer estimates policy context).weight m := by
  cases context with
  | none =>
      obtain ⟨time, carbon, cost⟩ := policy.weights.normalized_nonneg
      cases m <;> assumption
  | some context => exact context.effectiveWeights.weight_nonneg m

theorem validated_scored {s : Scorer} (nonneg : ∀ m, 0 ≤ s.weight m) {estimate : RawActionEstimate}
    (valid : estimate.Valid) : (s.scored estimate).validated = .ok (s.scored estimate) := by
  have range (m : Metric) : 0 ≤ s.normalized estimate m ∧ s.normalized estimate m ≤ 1 :=
    withinBounds_range
  unfold ScoredAction.validated
  rw [requireNonneg_ok]
  · rfl
  · intro field member
    simp only [List.mem_cons, List.not_mem_nil, or_false] at member
    rcases member with rfl | rfl | rfl | rfl | rfl | rfl | rfl | rfl | rfl | rfl
    · exact valid .time
    · exact valid .carbon
    · exact valid .cost
    · exact (range .time).1
    · exact sub_nonneg.mpr (range .time).2
    · exact (range .carbon).1
    · exact sub_nonneg.mpr (range .carbon).2
    · exact (range .cost).1
    · exact sub_nonneg.mpr (range .cost).2
    · exact Scorer.score_nonneg nonneg

theorem eq_of_validated {scored result : ScoredAction} (h : scored.validated = .ok result) :
    result = scored := by
  unfold ScoredAction.validated at h
  cases checked : requireNonneg "ScoredAction" _ with
  | error e =>
      rw [checked] at h
      cases h
  | ok u =>
      rw [checked] at h
      cases h
      rfl

theorem normalizeMetrics_eq :
    normalizeMetrics estimates policy context =
      let s := scorer estimates policy context
      { times := estimates.map (s.normalized · .time)
        carbons := estimates.map (s.normalized · .carbon)
        costs := estimates.map (s.normalized · .cost)
        alpha := s.weight .time
        beta := s.weight .carbon
        gamma := s.weight .cost } := by
  cases context with
  | none =>
      have column (m : Metric) : minmaxNormalize (estimates.map (·.metric m)) =
          estimates.map ((scorer estimates policy none).normalized · m) := by
        rw [minmaxNormalize_eq, List.map_map]
        apply List.map_congr_left
        intro estimate member
        exact minmax_eq_withinBounds (List.mem_map_of_mem member)
      have times := column .time
      have carbons := column .carbon
      have costs := column .cost
      simp only [RawActionEstimate.metric] at times carbons costs
      simp only [normalizeMetrics, times, carbons, costs]
      rfl
  | some context =>
      simp only [normalizeMetrics, normalizeWithBounds_eq, List.map_map]
      rfl

theorem scoreEach_ok {s : Scorer} {scored : List ScoredAction}
    (h : scoreEach (s.weight .time) (s.weight .carbon) (s.weight .cost) estimates
      (estimates.map (s.normalized · .time)) (estimates.map (s.normalized · .carbon))
      (estimates.map (s.normalized · .cost)) = .ok scored) : scored = estimates.map s.scored := by
  induction estimates generalizing scored with
  | nil =>
      cases h
      rfl
  | cons estimate estimates ih =>
      simp only [List.map_cons, scoreEach] at h
      obtain ⟨first, validated, h⟩ := Except.bind_eq_ok.mp h
      obtain ⟨others, rest, h⟩ := Except.bind_eq_ok.mp h
      cases h
      rw [List.map_cons, eq_of_validated validated, ih rest]
      rfl

theorem scoreEach_of_valid {s : Scorer} (nonneg : ∀ m, 0 ≤ s.weight m)
    (valid : ∀ estimate ∈ estimates, estimate.Valid) :
    scoreEach (s.weight .time) (s.weight .carbon) (s.weight .cost) estimates
      (estimates.map (s.normalized · .time)) (estimates.map (s.normalized · .carbon))
      (estimates.map (s.normalized · .cost)) = .ok (estimates.map s.scored) := by
  induction estimates with
  | nil => rfl
  | cons estimate estimates ih =>
      have first := validated_scored nonneg (valid estimate List.mem_cons_self)
      have rest := ih fun other member => valid other (List.mem_cons_of_mem _ member)
      simp only [List.map_cons, scoreEach, rest]
      change (do
        let scored ← (s.scored estimate).validated
        return scored :: estimates.map s.scored) = _
      rw [first]
      rfl

theorem scoreActions_ok {ranked : List ScoredAction}
    (h : scoreActions estimates policy context = .ok ranked) :
    estimates ≠ [] ∧
      ranked = rankBy (·.score) (estimates.map (scorer estimates policy context).scored) := by
  unfold scoreActions at h
  split_ifs at h with empty
  rw [normalizeMetrics_eq] at h
  obtain ⟨scored, each, h⟩ := Except.bind_eq_ok.mp h
  cases h
  exact ⟨empty, by rw [scoreEach_ok each]⟩

theorem scoreActions_of_valid (nonempty : estimates ≠ [])
    (valid : ∀ estimate ∈ estimates, estimate.Valid) :
    scoreActions estimates policy context =
      .ok (rankBy (·.score) (estimates.map (scorer estimates policy context).scored)) := by
  unfold scoreActions
  rw [if_neg nonempty, normalizeMetrics_eq]
  simp only [scoreEach_of_valid scorer_weight_nonneg valid]
  rfl

end ScoreActions

/-! ## What the scores say -/

/-- The ranking of a list of actions: all of them, with scores between zero and one that follow the
order of the metrics, and first an action that no other beats in every metric. -/
structure FairScores (estimates : List RawActionEstimate) (ranked : List ScoredAction) : Prop where
  actions : (ranked.map (·.toRawActionEstimate)).Perm estimates
  range : ∀ a ∈ ranked, 0 ≤ a.score ∧ a.score ≤ 1
  monotone : ∀ a ∈ ranked, ∀ b ∈ ranked, (∀ m, a.metric m ≤ b.metric m) → a.score ≤ b.score
  winner : ∀ w ∈ ranked.head?, ∀ a ∈ ranked, ¬ ∀ m, a.metric m < w.metric m

theorem Scorer.Convex.fair {s : Scorer} (convex : s.Convex) {estimates : List RawActionEstimate}
    (covers : s.Covers estimates) :
    FairScores estimates (rankBy (·.score) (estimates.map s.scored)) := by
  have origin : ∀ a ∈ rankBy (·.score) (estimates.map s.scored),
      ∃ estimate ∈ estimates, s.scored estimate = a := by
    intro a member
    exact List.mem_map.mp (RankBy.mem_iff.mp member)
  refine ⟨?_, ?_, ?_, ?_⟩
  · have all : (rankBy (·.score) (estimates.map s.scored)).Perm (estimates.map s.scored) := RankBy.perm
    have raw : (estimates.map s.scored).map (·.toRawActionEstimate) = estimates := by
      rw [List.map_map]
      exact List.map_id estimates
    rw [← raw]
    convert all.map (·.toRawActionEstimate)
  · intro a member
    obtain ⟨estimate, -, rfl⟩ := origin a member
    exact ⟨score_nonneg convex.nonneg, score_le_one convex⟩
  · intro a member b member' le
    obtain ⟨estimate, -, rfl⟩ := origin a member
    obtain ⟨estimate', -, rfl⟩ := origin b member'
    exact score_mono convex.nonneg le
  · intro w first a member better
    obtain ⟨estimate, inside, rfl⟩ := origin a member
    obtain ⟨estimate', inside', rfl⟩ := origin w (List.mem_of_mem_head? first)
    have least := RankBy.first_le first _ (List.mem_map_of_mem inside)
    exact absurd least (not_le.mpr (score_lt convex covers inside inside' better))

theorem ObjectiveWeights.normalized_total (weights : ObjectiveWeights) :
    weights.normalized.1 + weights.normalized.2.1 + weights.normalized.2.2 = 1 := by
  simp only [ObjectiveWeights.normalized]
  rw [← add_div, ← add_div]
  exact div_self weights.total_pos.ne'

theorem scorer_none_convex (estimates : List RawActionEstimate) (policy : ScoringPolicy) :
    (scorer estimates policy none).Convex :=
  ⟨scorer_weight_nonneg, policy.weights.normalized_total⟩

theorem scorer_none_covers (estimates : List RawActionEstimate) (policy : ScoringPolicy) :
    (scorer estimates policy none).Covers estimates := by
  intro estimate member m
  have value : estimate.metric m ∈ estimates.map (·.metric m) := List.mem_map_of_mem member
  exact ⟨minimum_le value, le_maximum value⟩

/-! ## Scales -/

def RawActionEstimate.rescale (target : Metric) (factor shift : Rat) (estimate : RawActionEstimate) :
    RawActionEstimate :=
  match target with
  | .time => { estimate with timeSeconds := factor * estimate.timeSeconds + shift }
  | .carbon => { estimate with carbonGrams := factor * estimate.carbonGrams + shift }
  | .cost => { estimate with costUsd := factor * estimate.costUsd + shift }

def ScoredAction.rescale (target : Metric) (factor shift : Rat) (scored : ScoredAction) : ScoredAction :=
  { scored with toRawActionEstimate := scored.toRawActionEstimate.rescale target factor shift }

section Rescale

variable {target : Metric} {factor shift : Rat}

theorem metric_rescale (estimate : RawActionEstimate) (m : Metric) :
    (estimate.rescale target factor shift).metric m =
      if m = target then factor * estimate.metric m + shift else estimate.metric m := by
  cases target <;> cases m <;> rfl

theorem affine_le_iff (positive : 0 < factor) {value value' : Rat} :
    factor * value + shift ≤ factor * value' + shift ↔ value ≤ value' := by
  rw [add_le_add_iff_right, mul_le_mul_iff_right₀ positive]

theorem minimum_affine (positive : 0 < factor) {values : List Rat} (nonempty : values ≠ []) :
    minimum (values.map fun value => factor * value + shift) = factor * minimum values + shift := by
  rw [minimum_eq_iff (by simpa using nonempty)]
  refine ⟨List.mem_map_of_mem (minimum_mem nonempty), fun value' member => ?_⟩
  obtain ⟨value, inside, rfl⟩ := List.mem_map.mp member
  exact (affine_le_iff positive).mpr (minimum_le inside)

theorem maximum_affine (positive : 0 < factor) {values : List Rat} (nonempty : values ≠ []) :
    maximum (values.map fun value => factor * value + shift) = factor * maximum values + shift := by
  rw [maximum_eq_iff (by simpa using nonempty)]
  refine ⟨List.mem_map_of_mem (maximum_mem nonempty), fun value' member => ?_⟩
  obtain ⟨value, inside, rfl⟩ := List.mem_map.mp member
  exact (affine_le_iff positive).mpr (le_maximum inside)

theorem withinBounds_affine (positive : 0 < factor) (least greatest value : Rat) :
    withinBounds (factor * least + shift) (factor * greatest + shift) (factor * value + shift) =
      withinBounds least greatest value := by
  have same : position (factor * least + shift) (factor * greatest + shift) (factor * value + shift) =
      position least greatest value := by
    unfold position
    rw [add_sub_add_right_eq_sub, add_sub_add_right_eq_sub, ← mul_sub, ← mul_sub,
      mul_div_mul_left _ _ positive.ne']
  unfold withinBounds
  rw [same]
  simp only [affine_le_iff positive]

theorem normalized_rescale (positive : 0 < factor) {estimates : List RawActionEstimate}
    (nonempty : estimates ≠ []) (policy : ScoringPolicy) (estimate : RawActionEstimate) (m : Metric) :
    (scorer (estimates.map (·.rescale target factor shift)) policy none).normalized
        (estimate.rescale target factor shift) m =
      (scorer estimates policy none).normalized estimate m := by
  have some : estimates.map (·.metric m) ≠ [] := by simpa using nonempty
  simp only [Scorer.normalized, scorer, List.map_map, Function.comp_def, metric_rescale]
  by_cases same : m = target
  · simp only [if_pos same]
    have values : estimates.map (fun e => factor * e.metric m + shift) =
        (estimates.map (·.metric m)).map fun value => factor * value + shift := by
      rw [List.map_map]
      rfl
    rw [values, minimum_affine positive some, maximum_affine positive some,
      withinBounds_affine positive]
  · simp only [if_neg same]

theorem scored_rescale (positive : 0 < factor) {estimates : List RawActionEstimate}
    (nonempty : estimates ≠ []) (policy : ScoringPolicy) (estimate : RawActionEstimate) :
    (scorer (estimates.map (·.rescale target factor shift)) policy none).scored
        (estimate.rescale target factor shift) =
      ((scorer estimates policy none).scored estimate).rescale target factor shift := by
  have same (m : Metric) :
      (scorer (estimates.map (·.rescale target factor shift)) policy none).normalized
          (estimate.rescale target factor shift) m =
        (scorer estimates policy none).normalized estimate m :=
    normalized_rescale positive nonempty policy estimate m
  simp only [Scorer.scored, ScoredAction.rescale, Scorer.score, same]
  rfl

end Rescale

/-! ## Rolling bounds -/

theorem mem_lastItems_append {α : Type} (items : List α) (item : α) {limit : Nat} (positive : 0 < limit) :
    item ∈ lastItems (items ++ [item]) limit := by
  unfold lastItems
  rw [List.length_append, List.length_singleton, List.drop_append_of_le_length (by omega)]
  exact List.mem_append_right _ List.mem_cons_self

section Rolling

variable {metric : RollingMetricState} {limit : Nat} {measurements : List Rat} {observedAt : Instant}

theorem RollingMetricState.bounds_nonneg (metric : RollingMetricState) (nonempty : metric ≠ []) :
    0 ≤ metric.bounds.1 ∧ 0 ≤ metric.bounds.2 := by
  have least : metric.map (·.minimum) ≠ [] := by simpa using nonempty
  have greatest : metric.map (·.maximum) ≠ [] := by simpa using nonempty
  obtain ⟨sample, -, minimum_eq⟩ := List.mem_map.mp (minimum_mem least)
  obtain ⟨sample', -, maximum_eq⟩ := List.mem_map.mp (maximum_mem greatest)
  constructor
  · show 0 ≤ minimum (metric.map (·.minimum))
    rw [← minimum_eq]
    exact sample.minimum_nonneg
  · show 0 ≤ maximum (metric.map (·.maximum))
    rw [← maximum_eq]
    exact sample'.minimum_nonneg.trans sample'.minimum_le

theorem RollingMetricState.append_of_nonneg (metric : RollingMetricState) (positive : 0 < limit)
    (nonempty : measurements ≠ []) (nonneg : ∀ value ∈ measurements, 0 ≤ value)
    (observedAt : Instant) :
    ∃ metric', metric.append limit measurements observedAt = .ok metric' ∧ metric' ≠ [] ∧
      ∀ value ∈ measurements, metric'.bounds.1 ≤ value ∧ value ≤ metric'.bounds.2 := by
  have least := nonneg _ (minimum_mem nonempty)
  have ordered : minimum measurements ≤ maximum measurements := minimum_le (maximum_mem nonempty)
  have kept := mem_lastItems_append metric
    ⟨minimum measurements, maximum measurements, observedAt, least, ordered⟩ positive
  refine ⟨_, ?_, List.ne_nil_of_mem kept, fun value member => ⟨?_, ?_⟩⟩
  · rw [append, if_neg nonempty, MetricRangeSample.validated, dif_pos least, dif_pos ordered]
    rfl
  · exact (minimum_le (List.mem_map_of_mem kept)).trans (minimum_le member)
  · exact (le_maximum member).trans (le_maximum (List.mem_map_of_mem kept))

end Rolling

/-- The bounds of the window contain the estimates. -/
def NormalizationBounds.Contain (bounds : NormalizationBounds) (estimates : List RawActionEstimate) :
    Prop :=
  ∀ estimate ∈ estimates, ∀ m, bounds.least m ≤ estimate.metric m ∧ estimate.metric m ≤ bounds.greatest m

theorem appendRanges_of_valid (service : AdaptivePolicyService)
    (normalization : RollingNormalizationState) {estimates : List RawActionEstimate}
    (nonempty : estimates ≠ []) (valid : ∀ estimate ∈ estimates, estimate.Valid)
    (observedAt : Instant) :
    ∃ normalization' bounds,
      service.appendRanges normalization estimates observedAt = .ok (normalization', bounds) ∧
        bounds.Contain estimates := by
  have positive := service.policy.rollingWindow_pos
  have window (history : RollingMetricState) (m : Metric) :
      ∃ history', history.append service.policy.rollingWindowEpochs (estimates.map (·.metric m))
          observedAt = .ok history' ∧ history' ≠ [] ∧
        ∀ value ∈ estimates.map (·.metric m),
          history'.bounds.1 ≤ value ∧ value ≤ history'.bounds.2 := by
    apply RollingMetricState.append_of_nonneg history positive (by simpa using nonempty)
    intro value member
    obtain ⟨estimate, inside, rfl⟩ := List.mem_map.mp member
    exact valid estimate inside m
  obtain ⟨time, timeAppended, someTime, timeWithin⟩ := window normalization.time .time
  obtain ⟨carbon, carbonAppended, someCarbon, carbonWithin⟩ := window normalization.carbon .carbon
  obtain ⟨cost, costAppended, someCost, costWithin⟩ := window normalization.cost .cost
  simp only [RawActionEstimate.metric] at timeAppended carbonAppended costAppended
  refine ⟨⟨time, carbon, cost⟩, ⟨time.bounds.1, time.bounds.2, carbon.bounds.1, carbon.bounds.2,
    cost.bounds.1, cost.bounds.2⟩, ?_, ?_⟩
  · simp only [AdaptivePolicyService.appendRanges, timeAppended, carbonAppended, costAppended,
      Except.ok_bind, NormalizationBounds.validated]
    rw [requireNonneg_ok]
    · rfl
    · intro field member
      have times := time.bounds_nonneg someTime
      have carbons := carbon.bounds_nonneg someCarbon
      have costs := cost.bounds_nonneg someCost
      simp only [List.mem_cons, List.not_mem_nil, or_false] at member
      rcases member with rfl | rfl | rfl | rfl | rfl | rfl
      · exact times.1
      · exact times.2
      · exact carbons.1
      · exact carbons.2
      · exact costs.1
      · exact costs.2
  · intro estimate member m
    have value : estimate.metric m ∈ estimates.map (·.metric m) := List.mem_map_of_mem member
    cases m with
    | time => exact timeWithin _ value
    | carbon => exact carbonWithin _ value
    | cost => exact costWithin _ value

/-- Scores are fair on both paths. Without a context they do not depend on the scale of a metric; with
one, the bounds of its window contain the estimates, whatever the earlier evaluations were. -/
theorem scores_fair (policy : ScoringPolicy) {estimates : List RawActionEstimate}
    (nonempty : estimates ≠ []) (valid : ∀ estimate ∈ estimates, estimate.Valid) :
    (∃ ranked, scoreActions estimates policy none = .ok ranked ∧ FairScores estimates ranked) ∧
      (∀ (target : Metric) (factor shift : Rat), 0 < factor →
        (∀ estimate ∈ estimates, (estimate.rescale target factor shift).Valid) →
          scoreActions (estimates.map (·.rescale target factor shift)) policy none =
            (scoreActions estimates policy none).map (·.map (·.rescale target factor shift))) ∧
      ∀ (service : AdaptivePolicyService) (normalization : RollingNormalizationState)
        (observedAt : Instant), ∃ normalization' bounds,
          service.appendRanges normalization estimates observedAt = .ok (normalization', bounds) ∧
            bounds.Contain estimates ∧
            (∀ m, normalizeWithBounds (estimates.map (·.metric m)) (bounds.least m) (bounds.greatest m) =
              if bounds.greatest m ≤ bounds.least m then estimates.map fun _ => 0
              else (estimates.map (·.metric m)).map (position (bounds.least m) (bounds.greatest m))) ∧
            ∀ context : AdaptiveDecisionContext, context.normalizationBounds = bounds →
              context.effectiveWeights.total = 1 →
                ∃ ranked, scoreActions estimates policy (some context) = .ok ranked ∧
                  FairScores estimates ranked := by
  refine ⟨⟨_, scoreActions_of_valid nonempty valid,
    (scorer_none_convex estimates policy).fair (scorer_none_covers estimates policy)⟩, ?_, ?_⟩
  · intro target factor shift positive valid'
    have rescaled : ∀ estimate ∈ estimates.map (·.rescale target factor shift), estimate.Valid :=
      List.forall_mem_map.mpr valid'
    rw [scoreActions_of_valid (by simpa using nonempty) rescaled, scoreActions_of_valid nonempty valid,
      Except.map, ← RankBy.map]
    · congr 1
      rw [List.map_map, List.map_map]
      congr 1
      apply List.map_congr_left
      intro estimate _
      exact scored_rescale positive nonempty policy estimate
    · intro a _
      rfl
  · intro service normalization observedAt
    obtain ⟨normalization', bounds, appended, contain⟩ :=
      appendRanges_of_valid service normalization nonempty valid observedAt
    refine ⟨normalization', bounds, appended, contain, ?_, ?_⟩
    · intro m
      rw [normalizeWithBounds_eq, List.map_map]
      split_ifs with degenerate
      · apply List.map_congr_left
        intro estimate _
        exact if_pos degenerate
      · rw [List.map_map]
        apply List.map_congr_left
        intro estimate member
        obtain ⟨above, below⟩ := contain estimate member m
        rw [Function.comp_apply, Function.comp_apply, withinBounds_of_between above below,
          if_neg degenerate]
    · rintro context rfl total
      have convex : (scorer estimates policy (some context)).Convex := ⟨scorer_weight_nonneg, total⟩
      exact ⟨_, scoreActions_of_valid nonempty valid, convex.fair contain⟩

def samplePolicy : ScoringPolicy where
  horizonSeconds := 900
  horizon_pos := epoch_pos
  weights := {
    time := 1, carbon := 2, cost := 1
    time_nonneg := one_nonneg
    carbon_nonneg := two_nonneg
    cost_nonneg := one_nonneg }
  pause := {
    pauseSeconds := 0, idleSeconds := 600, resumeSeconds := 0, maxPauseWindowSeconds := 3600
    pause_nonneg := zero_nonneg
    resume_nonneg := zero_nonneg
    minPauseGap_nonneg := zero_nonneg
    candidates_range := idle_range }
  migration := {
    minMigrationGapSeconds := 900, requiredImprovementFraction := 1 / 10
    networkEnergyBase_nonneg := zero_nonneg
    requiredImprovement_range := tenth_fraction
    networkEnergyKm_nonneg := zero_nonneg }

def sampleEstimate (action : ActionType) (timeSeconds carbonGrams costUsd : Rat) : RawActionEstimate where
  action
  sourceNodeId := "boston"
  timeSeconds
  carbonGrams
  costUsd
  carbonConfidence := 0

theorem scores_fair_sample :
    ∃ ranked, scoreActions [sampleEstimate .continue_ 900 100 1, sampleEstimate .pause 1500 60 1]
        samplePolicy none = .ok ranked ∧
      ranked.map (·.score) = [1 / 4, 1 / 2] ∧
      FairScores [sampleEstimate .continue_ 900 100 1, sampleEstimate .pause 1500 60 1] ranked := by
  have valid : ∀ estimate ∈ [sampleEstimate .continue_ 900 100 1, sampleEstimate .pause 1500 60 1],
      estimate.Valid := by
    intro estimate member m
    simp only [List.mem_cons, List.not_mem_nil, or_false] at member
    rcases member with rfl | rfl <;> cases m <;> decide +kernel
  obtain ⟨ranked, ok, fair⟩ := (scores_fair samplePolicy (List.cons_ne_nil _ _) valid).1
  have scores : (scoreActions [sampleEstimate .continue_ 900 100 1, sampleEstimate .pause 1500 60 1]
      samplePolicy none).toOption.map (·.map (·.score)) = some [1 / 4, 1 / 2] := by decide +kernel
  rw [ok] at scores
  exact ⟨ranked, ok, Option.some.inj scores, fair⟩

end Magellan.Planning
