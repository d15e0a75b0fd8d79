import Magellan.Experiments.Baselines
import Magellan.Experiments.Conservation
import Magellan.Experiments.Optimality

/-!
# The best static placement in its report

It is chosen by its place between the least and the greatest outcome of the nodes, and reported by
its share of the greatest outcome of the report. The two orders are not the same, but close where the
nodes' spreads are the same share of what is reported.
-/

namespace Magellan.Planning

/-! ## Two normalizations -/

def spread (values : List Rat) : Rat := maximum values - minimum values

theorem spread_nonneg (values : List Rat) : 0 ≤ spread values := by
  cases values with
  | nil => exact (sub_self (0 : Rat)).symm.le
  | cons value rest =>
      have member : value ∈ value :: rest := List.mem_cons_self
      exact sub_nonneg.mpr ((minimum_le member).trans (le_maximum member))

theorem minmax_sub_range {values : List Rat} {value value' : Rat} (member : value ∈ values)
    (member' : value' ∈ values) : |minmax values value - minmax values value'| ≤ 1 := by
  have range := minmax_range member
  have range' := minmax_range member'
  rw [abs_le]
  constructor <;> linarith

theorem minmax_sub_mul_spread {values : List Rat} {value value' : Rat} (member : value ∈ values)
    (member' : value' ∈ values) :
    (minmax values value - minmax values value') * spread values = value - value' := by
  unfold minmax spread position
  split_ifs with same
  · have above := minimum_le member
    have below := le_maximum member
    have above' := minimum_le member'
    have below' := le_maximum member'
    linarith
  · have apart : maximum values - minimum values ≠ 0 := sub_ne_zero.mpr same
    rw [div_sub_div_same, div_mul_cancel₀ _ apart]
    ring

/-- A sum that is not positive is not very positive when its terms are scaled. -/
theorem scaled_le {beta gamma x y u v : Rat} (beta_nonneg : 0 ≤ beta) (gamma_nonneg : 0 ≤ gamma)
    (u_nonneg : 0 ≤ u) (v_nonneg : 0 ≤ v) (x_range : |x| ≤ 1) (y_range : |y| ≤ 1)
    (sum : beta * x + gamma * y ≤ 0) :
    beta * (x * u) + gamma * (y * v) ≤ min beta gamma * |u - v| := by
  have bound {z w : Rat} (range : |z| ≤ 1) : z * w ≤ |w| := by
    calc z * w ≤ |z * w| := le_abs_self _
      _ = |z| * |w| := abs_mul z w
      _ ≤ |w| := mul_le_of_le_one_left (abs_nonneg w) range
  rw [min_mul_of_nonneg _ _ (abs_nonneg _)]
  apply le_min
  · calc beta * (x * u) + gamma * (y * v)
        = v * (beta * x + gamma * y) + beta * (x * (u - v)) := by ring
      _ ≤ 0 + beta * |u - v| :=
          add_le_add (mul_nonpos_of_nonneg_of_nonpos v_nonneg sum)
            (mul_le_mul_of_nonneg_left (bound x_range) beta_nonneg)
      _ = beta * |u - v| := zero_add _
  · calc beta * (x * u) + gamma * (y * v)
        = u * (beta * x + gamma * y) + gamma * (y * (v - u)) := by ring
      _ ≤ 0 + gamma * |v - u| :=
          add_le_add (mul_nonpos_of_nonneg_of_nonpos u_nonneg sum)
            (mul_le_mul_of_nonneg_left (bound y_range) gamma_nonneg)
      _ = gamma * |u - v| := by rw [zero_add, abs_sub_comm]

theorem scaled_nonpos {beta gamma x y u v : Rat} (beta_nonneg : 0 ≤ beta) (gamma_nonneg : 0 ≤ gamma)
    (u_nonneg : 0 ≤ u) (v_nonneg : 0 ≤ v) (sum : beta * x + gamma * y ≤ 0)
    (agree : x ≤ 0 ∧ y ≤ 0 ∨ 0 ≤ x ∧ 0 ≤ y) : beta * (x * u) + gamma * (y * v) ≤ 0 := by
  rcases agree with ⟨x_nonpos, y_nonpos⟩ | ⟨x_nonneg, y_nonneg⟩
  · exact add_nonpos
      (mul_nonpos_of_nonneg_of_nonpos beta_nonneg (mul_nonpos_of_nonpos_of_nonneg x_nonpos u_nonneg))
      (mul_nonpos_of_nonneg_of_nonpos gamma_nonneg (mul_nonpos_of_nonpos_of_nonneg y_nonpos v_nonneg))
  · have first := mul_nonneg beta_nonneg x_nonneg
    have second := mul_nonneg gamma_nonneg y_nonneg
    have none : beta * x = 0 := by linarith
    have none' : gamma * y = 0 := by linarith
    rw [← mul_assoc, ← mul_assoc, none, none', zero_mul, zero_mul, add_zero]

/-! ## The choice -/

theorem PolicyOutcome.validated_ok {Details : Type} {outcome result : PolicyOutcome Details}
    (h : outcome.validated = .ok result) :
    result = outcome ∧ 0 ≤ outcome.carbonGrams ∧ 0 ≤ outcome.costUsd := by
  unfold PolicyOutcome.validated at h
  obtain ⟨u, checked, h⟩ := Except.bind_eq_ok.mp h
  cases h
  have nonneg := nonneg_of_requireNonneg checked
  exact ⟨rfl, nonneg ("carbon_grams", _) (by simp), nonneg ("cost_usd", _) (by simp)⟩

section StaticOutcome

variable {label : String} {node : NodeConfig} {workload : ComparisonWorkload}
  {carbonStore : CarbonStore} {start : Instant} {outcome : SuiteOutcome}

/-- What is known of the outcome of a node, whatever its label is. -/
structure StaysOn (node : NodeConfig) (workload : ComparisonWorkload) (carbonStore : CarbonStore)
    (start : Instant) (outcome : SuiteOutcome) : Prop where
  stays : outcome.finalNodeId = node.id
  makespan : outcome.makespanSeconds = workload.durationSeconds
  carbon_nonneg : 0 ≤ outcome.carbonGrams
  cost_nonneg : 0 ≤ outcome.costUsd
  relabel : ∀ label, staticOutcome label node workload carbonStore start =
    .ok { outcome with policy := label }

theorem staticOutcome_ok (h : staticOutcome label node workload carbonStore start = .ok outcome) :
    outcome.policy = label ∧ StaysOn node workload carbonStore start outcome := by
  unfold staticOutcome at h
  obtain ⟨segment, charged, h⟩ := Except.bind_eq_ok.mp h
  obtain ⟨step, valid, h⟩ := Except.bind_eq_ok.mp h
  have checked := h
  obtain ⟨rfl, carbon, cost⟩ := PolicyOutcome.validated_ok h
  refine ⟨rfl, rfl, rfl, carbon, cost, fun label => ?_⟩
  unfold staticOutcome
  rw [charged, Except.ok_bind, valid, Except.ok_bind]
  unfold PolicyOutcome.validated at checked ⊢
  obtain ⟨u, nonneg, -⟩ := Except.bind_eq_ok.mp checked
  exact Except.bind_eq_ok.mpr ⟨u, nonneg, rfl⟩

end StaticOutcome

/-- The score by which the best static placement is chosen. -/
def minmaxScore (policy : ScoringPolicy) (candidates : List SuiteOutcome) (item : SuiteOutcome) : Rat :=
  let (alpha, beta, gamma) := policy.weights.normalized
  alpha * minmax (candidates.map (·.makespanSeconds)) item.makespanSeconds +
    beta * minmax (candidates.map (·.carbonGrams)) item.carbonGrams +
    gamma * minmax (candidates.map (·.costUsd)) item.costUsd

section Choice

variable {candidates : List SuiteOutcome} {policy : ScoringPolicy} {item selected : SuiteOutcome}

theorem score_rawEstimate (member : item ∈ candidates) :
    (scorer (candidates.map (·.rawEstimate)) policy none).score item.rawEstimate =
      minmaxScore policy candidates item := by
  have normalized (m : Metric) : (scorer (candidates.map (·.rawEstimate)) policy none).normalized
      item.rawEstimate m = minmax (candidates.map (·.rawEstimate.metric m)) (item.rawEstimate.metric m) := by
    rw [minmax_eq_withinBounds (List.mem_map_of_mem (f := fun c => c.rawEstimate.metric m) member)]
    simp only [Scorer.normalized, scorer, List.map_map]
    rfl
  rw [Scorer.score, normalized, normalized, normalized]
  rfl

theorem rawEstimates_ok {raw : List RawActionEstimate}
    (h : candidates.mapM (fun item => item.rawEstimate.validated) = .ok raw) :
    raw = candidates.map (·.rawEstimate) := by
  have same : raw.map id = candidates.map (·.rawEstimate) := Except.map_of_mapM h ?_
  · rwa [List.map_id] at same
  · intro item estimate valid
    unfold RawActionEstimate.validated at valid
    obtain ⟨u, -, returned⟩ := Except.bind_eq_ok.mp valid
    cases returned
    rfl

theorem firstRanked_ok {ranked : List ScoredAction} {first : ScoredAction}
    (h : firstRanked ranked = .ok first) : first ∈ ranked.head? := by
  cases ranked with
  | nil => cases h
  | cons head rest =>
      cases h
      rfl

theorem chooseWeightedStatic_least (distinct : (candidates.map (·.finalNodeId)).Nodup)
    (h : chooseWeightedStatic candidates policy = .ok selected) :
    selected ∈ candidates ∧
      ∀ item ∈ candidates, minmaxScore policy candidates selected ≤ minmaxScore policy candidates item := by
  unfold chooseWeightedStatic at h
  obtain ⟨raw, valid, h⟩ := Except.bind_eq_ok.mp h
  obtain ⟨ranked, scored, h⟩ := Except.bind_eq_ok.mp h
  obtain ⟨first, head, h⟩ := Except.bind_eq_ok.mp h
  obtain rfl := rawEstimates_ok valid
  obtain ⟨-, rfl⟩ := scoreActions_ok scored
  have isFirst := firstRanked_ok head
  obtain ⟨estimate, raw, rfl⟩ :=
    List.mem_map.mp (RankBy.mem_iff.mp (List.mem_of_mem_head? isFirst))
  obtain ⟨chosen, member, rfl⟩ := List.mem_map.mp raw
  split at h
  · cases h
  · rename_i candidate found
    cases h
    have holds := List.find?_some found
    have here : selected.finalNodeId = chosen.finalNodeId := of_decide_eq_true holds
    have same : selected = chosen :=
      List.inj_on_of_nodup_map distinct (List.mem_of_find?_eq_some found) member here
    rw [same]
    refine ⟨member, fun item inside => ?_⟩
    rw [← score_rawEstimate member, ← score_rawEstimate inside]
    exact RankBy.first_le isFirst _ (List.mem_map_of_mem (List.mem_map_of_mem inside))

end Choice

/-! ## The report -/

/-- Of two placements one has less carbon and the other one costs less. -/
def TradesOff (item other : SuiteOutcome) : Prop :=
  item.carbonGrams < other.carbonGrams ∧ other.costUsd < item.costUsd ∨
    other.carbonGrams < item.carbonGrams ∧ item.costUsd < other.costUsd

/-- How far the choice may be from the best of the report. -/
def scaleGap (policy : ScoringPolicy) (candidates : List SuiteOutcome) (scales : ReferenceScales) : Rat :=
  let (_, beta, gamma) := policy.weights.normalized
  min beta gamma * |spread (candidates.map (·.carbonGrams)) / scales.carbonGrams -
    spread (candidates.map (·.costUsd)) / scales.costUsd|

theorem not_tradesOff {item other : SuiteOutcome} (h : ¬ TradesOff item other) :
    item.carbonGrams ≤ other.carbonGrams ∧ item.costUsd ≤ other.costUsd ∨
      other.carbonGrams ≤ item.carbonGrams ∧ other.costUsd ≤ item.costUsd := by
  unfold TradesOff at h
  rcases lt_trichotomy item.carbonGrams other.carbonGrams with less | same | more
  · exact .inl ⟨less.le, not_lt.mp fun cheaper => h (.inl ⟨less, cheaper⟩)⟩
  · rcases le_total item.costUsd other.costUsd with cheaper | dearer
    · exact .inl ⟨same.le, cheaper⟩
    · exact .inr ⟨same.ge, dearer⟩
  · exact .inr ⟨more.le, not_lt.mp fun cheaper => h (.inr ⟨more, cheaper⟩)⟩

theorem minmax_mono {values : List Rat} {value value' : Rat} (member : value ∈ values)
    (member' : value' ∈ values) (le : value ≤ value') : minmax values value ≤ minmax values value' := by
  rw [minmax_eq_withinBounds member, minmax_eq_withinBounds member']
  exact withinBounds_mono le

theorem globalObjective_le {policy : ScoringPolicy} {candidates : List SuiteOutcome}
    {item other : SuiteOutcome} {scales : ReferenceScales} (carbon_pos : 0 < scales.carbonGrams)
    (cost_pos : 0 < scales.costUsd) (carbons : item.carbonGrams ∈ candidates.map (·.carbonGrams))
    (carbons' : other.carbonGrams ∈ candidates.map (·.carbonGrams))
    (costs : item.costUsd ∈ candidates.map (·.costUsd))
    (costs' : other.costUsd ∈ candidates.map (·.costUsd))
    (makespan : item.makespanSeconds = other.makespanSeconds)
    (score : minmaxScore policy candidates item ≤ minmaxScore policy candidates other) :
    globalObjective item policy scales ≤
        globalObjective other policy scales + scaleGap policy candidates scales ∧
      (¬ TradesOff item other →
        globalObjective item policy scales ≤ globalObjective other policy scales) := by
  obtain ⟨-, beta_nonneg, gamma_nonneg⟩ := policy.weights.normalized_nonneg
  have carbonShare := minmax_sub_mul_spread carbons carbons'
  have costShare := minmax_sub_mul_spread costs costs'
  have carbonRange := minmax_sub_range carbons carbons'
  have costRange := minmax_sub_range costs costs'
  have u_nonneg := div_nonneg (spread_nonneg (candidates.map (·.carbonGrams))) carbon_pos.le
  have v_nonneg := div_nonneg (spread_nonneg (candidates.map (·.costUsd))) cost_pos.le
  have monoCarbon := @minmax_mono _ _ _ carbons carbons'
  have monoCarbon' := @minmax_mono _ _ _ carbons' carbons
  have monoCost := @minmax_mono _ _ _ costs costs'
  have monoCost' := @minmax_mono _ _ _ costs' costs
  simp only [minmaxScore, makespan] at score
  unfold scaleGap
  set beta := policy.weights.normalized.2.1
  set gamma := policy.weights.normalized.2.2
  set x := minmax (candidates.map (·.carbonGrams)) item.carbonGrams -
    minmax (candidates.map (·.carbonGrams)) other.carbonGrams with x_def
  set y := minmax (candidates.map (·.costUsd)) item.costUsd -
    minmax (candidates.map (·.costUsd)) other.costUsd with y_def
  have sum : beta * x + gamma * y ≤ 0 := by
    rw [x_def, y_def]
    linarith
  have difference : globalObjective item policy scales - globalObjective other policy scales =
      beta * (x * (spread (candidates.map (·.carbonGrams)) / scales.carbonGrams)) +
        gamma * (y * (spread (candidates.map (·.costUsd)) / scales.costUsd)) := by
    rw [← mul_div_assoc x, ← mul_div_assoc y, carbonShare, costShare]
    simp only [globalObjective, makespan]
    ring
  constructor
  · rw [← sub_le_iff_le_add', difference]
    exact scaled_le beta_nonneg gamma_nonneg u_nonneg v_nonneg carbonRange costRange sum
  · intro agree
    rw [← sub_nonpos, difference]
    apply scaled_nonpos beta_nonneg gamma_nonneg u_nonneg v_nonneg sum
    rcases not_tradesOff agree with ⟨carbon, cost⟩ | ⟨carbon, cost⟩
    · exact .inl ⟨sub_nonpos.mpr (monoCarbon carbon), sub_nonpos.mpr (monoCost cost)⟩
    · exact .inr ⟨sub_nonneg.mpr (monoCarbon' carbon), sub_nonneg.mpr (monoCost' cost)⟩

/-- The report names an outcome and its objective. -/
structure BaselineSuite.Reports (suite : BaselineSuite) (label : ComparisonPolicy)
    (outcome : SuiteOutcome) (value : Rat) : Prop where
  reported : outcome ∈ suite.outcomes
  named : outcome.policy = label.value
  value : suite.globalObjectiveValues.get? label.value = some value

/-- The other placements that stay on one node. -/
def otherPlacements : List ComparisonPolicy := [.bostonStatic, .franceStatic, .bestAtDispatch]

/-- No other placement on one node has a lower objective in the report. -/
def BaselineSuite.BestInReport (suite : BaselineSuite) : Prop :=
  ∃ best bestValue, suite.Reports .bestStatic best bestValue ∧
    ∀ label ∈ otherPlacements, ∃ other value, suite.Reports label other value ∧ bestValue ≤ value

namespace SuiteArguments

variable {s : SuiteArguments} {fuel : Nat} {suite : BaselineSuite} {outcome : SuiteOutcome}

/-- The outcome is that of a node of the cluster. -/
def Placed (s : SuiteArguments) (label : ComparisonPolicy) (outcome : SuiteOutcome) : Prop :=
  outcome.policy = label.value ∧
    ∃ node ∈ s.cluster.nodes, StaysOn node s.workload s.carbonStore s.start outcome

theorem placed_of_getNode {label : ComparisonPolicy} {nodeId : NodeId} {node : NodeConfig}
    (found : s.cluster.getNode nodeId = .ok node)
    (h : staticOutcome label.value node s.workload s.carbonStore s.start = .ok outcome) :
    s.Placed label outcome := by
  obtain ⟨named, stays⟩ := staticOutcome_ok h
  exact ⟨named, node, (ClusterConfig.id_of_getNode found).2, stays⟩

theorem placed_of_fixed {label : ComparisonPolicy} {nodeId : NodeId}
    (h : s.fixed label nodeId = .ok outcome) : s.Placed label outcome := by
  unfold fixed at h
  obtain ⟨node, found, h⟩ := Except.bind_eq_ok.mp h
  exact placed_of_getNode found h

theorem placed_of_dispatch
    (h : bestAtDispatchOutcome s.math s.cluster s.policy s.workload s.carbonStore s.start =
      .ok outcome) : s.Placed .bestAtDispatch outcome := by
  unfold bestAtDispatchOutcome at h
  obtain ⟨estimates, -, h⟩ := Except.bind_eq_ok.mp h
  obtain ⟨ranked, -, h⟩ := Except.bind_eq_ok.mp h
  obtain ⟨first, -, h⟩ := Except.bind_eq_ok.mp h
  obtain ⟨node, found, h⟩ := Except.bind_eq_ok.mp h
  exact placed_of_getNode found h

def candidates (s : SuiteArguments) : Except Exn (List SuiteOutcome) :=
  staticCandidates s.cluster s.workload s.carbonStore s.start

theorem candidate_of_placed {label : ComparisonPolicy} {candidates : List SuiteOutcome}
    (computed : s.candidates = .ok candidates) (placed : s.Placed label outcome) :
    { outcome with policy := "static_candidate" } ∈ candidates := by
  obtain ⟨-, node, member, stays⟩ := placed
  obtain ⟨candidate, inside, same⟩ := Except.mapM_result_of_mem computed member
  rw [stays.relabel] at same
  cases same
  exact inside

theorem ids_of_candidates {candidates : List SuiteOutcome} (computed : s.candidates = .ok candidates) :
    candidates.map (·.finalNodeId) = s.cluster.nodes.map (·.id) := by
  apply Except.map_of_mapM computed
  intro node candidate h
  exact (staticOutcome_ok h).2.stays

/-- The best static placement is a candidate of the least score. -/
theorem bestStatic_ok (distinct : (s.cluster.nodes.map (·.id)).Nodup)
    (h : bestStaticOutcome s.cluster s.policy s.workload s.carbonStore s.start = .ok outcome) :
    ∃ candidates, s.candidates = .ok candidates ∧ s.Placed .bestStatic outcome ∧
      ∀ item ∈ candidates, minmaxScore s.policy candidates outcome ≤ minmaxScore s.policy candidates item := by
  unfold bestStaticOutcome at h
  obtain ⟨candidates, computed, h⟩ := Except.bind_eq_ok.mp h
  obtain ⟨selected, chosen, h⟩ := Except.bind_eq_ok.mp h
  cases h
  have apart : (candidates.map (·.finalNodeId)).Nodup := by rwa [ids_of_candidates computed]
  obtain ⟨member, least⟩ := chooseWeightedStatic_least apart chosen
  obtain ⟨node, inside, same⟩ := Except.mapM_item_of_mem computed member
  have stays := (staticOutcome_ok same).2
  exact ⟨candidates, computed, ⟨rfl, node, inside, stays.stays, stays.makespan, stays.carbon_nonneg,
    stays.cost_nonneg, stays.relabel⟩, least⟩

theorem policy_of_replay {label : ComparisonPolicy} (h : s.replay label = .ok outcome) :
    outcome.policy = label.value := by
  unfold replay at h
  obtain ⟨replayed, returned, h⟩ := Except.bind_eq_ok.mp h
  cases h
  obtain ⟨-, -, -, state, -, -, rfl⟩ := ReplayArguments.replay_ok_iff.mp returned
  rfl

theorem policy_of_oracle {a : OracleArguments} {oracle : PolicyOutcome Unit}
    (h : clairvoyantOracle a fuel = some (.ok oracle)) : oracle.policy = "clairvoyant_oracle" := by
  unfold clairvoyantOracle at h
  split_ifs at h
  · cases h
  · cases h
  split at h
  · cases h
  split at h
  · cases h
  · cases h
  · cases h
  · obtain ⟨edges, -, returned⟩ := Option.map_eq_some_iff.mp h
    unfold OracleArguments.outcome at returned
    obtain ⟨totals, -, returned⟩ := Except.bind_eq_ok.mp returned
    obtain ⟨rfl, -, -⟩ := PolicyOutcome.validated_ok returned
    rfl

theorem scales_pos {outcomes : List SuiteOutcome} {scales : ReferenceScales}
    (h : comparisonReferenceScales outcomes = .ok scales) :
    0 < scales.carbonGrams ∧ 0 < scales.costUsd := by
  unfold comparisonReferenceScales at h
  split_ifs at h
  cases h
  exact ⟨lt_max_of_lt_right tiny_pos, lt_max_of_lt_right tiny_pos⟩

/-- A placement with its objective. -/
structure ReportsPlacement (s : SuiteArguments) (suite : BaselineSuite) (label : ComparisonPolicy)
    (item : SuiteOutcome) : Prop where
  placed : s.Placed label item
  reports : suite.Reports label item (globalObjective item s.policy suite.referenceScales)

theorem reportsPlacement {outcomes : List SuiteOutcome} {scales : ReferenceScales}
    {oracle : PolicyOutcome Unit}
    (distinct : ((s.report outcomes scales oracle).outcomes.map (·.policy)).Nodup)
    {label : ComparisonPolicy} {item : SuiteOutcome} (placed : s.Placed label item)
    (member : item ∈ outcomes) : s.ReportsPlacement (s.report outcomes scales oracle) label item := by
  have inside : item ∈ (s.report outcomes scales oracle).outcomes := List.mem_append_left _ member
  refine ⟨placed, inside, placed.1, ?_⟩
  rw [← placed.1, ← Dict.mem_entries_iff]
  unfold report
  rw [Dict.entries_ofList]
  · exact List.mem_map_of_mem (f := fun o => (o.policy, globalObjective o s.policy scales)) inside
  · rw [List.map_map]
    exact distinct

theorem run_ok (distinct : (s.cluster.nodes.map (·.id)).Nodup)
    (h : s.runBaselineSuite fuel = some (.ok suite)) :
    ∃ candidates best, s.candidates = .ok candidates ∧ s.ReportsPlacement suite .bestStatic best ∧
      (∀ item ∈ candidates,
        minmaxScore s.policy candidates best ≤ minmaxScore s.policy candidates item) ∧
      (0 < suite.referenceScales.carbonGrams ∧ 0 < suite.referenceScales.costUsd) ∧
      ∀ label ∈ otherPlacements, ∃ other, s.ReportsPlacement suite label other := by
  unfold runBaselineSuite at h
  split at h
  · cases h
  rename_i preOracle scales before
  obtain ⟨result, ran, h⟩ := Option.map_eq_some_iff.mp h
  cases result with
  | error e => cases h
  | ok oracle =>
  cases h
  obtain ⟨outcomes, listed, before⟩ := Except.bind_eq_ok.mp before
  obtain ⟨scales', scaled, before⟩ := Except.bind_eq_ok.mp before
  cases before
  unfold SuiteArguments.preOracle at listed
  obtain ⟨boston, fixedBoston, listed⟩ := Except.bind_eq_ok.mp listed
  obtain ⟨france, fixedFrance, listed⟩ := Except.bind_eq_ok.mp listed
  obtain ⟨best, chosen, listed⟩ := Except.bind_eq_ok.mp listed
  obtain ⟨dispatch, dispatched, listed⟩ := Except.bind_eq_ok.mp listed
  obtain ⟨temporal, temporalReplay, listed⟩ := Except.bind_eq_ok.mp listed
  obtain ⟨magellan, magellanReplay, listed⟩ := Except.bind_eq_ok.mp listed
  cases listed
  obtain ⟨candidates, computed, bestPlaced, least⟩ := bestStatic_ok distinct chosen
  have bostonPlaced := placed_of_fixed fixedBoston
  have francePlaced := placed_of_fixed fixedFrance
  have dispatchPlaced := placed_of_dispatch dispatched
  have apart : ((s.report [boston, france, best, dispatch, temporal, magellan] scales
      oracle).outcomes.map (·.policy)).Nodup := by
    simp only [report, List.cons_append, List.nil_append, List.map_cons, List.map_nil, bostonPlaced.1,
      francePlaced.1, bestPlaced.1, dispatchPlaced.1, policy_of_replay temporalReplay,
      policy_of_replay magellanReplay, PolicyOutcome.withDetails, policy_of_oracle ran]
    decide
  refine ⟨candidates, best, computed, reportsPlacement apart bestPlaced (by simp), least,
    scales_pos scaled, ?_⟩
  intro label among
  simp only [otherPlacements, List.mem_cons, List.not_mem_nil, or_false] at among
  rcases among with rfl | rfl | rfl
  · exact ⟨boston, reportsPlacement apart bostonPlaced (by simp)⟩
  · exact ⟨france, reportsPlacement apart francePlaced (by simp)⟩
  · exact ⟨dispatch, reportsPlacement apart dispatchPlaced (by simp)⟩

end SuiteArguments

/-- The best static placement is a node of the least score. In its report it may be behind another
placement by the gap between the scales, and is not where the two do not trade carbon for cost. -/
def SuiteArguments.NearBest (s : SuiteArguments) (suite : BaselineSuite) : Prop :=
  ∃ candidates best bestValue,
    staticCandidates s.cluster s.workload s.carbonStore s.start = .ok candidates ∧
      suite.Reports .bestStatic best bestValue ∧
      (∀ item ∈ candidates,
        minmaxScore s.policy candidates best ≤ minmaxScore s.policy candidates item) ∧
      ∀ label ∈ otherPlacements, ∃ other value, suite.Reports label other value ∧
        bestValue ≤ value + scaleGap s.policy candidates suite.referenceScales ∧
        (¬ TradesOff best other → bestValue ≤ value)

theorem best_static_near_best {s : SuiteArguments} {fuel : Nat} {suite : BaselineSuite}
    (distinct : (s.cluster.nodes.map (·.id)).Nodup)
    (h : s.runBaselineSuite fuel = some (.ok suite)) : s.NearBest suite := by
  obtain ⟨candidates, best, computed, bestReported, least, ⟨carbon_pos, cost_pos⟩, others⟩ :=
    SuiteArguments.run_ok distinct h
  refine ⟨candidates, best, _, computed, bestReported.reports, least, fun label among => ?_⟩
  obtain ⟨other, reported⟩ := others label among
  refine ⟨other, _, reported.reports, ?_⟩
  have bestInside := SuiteArguments.candidate_of_placed computed bestReported.placed
  have otherInside := SuiteArguments.candidate_of_placed computed reported.placed
  have score := least _ otherInside
  obtain ⟨-, _, -, bestStays⟩ := bestReported.placed
  obtain ⟨-, _, -, otherStays⟩ := reported.placed
  exact globalObjective_le carbon_pos cost_pos
    (List.mem_map.mpr ⟨_, bestInside, rfl⟩) (List.mem_map.mpr ⟨_, otherInside, rfl⟩)
    (List.mem_map.mpr ⟨_, bestInside, rfl⟩) (List.mem_map.mpr ⟨_, otherInside, rfl⟩)
    (bestStays.makespan.trans otherStays.makespan.symm) score

/-! ## Two orders -/

def pricedNode (id : NodeId) (price : Nat) : NodeConfig := { NodeConfig.plain id with
  computePriceUsdPerHour := price
  computePrice_nonneg := natCast_nonneg price }

/-- Carbon weighs three fifths and cost two fifths. France emits 90 grams. -/
def pricedSuite (nodes : List NodeConfig) (bostonIntensity : Rat) : SuiteArguments :=
  let cluster : ClusterConfig := .plain nodes
  { math := sampleMath
    cluster
    policy := { samplePolicy with
      weights := {
        time := 0, carbon := 3, cost := 2
        time_nonneg := zero_nonneg
        cost_nonneg := two_nonneg }
      carbonForecast := { CarbonForecastPolicy.standard with enabled := false } }
    workload := {
      durationSeconds := 900, powerKw := 1
      duration_pos := quarterHour_pos
      power_pos := one_positive
      costCap_pos := uncapped_pos }
    carbonStore := {
      cluster
      seriesByNodeId := .ofList [("boston", sampleSeries bostonIntensity), ("france", sampleSeries 90)] }
    start := 0 }

/-- Boston emits a little more and costs half. -/
def halfPrice : SuiteArguments := pricedSuite [pricedNode "boston" 1, pricedNode "france" 2] 100

/-- Of two nodes of one name the second is the cheapest of all. -/
def twoBostons : SuiteArguments :=
  pricedSuite [pricedNode "boston" 10, pricedNode "boston" 1, pricedNode "france" 2] 90

theorem best_static_near_best_sample :
    ∃ suite, halfPrice.runBaselineSuite 20 = some (.ok suite) ∧ halfPrice.NearBest suite := by
  have returns : ((halfPrice.runBaselineSuite 20).bind Except.toOption).isSome = true := by decide +kernel
  obtain ⟨suite, returned⟩ := Option.isSome_iff_exists.mp returns
  obtain ⟨result, ran, ok⟩ := Option.bind_eq_some_iff.mp returned
  cases result with
  | error e => cases ok
  | ok suite =>
      refine ⟨suite, ran, best_static_near_best ?_ ran⟩
      decide +kernel

def objectivesOf (result : Option (Except Exn BaselineSuite)) (labels : List ComparisonPolicy) :
    Option (List (Option Rat)) :=
  (result.bind Except.toOption).map fun suite =>
    labels.map fun label => suite.globalObjectiveValues.get? label.value

theorem not_best_of_objectives {s : SuiteArguments} {fuel : Nat} (label : ComparisonPolicy)
    (bestValue value : Rat) (among : label ∈ otherPlacements) (less : value < bestValue)
    (h : objectivesOf (s.runBaselineSuite fuel) [.bestStatic, label] =
      some [some bestValue, some value]) :
    ∃ suite, s.runBaselineSuite fuel = some (.ok suite) ∧ ¬ suite.BestInReport := by
  obtain ⟨suite, returned, values⟩ := Option.map_eq_some_iff.mp h
  obtain ⟨result, ran, ok⟩ := Option.bind_eq_some_iff.mp returned
  cases result with
  | error e => cases ok
  | ok suite =>
      cases ok
      refine ⟨suite, ran, ?_⟩
      rintro ⟨best, bestValue', reported, others⟩
      obtain ⟨other, value', reported', le⟩ := others label among
      simp only [List.map_cons, List.map_nil, reported.value, reported'.value, List.cons.injEq,
        Option.some.injEq, and_true] at values
      rw [values.1, values.2] at le
      exact absurd less (not_lt.mpr le)

/-- Boston's objective is below that of the best static placement: with distinct names by the two
normalizations, and where a name is used twice since its first node is reported for its second one. -/
theorem best_static_not_best :
    (∃ suite, halfPrice.runBaselineSuite 20 = some (.ok suite) ∧ ¬ suite.BestInReport) ∧
      ∃ suite, twoBostons.runBaselineSuite 20 = some (.ok suite) ∧ ¬ suite.BestInReport :=
  ⟨not_best_of_objectives .bostonStatic (47 / 50) (4 / 5) (by decide) (by norm_num)
      (by decide +kernel),
    not_best_of_objectives .franceStatic 1 (17 / 25) (by decide) (by norm_num) (by decide +kernel)⟩

end Magellan.Planning
