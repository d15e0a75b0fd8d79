import Mathlib.Data.List.Dedup
import Mathlib.Data.List.Sort
import Mathlib.Data.Rat.Defs
import Mathlib.Algebra.Order.Field.Rat
import Mathlib.Tactic.NormNum
import Magellan.State.TaskModels

/-!
# The configuration of a cluster and the scoring policy

What the carbon model, the scheduler's scores and the experiments read of both. Floats are rational
numbers. The ranges that the models check are fields of the structures.
-/

namespace Magellan.Planning

def keyError (message : String) : Exn := ⟨.keyError, message⟩

def valueError (message : String) : Exn := ⟨.valueError, message⟩

/-- The error of a model's field that is out of its range. -/
def validationError (model field : String) : Exn :=
  valueError s!"1 validation error for {model}: {field}"

def requireNonneg (model : String) : List (String × Rat) → Except Exn Unit
  | [] => .ok ()
  | (field, value) :: rest =>
    if value < 0 then .error (validationError model field) else requireNonneg model rest

theorem requireNonneg_ok {model : String} {fields : List (String × Rat)}
    (nonneg : ∀ field ∈ fields, 0 ≤ field.2) : requireNonneg model fields = .ok () := by
  induction fields with
  | nil => rfl
  | cons field rest ih =>
      have here := nonneg field List.mem_cons_self
      rw [requireNonneg, if_neg (not_lt.mpr here)]
      exact ih fun other member => nonneg other (List.mem_cons_of_mem _ member)

theorem nonneg_of_requireNonneg {model : String} {fields : List (String × Rat)}
    (h : requireNonneg model fields = .ok ()) : ∀ field ∈ fields, 0 ≤ field.2 := by
  induction fields with
  | nil =>
      intro field member
      cases member
  | cons first rest ih =>
      rw [requireNonneg] at h
      split_ifs at h with negative
      intro field member
      rcases List.mem_cons.mp member with rfl | later
      · exact not_lt.mp negative
      · exact ih h field later

/-- The functions of the `math` module. -/
structure MathModule where
  sin : Rat → Rat
  cos : Rat → Rat
  asin : Rat → Rat
  sqrt : Rat → Rat
  radians : Rat → Rat
  sqrt_nonneg : ∀ x, 0 ≤ sqrt x
  asin_nonneg : ∀ x, 0 ≤ x → 0 ≤ asin x

/-- The functions at the one place where all nodes of the samples are. -/
def sampleMath : MathModule where
  sin := fun x => x
  cos := fun _ => 1
  asin := fun x => x
  sqrt := max 0
  radians := fun x => x
  sqrt_nonneg := le_max_left 0
  asin_nonneg := fun _ nonneg => nonneg

/-! ## Values in range -/

theorem zero_nonneg : (0 : Rat) ≤ 0 := le_rfl

theorem one_nonneg : (0 : Rat) ≤ 1 := zero_le_one

theorem two_nonneg : (0 : Rat) ≤ 2 := zero_le_two

theorem natCast_nonneg (n : Nat) : (0 : Rat) ≤ n := Nat.cast_nonneg n

theorem one_positive : (0 : Rat) < 1 := one_pos

theorem hundred_pos : (0 : Rat) < 100 := by norm_num

theorem fifty_nonneg : (0 : Rat) ≤ 50 := by norm_num

theorem epoch_pos : 0 < 900 := by norm_num

theorem quarterHour_pos : (0 : Rat) < 900 := by norm_num

theorem halfHour_pos : (0 : Rat) < 1800 := by norm_num

theorem hour_pos : (0 : Rat) < 3600 := by norm_num

theorem no_fraction : (0 : Rat) ≤ 0 ∧ (0 : Rat) ≤ 1 := ⟨le_rfl, zero_le_one⟩

theorem tenth_fraction : (0 : Rat) ≤ 1 / 10 ∧ (1 / 10 : Rat) ≤ 1 := by norm_num

theorem none_nonneg : ∀ value ∈ (none : Option Rat), 0 ≤ value := by simp

theorem uncapped_pos : ∀ cap ∈ (none : Option Rat), 0 < cap := by simp

/-! ## The cluster -/

structure NetworkEdgeConfig where
  sourceNodeId : NodeId
  destinationNodeId : NodeId
  bandwidthMbps : Rat
  latencyMs : Rat
  bandwidth_pos : 0 < bandwidthMbps := by norm_num
  latency_nonneg : 0 ≤ latencyMs := by norm_num

structure NodeConfig where
  id : NodeId
  latitude : Rat
  longitude : Rat
  pue : Rat := 6 / 5
  computePriceUsdPerHour : Rat := 0
  egressPriceUsdPerGb : Rat := 0
  carbonFallbackGPerKwh : Option Rat := none
  pue_ge : 1 ≤ pue := by norm_num
  computePrice_nonneg : 0 ≤ computePriceUsdPerHour := by norm_num
  egressPrice_nonneg : 0 ≤ egressPriceUsdPerGb := by norm_num
  carbonFallback_nonneg : ∀ value ∈ carbonFallbackGPerKwh, 0 ≤ value := by simp

/-- A node without prices. -/
def NodeConfig.plain (id : NodeId) : NodeConfig where
  id
  latitude := 0
  longitude := 0

structure ClusterConfig where
  epochSeconds : Nat := 900
  defaultBandwidthMbps : Rat := 100
  defaultLatencyMs : Rat := 50
  nodes : List NodeConfig
  edges : List NetworkEdgeConfig := []
  epoch_pos : 0 < epochSeconds := by norm_num
  defaultBandwidth_pos : 0 < defaultBandwidthMbps := by norm_num
  defaultLatency_nonneg : 0 ≤ defaultLatencyMs := by norm_num

namespace ClusterConfig

/-- A cluster without edges of its own. -/
def plain (nodes : List NodeConfig) : ClusterConfig where
  nodes
  epoch_pos := Planning.epoch_pos
  defaultBandwidth_pos := hundred_pos
  defaultLatency_nonneg := fifty_nonneg

variable (cluster : ClusterConfig)

def getNode (nodeId : NodeId) : Except Exn NodeConfig :=
  match cluster.nodes.find? (·.id = nodeId) with
  | some node => .ok node
  | none => .error (keyError s!"Unknown Magellan node: {nodeId}")

def getEdgeOverride (sourceNodeId destinationNodeId : NodeId) : Option NetworkEdgeConfig :=
  cluster.edges.find? fun edge =>
    edge.sourceNodeId = sourceNodeId ∧ edge.destinationNodeId = destinationNodeId

variable {cluster}

theorem id_of_getNode {nodeId : NodeId} {node : NodeConfig}
    (found : cluster.getNode nodeId = .ok node) : node.id = nodeId ∧ node ∈ cluster.nodes := by
  unfold getNode at found
  split at found
  · rename_i node' first
    cases found
    exact ⟨by simpa using List.find?_some first, List.mem_of_find?_eq_some first⟩
  · cases found

theorem getNode_of_mem {node : NodeConfig} (member : node ∈ cluster.nodes) :
    ∃ first, cluster.getNode node.id = .ok first := by
  unfold getNode
  split
  · rename_i first _
    exact ⟨first, rfl⟩
  · rename_i none
    simpa using List.find?_eq_none.mp none node member

end ClusterConfig

/-! ## The policy -/

structure ObjectiveWeights where
  time : Rat
  carbon : Rat
  cost : Rat
  time_nonneg : 0 ≤ time := by norm_num
  carbon_nonneg : 0 ≤ carbon := by norm_num
  cost_nonneg : 0 ≤ cost := by norm_num
  total_pos : 0 < time + carbon + cost := by norm_num

def ObjectiveWeights.normalized (weights : ObjectiveWeights) : Rat × Rat × Rat :=
  let total := weights.time + weights.carbon + weights.cost
  (weights.time / total, weights.carbon / total, weights.cost / total)

theorem ObjectiveWeights.normalized_nonneg (weights : ObjectiveWeights) :
    0 ≤ weights.normalized.1 ∧ 0 ≤ weights.normalized.2.1 ∧ 0 ≤ weights.normalized.2.2 := by
  have total := weights.total_pos.le
  exact ⟨div_nonneg weights.time_nonneg total, div_nonneg weights.carbon_nonneg total,
    div_nonneg weights.cost_nonneg total⟩

/-- The pauses that are tried, each once and in order. -/
def idleCandidates (candidateIdleSeconds : List Rat) (idleSeconds : Rat) : List Rat :=
  let raw := if candidateIdleSeconds = [] then [idleSeconds] else candidateIdleSeconds
  let raw := if idleSeconds ∈ raw then raw else idleSeconds :: raw
  raw.dedup.insertionSort (· ≤ ·)

theorem idle_range : ∀ value ∈ idleCandidates [] 600, 0 ≤ value ∧ value ≤ 3600 := by decide +kernel

structure PausePolicy where
  pauseSeconds : Rat
  idleSeconds : Rat
  candidateIdleSeconds : List Rat := []
  resumeSeconds : Rat
  maxPauseWindowSeconds : Rat
  minPauseGapSeconds : Rat := 0
  pause_nonneg : 0 ≤ pauseSeconds := by norm_num
  resume_nonneg : 0 ≤ resumeSeconds := by norm_num
  minPauseGap_nonneg : 0 ≤ minPauseGapSeconds := by norm_num
  candidates_range : ∀ value ∈ idleCandidates candidateIdleSeconds idleSeconds,
    0 ≤ value ∧ value ≤ maxPauseWindowSeconds

def PausePolicy.idleCandidates (policy : PausePolicy) : List Rat :=
  Planning.idleCandidates policy.candidateIdleSeconds policy.idleSeconds

inductive ForecastProvider where
  | linearTrend
  | persistence
  deriving DecidableEq

structure CarbonForecastPolicy where
  enabled : Bool := true
  provider : ForecastProvider := .linearTrend
  historyPoints : Nat := 8
  minimumPoints : Nat := 4
  forecastSampleSeconds : Rat := 300
  maximumChangePerHour : Rat := 100
  staleAfterSeconds : Rat := 1800
  configuredFallbackGPerKwh : Option Rat := none
  confidenceFloor : Rat := 1 / 10
  persistenceConfidence : Rat := 1 / 2
  fallbackConfidence : Rat := 1 / 10
  minimumPoints_pos : 0 < minimumPoints := by norm_num
  minimumPoints_le : minimumPoints ≤ historyPoints := by norm_num
  forecastSample_pos : 0 < forecastSampleSeconds := by norm_num
  maximumChange_nonneg : 0 ≤ maximumChangePerHour := by norm_num
  staleAfter_pos : 0 < staleAfterSeconds := by norm_num
  confidenceFloor_range : 0 ≤ confidenceFloor ∧ confidenceFloor ≤ 1 := by norm_num
  persistenceConfidence_range : 0 ≤ persistenceConfidence ∧ persistenceConfidence ≤ 1 := by norm_num
  fallbackConfidence_range : 0 ≤ fallbackConfidence ∧ fallbackConfidence ≤ 1 := by norm_num
  configuredFallback_nonneg : ∀ value ∈ configuredFallbackGPerKwh, 0 ≤ value := by simp

def CarbonForecastPolicy.standard : CarbonForecastPolicy := {}

structure MigrationPolicy where
  minMigrationGapSeconds : Rat
  requiredImprovementFraction : Rat
  networkEnergyKwhPerGbBase : Rat := 0
  networkEnergyKwhPerGbKm : Rat := 0
  networkEnergyBase_nonneg : 0 ≤ networkEnergyKwhPerGbBase := by norm_num
  minMigrationGap_nonneg : 0 ≤ minMigrationGapSeconds := by norm_num
  requiredImprovement_range :
    0 ≤ requiredImprovementFraction ∧ requiredImprovementFraction ≤ 1 := by norm_num
  networkEnergyKm_nonneg : 0 ≤ networkEnergyKwhPerGbKm := by norm_num

structure AdaptivePolicy where
  enabled : Bool := true
  multiplierBoundFraction : Rat := 1 / 4
  rollingWindowEpochs : Nat := 24
  decisionHistoryLimit : Nat := 50
  confidenceFloor : Rat := 1 / 4
  rollingWindow_pos : 0 < rollingWindowEpochs := by norm_num
  multiplierBound_range : 0 ≤ multiplierBoundFraction ∧ multiplierBoundFraction ≤ 1 / 2 := by norm_num
  decisionHistory_pos : 0 < decisionHistoryLimit := by norm_num
  confidenceFloor_range : 0 ≤ confidenceFloor ∧ confidenceFloor ≤ 1 := by norm_num

def AdaptivePolicy.standard : AdaptivePolicy := {}

structure ScoringPolicy where
  horizonSeconds : Nat
  horizon_pos : 0 < horizonSeconds := by norm_num
  weights : ObjectiveWeights
  pause : PausePolicy
  migration : MigrationPolicy
  adaptive : AdaptivePolicy := .standard
  carbonForecast : CarbonForecastPolicy := .standard

end Magellan.Planning
