import Mathlib.Algebra.Order.Floor.Ring
import Magellan.Carbon.Store

/-!
# Carbon forecasts

A forecast is made from the samples up to the instant at which it is made: a bounded line through the
latest of them, or the latest value, or what is configured.
-/

namespace Magellan.Planning

structure CarbonForecastEstimate where
  nodeId : NodeId
  averageGPerKwh : Rat
  currentGPerKwh : Rat
  source : String
  confidence : Rat
  freshness : String
  historyPoints : Nat
  forecastStart : Instant
  forecastHorizonSeconds : Rat
  generatedAt : Instant
  latestSampleAt : Option Instant := none
  sampleAgeSeconds : Option Rat := none
  slopeGPerKwhPerHour : Option Rat := none
  residualRmse : Option Rat := none
  clamped : Bool := false

/-- The intensities are checked when the record is made; its other numbers are in range. -/
def CarbonForecastEstimate.validated (estimate : CarbonForecastEstimate) :
    Except Exn CarbonForecastEstimate := do
  requireNonneg "CarbonForecastEstimate"
    [("average_g_per_kwh", estimate.averageGPerKwh), ("current_g_per_kwh", estimate.currentGPerKwh)]
  return estimate

/-- `min` and `max` of a list, for lists that are not empty. -/
def minimum (values : List Rat) : Rat := values.min?.getD 0

def maximum (values : List Rat) : Rat := values.max?.getD 0

theorem minimum_eq_iff {values : List Rat} {least : Rat} (nonempty : values ≠ []) :
    minimum values = least ↔ least ∈ values ∧ ∀ value ∈ values, least ≤ value := by
  obtain ⟨first, present⟩ := Option.isSome_iff_exists.mp (List.isSome_min?_of_ne_nil nonempty)
  rw [← List.min?_eq_some_iff, minimum, present, Option.getD_some, Option.some.injEq]

theorem maximum_eq_iff {values : List Rat} {greatest : Rat} (nonempty : values ≠ []) :
    maximum values = greatest ↔ greatest ∈ values ∧ ∀ value ∈ values, value ≤ greatest := by
  obtain ⟨first, present⟩ := Option.isSome_iff_exists.mp (List.isSome_max?_of_ne_nil nonempty)
  rw [← List.max?_eq_some_iff, maximum, present, Option.getD_some, Option.some.injEq]

theorem minimum_mem {values : List Rat} (nonempty : values ≠ []) : minimum values ∈ values :=
  ((minimum_eq_iff nonempty).mp rfl).1

theorem maximum_mem {values : List Rat} (nonempty : values ≠ []) : maximum values ∈ values :=
  ((maximum_eq_iff nonempty).mp rfl).1

theorem minimum_le {values : List Rat} {value : Rat} (member : value ∈ values) :
    minimum values ≤ value :=
  ((minimum_eq_iff (List.ne_nil_of_mem member)).mp rfl).2 value member

theorem le_maximum {values : List Rat} {value : Rat} (member : value ∈ values) :
    value ≤ maximum values :=
  ((maximum_eq_iff (List.ne_nil_of_mem member)).mp rfl).2 value member

def mean (values : List Rat) : Rat := values.sum / values.length

structure LinearFit where
  /-- At the latest sample. -/
  intercept : Rat
  slope : Rat
  rmse : Rat

def linearFit (math : MathModule) (latest : Instant) (samples : List Sample) : LinearFit :=
  let points := samples.map fun sample => ((sample.at_ - latest) / 3600, sample.value)
  let meanX := mean (points.map Prod.fst)
  let meanY := mean (points.map Prod.snd)
  let denominator := (points.map fun point => (point.1 - meanX) ^ 2).sum
  let slope :=
    if 0 < denominator then
      (points.map fun point => (point.1 - meanX) * (point.2 - meanY)).sum / denominator
    else 0
  let intercept := meanY - slope * meanX
  let residuals := points.map fun point => point.2 - (intercept + slope * point.1)
  { intercept, slope, rmse := math.sqrt (mean (residuals.map (· ^ 2))) }

/-- The samples up to an instant, at most so many of the latest. -/
def Series.history (series : Series) (observedAt : Instant) (points : Nat) : List Sample :=
  let known := series.samples.filter (·.at_ ≤ observedAt)
  known.drop (known.length - points)

/-- What a forecast is asked for. -/
structure ForecastRequest where
  nodeId : NodeId
  observedAt : Instant
  forecastStart : Instant
  durationSeconds : Rat

namespace LinearTrendForecastProvider

variable (math : MathModule) (policy : CarbonForecastPolicy) (request : ForecastRequest)

def fallback (source : String) (value confidence : Rat) (freshness : String) (historyPoints : Nat)
    (latestSampleAt : Option Instant) (sampleAgeSeconds : Option Rat) :
    Except Exn CarbonForecastEstimate :=
  CarbonForecastEstimate.validated {
    nodeId := request.nodeId
    averageGPerKwh := max 0 value
    currentGPerKwh := max 0 value
    source
    confidence := max 0 (min 1 confidence)
    freshness
    historyPoints
    forecastStart := request.forecastStart
    forecastHorizonSeconds := request.durationSeconds
    generatedAt := request.observedAt
    latestSampleAt
    sampleAgeSeconds }

/-- The hours after the latest sample at which the line is read. -/
def offsets (latestAt : Instant) : List Rat :=
  let startOffsetHours := (request.forecastStart - latestAt) / 3600
  let horizonHours := request.durationSeconds / 3600
  if request.durationSeconds = 0 then [startOffsetHours]
  else
    let sampleCount :=
      max 2 (⌊request.durationSeconds / policy.forecastSampleSeconds⌋.toNat + 1)
    (List.range sampleCount).map fun index : Nat =>
      startOffsetHours + horizonHours * index / (sampleCount - 1 : Nat)

/-- The forecast along the line. -/
def trend (history : List Sample) (latest : Sample) (ageSeconds freshnessFactor : Rat) :
    Except Exn CarbonForecastEstimate :=
  let values := history.map (·.value)
  let fit := linearFit math latest.at_ history
  let slopeLimit := policy.maximumChangePerHour
  let slope := max (-slopeLimit) (min slopeLimit fit.slope)
  let recentMin := minimum values
  let recentMax := maximum values
  let lower := max 0 (recentMin - policy.maximumChangePerHour)
  let upper := recentMax + policy.maximumChangePerHour
  let raw := (offsets policy request latest.at_).map fun offset => fit.intercept + slope * offset
  let bounded := raw.map fun value => max lower (min upper value)
  let predicted := bounded.map (max 0)
  let clamped := slope ≠ fit.slope ∨ bounded ≠ raw
  let dynamicScale := max (max (recentMax - recentMin) latest.value) 1
  let fitFactor := max 0 (1 - fit.rmse / dynamicScale)
  let pointFactor := min 1 ((history.length : Rat) / policy.historyPoints)
  let clampFactor := if clamped then 3 / 4 else 1
  let confidence := pointFactor * fitFactor * freshnessFactor * clampFactor
  CarbonForecastEstimate.validated {
    nodeId := request.nodeId
    averageGPerKwh := mean predicted
    currentGPerKwh := latest.value
    source := "linear_trend"
    confidence := max policy.confidenceFloor (min 1 confidence)
    freshness := "fresh"
    historyPoints := history.length
    forecastStart := request.forecastStart
    forecastHorizonSeconds := request.durationSeconds
    generatedAt := request.observedAt
    latestSampleAt := some latest.at_
    sampleAgeSeconds := some ageSeconds
    slopeGPerKwhPerHour := some slope
    residualRmse := some fit.rmse
    clamped }

/-- The forecast from the samples that are known when it is made. -/
def ofHistory (history : List Sample) : Except Exn CarbonForecastEstimate :=
  match history.getLast? with
  | none =>
    match policy.configuredFallbackGPerKwh with
    | none =>
      .error (valueError s!"No carbon samples or configured fallback for {request.nodeId}")
    | some value =>
      fallback request "configured_fallback" value policy.fallbackConfidence "unavailable" 0 none none
  | some latest =>
    let ageSeconds := max 0 (request.observedAt - latest.at_)
    let freshnessFactor := max 0 (1 - ageSeconds / policy.staleAfterSeconds)
    if policy.staleAfterSeconds < ageSeconds then
      match policy.configuredFallbackGPerKwh with
      | some value =>
        fallback request "configured_fallback" value policy.fallbackConfidence "stale" history.length
          (some latest.at_) (some ageSeconds)
      | none =>
        fallback request "persistence" latest.value 0 "stale" history.length (some latest.at_)
          (some ageSeconds)
    else if policy.provider = .persistence ∨ history.length < policy.minimumPoints then
      let pointFactor := min 1 ((history.length : Rat) / policy.minimumPoints)
      fallback request "persistence" latest.value
        (policy.persistenceConfidence * pointFactor * freshnessFactor) "fresh" history.length
        (some latest.at_) (some ageSeconds)
    else trend math policy request history latest ageSeconds freshnessFactor

def forecast (series : Series) : Except Exn CarbonForecastEstimate :=
  let request := { request with durationSeconds := max 0 request.durationSeconds }
  ofHistory math policy request (series.history request.observedAt policy.historyPoints)

end LinearTrendForecastProvider

/-- The policy with the fallback of the node where it has none. -/
def CarbonForecastPolicy.withFallback (policy : CarbonForecastPolicy) (node : NodeConfig) :
    CarbonForecastPolicy :=
  { policy with
    configuredFallbackGPerKwh := policy.configuredFallbackGPerKwh.or node.carbonFallbackGPerKwh
    configuredFallback_nonneg := by
      intro value
      cases own : policy.configuredFallbackGPerKwh with
      | none => exact node.carbonFallback_nonneg value
      | some configured =>
          intro same
          exact policy.configuredFallback_nonneg value (own ▸ same) }

def CarbonStore.forecast (math : MathModule) (carbonStore : CarbonStore)
    (policy : CarbonForecastPolicy) (request : ForecastRequest) : Except Exn CarbonForecastEstimate :=
  if request.durationSeconds < 0 then .error (valueError "duration_seconds must be non-negative")
  else do
    let node ← carbonStore.cluster.getNode request.nodeId
    let series ← carbonStore.series request.nodeId
    LinearTrendForecastProvider.forecast math (policy.withFallback node) request series

def forecastOrAverage (math : MathModule) (carbonStore : CarbonStore) (policy : CarbonForecastPolicy)
    (request : ForecastRequest) : Except Exn CarbonForecastEstimate :=
  if policy.enabled then carbonStore.forecast math policy request
  else do
    let value ← carbonStore.average request.nodeId request.forecastStart request.durationSeconds
    CarbonForecastEstimate.validated {
      nodeId := request.nodeId
      averageGPerKwh := value
      currentGPerKwh := value
      source := "legacy_average"
      confidence := 0
      freshness := "unavailable"
      historyPoints := 0
      forecastStart := request.forecastStart
      forecastHorizonSeconds := request.durationSeconds
      generatedAt := request.observedAt }

/-! ## What a forecast is made from -/

/-- Two stores for one cluster whose samples are the same up to an instant. -/
structure CarbonStore.AgreeUpTo (until_ : Instant) (carbonStore carbonStore' : CarbonStore) : Prop where
  cluster : carbonStore'.cluster = carbonStore.cluster
  series : ∀ nodeId, (carbonStore'.seriesByNodeId.get? nodeId).map
      (fun series => series.samples.filter (·.at_ ≤ until_)) =
    (carbonStore.seriesByNodeId.get? nodeId).map
      (fun series => series.samples.filter (·.at_ ≤ until_))

theorem Series.history_congr {series series' : Series} {until_ observedAt : Instant}
    (agree : series'.samples.filter (·.at_ ≤ until_) = series.samples.filter (·.at_ ≤ until_))
    (before : observedAt ≤ until_) (points : Nat) :
    series'.history observedAt points = series.history observedAt points := by
  have known : ∀ samples : List Sample, samples.filter (·.at_ ≤ observedAt) =
      (samples.filter (·.at_ ≤ until_)).filter (·.at_ ≤ observedAt) := by
    intro samples
    rw [List.filter_filter]
    apply List.filter_congr
    intro sample _
    by_cases early : sample.at_ ≤ observedAt
    · simp [early, early.trans before]
    · simp [early]
  unfold history
  rw [known series'.samples, known series.samples, agree]

theorem LinearTrendForecastProvider.forecast_congr {math : MathModule} {series series' : Series}
    {until_ : Instant} {request : ForecastRequest}
    (agree : series'.samples.filter (·.at_ ≤ until_) = series.samples.filter (·.at_ ≤ until_))
    (before : request.observedAt ≤ until_) (policy : CarbonForecastPolicy) :
    forecast math policy request series' = forecast math policy request series := by
  rw [forecast, forecast, Series.history_congr agree before]

/-- A forecast does not depend on samples after the instant at which it is made. -/
theorem forecastOrAverage_congr {math : MathModule} {carbonStore carbonStore' : CarbonStore}
    {until_ observedAt : Instant} (agree : carbonStore.AgreeUpTo until_ carbonStore')
    {policy : CarbonForecastPolicy} (enabled : policy.enabled = true) (before : observedAt ≤ until_)
    (nodeId : NodeId) (forecastStart : Instant) (durationSeconds : Rat) :
    forecastOrAverage math carbonStore' policy
        { nodeId, observedAt, forecastStart, durationSeconds } =
      forecastOrAverage math carbonStore policy
        { nodeId, observedAt, forecastStart, durationSeconds } := by
  have series := agree.series nodeId
  rw [forecastOrAverage, forecastOrAverage, if_pos enabled, if_pos enabled, CarbonStore.forecast,
    CarbonStore.forecast, agree.cluster]
  unfold CarbonStore.series
  cases stored : carbonStore.seriesByNodeId.get? nodeId with
  | none =>
      rw [stored, Option.map_none, Option.map_eq_none_iff] at series
      rw [series]
  | some own =>
      rw [stored, Option.map_some, Option.map_eq_some_iff] at series
      obtain ⟨other, stored', same⟩ := series
      rw [stored']
      split_ifs
      · rfl
      · cases carbonStore.cluster.getNode nodeId with
        | error e => simp only [bind, Except.bind]
        | ok node =>
            exact LinearTrendForecastProvider.forecast_congr same before _

end Magellan.Planning
