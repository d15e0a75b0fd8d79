import Magellan.Carbon.Averages

/-!
# Forecasts along lines and within bounds

The trend of samples on a line is the line, so its forecast is the line's mean as long as nothing is
cut off. Any forecast is within its bounds or a value that is known.
-/

namespace Magellan.Planning

/-! ## The fit of a line -/

section Fit

variable {points : List (Rat × Rat)} {intercept slope : Rat}

theorem sum_map_affine (first step : Rat) (xs : List Rat) :
    (xs.map fun x => first + step * x).sum = first * xs.length + step * xs.sum := by
  induction xs with
  | nil => simp
  | cons x xs ih =>
      rw [List.map_cons, List.sum_cons, ih, List.sum_cons, List.length_cons]
      push_cast
      ring

theorem mean_map_affine (first step : Rat) {xs : List Rat} (some : xs ≠ []) :
    mean (xs.map fun x => first + step * x) = first + step * mean xs := by
  have count : (xs.length : Rat) ≠ 0 := Nat.cast_ne_zero.mpr (List.length_pos_iff.mpr some).ne'
  unfold mean
  rw [sum_map_affine, List.length_map]
  field_simp

/-- The points are on a line. -/
def Collinear (points : List (Rat × Rat)) (intercept slope : Rat) : Prop :=
  ∀ point ∈ points, point.2 = intercept + slope * point.1

theorem Collinear.mean (collinear : Collinear points intercept slope) (some : points ≠ []) :
    mean (points.map Prod.snd) = intercept + slope * Planning.mean (points.map Prod.fst) := by
  have values : points.map Prod.snd = (points.map Prod.fst).map fun x => intercept + slope * x := by
    rw [List.map_map]
    exact List.map_congr_left collinear
  rw [values, mean_map_affine _ _ (by simpa using some)]

theorem Collinear.covariance (collinear : Collinear points intercept slope) (some : points ≠ []) :
    (points.map fun point => (point.1 - Planning.mean (points.map Prod.fst)) *
        (point.2 - Planning.mean (points.map Prod.snd))).sum =
      slope * (points.map fun point => (point.1 - Planning.mean (points.map Prod.fst)) ^ 2).sum := by
  rw [collinear.mean some, ← List.sum_map_mul_left]
  congr 1
  apply List.map_congr_left
  intro point member
  rw [collinear point member]
  ring

theorem variance_pos (first second : Rat × Rat) (rest : List (Rat × Rat)) (apart : first.1 ≠ second.1)
    (center : Rat) :
    0 < ((first :: second :: rest).map fun point => (point.1 - center) ^ 2).sum := by
  have tail : 0 ≤ (rest.map fun point => (point.1 - center) ^ 2).sum := by
    apply List.sum_nonneg
    intro value member
    obtain ⟨point, -, rfl⟩ := List.mem_map.mp member
    exact sq_nonneg _
  rw [List.map_cons, List.map_cons, List.sum_cons, List.sum_cons]
  have left := sq_nonneg (first.1 - center)
  have right := sq_nonneg (second.1 - center)
  by_contra none
  have atCenter : first.1 - center = 0 := pow_eq_zero_iff (two_ne_zero) |>.mp (by linarith)
  have atCenter' : second.1 - center = 0 := pow_eq_zero_iff (two_ne_zero) |>.mp (by linarith)
  exact apart (by linarith)

end Fit

/-- The fit of samples on a line is the line, in hours after the latest. -/
theorem linearFit_line {math : MathModule} (sqrt_zero : math.sqrt 0 = 0) {line : Line}
    {samples : List Sample} (increasing : samples.Pairwise fun a b => a.at_ < b.at_)
    (onLine : ∀ sample ∈ samples, sample.value = line.value sample.at_) (two : 2 ≤ samples.length)
    (latest : Instant) :
    linearFit math latest samples = ⟨line.value latest, 3600 * line.slope, 0⟩ := by
  obtain ⟨a, b, rest, rfl⟩ : ∃ a b rest, samples = a :: b :: rest := by
    match samples, two with
    | a :: b :: rest, _ => exact ⟨a, b, rest, rfl⟩
  have apart : (a.at_ - latest) / 3600 ≠ (b.at_ - latest) / 3600 := by
    have before : a.at_ < b.at_ := List.rel_of_pairwise_cons increasing List.mem_cons_self
    intro same
    linarith
  have collinear : Collinear ((a :: b :: rest).map fun sample =>
      ((sample.at_ - latest) / 3600, sample.value)) (line.value latest) (3600 * line.slope) := by
    intro point member
    obtain ⟨sample, inside, rfl⟩ := List.mem_map.mp member
    show sample.value = _
    rw [onLine sample inside]
    unfold Line.value
    ring
  have some : ((a :: b :: rest).map fun sample => ((sample.at_ - latest) / 3600, sample.value)) ≠ [] :=
    List.cons_ne_nil _ _
  unfold linearFit
  set points := (a :: b :: rest).map fun sample => ((sample.at_ - latest) / 3600, sample.value)
    with points_eq
  have variance : 0 < (points.map fun point => (point.1 - mean (points.map Prod.fst)) ^ 2).sum := by
    rw [points_eq, List.map_cons, List.map_cons]
    exact variance_pos _ _ _ apart _
  simp only [if_pos variance]
  rw [collinear.covariance some, mul_div_cancel_right₀ _ variance.ne', collinear.mean some,
    add_sub_cancel_right]
  have residuals : (points.map fun point => point.2 - (line.value latest + 3600 * line.slope * point.1)) =
      points.map fun _ => 0 := by
    apply List.map_congr_left
    intro point member
    rw [collinear point member, sub_self]
  have zero : mean ((points.map fun _ => (0 : Rat)).map (· ^ 2)) = 0 := by
    simp [mean]
  rw [residuals, zero, sqrt_zero]

/-! ## The instants of a forecast -/

namespace LinearTrendForecastProvider

variable {policy : CarbonForecastPolicy} {request : ForecastRequest} {latestAt : Instant}

theorem offsets_ne_nil : offsets policy request latestAt ≠ [] := by
  simp only [offsets]
  split_ifs with zero
  · exact List.cons_ne_nil _ _
  · rw [Ne, List.map_eq_nil_iff, List.range_eq_nil]
    have two : 2 ≤ max 2 (⌊request.durationSeconds / policy.forecastSampleSeconds⌋.toNat + 1) :=
      le_max_left _ _
    omega

theorem mem_offsets (nonneg : 0 ≤ request.durationSeconds) {offset : Rat}
    (member : offset ∈ offsets policy request latestAt) :
    request.forecastStart ≤ latestAt + 3600 * offset ∧
      latestAt + 3600 * offset ≤ request.forecastStart + request.durationSeconds := by
  simp only [offsets] at member
  split_ifs at member with zero
  · rw [List.mem_singleton.mp member]
    constructor <;> linarith
  · obtain ⟨index, inRange, rfl⟩ := List.mem_map.mp member
    set count := max 2 (⌊request.durationSeconds / policy.forecastSampleSeconds⌋.toNat + 1)
    have two : 2 ≤ count := le_max_left _ _
    have below := List.mem_range.mp inRange
    have last : (0 : Rat) < ((count - 1 : Nat) : Rat) := Nat.cast_pos.mpr (by omega)
    have part : 0 ≤ request.durationSeconds * index / ((count - 1 : Nat) : Rat) :=
      div_nonneg (mul_nonneg nonneg (Nat.cast_nonneg _)) last.le
    have whole : request.durationSeconds * index / ((count - 1 : Nat) : Rat) ≤ request.durationSeconds := by
      rw [div_le_iff₀ last]
      exact mul_le_mul_of_nonneg_left (Nat.cast_le.mpr (by omega)) nonneg
    have hours : 3600 * (request.durationSeconds / 3600 * index / ((count - 1 : Nat) : Rat)) =
        request.durationSeconds * index / ((count - 1 : Nat) : Rat) := by
      field_simp
    constructor <;> linarith

theorem mean_offsets (line : Line) :
    mean ((offsets policy request latestAt).map fun offset =>
        line.value latestAt + 3600 * line.slope * offset) =
      line.mean request.forecastStart request.durationSeconds := by
  simp only [offsets]
  split_ifs with zero
  · rw [zero]
    simp only [List.map_cons, List.map_nil, mean, List.sum_singleton, List.length_singleton, Line.mean,
      Line.value]
    ring
  · set count := max 2 (⌊request.durationSeconds / policy.forecastSampleSeconds⌋.toNat + 1)
    have two : 2 ≤ count := le_max_left _ _
    have last : ((count - 1 : Nat) : Rat) ≠ 0 := Nat.cast_ne_zero.mpr (by omega)
    have before : ((count - 1 : Nat) : Rat) = (count : Rat) - 1 := by
      rw [Nat.cast_sub (by omega), Nat.cast_one]
    have values : ((List.range count).map fun index : Nat =>
          (request.forecastStart - latestAt) / 3600 +
            request.durationSeconds / 3600 * index / ((count - 1 : Nat) : Rat)).map
          (fun offset => line.value latestAt + 3600 * line.slope * offset) =
        (List.range count).map fun index : Nat => line.value request.forecastStart +
          line.slope * request.durationSeconds / ((count - 1 : Nat) : Rat) * index := by
      rw [List.map_map]
      apply List.map_congr_left
      intro index _
      unfold Line.value
      simp only [Function.comp_apply]
      field_simp
      ring
    rw [values, mean_arithmetic _ _ (by omega), ← before]
    unfold Line.mean Line.value
    field_simp
    ring

/-! ## Forecasts -/

def lowerBound (policy : CarbonForecastPolicy) (history : List Sample) : Rat :=
  max 0 (minimum (history.map (·.value)) - policy.maximumChangePerHour)

def upperBound (policy : CarbonForecastPolicy) (history : List Sample) : Rat :=
  maximum (history.map (·.value)) + policy.maximumChangePerHour

variable {math : MathModule} {history : List Sample} {latest : Sample}
  {ageSeconds freshnessFactor : Rat} {estimate : CarbonForecastEstimate}

theorem validated_of_nonneg (average : 0 ≤ estimate.averageGPerKwh)
    (current : 0 ≤ estimate.currentGPerKwh) : estimate.validated = .ok estimate := by
  unfold CarbonForecastEstimate.validated
  rw [requireNonneg_ok]
  · rfl
  · intro field member
    simp only [List.mem_cons, List.not_mem_nil, or_false] at member
    rcases member with rfl | rfl
    · exact average
    · exact current

theorem trend_line (sqrt_zero : math.sqrt 0 = 0) {line : Line}
    (increasing : history.Pairwise fun a b => a.at_ < b.at_)
    (onLine : ∀ sample ∈ history, sample.value = line.value sample.at_) (two : 2 ≤ history.length)
    (slope : |3600 * line.slope| ≤ policy.maximumChangePerHour) (current : 0 ≤ latest.value)
    (nonneg : 0 ≤ request.durationSeconds)
    (window : ∀ t, request.forecastStart ≤ t → t ≤ request.forecastStart + request.durationSeconds →
      lowerBound policy history ≤ line.value t ∧ line.value t ≤ upperBound policy history) :
    ∃ estimate, trend math policy request history latest ageSeconds freshnessFactor = .ok estimate ∧
      estimate.averageGPerKwh = line.mean request.forecastStart request.durationSeconds ∧
      estimate.residualRmse = some 0 ∧ estimate.clamped = false := by
  have fit := linearFit_line sqrt_zero increasing onLine two latest.at_
  obtain ⟨above, below⟩ := abs_le.mp slope
  have limited : max (-policy.maximumChangePerHour)
      (min policy.maximumChangePerHour (3600 * line.slope)) = 3600 * line.slope := by
    rw [min_eq_right below, max_eq_right above]
  set raw := (offsets policy request latest.at_).map fun offset =>
    line.value latest.at_ + 3600 * line.slope * offset with raw_eq
  have inside : ∀ value ∈ raw, lowerBound policy history ≤ value ∧ value ≤ upperBound policy history := by
    intro value member
    obtain ⟨offset, among, rfl⟩ := List.mem_map.mp member
    obtain ⟨after, before⟩ := mem_offsets nonneg among
    have here : line.value latest.at_ + 3600 * line.slope * offset =
        line.value (latest.at_ + 3600 * offset) := by
      unfold Line.value
      ring
    rw [here]
    exact window _ after before
  have bounded : (raw.map fun value => max (lowerBound policy history)
      (min (upperBound policy history) value)) = raw := by
    conv_rhs => rw [← List.map_id raw]
    apply List.map_congr_left
    intro value member
    rw [min_eq_right (inside value member).2, max_eq_right (inside value member).1, id]
  have predicted : raw.map (max 0) = raw := by
    conv_rhs => rw [← List.map_id raw]
    apply List.map_congr_left
    intro value member
    rw [max_eq_right ((le_max_left _ _).trans (inside value member).1), id]
  have average : mean raw = line.mean request.forecastStart request.durationSeconds := mean_offsets line
  have positive : 0 ≤ line.mean request.forecastStart request.durationSeconds := by
    have middle := window (request.forecastStart + request.durationSeconds / 2) (by linarith) (by linarith)
    exact (le_max_left _ _).trans middle.1
  unfold lowerBound upperBound at bounded
  simp only [trend, fit, limited, ← raw_eq, bounded, predicted, average]
  rw [validated_of_nonneg]
  · exact ⟨_, rfl, rfl, rfl, by simp⟩
  · exact positive
  · exact current

/-- A forecast that is within the bounds of its history, or known. -/
structure Bounded (policy : CarbonForecastPolicy) (history : List Sample)
    (estimate : CarbonForecastEstimate) : Prop where
  trend : estimate.source = "linear_trend" →
    lowerBound policy history ≤ estimate.averageGPerKwh ∧
      estimate.averageGPerKwh ≤ upperBound policy history
  known : estimate.source ≠ "linear_trend" →
    policy.configuredFallbackGPerKwh = some estimate.averageGPerKwh ∨
      ∃ latest, history.getLast? = some latest ∧ estimate.averageGPerKwh = latest.value
  confidence : 0 ≤ estimate.confidence ∧ estimate.confidence ≤ 1

theorem lowerBound_le_upperBound (some : history ≠ []) (nonneg : ∀ sample ∈ history, 0 ≤ sample.value) :
    lowerBound policy history ≤ upperBound policy history := by
  have values : history.map (·.value) ≠ [] := by simpa using some
  obtain ⟨sample, member, greatest⟩ := List.mem_map.mp (maximum_mem values)
  have change := policy.maximumChange_nonneg
  have order : minimum (history.map (·.value)) ≤ maximum (history.map (·.value)) :=
    minimum_le (maximum_mem values)
  have positive : 0 ≤ maximum (history.map (·.value)) := greatest ▸ nonneg sample member
  unfold lowerBound upperBound
  apply max_le <;> linarith

theorem trend_bounded (some : history ≠ []) (nonneg : ∀ sample ∈ history, 0 ≤ sample.value)
    (current : 0 ≤ latest.value) :
    ∃ estimate, trend math policy request history latest ageSeconds freshnessFactor = .ok estimate ∧
      estimate.source = "linear_trend" ∧ Bounded policy history estimate := by
  have order : lowerBound policy history ≤ upperBound policy history :=
    lowerBound_le_upperBound some nonneg
  have zero : 0 ≤ lowerBound policy history := le_max_left _ _
  set raw := (offsets policy request latest.at_).map fun offset =>
    (linearFit math latest.at_ history).intercept +
      max (-policy.maximumChangePerHour) (min policy.maximumChangePerHour
        (linearFit math latest.at_ history).slope) * offset with raw_eq
  set predicted := (raw.map fun value => max (lowerBound policy history)
    (min (upperBound policy history) value)).map (max 0) with predicted_eq
  have inside : ∀ value ∈ predicted,
      lowerBound policy history ≤ value ∧ value ≤ upperBound policy history := by
    intro value member
    obtain ⟨bounded, among, rfl⟩ := List.mem_map.mp member
    obtain ⟨value, -, rfl⟩ := List.mem_map.mp among
    have least := le_max_left (lowerBound policy history) (min (upperBound policy history) value)
    rw [max_eq_right (zero.trans least)]
    exact ⟨least, max_le order (min_le_left _ _)⟩
  have someValues : predicted ≠ [] := by
    simpa [predicted_eq, raw_eq] using (offsets_ne_nil : offsets policy request latest.at_ ≠ [])
  have within : lowerBound policy history ≤ mean predicted ∧
      mean predicted ≤ upperBound policy history := by
    obtain ⟨below, above⟩ := mean_between someValues
    exact ⟨(inside _ (minimum_mem someValues)).1.trans below,
      above.trans (inside _ (maximum_mem someValues)).2⟩
  have floor := policy.confidenceFloor_range
  unfold lowerBound upperBound at predicted_eq
  simp only [trend, ← raw_eq, ← predicted_eq]
  rw [validated_of_nonneg]
  · exact ⟨_, rfl, rfl, fun _ => within, fun other => absurd rfl other,
      le_max_of_le_left floor.1, max_le floor.2 (min_le_left _ _)⟩
  · exact zero.trans within.1
  · exact current

theorem fallback_ok (request : ForecastRequest) {source : String} {value confidence : Rat} {freshness : String}
    {historyPoints : Nat} {latestSampleAt : Option Instant} {sampleAgeSeconds : Option Rat}
    (nonneg : 0 ≤ value) :
    ∃ estimate, fallback request source value confidence freshness historyPoints latestSampleAt
        sampleAgeSeconds = .ok estimate ∧ estimate.source = source ∧ estimate.averageGPerKwh = value ∧
      0 ≤ estimate.confidence ∧ estimate.confidence ≤ 1 := by
  unfold fallback
  rw [validated_of_nonneg (le_max_left _ _) (le_max_left _ _)]
  exact ⟨_, rfl, rfl, max_eq_right nonneg, le_max_left _ _, max_le zero_le_one (min_le_left _ _)⟩

/-- Unless there is neither a sample nor a configured value there is a forecast, and it is bounded. -/
theorem ofHistory_bounded (nonneg : ∀ sample ∈ history, 0 ≤ sample.value)
    (known : history ≠ [] ∨ policy.configuredFallbackGPerKwh ≠ none) :
    ∃ estimate, ofHistory math policy request history = .ok estimate ∧
      Bounded policy history estimate := by
  have configured {value : Rat} (present : policy.configuredFallbackGPerKwh = some value) : 0 ≤ value :=
    policy.configuredFallback_nonneg value present
  unfold ofHistory
  cases last : history.getLast? with
  | none =>
      cases present : policy.configuredFallbackGPerKwh with
      | none => exact absurd (List.getLast?_eq_none_iff.mp last) (known.resolve_right (· present))
      | some value =>
          obtain ⟨estimate, ok, source, average, range⟩ := fallback_ok request
            (configured present)
          exact ⟨estimate, ok, by simp [source], fun _ => .inl (by rw [present, average]), range⟩
  | some latest =>
      have member : latest ∈ history := List.mem_of_getLast? last
      have current := nonneg latest member
      have some := List.ne_nil_of_mem member
      simp only
      split_ifs with stale early
      · cases present : policy.configuredFallbackGPerKwh with
        | none =>
            obtain ⟨estimate, ok, source, average, range⟩ := fallback_ok request current
            exact ⟨estimate, ok, by simp [source], fun _ => .inr ⟨latest, last, average⟩, range⟩
        | some value =>
            obtain ⟨estimate, ok, source, average, range⟩ := fallback_ok request
              (configured present)
            exact ⟨estimate, ok, by simp [source], fun _ => .inl (by rw [present, average]), range⟩
      · obtain ⟨estimate, ok, source, average, range⟩ := fallback_ok request current
        exact ⟨estimate, ok, by simp [source], fun _ => .inr ⟨latest, last, average⟩, range⟩
      · obtain ⟨estimate, ok, -, bounded⟩ := trend_bounded some nonneg current
        exact ⟨estimate, ok, bounded⟩

theorem Series.history_increasing (series : Series) (observedAt : Instant) (points : Nat) :
    (series.history observedAt points).Pairwise fun a b => a.at_ < b.at_ :=
  (series.increasing.filter _).sublist (List.drop_sublist _ _)

/-- A fresh history on a line that is long enough and ends with a value that is not negative is
continued along the line, while nothing is cut off; a forecast from samples that are not negative is
bounded. -/
theorem forecast_exact_and_bounded (math : MathModule) (sqrt_zero : math.sqrt 0 = 0)
    (policy : CarbonForecastPolicy) (request : ForecastRequest) (series : Series) :
    let history := series.history request.observedAt policy.historyPoints
    (∀ (line : Line) (latest : Sample), history.getLast? = some latest →
      policy.provider = .linearTrend → 0 ≤ request.durationSeconds →
      request.observedAt - latest.at_ ≤ policy.staleAfterSeconds →
      max 2 policy.minimumPoints ≤ history.length →
      (∀ sample ∈ history, sample.value = line.value sample.at_) →
      |3600 * line.slope| ≤ policy.maximumChangePerHour → 0 ≤ latest.value →
      (∀ t, request.forecastStart ≤ t → t ≤ request.forecastStart + request.durationSeconds →
        lowerBound policy history ≤ line.value t ∧ line.value t ≤ upperBound policy history) →
      ∃ estimate, forecast math policy request series = .ok estimate ∧
        estimate.averageGPerKwh = line.mean request.forecastStart request.durationSeconds ∧
        estimate.residualRmse = some 0 ∧ estimate.clamped = false) ∧
    ((∀ sample ∈ history, 0 ≤ sample.value) →
      (history ≠ [] ∨ policy.configuredFallbackGPerKwh ≠ none) →
        ∃ estimate, forecast math policy request series = .ok estimate ∧
          Bounded policy history estimate) := by
  intro history
  constructor
  · intro line latest last provider nonneg fresh enough onLine slope current window
    have duration : ({ request with durationSeconds := max 0 request.durationSeconds } : ForecastRequest) =
        request := by
      rw [max_eq_right nonneg]
    have notStale : ¬ policy.staleAfterSeconds < max 0 (request.observedAt - latest.at_) :=
      not_lt.mpr (max_le policy.staleAfter_pos.le fresh)
    have notEarly : ¬ (policy.provider = .persistence ∨ history.length < policy.minimumPoints) := by
      rintro (persistence | short)
      · rw [provider] at persistence
        cases persistence
      · exact absurd (le_of_max_le_right enough) (not_le.mpr short)
    obtain ⟨estimate, ok, exact_⟩ : ∃ estimate,
        trend math policy request history latest (max 0 (request.observedAt - latest.at_))
          (max 0 (1 - max 0 (request.observedAt - latest.at_) / policy.staleAfterSeconds)) =
            .ok estimate ∧
          estimate.averageGPerKwh = line.mean request.forecastStart request.durationSeconds ∧
          estimate.residualRmse = some 0 ∧ estimate.clamped = false :=
      trend_line sqrt_zero (Series.history_increasing series request.observedAt policy.historyPoints)
        onLine (le_of_max_le_left enough) slope current nonneg window
    refine ⟨estimate, ?_, exact_⟩
    simp only [forecast, duration]
    show ofHistory math policy request history = _
    unfold ofHistory
    simp only [last, if_neg notStale, if_neg notEarly]
    exact ok
  · intro nonneg known
    exact ofHistory_bounded nonneg known

/-- An intensity that rises by one an hour. -/
def risingSeries (first : Rat) : Series where
  samples := [⟨0, first⟩, ⟨3600, first + 1⟩, ⟨7200, first + 2⟩]
  increasing := by
    simp only [List.pairwise_cons, List.mem_cons, List.not_mem_nil, or_false, forall_eq_or_imp, forall_eq]
    norm_num

def trendPolicy : CarbonForecastPolicy := { CarbonForecastPolicy.standard with
  minimumPoints := 2
  minimumPoints_pos := by norm_num
  minimumPoints_le := by norm_num [CarbonForecastPolicy.standard] }

/-- From two hours after the latest sample, for an hour. -/
def laterRequest : ForecastRequest := ⟨"boston", 7200, 14400, 3600⟩

theorem forecast_exact_sample :
    ∃ estimate, forecast sampleMath trendPolicy laterRequest (risingSeries 1) = .ok estimate ∧
      estimate.averageGPerKwh = 11 / 2 ∧ estimate.residualRmse = some 0 ∧ estimate.clamped = false := by
  have history : (risingSeries 1).history laterRequest.observedAt trendPolicy.historyPoints =
      (risingSeries 1).samples := by decide +kernel
  have exact_ := (forecast_exact_and_bounded sampleMath (max_self 0) trendPolicy laterRequest
    (risingSeries 1)).1 ⟨1, 1 / 3600⟩ ⟨7200, 3⟩
  rw [history] at exact_
  have least : lowerBound trendPolicy (risingSeries 1).samples = 0 := by decide +kernel
  have greatest : upperBound trendPolicy (risingSeries 1).samples = 103 := by decide +kernel
  rw [least, greatest] at exact_
  obtain ⟨estimate, ok, average, rest⟩ := exact_ (by decide +kernel) rfl (by decide +kernel)
    (by decide +kernel) (by decide +kernel) (by decide +kernel) (by norm_num [trendPolicy, CarbonForecastPolicy.standard])
    (by norm_num) (by
      intro t after before
      simp only [laterRequest] at after before
      simp only [Line.value]
      constructor <;> linarith)
  have middle : (⟨1, 1 / 3600⟩ : Line).mean laterRequest.forecastStart laterRequest.durationSeconds =
      11 / 2 := by decide +kernel
  exact ⟨estimate, ok, average.trans middle, rest⟩

/-- Where the latest sample is negative there is no forecast, though the line is not. -/
theorem negative_sample_refused :
    let history := (risingSeries (-3)).history laterRequest.observedAt trendPolicy.historyPoints
    (∀ sample ∈ history, sample.value = (⟨-3, 1 / 3600⟩ : Line).value sample.at_) ∧
      max 2 trendPolicy.minimumPoints ≤ history.length ∧
      (∀ t, laterRequest.forecastStart ≤ t →
        t ≤ laterRequest.forecastStart + laterRequest.durationSeconds →
          lowerBound trendPolicy history ≤ (⟨-3, 1 / 3600⟩ : Line).value t ∧
            (⟨-3, 1 / 3600⟩ : Line).value t ≤ upperBound trendPolicy history) ∧
      ∃ e, forecast sampleMath trendPolicy laterRequest (risingSeries (-3)) = .error e := by
  have least : lowerBound trendPolicy ((risingSeries (-3)).history laterRequest.observedAt
      trendPolicy.historyPoints) = 0 := by decide +kernel
  have greatest : upperBound trendPolicy ((risingSeries (-3)).history laterRequest.observedAt
      trendPolicy.historyPoints) = 99 := by decide +kernel
  have refused : (forecast sampleMath trendPolicy laterRequest (risingSeries (-3))).isOk = false := by
    decide +kernel
  refine ⟨by decide +kernel, by decide +kernel, ?_, ?_⟩
  · intro t after before
    rw [least, greatest]
    simp only [laterRequest] at after before
    simp only [Line.value]
    constructor <;> linarith
  · cases made : forecast sampleMath trendPolicy laterRequest (risingSeries (-3)) with
    | error e => exact ⟨e, rfl⟩
    | ok estimate => simp [made, Except.isOk, Except.toBool] at refused

end LinearTrendForecastProvider

end Magellan.Planning
