import Mathlib.Analysis.SpecialFunctions.Integrals.Basic
import Magellan.Carbon.Forecast
import Magellan.Data.Fallible

/-!
# Averages of a trace

An average over a window is the mean of the values at the minutes of the window, so windows of whole
minutes add up, and along a line it is off by at most half a minute of the slope.
-/

namespace Magellan.Planning

/-! ## Lines -/

structure Line where
  origin : Rat
  slope : Rat

namespace Line

variable (line : Line)

def value (t : Instant) : Rat := line.origin + line.slope * t

/-- The mean over a window is the value in the middle of it. -/
def mean (start : Instant) (duration : Rat) : Rat := line.value (start + duration / 2)

theorem mean_eq_integral {start duration : Rat} (positive : 0 < duration) :
    (line.mean start duration : ℝ) =
      (∫ t in (start : ℝ)..(start + duration : ℝ), (line.origin + line.slope * t : ℝ)) / duration := by
  have nonzero : (duration : ℝ) ≠ 0 := by exact_mod_cast positive.ne'
  have affine : (∫ t in (start : ℝ)..(start + duration : ℝ), (line.origin + line.slope * t : ℝ)) =
      duration * line.origin + line.slope * (((start + duration) ^ 2 - start ^ 2) / 2) := by
    have constant : IntervalIntegrable (fun _ => (line.origin : ℝ)) MeasureTheory.volume
        start (start + duration) := intervalIntegrable_const
    have linear : IntervalIntegrable (fun t => (line.slope * t : ℝ)) MeasureTheory.volume
        start (start + duration) := (continuous_const.mul continuous_id).intervalIntegrable _ _
    rw [intervalIntegral.integral_add constant linear, intervalIntegral.integral_const,
      intervalIntegral.integral_const_mul, integral_id, smul_eq_mul, add_sub_cancel_left]
  rw [affine, mean, value]
  push_cast
  field_simp
  ring

end Line

/-! ## Means of lists -/

theorem mean_append (xs ys : List Rat) (someX : xs ≠ []) (someY : ys ≠ []) :
    mean (xs ++ ys) * ((xs.length : Rat) + ys.length) =
      mean xs * (xs.length : Rat) + mean ys * (ys.length : Rat) := by
  have positive (values : List Rat) (some : values ≠ []) : (values.length : Rat) ≠ 0 :=
    Nat.cast_ne_zero.mpr (List.length_pos_iff.mpr some).ne'
  have both : ((xs ++ ys).length : Rat) = xs.length + ys.length := by
    rw [List.length_append, Nat.cast_add]
  rw [← both]
  unfold mean
  rw [div_mul_cancel₀ _ (positive _ (by simp [someX])), div_mul_cancel₀ _ (positive _ someX),
    div_mul_cancel₀ _ (positive _ someY), List.sum_append]

theorem mean_between {values : List Rat} (some : values ≠ []) :
    minimum values ≤ mean values ∧ mean values ≤ maximum values := by
  have count : (0 : Rat) < values.length := Nat.cast_pos.mpr (List.length_pos_iff.mpr some)
  unfold mean
  rw [le_div_iff₀ count, div_le_iff₀ count]
  constructor
  · rw [mul_comm, ← nsmul_eq_mul]
    exact List.card_nsmul_le_sum values _ fun value member => minimum_le member
  · rw [mul_comm, ← nsmul_eq_mul]
    exact List.sum_le_card_nsmul values _ fun value member => le_maximum member

theorem sum_arithmetic (first step : Rat) (n : Nat) :
    ((List.range n).map fun k : Nat => first + step * (k : Rat)).sum =
      n * (first + step * ((n : Rat) - 1) / 2) := by
  induction n with
  | zero => simp
  | succ n ih =>
      rw [List.range_succ, List.map_append, List.sum_append, ih]
      simp only [List.map_cons, List.map_nil, List.sum_singleton]
      push_cast
      ring

theorem mean_arithmetic (first step : Rat) {n : Nat} (positive : 0 < n) :
    mean ((List.range n).map fun k : Nat => first + step * (k : Rat)) =
      first + step * ((n : Rat) - 1) / 2 := by
  have count : (n : Rat) ≠ 0 := Nat.cast_ne_zero.mpr positive.ne'
  unfold mean
  rw [sum_arithmetic, List.length_map, List.length_range, mul_div_cancel_left₀ _ count]

theorem interpolate_line {line : Line} {samples : List Sample} {t : Instant}
    (increasing : samples.Pairwise fun a b => a.at_ < b.at_)
    (onLine : ∀ sample ∈ samples, sample.value = line.value sample.at_)
    (notBefore : ∀ sample ∈ samples.head?, sample.at_ ≤ t)
    (notAfter : ∀ sample ∈ samples.getLast?, t ≤ sample.at_) (some : samples ≠ []) :
    interpolate samples t = line.value t := by
  fun_induction interpolate samples t with
  | case1 t => exact absurd rfl some
  | case2 sample t =>
      have here : sample.at_ = t := (notBefore sample rfl).antisymm (notAfter sample rfl)
      rw [onLine sample List.mem_cons_self, here]
  | case3 before after rest t earlier =>
      have span : after.at_ - before.at_ ≠ 0 :=
        (sub_pos.mpr (List.rel_of_pairwise_cons increasing List.mem_cons_self)).ne'
      rw [onLine before List.mem_cons_self, onLine after (by simp)]
      unfold Line.value
      field_simp
      ring
  | case4 before after rest t later ih =>
      apply ih (List.Pairwise.of_cons increasing)
      · intro sample member
        exact onLine sample (List.mem_cons_of_mem _ member)
      · intro sample first
        cases first
        exact not_lt.mp later
      · intro sample last
        exact notAfter sample (by rwa [List.getLast?_cons_cons])
      · exact List.cons_ne_nil _ _

/-! ## Windows of a series -/

namespace CarbonStore

variable {carbonStore : CarbonStore} {nodeId : NodeId} {series : Series}
  {start duration : Rat}

/-- The window is inside the trace of the node. -/
structure Inside (carbonStore : CarbonStore) (nodeId : NodeId) (series : Series)
    (start duration : Rat) : Prop where
  found : carbonStore.series nodeId = .ok series
  notBefore : series.firstAt ≤ start
  notAfter : start + duration ≤ series.lastAt

theorem valueAt_of_inside (inside : carbonStore.Inside nodeId series start duration) {t : Instant}
    (after : start ≤ t) (before : t ≤ start + duration) :
    carbonStore.valueAt nodeId t = .ok (interpolate series.samples t) := by
  have within : ¬ (t < series.firstAt ∨ series.lastAt < t) :=
    not_or.mpr ⟨not_lt.mpr (inside.notBefore.trans after), not_lt.mpr (before.trans inside.notAfter)⟩
  unfold valueAt
  rw [inside.found, Except.ok_bind, if_neg within]

theorem length_sampleIndex (start duration : Rat) :
    (sampleIndex start duration).length = ⌈duration / 60⌉.toNat := by
  rw [sampleIndex, List.length_map, List.length_range]

theorem sampleIndex_ne_nil (positive : 0 < duration) : sampleIndex start duration ≠ [] := by
  rw [← List.length_pos_iff, length_sampleIndex, Int.lt_toNat]
  exact Int.ceil_pos.mpr (div_pos positive (by norm_num))

theorem mem_sampleIndex {t : Instant} (member : t ∈ sampleIndex start duration) :
    start ≤ t ∧ t < start + duration := by
  obtain ⟨k, inRange, rfl⟩ := List.mem_map.mp member
  have below : (k : Int) < ⌈duration / 60⌉ := by
    have nat := List.mem_range.mp inRange
    omega
  have minutes : (k : Rat) < duration / 60 := by exact_mod_cast Int.lt_ceil.mp below
  have nonneg : (0 : Rat) ≤ k := Nat.cast_nonneg k
  constructor <;> linarith

theorem average_of_inside (inside : carbonStore.Inside nodeId series start duration)
    (positive : 0 < duration) :
    carbonStore.average nodeId start duration =
      .ok (mean ((sampleIndex start duration).map (interpolate series.samples))) := by
  have within : ¬ (start < series.firstAt ∨ series.lastAt < start + duration) :=
    not_or.mpr ⟨not_lt.mpr inside.notBefore, not_lt.mpr inside.notAfter⟩
  have some : (sampleIndex start duration).map (interpolate series.samples) ≠ [] := by
    simpa using sampleIndex_ne_nil positive
  unfold average
  rw [if_neg (not_lt.mpr positive.le), if_neg positive.ne', inside.found, Except.ok_bind]
  simp only [if_neg within, if_neg some]
  rfl

theorem sampleIndex_append (start : Instant) (m n : Nat) :
    sampleIndex start (60 * m + 60 * n) = sampleIndex start (60 * m) ++ sampleIndex (start + 60 * m) (60 * n) := by
  have whole (k : Nat) : ⌈(60 * k : Rat) / 60⌉.toNat = k := by
    rw [mul_div_cancel_left₀ _ (by norm_num), Int.ceil_natCast, Int.toNat_natCast]
  have both : ⌈(60 * m + 60 * n : Rat) / 60⌉.toNat = m + n := by
    rw [← mul_add, ← Nat.cast_add]
    exact whole (m + n)
  unfold sampleIndex
  rw [both, whole, whole, List.range_add, List.map_append, List.map_map]
  congr 1
  apply List.map_congr_left
  intro k _
  rw [Function.comp_apply]
  push_cast
  ring

theorem average_additive {m n : Nat} (someM : 0 < m) (someN : 0 < n)
    (inside : carbonStore.Inside nodeId series start (60 * m + 60 * n)) :
    ∃ whole first second,
      carbonStore.average nodeId start (60 * m + 60 * n) = .ok whole ∧
      carbonStore.average nodeId start (60 * m) = .ok first ∧
      carbonStore.average nodeId (start + 60 * m) (60 * n) = .ok second ∧
      whole * (60 * m + 60 * n) = first * (60 * m) + second * (60 * n) := by
  have positiveM : (0 : Rat) < 60 * m := mul_pos (by norm_num) (Nat.cast_pos.mpr someM)
  have positiveN : (0 : Rat) < 60 * n := mul_pos (by norm_num) (Nat.cast_pos.mpr someN)
  have notAfter := inside.notAfter
  have insideM : carbonStore.Inside nodeId series start (60 * m) :=
    ⟨inside.found, inside.notBefore, by linarith⟩
  have insideN : carbonStore.Inside nodeId series (start + 60 * m) (60 * n) :=
    ⟨inside.found, by linarith [inside.notBefore], by linarith⟩
  refine ⟨_, _, _, average_of_inside inside (add_pos positiveM positiveN),
    average_of_inside insideM positiveM, average_of_inside insideN positiveN, ?_⟩
  have count (s : Instant) (k : Nat) : (((sampleIndex s (60 * k)).map
      (interpolate series.samples)).length : Rat) = k := by
    rw [List.length_map, length_sampleIndex, mul_div_cancel_left₀ _ (by norm_num), Int.ceil_natCast,
      Int.toNat_natCast]
  have sums := mean_append ((sampleIndex start (60 * m)).map (interpolate series.samples))
    ((sampleIndex (start + 60 * m) (60 * n)).map (interpolate series.samples))
    (by simpa using sampleIndex_ne_nil positiveM) (by simpa using sampleIndex_ne_nil positiveN)
  rw [count, count, ← List.map_append, ← sampleIndex_append] at sums
  linarith

/-- The average is the mean of the values at the minutes, of which none is above and none below all. -/
theorem average_mean (inside : carbonStore.Inside nodeId series start duration)
    (positive : 0 < duration) :
    ∃ average values,
      carbonStore.average nodeId start duration = .ok average ∧
      (sampleIndex start duration).mapM (carbonStore.valueAt nodeId) = .ok values ∧
      average = mean values ∧
      (∃ t value, start ≤ t ∧ t ≤ start + duration ∧ carbonStore.valueAt nodeId t = .ok value ∧
        value ≤ average) ∧
      ∃ t value, start ≤ t ∧ t ≤ start + duration ∧ carbonStore.valueAt nodeId t = .ok value ∧
        average ≤ value := by
  have some : (sampleIndex start duration).map (interpolate series.samples) ≠ [] := by
    simpa using sampleIndex_ne_nil positive
  have read : ∀ t ∈ sampleIndex start duration,
      carbonStore.valueAt nodeId t = .ok (interpolate series.samples t) := by
    intro t member
    obtain ⟨after, before⟩ := mem_sampleIndex member
    exact valueAt_of_inside inside after before.le
  obtain ⟨below, above⟩ := mean_between some
  obtain ⟨t, member, least⟩ := List.mem_map.mp (minimum_mem some)
  obtain ⟨t', member', greatest⟩ := List.mem_map.mp (maximum_mem some)
  refine ⟨_, _, average_of_inside inside positive, Except.mapM_eq_ok read, rfl,
    ⟨t, _, (mem_sampleIndex member).1, (mem_sampleIndex member).2.le, read t member, ?_⟩,
    ⟨t', _, (mem_sampleIndex member').1, (mem_sampleIndex member').2.le, read t' member', ?_⟩⟩
  · rw [least]
    exact below
  · rw [greatest]
    exact above

theorem average_line {line : Line} (onLine : ∀ sample ∈ series.samples, sample.value = line.value sample.at_)
    (inside : carbonStore.Inside nodeId series start duration) (positive : 0 < duration) :
    ∃ average, carbonStore.average nodeId start duration = .ok average ∧
      |average - line.mean start duration| ≤ |line.slope| * 30 := by
  refine ⟨_, average_of_inside inside positive, ?_⟩
  have values : (sampleIndex start duration).map (interpolate series.samples) =
      (List.range ⌈duration / 60⌉.toNat).map fun k : Nat =>
        line.value start + line.slope * 60 * (k : Rat) := by
    rw [sampleIndex, List.map_map]
    apply List.map_congr_left
    intro k member
    have sampled : start + 60 * (k : Rat) ∈ sampleIndex start duration := List.mem_map_of_mem member
    obtain ⟨after, before⟩ := mem_sampleIndex sampled
    rw [Function.comp_apply, interpolate_line series.increasing onLine _ _ series.nonempty]
    · unfold Line.value
      ring
    · intro sample first
      rw [List.head?_eq_some_head series.nonempty] at first
      cases first
      exact inside.notBefore.trans after
    · intro sample last
      rw [List.getLast?_eq_some_getLast series.nonempty] at last
      cases last
      exact before.le.trans inside.notAfter
  have ceil : 0 < ⌈duration / 60⌉ := Int.ceil_pos.mpr (div_pos positive (by norm_num))
  have count : ((⌈duration / 60⌉.toNat : Nat) : Rat) = (⌈duration / 60⌉ : Rat) := by
    exact_mod_cast congrArg (Int.cast : Int → Rat) (Int.toNat_of_nonneg ceil.le)
  rw [values, mean_arithmetic _ _ (by omega), count]
  have upper := Int.ceil_lt_add_one (duration / 60)
  have lower := Int.le_ceil (duration / 60)
  have gap : line.value start + line.slope * 60 * ((⌈duration / 60⌉ : Rat) - 1) / 2 -
      line.mean start duration = line.slope * (30 * ((⌈duration / 60⌉ : Rat) - 1) - duration / 2) := by
    unfold Line.mean Line.value
    ring
  rw [gap, abs_mul]
  apply mul_le_mul_of_nonneg_left _ (abs_nonneg _)
  rw [abs_le]
  constructor <;> linarith

end CarbonStore

end Magellan.Planning
