import Mathlib.Algebra.Order.Floor.Ring
import Magellan.Policy.Calibration

/-!
# Calibration over a grid

The grid has every vector of multiples of the step that sums to one. Candidates that are required to
cover it have been tried with each of them and with nothing else.
-/

namespace Magellan.Planning

/-! ## The grid -/

structure CalibrationGrid where
  stepSize : Rat
  weights : List WeightVector

/-- `_step_units`; the step is the decimal number that its text is. -/
def stepUnits (stepSize : Rat) : Except Exn Nat :=
  if stepSize ≤ 0 ∨ 1 < stepSize then
    .error (valueError "Calibration step size must be in (0, 1]")
  else if (1 / stepSize).den ≠ 1 then
    .error (valueError ("Calibration step size must divide 1 exactly, for example " ++
      "0.5, 0.25, 0.1, or 0.02"))
  else .ok (1 / stepSize).num.toNat

/-- The checks of a weight vector. -/
def WeightVector.validated (time carbon cost : Rat) : Except Exn WeightVector :=
  if valid : (0 ≤ time ∧ 0 ≤ carbon ∧ 0 ≤ cost) ∧ 0 < time + carbon + cost then
    .ok ⟨time, carbon, cost, valid.1.1, valid.1.2.1, valid.1.2.2, valid.2⟩
  else .error (validationError "WeightVector" "weights")

/-- The rounded weights as they stand. -/
def roundedKey (weights : WeightVector) : WeightKey :=
  toLex (round12 weights.time, toLex (round12 weights.carbon, round12 weights.cost))

def CalibrationGrid.validated (grid : CalibrationGrid) : Except Exn CalibrationGrid :=
  if ¬ (0 < grid.stepSize ∧ grid.stepSize ≤ 1) then
    .error (validationError "CalibrationGrid" "step_size")
  else if (grid.weights.map roundedKey).dedup.length ≠ grid.weights.length then
    .error (valueError "Calibration grid contains duplicate weights")
  else .ok grid

def gridUnits (units : Nat) : List (Nat × Nat × Nat) :=
  (List.range (units + 1)).flatMap fun timeUnits =>
    (List.range (units - timeUnits + 1)).map fun carbonUnits =>
      (timeUnits, carbonUnits, units - timeUnits - carbonUnits)

def generateSimplexWeightGrid (stepSize : Rat) : Except Exn CalibrationGrid := do
  let units ← stepUnits stepSize
  let weights ← (gridUnits units).mapM fun (time, carbon, cost) =>
    WeightVector.validated (time / units) (carbon / units) (cost / units)
  CalibrationGrid.validated ⟨stepSize, weights⟩

def validateGridCoverage (candidates : List CalibrationCandidate) (grid : CalibrationGrid) :
    Except Exn Unit :=
  let candidateKeys := (candidates.map fun candidate => weightKey candidate.weights).dedup
  let gridKeys := (grid.weights.map weightKey).dedup
  let missing := gridKeys.filter (· ∉ candidateKeys)
  let extra := candidateKeys.filter (· ∉ gridKeys)
  if missing ≠ [] ∨ extra ≠ [] then
    .error (valueError (s!"Calibration candidates do not exactly cover the requested grid: " ++
      s!"missing={missing.length}, extra={extra.length}"))
  else .ok ()

/-- `main`, up to what is written. -/
def calibrate (stepSize : Rat) (requireGridCoverage : Bool) (candidates : List CalibrationCandidate)
    (costCapUsd deadlineSeconds : Option Rat) : Except Exn CalibrationResult := do
  let grid ← generateSimplexWeightGrid stepSize
  if requireGridCoverage then validateGridCoverage candidates grid
  selectCalibratedBaseline candidates costCapUsd deadlineSeconds

/-! ## Units -/

theorem mem_gridUnits {units time carbon cost : Nat} :
    (time, carbon, cost) ∈ gridUnits units ↔ time + carbon + cost = units := by
  simp only [gridUnits, List.mem_flatMap, List.mem_range, List.mem_map, Prod.mk.injEq]
  constructor
  · rintro ⟨t, first, c, second, rfl, rfl, rfl⟩
    omega
  · intro total
    exact ⟨time, by omega, carbon, by omega, rfl, rfl, by omega⟩

theorem gridUnits_nodup (units : Nat) : (gridUnits units).Nodup := by
  unfold gridUnits
  apply List.nodup_flatMap.mpr
  constructor
  · intro time _
    apply List.Nodup.map _ List.nodup_range
    intro carbon carbon' same
    simp only [Prod.mk.injEq, true_and] at same
    exact same.1
  · apply List.nodup_range.imp
    intro time time' different
    rw [Function.onFun, List.disjoint_left]
    intro units' here there
    obtain ⟨carbon, -, rfl⟩ := List.mem_map.mp here
    obtain ⟨carbon', -, same⟩ := List.mem_map.mp there
    exact different (Prod.mk.inj same).1.symm

/-! ## Rounding -/

theorem round12_near (x : Rat) : |round12 x - x| ≤ 1 / 2 / 1000000000000 := by
  have below := Int.floor_le (x * 1000000000000)
  have above := Int.lt_floor_add_one (x * 1000000000000)
  have near (r : Int) (low : x * 1000000000000 - 1 / 2 ≤ r) (high : r ≤ x * 1000000000000 + 1 / 2) :
      |(r : Rat) / 1000000000000 - x| ≤ 1 / 2 / 1000000000000 := by
    rw [abs_le]
    constructor
    · linarith
    · linarith
  unfold round12
  dsimp only
  split_ifs with down up even
  · apply near <;> linarith
  · apply near <;> push_cast <;> linarith
  · apply near <;> linarith
  · apply near <;> push_cast <;> linarith

theorem round12_ne {x y : Rat} (apart : 1 / 1000000000000 < y - x) : round12 x ≠ round12 y := by
  intro same
  have nearX := abs_le.mp (round12_near x)
  have nearY := abs_le.mp (round12_near y)
  rw [same] at nearX
  linarith [nearX.1, nearX.2, nearY.1, nearY.2]

/-! ## What is generated -/

section

variable {stepSize : Rat} {units : Nat}

theorem stepUnits_ok : stepUnits stepSize = .ok units ↔
    stepSize ≤ 1 ∧ 0 < stepSize ∧ units * stepSize = 1 := by
  unfold stepUnits
  split_ifs with range fraction
  · apply iff_of_false (by simp)
    rintro ⟨le, pos, -⟩
    rcases range with low | high
    · exact absurd pos (not_lt.mpr low)
    · exact absurd le (not_le.mpr high)
  · apply iff_of_false (by simp)
    rintro ⟨-, pos, whole⟩
    apply fraction
    rw [← eq_div_iff pos.ne'] at whole
    rw [← whole]
    exact Rat.den_natCast units
  · rw [not_or, not_le, not_lt] at range
    have whole : ((1 / stepSize).num.toNat : Rat) = 1 / stepSize := by
      have nonneg : 0 ≤ (1 / stepSize).num := Rat.num_nonneg.mpr (by positivity [range.1])
      have integral : ((1 / stepSize).num : Rat) = 1 / stepSize :=
        Rat.den_eq_one_iff _ |>.mp (not_not.mp fraction)
      rw [← integral]
      exact_mod_cast Int.toNat_of_nonneg nonneg
    simp only [Except.ok.injEq]
    constructor
    · rintro rfl
      exact ⟨range.2, range.1, by rw [whole, one_div_mul_cancel range.1.ne']⟩
    · rintro ⟨-, -, product⟩
      rw [← eq_div_iff range.1.ne', ← whole] at product
      exact_mod_cast product.symm

def WeightVector.coordinates (weights : WeightVector) : Rat × Rat × Rat :=
  (weights.time, weights.carbon, weights.cost)

/-- The vector is a point of the simplex at multiples of the step. -/
def OnGrid (stepSize : Rat) (weights : WeightVector) : Prop :=
  weights.total = 1 ∧ ∀ m, ∃ units : Nat, weights.weight m = units * stepSize

theorem WeightVector.coordinates_injective : Function.Injective WeightVector.coordinates := by
  rintro ⟨⟩ ⟨⟩ same
  simpa [WeightVector.coordinates] using same

theorem div_units (whole : units * stepSize = 1) (n : Nat) : (n : Rat) / units = n * stepSize := by
  have pos : (units : Rat) ≠ 0 := by
    intro zero
    rw [zero, zero_mul] at whole
    exact zero_ne_one whole
  rw [div_eq_iff pos, mul_assoc, mul_comm stepSize, whole, mul_one]

theorem coordinates_of_validated {time carbon cost : Rat} {weights : WeightVector}
    (ok : WeightVector.validated time carbon cost = .ok weights) :
    weights.coordinates = (time, carbon, cost) := by
  unfold WeightVector.validated at ok
  split_ifs at ok
  cases ok
  rfl

def gridPoint (stepSize : Rat) (entry : Nat × Nat × Nat) : Rat × Rat × Rat :=
  (entry.1 * stepSize, entry.2.1 * stepSize, entry.2.2 * stepSize)

theorem gridPoint_injective (pos : 0 < stepSize) : Function.Injective (gridPoint stepSize) := by
  rintro ⟨t, c, k⟩ ⟨t', c', k'⟩ same
  simpa [gridPoint, pos.ne'] using same

theorem gridWeights_ok (whole : units * stepSize = 1) :
    ∃ weights, ((gridUnits units).mapM fun (time, carbon, cost) =>
        WeightVector.validated (time / units) (carbon / units) (cost / units)) = .ok weights ∧
      weights.map WeightVector.coordinates = (gridUnits units).map (gridPoint stepSize) := by
  have valid : ∀ entry ∈ gridUnits units, ∃ weights, WeightVector.validated
      (entry.1 / units) (entry.2.1 / units) (entry.2.2 / units) = .ok weights := by
    rintro ⟨time, carbon, cost⟩ member
    have total : (time : Rat) + carbon + cost = units := by
      exact_mod_cast mem_gridUnits.mp member
    have sum : (time : Rat) / units + carbon / units + cost / units = 1 := by
      simp only [div_units whole, ← add_mul, total, whole]
    rw [WeightVector.validated, dif_pos]
    · exact ⟨_, rfl⟩
    · exact ⟨⟨by positivity, by positivity, by positivity⟩, sum ▸ one_pos⟩
  obtain ⟨weights, generated⟩ := Except.exists_mapM valid
  refine ⟨weights, generated, Except.map_of_mapM generated ?_⟩
  rintro ⟨time, carbon, cost⟩ vector ok
  simpa only [gridPoint, div_units whole] using coordinates_of_validated ok

theorem mem_gridWeights (pos : 0 < stepSize) (whole : units * stepSize = 1)
    {weights : List WeightVector}
    (points : weights.map WeightVector.coordinates = (gridUnits units).map (gridPoint stepSize))
    (vector : WeightVector) : vector ∈ weights ↔ OnGrid stepSize vector := by
  rw [← List.mem_map_of_injective WeightVector.coordinates_injective, points, List.mem_map]
  constructor
  · rintro ⟨⟨time, carbon, cost⟩, member, same⟩
    have total : (time : Rat) + carbon + cost = units := by
      exact_mod_cast mem_gridUnits.mp member
    simp only [gridPoint, WeightVector.coordinates, Prod.mk.injEq] at same
    obtain ⟨sameTime, sameCarbon, sameCost⟩ := same
    refine ⟨?_, fun m => ?_⟩
    · rw [WeightVector.total, ← sameTime, ← sameCarbon, ← sameCost, ← add_mul, ← add_mul, total, whole]
    · cases m with
      | time => exact ⟨time, sameTime.symm⟩
      | carbon => exact ⟨carbon, sameCarbon.symm⟩
      | cost => exact ⟨cost, sameCost.symm⟩
  · rintro ⟨total, multiples⟩
    obtain ⟨time, sameTime⟩ := multiples .time
    obtain ⟨carbon, sameCarbon⟩ := multiples .carbon
    obtain ⟨cost, sameCost⟩ := multiples .cost
    simp only [WeightVector.weight] at sameTime sameCarbon sameCost
    refine ⟨(time, carbon, cost), mem_gridUnits.mpr ?_, ?_⟩
    · rw [WeightVector.total, sameTime, sameCarbon, sameCost, ← add_mul, ← add_mul, ← whole] at total
      exact_mod_cast mul_right_cancel₀ pos.ne' total
    · simp only [gridPoint, WeightVector.coordinates, sameTime, sameCarbon, sameCost]

/-- Different multiples of a coarse step are told apart by their roundings. -/
theorem units_of_round12 (coarse : 1 / 1000000000000 < stepSize) {a b : Nat}
    (same : round12 (a * stepSize) = round12 (b * stepSize)) : a = b := by
  have pos : 0 < stepSize := lt_trans (by norm_num) coarse
  have apart {a b : Nat} (less : a < b) : round12 (a * stepSize) ≠ round12 (b * stepSize) := by
    apply round12_ne
    have gap : (a : Rat) + 1 ≤ b := by exact_mod_cast less
    nlinarith
  rcases lt_trichotomy a b with less | rfl | more
  · exact absurd same (apart less)
  · rfl
  · exact absurd same.symm (apart more)

theorem roundedKey_injOn (coarse : 1 / 1000000000000 < stepSize) {vector vector' : WeightVector}
    (here : OnGrid stepSize vector) (there : OnGrid stepSize vector')
    (same : roundedKey vector = roundedKey vector') : vector = vector' := by
  have equal (m : Metric) (rounded : round12 (vector.weight m) = round12 (vector'.weight m)) :
      vector.weight m = vector'.weight m := by
    obtain ⟨a, ha⟩ := here.2 m
    obtain ⟨b, hb⟩ := there.2 m
    rw [ha, hb] at rounded ⊢
    rw [units_of_round12 coarse rounded]
  simp only [roundedKey, EmbeddingLike.apply_eq_iff_eq, Prod.mk.injEq] at same
  apply WeightVector.coordinates_injective
  simp only [WeightVector.coordinates, Prod.mk.injEq]
  exact ⟨equal .time same.1, equal .carbon same.2.1, equal .cost same.2.2⟩

theorem generate_ok (coarse : 1 / 1000000000000 < stepSize) (le : stepSize ≤ 1)
    (whole : units * stepSize = 1) : ∃ grid, generateSimplexWeightGrid stepSize = .ok grid ∧
      grid.weights.Nodup ∧ ∀ vector, vector ∈ grid.weights ↔ OnGrid stepSize vector := by
  have pos : 0 < stepSize := lt_trans (by norm_num) coarse
  obtain ⟨weights, generated, points⟩ := gridWeights_ok whole
  have member := mem_gridWeights pos whole points
  have distinct : weights.Nodup := by
    apply List.Nodup.of_map WeightVector.coordinates
    rw [points]
    exact (gridUnits_nodup units).map (gridPoint_injective pos)
  have keys : (weights.map roundedKey).Nodup := by
    apply distinct.map_on
    intro vector here vector' there same
    exact roundedKey_injOn coarse ((member vector).mp here) ((member vector').mp there) same
  refine ⟨⟨stepSize, weights⟩, ?_, distinct, member⟩
  rw [generateSimplexWeightGrid, stepUnits_ok.mpr ⟨le, pos, whole⟩, Except.ok_bind, generated,
    Except.ok_bind, CalibrationGrid.validated, if_neg (not_not.mpr ⟨pos, le⟩), if_neg]
  rw [keys.dedup]
  simp

theorem generated_cases (coarse : 1 / 1000000000000 < stepSize) {grid : CalibrationGrid}
    (ok : generateSimplexWeightGrid stepSize = .ok grid) :
    (stepSize ≤ 1 ∧ ∃ units : Nat, units * stepSize = 1) ∧ grid.weights.Nodup ∧
      ∀ vector, vector ∈ grid.weights ↔ OnGrid stepSize vector := by
  obtain ⟨units, stepped, -⟩ := Except.bind_eq_ok.mp ok
  obtain ⟨le, pos, whole⟩ := stepUnits_ok.mp stepped
  obtain ⟨grid', ok', facts⟩ := generate_ok coarse le whole
  rw [ok] at ok'
  cases ok'
  exact ⟨⟨le, units, whole⟩, facts⟩

/-! ## Coverage -/

theorem validateGridCoverage_ok {candidates : List CalibrationCandidate} {grid : CalibrationGrid} :
    validateGridCoverage candidates grid = .ok () ↔ ∀ key,
      (∃ candidate ∈ candidates, weightKey candidate.weights = key) ↔
        ∃ vector ∈ grid.weights, weightKey vector = key := by
  unfold validateGridCoverage
  dsimp only
  split_ifs with differ
  · apply iff_of_false (by simp)
    intro same
    rcases differ with missing | extra
    · obtain ⟨key, member⟩ := List.exists_mem_of_ne_nil _ missing
      simp only [List.mem_filter, List.mem_dedup, List.mem_map, decide_eq_true_eq] at member
      exact member.2 ((same key).mpr member.1)
    · obtain ⟨key, member⟩ := List.exists_mem_of_ne_nil _ extra
      simp only [List.mem_filter, List.mem_dedup, List.mem_map, decide_eq_true_eq] at member
      exact member.2 ((same key).mp member.1)
  · apply iff_of_true rfl
    simp only [not_or, not_not, List.filter_eq_nil_iff, List.mem_dedup, List.mem_map,
      decide_eq_true_eq] at differ
    exact fun key => ⟨differ.2 key, differ.1 key⟩

end

/-- One candidate for each vector of the grid with the step one. -/
def unitCandidates : List CalibrationCandidate :=
  ((generateSimplexWeightGrid 1).toOption.map fun grid =>
    grid.weights.map fun weights => sampleCandidate weights 3 4).getD []

end Magellan.Planning
