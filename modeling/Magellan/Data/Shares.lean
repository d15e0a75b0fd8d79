import Mathlib.Algebra.BigOperators.Field
import Mathlib.Algebra.Order.BigOperators.Group.Finset
import Mathlib.Algebra.Order.Field.Basic
import Mathlib.Tactic.Linarith

/-!
# Shares of a whole

Weights that add up to one are multiplied and divided by their sum again. With multipliers between one
and a bound each share stays within the bound of its weight, and it follows its own multiplier.
-/

open Finset

variable {ι F : Type} [Fintype ι] [Field F]

def share (weight multiplier : ι → F) (i : ι) : F :=
  weight i * multiplier i / ∑ j, weight j * multiplier j

namespace Share

variable {weight multiplier multiplier' : ι → F} {bound : F} {i j : ι}

theorem sum_eq_one (some : ∑ j, weight j * multiplier j ≠ 0) : ∑ i, share weight multiplier i = 1 := by
  unfold share
  rw [← sum_div]
  exact div_self some

variable [LinearOrder F] [IsStrictOrderedRing F] (nonneg : ∀ i, 0 ≤ weight i)
include nonneg

section Bounds

variable (total : ∑ i, weight i = 1)
include total

theorem sum_le (greatest : ∀ i, multiplier i ≤ bound) : ∑ j, weight j * multiplier j ≤ bound := by
  calc ∑ j, weight j * multiplier j ≤ ∑ j, weight j * bound :=
        sum_le_sum fun j _ => mul_le_mul_of_nonneg_left (greatest j) (nonneg j)
    _ = bound := by rw [← sum_mul, total, one_mul]

variable (least : ∀ i, 1 ≤ multiplier i)
include least

theorem one_le_sum : 1 ≤ ∑ j, weight j * multiplier j := by
  rw [← total]
  exact sum_le_sum fun j _ => le_mul_of_one_le_right (nonneg j) (least j)

variable (greatest : ∀ i, multiplier i ≤ bound)
include greatest

theorem le_mul (i : ι) : share weight multiplier i ≤ weight i * bound := by
  have whole := one_le_sum nonneg total least
  have part : 0 ≤ weight i * multiplier i :=
    mul_nonneg (nonneg i) (zero_le_one.trans (least i))
  exact (div_le_self part whole).trans (mul_le_mul_of_nonneg_left (greatest i) (nonneg i))

theorem div_le (i : ι) : weight i / bound ≤ share weight multiplier i := by
  have whole : 0 < ∑ j, weight j * multiplier j :=
    zero_lt_one.trans_le (one_le_sum nonneg total least)
  exact div_le_div₀ (mul_nonneg (nonneg i) (zero_le_one.trans (least i)))
    (le_mul_of_one_le_right (nonneg i) (least i)) whole (sum_le nonneg total greatest)

end Bounds

section Monotone

variable [DecidableEq ι] (more : multiplier i ≤ multiplier' i)
  (others : ∀ j, j ≠ i → multiplier' j = multiplier j)
include more others

theorem sum_mono : ∑ j, weight j * multiplier j ≤ ∑ j, weight j * multiplier' j := by
  apply sum_le_sum
  intro j _
  by_cases same : j = i
  · rw [same]
    exact mul_le_mul_of_nonneg_left more (nonneg i)
  · rw [others j same]

variable (some : 0 < ∑ j, weight j * multiplier j) (positive : ∀ i, 0 ≤ multiplier i)
include some positive

/-- The other shares do not grow. -/
theorem other_le (other : j ≠ i) :
    share weight multiplier' j ≤ share weight multiplier j := by
  unfold share
  rw [others j other]
  exact div_le_div_of_nonneg_left (mul_nonneg (nonneg j) (positive j)) some
    (sum_mono nonneg more others)

/-- The share whose multiplier grows does not shrink. -/
theorem own_le : share weight multiplier i ≤ share weight multiplier' i := by
  have whole : 0 < ∑ j, weight j * multiplier' j := some.trans_le (sum_mono nonneg more others)
  have own : ∑ j, share weight multiplier j = 1 := sum_eq_one some.ne'
  have own' : ∑ j, share weight multiplier' j = 1 := sum_eq_one whole.ne'
  have less : ∑ j ∈ univ.erase i, share weight multiplier' j ≤
      ∑ j ∈ univ.erase i, share weight multiplier j :=
    sum_le_sum fun j inside => other_le nonneg more others some positive (ne_of_mem_erase inside)
  rw [← add_sum_erase univ _ (mem_univ i)] at own own'
  linarith

end Monotone

end Share
