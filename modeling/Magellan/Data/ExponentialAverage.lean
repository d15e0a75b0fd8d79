import Mathlib.Analysis.Convex.Basic

/-!
# Exponential averages

An exponential average mixes each new value with the average so far, so it stays in every convex set
that the values are in.
-/

namespace ExponentialAverage

variable {K : Type*} [Field K]

/-- The average after one more value. -/
def step (alpha observed : K) : Option K → K
  | none => observed
  | some previous => alpha * observed + (1 - alpha) * previous

/-- The average of the values, the latest one last. -/
def average (alpha : K) (values : List K) : Option K :=
  values.foldl (fun previous observed => some (step alpha observed previous)) none

@[simp] theorem average_concat (alpha : K) (values : List K) (observed : K) :
    average alpha (values ++ [observed]) = some (step alpha observed (average alpha values)) := by
  rw [average, List.foldl_append]
  rfl

variable [LinearOrder K] [IsStrictOrderedRing K]

section

variable {alpha : K} (nonneg : 0 ≤ alpha) (atMost : alpha ≤ 1) {s : Set K} (convex : Convex K s)
include nonneg atMost convex

theorem step_mem {observed : K} {previous : Option K} (new : observed ∈ s)
    (old : ∀ x ∈ previous, x ∈ s) : step alpha observed previous ∈ s := by
  cases previous with
  | none => exact new
  | some x => exact convex new (old x rfl) nonneg (sub_nonneg.mpr atMost) (add_sub_cancel alpha 1)

theorem average_mem {values : List K} (inside : ∀ x ∈ values, x ∈ s) :
    ∀ x ∈ average alpha values, x ∈ s := by
  induction values using List.reverseRecOn with
  | nil =>
      intro x is
      cases is
  | append_singleton values observed ih =>
      intro x is
      rw [average_concat, Option.mem_some_iff] at is
      rw [← is]
      exact step_mem nonneg atMost convex (inside observed (by simp))
        (ih fun y mem => inside y (List.mem_append_left _ mem))

end

/-- Some value is not above the average, and some value is not below it. -/
theorem average_between {alpha : K} (nonneg : 0 ≤ alpha) (atMost : alpha ≤ 1) {values : List K} {x : K}
    (is : average alpha values = some x) : (∃ y ∈ values, y ≤ x) ∧ ∃ y ∈ values, x ≤ y := by
  constructor
  · by_contra above
    push Not at above
    exact lt_irrefl x (average_mem nonneg atMost (convex_Ioi x) above x is)
  · by_contra below
    push Not at below
    exact lt_irrefl x (average_mem nonneg atMost (convex_Iio x) below x is)

end ExponentialAverage
