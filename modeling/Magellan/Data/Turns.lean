import Mathlib.Algebra.Order.Field.Basic
import Mathlib.Data.List.Induction
import Mathlib.Data.List.Nodup
import Mathlib.Data.List.Perm.Subperm
import Mathlib.Tactic.Linarith
import Mathlib.Tactic.Ring

/-!
# Taking turns by age

In each round one of the tasks with the greatest credit wins and starts again from zero; the others
gain one step. However ties are broken, the winners of as many rounds as there are tasks are all the
tasks, each once.
-/

namespace Turns

variable {τ : Type} {R : Type} [Field R] [LinearOrder R] [IsStrictOrderedRing R]

structure Round (tasks : List τ) (step maximum : R) (winner : τ) (before after : τ → R) : Prop where
  member : winner ∈ tasks
  greatest : ∀ t ∈ tasks, before t ≤ before winner
  reset : after winner = 0
  gain : ∀ t ∈ tasks, t ≠ winner → after t = min maximum (before t + step)

/-- The credits after rounds with these winners. -/
inductive Run (tasks : List τ) (step maximum : R) : List τ → (τ → R) → (τ → R) → Prop
  | nil (credit : τ → R) : Run tasks step maximum [] credit credit
  | snoc {winners : List τ} {winner : τ} {first before after : τ → R} :
      Run tasks step maximum winners first before →
      Round tasks step maximum winner before after →
      Run tasks step maximum (winners ++ [winner]) first after

/-- The last winners, the latest first; everybody else has waited for all of their rounds. -/
structure Recent (tasks : List τ) (step : R) (recent : List τ) (credit : τ → R) : Prop where
  nodup : recent.Nodup
  subset : recent ⊆ tasks
  aged : ∀ i (h : i < recent.length), credit recent[i] = i * step
  fresh : ∀ t ∈ tasks, t ∉ recent → credit t = recent.length * step

section

variable {tasks recent : List τ} {step maximum : R} {winner : τ} {before after : τ → R}

theorem length_le_of_subset {first : List τ} (nodup : first.Nodup) (subset : first ⊆ tasks) :
    first.length ≤ tasks.length := (nodup.subperm subset).length_le

omit [LinearOrder R] [IsStrictOrderedRing R] in
/-- Somebody has waited for as many rounds as have been, or for all but one of the tasks'. -/
theorem exists_waiting (distinct : tasks.Nodup) (h : Recent tasks step recent before)
    (some_ : tasks ≠ []) :
    ∃ t ∈ tasks, before t = (min recent.length (tasks.length - 1) : Nat) * step := by
  have bound := length_le_of_subset h.nodup h.subset
  by_cases full : recent.length = tasks.length
  · have positive : 0 < tasks.length := List.length_pos_iff.mpr some_
    have last : tasks.length - 1 < recent.length := by omega
    refine ⟨recent[tasks.length - 1], h.subset (List.getElem_mem last), ?_⟩
    rw [h.aged _ last, full, min_eq_right (Nat.sub_le _ _)]
  · have more : ∃ t ∈ tasks, t ∉ recent := by
      by_contra none_
      have all : tasks ⊆ recent := fun t member => not_not.mp fun new => none_ ⟨t, member, new⟩
      have := length_le_of_subset distinct all
      omega
    obtain ⟨t, member, new⟩ := more
    refine ⟨t, member, ?_⟩
    rw [h.fresh t member new, min_eq_left (by omega)]

theorem winner_waited (distinct : tasks.Nodup) (positive : 0 < step)
    (h : Recent tasks step recent before) (round : Round tasks step maximum winner before after) :
    winner ∉ recent.take (tasks.length - 1) := by
  intro member
  obtain ⟨i, bound, rfl⟩ := List.mem_iff_getElem.mp member
  rw [List.length_take] at bound
  have some_ : tasks ≠ [] := List.ne_nil_of_mem round.member
  obtain ⟨t, waiting, credit⟩ := exists_waiting distinct h some_
  have less := round.greatest t waiting
  rw [List.getElem_take, credit, h.aged i (by omega)] at less
  have order := le_of_mul_le_mul_right less positive
  have order : min recent.length (tasks.length - 1) ≤ i := by exact_mod_cast order
  omega

theorem recent_round (distinct : tasks.Nodup) (positive : 0 < step)
    (room : ((tasks.length - 1 : Nat) : R) * step ≤ maximum) (h : Recent tasks step recent before)
    (round : Round tasks step maximum winner before after) :
    Recent tasks step (winner :: recent.take (tasks.length - 1)) after := by
  have waited := winner_waited distinct positive h round
  have older : recent.take (tasks.length - 1) ⊆ tasks :=
    fun t member => h.subset (List.mem_of_mem_take member)
  have nodup : (winner :: recent.take (tasks.length - 1)).Nodup :=
    List.nodup_cons.mpr ⟨waited, h.nodup.sublist (List.take_sublist _ _)⟩
  have subset : winner :: recent.take (tasks.length - 1) ⊆ tasks :=
    List.cons_subset.mpr ⟨round.member, older⟩
  -- nobody gains beyond the maximum
  have within (k : Nat) (bound : k ≤ tasks.length - 1) : min maximum ((k : R) * step) = k * step := by
    apply min_eq_right
    have : (k : R) ≤ ((tasks.length - 1 : Nat) : R) := by exact_mod_cast bound
    exact (mul_le_mul_of_nonneg_right this positive.le).trans room
  refine ⟨nodup, subset, ?_, ?_⟩
  · intro i bound
    cases i with
    | zero => simpa using round.reset
    | succ i =>
        have bound : i < (recent.take (tasks.length - 1)).length := by simpa using bound
        have other : (recent.take (tasks.length - 1))[i] ≠ winner :=
          fun same => waited (same ▸ List.getElem_mem bound)
        rw [List.length_take] at bound
        have gain := round.gain _ (older (List.getElem_mem _)) other
        rw [List.getElem_cons_succ, gain, List.getElem_take, h.aged i (by omega)]
        have next : (i : R) * step + step = ((i + 1 : Nat) : R) * step := by push_cast; ring
        rw [next, within (i + 1) (by omega)]
  · intro t member new
    rw [List.mem_cons, not_or] at new
    have two : (t :: winner :: recent.take (tasks.length - 1)).length ≤ tasks.length :=
      length_le_of_subset (List.nodup_cons.mpr ⟨by simpa [not_or] using new, nodup⟩)
        (List.cons_subset.mpr ⟨member, subset⟩)
    rw [List.length_cons, List.length_cons, List.length_take] at two
    have all : recent.take (tasks.length - 1) = recent := List.take_of_length_le (by omega)
    rw [all] at new ⊢
    have gain := round.gain t member new.1
    rw [gain, h.fresh t member new.2, List.length_cons]
    have next : (recent.length : R) * step + step = ((recent.length + 1 : Nat) : R) * step := by
      push_cast
      ring
    rw [next, within (recent.length + 1) (by omega)]

theorem run_recent {winners : List τ} {first credit : τ → R} (distinct : tasks.Nodup)
    (positive : 0 < step) (room : ((tasks.length - 1 : Nat) : R) * step ≤ maximum)
    (zero : ∀ t ∈ tasks, first t = 0) (run : Run tasks step maximum winners first credit) :
    Recent tasks step (winners.reverse.take tasks.length) credit := by
  induction run with
  | nil credit =>
      refine ⟨by simp, by simp, ?_, ?_⟩
      · intro i bound
        simp at bound
      · intro t member _
        simpa using zero t member
  | @snoc winners winner _ _ _ run round ih =>
      have next := recent_round distinct positive room (ih zero) round
      have some_ : 0 < tasks.length := List.length_pos_of_mem round.member
      obtain ⟨n, size⟩ : ∃ n, tasks.length = n + 1 := ⟨tasks.length - 1, by omega⟩
      rw [List.take_take, size, Nat.add_sub_cancel, min_eq_left (Nat.le_succ n)] at next
      rw [List.reverse_append, List.reverse_singleton, List.singleton_append, size,
        List.take_succ_cons]
      exact next

omit [IsStrictOrderedRing R] in
theorem run_earlier {later winners : List τ} {first credit : τ → R}
    (run : Run tasks step maximum (winners ++ later) first credit) :
    ∃ between, Run tasks step maximum winners first between := by
  induction later using List.reverseRecOn generalizing credit with
  | nil => exact ⟨credit, by simpa using run⟩
  | append_singleton later last ih =>
      rw [← List.append_assoc] at run
      generalize all : winners ++ later ++ [last] = rounds at run
      cases run with
      | nil => simp at all
      | snoc run round =>
          rw [(List.append_inj' all rfl).1] at ih
          exact ih run

theorem winners_perm {earlier window later : List τ} {first credit : τ → R} (distinct : tasks.Nodup)
    (positive : 0 < step) (room : ((tasks.length - 1 : Nat) : R) * step ≤ maximum)
    (zero : ∀ t ∈ tasks, first t = 0)
    (run : Run tasks step maximum (earlier ++ window ++ later) first credit)
    (length : window.length = tasks.length) : window.Perm tasks := by
  obtain ⟨between, run⟩ := run_earlier run
  have recent := run_recent distinct positive room zero run
  rw [List.reverse_append, ← length, List.take_append_of_le_length (by simp),
    List.take_of_length_le (by simp)] at recent
  have nodup : window.Nodup := List.nodup_reverse.mp recent.nodup
  have subset : window ⊆ tasks := fun t member => recent.subset (List.mem_reverse.mpr member)
  exact (nodup.subperm subset).perm_of_length_le length.ge

end

end Turns
