import Magellan.Experiments.Conservation

/-!
# The budget of decisions

Whether the work is done is asked before each decision, and not after the last one.
-/

namespace Magellan.Planning

namespace ReplayArguments

variable (a : ReplayArguments)

/-- The replay without a budget is done after so many decisions. -/
def FinishesAfter (decisions : Nat) : Prop :=
  a.Supported ∧ ∃ s, Budget.Rounds isDone a.step decisions 1 a.initial s ∧ isDone s = true

/-- A completed outcome where the budget is enough, and else an exception. -/
structure BudgetIsExact : Prop where
  completes : (∃ decisions ≤ a.maxDecisions, a.FinishesAfter decisions) →
    ∃ outcome, a.replayCausalPolicy = .ok outcome ∧ outcome.completed = true
  raises : (¬ ∃ decisions ≤ a.maxDecisions, a.FinishesAfter decisions) →
    ∃ e, a.replayCausalPolicy = .error e

variable {a}

/-- The budget is no part of what the replay without one does. -/
theorem finishesAfter_withBudget (maxDecisions decisions : Nat) :
    { a with maxDecisions }.FinishesAfter decisions ↔ a.FinishesAfter decisions := Iff.rfl

theorem FinishesAfter.unique {decisions decisions' : Nat} (finishes : a.FinishesAfter decisions)
    (finishes' : a.FinishesAfter decisions') : decisions = decisions' := by
  obtain ⟨-, s, run, done⟩ := finishes
  obtain ⟨-, s', run', done'⟩ := finishes'
  exact (run.unique done run' done').1

theorem completes_of_finishesBefore {decisions : Nat} (finishes : a.FinishesAfter decisions)
    (less : decisions < a.maxDecisions) :
    ∃ outcome, a.replayCausalPolicy = .ok outcome ∧ outcome.completed = true := by
  obtain ⟨supported, s, run, done⟩ := finishes
  exact ⟨a.outcome s, replay_ok_iff.mpr ⟨supported, decisions, less, s, run, done, rfl⟩, done⟩

theorem exhausted_of_finishesAt (finishes : a.FinishesAfter a.maxDecisions) :
    a.replayCausalPolicy = .error a.exhausted := by
  obtain ⟨supported, s, run, -⟩ := finishes
  rw [replay_of_supported supported, Budget.loop_of_rounds run]
  rfl

end ReplayArguments

open ReplayArguments

/-- The budget is exact save where the work is done with the last decision that it allows. -/
theorem budgetIsExact_iff (a : ReplayArguments) :
    a.BudgetIsExact ↔ ¬ a.FinishesAfter a.maxDecisions := by
  constructor
  · intro exact_ finishes
    obtain ⟨outcome, returned, -⟩ := exact_.completes ⟨a.maxDecisions, le_rfl, finishes⟩
    rw [exhausted_of_finishesAt finishes] at returned
    cases returned
  · intro notAt
    constructor
    · rintro ⟨decisions, atMost, finishes⟩
      have less : decisions < a.maxDecisions := by
        apply lt_of_le_of_ne atMost
        rintro rfl
        exact notAt finishes
      exact completes_of_finishesBefore finishes less
    · intro never
      cases replayed : a.replayCausalPolicy with
      | error e => exact ⟨e, rfl⟩
      | ok outcome =>
          obtain ⟨supported, decisions, less, s, run, done, -⟩ := replay_ok_iff.mp replayed
          exact absurd ⟨decisions, less.le, supported, s, run, done⟩ never

/-- Three decisions finish the workload of half an hour, and three are not enough. -/
theorem halfHour_given_up :
    (halfHour 3).FinishesAfter 3 ∧
      (halfHour 3).replayCausalPolicy =
        .error (runtimeError "Causal replay exceeded 3 decisions without completing") ∧
      ¬ (halfHour 3).BudgetIsExact := by
  have returns : (halfHour 4).replayCausalPolicy.isOk = true := by decide +kernel
  have fails : (halfHour 3).replayCausalPolicy.isOk = false := by decide +kernel
  have finishes : (halfHour 3).FinishesAfter 3 := by
    cases replayed : (halfHour 4).replayCausalPolicy with
    | error e =>
        rw [replayed] at returns
        cases returns
    | ok outcome =>
        obtain ⟨supported, decisions, less, s, run, done, -⟩ := replay_ok_iff.mp replayed
        have after : (halfHour 3).FinishesAfter decisions := ⟨supported, s, run, done⟩
        rcases Nat.lt_succ_iff_lt_or_eq.mp less with fewer | rfl
        · obtain ⟨outcome, returned, -⟩ := completes_of_finishesBefore after fewer
          rw [returned] at fails
          cases fails
        · exact after
  exact ⟨finishes, exhausted_of_finishesAt finishes, fun exact_ => (budgetIsExact_iff _).mp exact_ finishes⟩

end Magellan.Planning
