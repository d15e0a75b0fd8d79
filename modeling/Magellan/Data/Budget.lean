import Magellan.Data.Fallible

/-!
# Loops with a budget

A loop that asks whether it is done before each round, and fails when its rounds are used up. It is
compared with the loop that has no budget.
-/

namespace Budget

variable {σ ε : Type} (done : σ → Bool) (round : Nat → σ → Except ε σ)

/-- Rounds `index`, `index + 1` and so on, as many as there are. -/
def loop (exhausted : ε) : Nat → Nat → σ → Except ε σ
  | 0, _, _ => .error exhausted
  | rounds + 1, index, s =>
    if done s then .ok s
    else do
      let t ← round index s
      loop exhausted rounds (index + 1) t

/-- So many rounds from a state, none of which starts when it is done. -/
inductive Rounds : Nat → Nat → σ → σ → Prop
  | nil {index : Nat} {s : σ} : Rounds 0 index s s
  | cons {rounds index : Nat} {s t u : σ} (open_ : done s = false) (here : round index s = .ok t)
      (rest : Rounds rounds (index + 1) t u) : Rounds (rounds + 1) index s u

variable {done round} {exhausted e : ε} {rounds rounds' index : Nat} {s t u : σ}

theorem Rounds.keeps {P : Nat → σ → Prop}
    (step : ∀ index s t, P index s → done s = false → round index s = .ok t → P (index + 1) t)
    (run : Rounds done round rounds index s t) (holds : P index s) : P (index + rounds) t := by
  induction run with
  | nil => exact holds
  | cons open_ here rest ih =>
      have after := ih (step _ _ _ holds open_ here)
      rwa [Nat.add_assoc, Nat.add_comm 1] at after

theorem Rounds.unique (run : Rounds done round rounds index s t) (finished : done t = true)
    (run' : Rounds done round rounds' index s u) (finished' : done u = true) :
    rounds = rounds' ∧ t = u := by
  induction run generalizing rounds' with
  | nil =>
      cases run' with
      | nil => exact ⟨rfl, rfl⟩
      | cons open_ _ _ =>
          rw [finished] at open_
          cases open_
  | cons open_ here rest ih =>
      cases run' with
      | nil =>
          rw [finished'] at open_
          cases open_
      | cons open_' here' rest' =>
          rw [here] at here'
          cases here'
          obtain ⟨same, rfl⟩ := ih finished rest'
          exact ⟨congrArg (· + 1) same, rfl⟩

/-- The loop returns where it is done with a round to spare. -/
theorem loop_eq_ok_iff :
    loop done round exhausted rounds index s = .ok t ↔
      ∃ taken < rounds, Rounds done round taken index s t ∧ done t = true := by
  induction rounds generalizing index s with
  | zero =>
      constructor
      · intro h
        cases h
      · rintro ⟨taken, less, -⟩
        exact absurd less (Nat.not_lt_zero taken)
  | succ rounds ih =>
      rw [loop]
      cases here : done s with
      | true =>
          rw [if_pos rfl]
          constructor
          · intro h
            cases h
            exact ⟨0, Nat.succ_pos _, .nil, here⟩
          · rintro ⟨taken, -, run, -⟩
            cases run with
            | nil => rfl
            | cons open_ _ _ =>
                rw [here] at open_
                cases open_
      | false =>
          rw [if_neg Bool.false_ne_true, Except.bind_eq_ok]
          constructor
          · rintro ⟨u, ran, rest⟩
            obtain ⟨taken, less, run, finished⟩ := ih.mp rest
            exact ⟨taken + 1, Nat.succ_lt_succ less, .cons here ran run, finished⟩
          · rintro ⟨taken, less, run, finished⟩
            cases run with
            | nil =>
                rw [here] at finished
                cases finished
            | cons open_ ran rest =>
                exact ⟨_, ran, ih.mpr ⟨_, Nat.lt_of_succ_lt_succ less, rest, finished⟩⟩

/-- As many rounds as there are use the budget up, also when the last of them ends the work. -/
theorem loop_of_rounds (run : Rounds done round rounds index s t) :
    loop done round exhausted rounds index s = .error exhausted := by
  induction run with
  | nil => rfl
  | cons open_ here rest ih =>
      rw [loop, if_neg (by rw [open_]; exact Bool.false_ne_true), here]
      exact ih

end Budget
