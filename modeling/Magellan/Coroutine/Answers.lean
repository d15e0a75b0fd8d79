import Magellan.Coroutine.Traces

/-!
# Runs with given answers

What a coroutine does in all runs in which the operations answer as they can.
-/

namespace Coroutine.Coro

variable {Op : Type} {Ret : Op → Type} {ε α β : Type}
  (answers : (o : Op) → Except ε (Ret o) → Prop) (P : Op → Prop)

/-- Every operation of every run satisfies `P`. -/
def Always : Coro Op Ret ε α → Prop
  | .done _ => True
  | .perform o k => P o ∧ ∀ a, answers o a → Always (k a)

/-- Some run ends with `r`. -/
def Gives (r : Except ε α) : Coro Op Ret ε α → Prop
  | .done r' => r' = r
  | .perform o k => ∃ a, answers o a ∧ Gives r (k a)

variable {answers P}

@[simp] theorem always_pure (a : α) : (pure a : Coro Op Ret ε α).Always answers P := trivial

@[simp] theorem always_raise (e : ε) : (raise e : Coro Op Ret ε α).Always answers P := trivial

@[simp] theorem always_op {o : Op} : (op o : Coro Op Ret ε (Ret o)).Always answers P ↔ P o :=
  ⟨fun h => h.1, fun h => ⟨h, fun _ _ => trivial⟩⟩

theorem always_andThen {p : Coro Op Ret ε α} {f : Except ε α → Coro Op Ret ε β} :
    (p.andThen f).Always answers P ↔
      p.Always answers P ∧ ∀ r, p.Gives answers r → (f r).Always answers P := by
  induction p with
  | done r =>
      constructor
      · exact fun h => ⟨trivial, fun r' same => same ▸ h⟩
      · exact fun h => h.2 r rfl
  | perform o k ih =>
      constructor
      · intro h
        refine ⟨⟨h.1, fun a can => ((ih a).mp (h.2 a can)).1⟩, ?_⟩
        rintro r ⟨a, can, gives⟩
        exact ((ih a).mp (h.2 a can)).2 r gives
      · intro h
        refine ⟨h.1.1, fun a can => (ih a).mpr ⟨h.1.2 a can, fun r gives => h.2 r ⟨a, can, gives⟩⟩⟩

theorem always_attempt {p : Coro Op Ret ε α} {ok : α → Coro Op Ret ε β} {err : ε → Coro Op Ret ε β} :
    (p.attempt ok err).Always answers P ↔
      p.Always answers P ∧ (∀ a, p.Gives answers (.ok a) → (ok a).Always answers P) ∧
        ∀ e, p.Gives answers (.error e) → (err e).Always answers P := by
  rw [attempt, always_andThen]
  refine and_congr_right fun _ => ⟨fun h => ⟨fun a => h (.ok a), fun e => h (.error e)⟩, ?_⟩
  rintro ⟨ok, err⟩ (e | a)
  · exact err e
  · exact ok a

theorem always_bind {p : Coro Op Ret ε α} {f : α → Coro Op Ret ε β} :
    (p >>= f).Always answers P ↔
      p.Always answers P ∧ ∀ a, p.Gives answers (.ok a) → (f a).Always answers P := by
  rw [bind_def, always_attempt]
  exact and_congr_right fun _ => ⟨fun h => h.1, fun h => ⟨h, fun _ _ => trivial⟩⟩

theorem always_ite {c : Prop} [Decidable c] {p q : Coro Op Ret ε α} :
    (if c then p else q).Always answers P ↔
      (c → p.Always answers P) ∧ (¬ c → q.Always answers P) := by
  split <;> simp [*]

theorem Performs.always {p : Coro Op Ret ε α} (h : p.Performs P) : p.Always answers P := by
  induction p with
  | done r => trivial
  | perform o k ih => exact ⟨h.1, fun a _ => ih a (h.2 a)⟩

theorem Always.mono {Q : Op → Prop} {p : Coro Op Ret ε α} (h : p.Always answers P)
    (weaker : ∀ o, P o → Q o) : p.Always answers Q := by
  induction p with
  | done r => trivial
  | perform o k ih => exact ⟨weaker o h.1, fun a can => ih a (h.2 a can)⟩

theorem gives_op {o : Op} {r : Except ε (Ret o)} :
    (op o : Coro Op Ret ε (Ret o)).Gives answers r ↔ answers o r := by
  constructor
  · rintro ⟨a, can, rfl⟩
    exact can
  · exact fun can => ⟨r, can, rfl⟩

@[simp] theorem not_gives_raise {e : ε} {a : α} :
    ¬ (raise e : Coro Op Ret ε α).Gives answers (.ok a) := fun h => by cases h

theorem gives_andThen {p : Coro Op Ret ε α} {f : Except ε α → Coro Op Ret ε β} {r : Except ε β} :
    (p.andThen f).Gives answers r ↔ ∃ r', p.Gives answers r' ∧ (f r').Gives answers r := by
  induction p with
  | done r' =>
      constructor
      · exact fun h => ⟨r', rfl, h⟩
      · rintro ⟨_, rfl, h⟩
        exact h
  | perform o k ih =>
      constructor
      · rintro ⟨a, can, h⟩
        obtain ⟨r', gives, rest⟩ := (ih a).mp h
        exact ⟨r', ⟨a, can, gives⟩, rest⟩
      · rintro ⟨r', ⟨a, can, gives⟩, rest⟩
        exact ⟨a, can, (ih a).mpr ⟨r', gives, rest⟩⟩

theorem gives_bind {p : Coro Op Ret ε α} {f : α → Coro Op Ret ε β} {b : β} :
    (p >>= f).Gives answers (.ok b) ↔ ∃ a, p.Gives answers (.ok a) ∧ (f a).Gives answers (.ok b) := by
  rw [bind_def, attempt, gives_andThen]
  constructor
  · rintro ⟨e | a, gives, rest⟩
    · exact absurd rest not_gives_raise
    · exact ⟨a, gives, rest⟩
  · rintro ⟨a, gives, rest⟩
    exact ⟨.ok a, gives, rest⟩

theorem Gives.perform {o : Op} {f : Ret o → Coro Op Ret ε β} {r : Except ε β} (a : Ret o)
    (can : answers o (.ok a)) (rest : (f a).Gives answers r) : (op o >>= f).Gives answers r :=
  ⟨.ok a, can, rest⟩

end Coroutine.Coro
