import Magellan.Coroutine.Rules

/-!
# Operations made of finer operations

A coroutine whose operations are not atomic: each of them is carried out by a coroutine over finer
operations, between which the rest of the program runs.
-/

namespace Coroutine

variable {Op Op' : Type} {Ret : Op → Type} {Ret' : Op' → Type} {ε α β : Type}

namespace Coro

/-- Carry out every operation of a coroutine by `impl`. -/
def implement (impl : (o : Op) → Coro Op' Ret' ε (Ret o)) :
    Coro Op Ret ε α → Coro Op' Ret' ε α
  | .done r => .done r
  | .perform o k => (impl o).andThen fun r => implement impl (k r)

variable {impl : (o : Op) → Coro Op' Ret' ε (Ret o)}

theorem andThen_done_right (p : Coro Op Ret ε α) : p.andThen .done = p := by
  induction p with
  | done r => rfl
  | perform o k ih =>
      rw [andThen_perform]
      congr 1
      funext r
      exact ih r

theorem implement_andThen (p : Coro Op Ret ε α) (f : Except ε α → Coro Op Ret ε β) :
    (p.andThen f).implement impl = (p.implement impl).andThen fun r => (f r).implement impl := by
  induction p with
  | done r => rfl
  | perform o k ih =>
      change (impl o).andThen _ = ((impl o).andThen _).andThen _
      rw [andThen_assoc]
      congr 1
      funext r
      exact ih r

theorem implement_op (o : Op) : (op o : Coro Op Ret ε (Ret o)).implement impl = impl o :=
  andThen_done_right (impl o)

theorem implement_attempt (p : Coro Op Ret ε α) (ok : α → Coro Op Ret ε β)
    (err : ε → Coro Op Ret ε β) :
    (p.attempt ok err).implement impl =
      (p.implement impl).attempt (fun a => (ok a).implement impl)
        fun e => (err e).implement impl := by
  unfold attempt
  rw [implement_andThen]
  congr 1
  funext r
  cases r <;> rfl

theorem implement_bind (p : Coro Op Ret ε α) (f : α → Coro Op Ret ε β) :
    (p >>= f).implement impl = p.implement impl >>= fun a => (f a).implement impl :=
  implement_attempt p f raise

theorem implement_tryExcept (p : Coro Op Ret ε α) (h : ε → Coro Op Ret ε α) :
    (p.tryExcept h).implement impl =
      (p.implement impl).tryExcept fun e => (h e).implement impl :=
  implement_attempt p _ h

theorem implement_tryFinally (p : Coro Op Ret ε α) (f : Except ε α → Coro Op Ret ε Unit) :
    (p.tryFinally f).implement impl =
      (p.implement impl).tryFinally fun r => (f r).implement impl := by
  unfold tryFinally
  rw [implement_andThen]
  congr 1
  funext r
  exact implement_attempt ..

theorem Performs.implement {P : Op → Prop} {Q : Op' → Prop} {p : Coro Op Ret ε α}
    (h : p.Performs P) (each : ∀ o, P o → (impl o).Performs Q) : (p.implement impl).Performs Q := by
  induction p with
  | done r => trivial
  | perform o k ih => exact (each o h.1).andThen fun r => ih r (h.2 r)

theorem Raises.implement {S : Op' → ε → Prop} {E : Op → ε → Prop} {R : ε → Prop}
    {p : Coro Op Ret ε α} (h : p.Raises E R) (each : ∀ o, (impl o).Raises S (E o)) :
    (p.implement impl).Raises S R := by
  induction p with
  | done r => cases r <;> exact h
  | perform o k ih =>
      exact (each o).andThen (fun a => ih _ (h.1 a)) fun e may => ih _ (h.2 e may)

end Coro

variable {Choice World : Type}

/-- The triple of a coroutine whose operations are carried out by `impl`. -/
def Carried (exec : Semantics Op' Ret' ε Choice World) (K : Contract Op' Choice World)
    (impl : (o : Op) → Coro Op' Ret' ε (Ret o)) (A : World → Prop) (p : Coro Op Ret ε α)
    (B : α → World → Prop) (E : ε → World → Prop) : Prop :=
  Triple exec K A (p.implement impl) B E

namespace Carried

variable {exec : Semantics Op' Ret' ε Choice World} {K : Contract Op' Choice World}
  {impl : (o : Op) → Coro Op' Ret' ε (Ret o)} {A A' : World → Prop} {B D : α → World → Prop}
  {E F : ε → World → Prop} {p : Coro Op Ret ε α} {P : Op → Prop}

theorem op {o : Op} {B : Ret o → World → Prop} (h : Triple exec K A (impl o) B E) :
    Carried exec K impl A (Coro.op o : Coro Op Ret ε (Ret o)) B E := by
  unfold Carried
  rw [Coro.implement_op]
  exact h

theorem pure {a : α} (stable : K.Stable (B a)) (h : ∀ w, A w → B a w) :
    Carried exec K impl A (Pure.pure a : Coro Op Ret ε α) B E := Triple.pure stable h

theorem raise {e : ε} (stable : K.Stable (E e)) (h : ∀ w, A w → E e w) :
    Carried exec K impl A (Coro.raise e : Coro Op Ret ε α) B E := Triple.raise stable h

theorem bind {f : α → Coro Op Ret ε β} {C : β → World → Prop} (hp : Carried exec K impl A p B E)
    (hf : ∀ a, Carried exec K impl (B a) (f a) C E) : Carried exec K impl A (p >>= f) C E := by
  unfold Carried
  rw [Coro.implement_bind]
  exact Triple.bind hp hf

theorem attempt {f : α → Coro Op Ret ε β} {h : ε → Coro Op Ret ε β} {C : β → World → Prop}
    (hp : Carried exec K impl A p B F) (hf : ∀ a, Carried exec K impl (B a) (f a) C E)
    (hh : ∀ e, Carried exec K impl (F e) (h e) C E) :
    Carried exec K impl A (p.attempt f h) C E := by
  unfold Carried
  rw [Coro.implement_attempt]
  exact Triple.attempt hp hf hh

theorem tryExcept {h : ε → Coro Op Ret ε α} (hp : Carried exec K impl A p B F)
    (hh : ∀ e, Carried exec K impl (F e) (h e) B E) :
    Carried exec K impl A (p.tryExcept h) B E := by
  unfold Carried
  rw [Coro.implement_tryExcept]
  exact Triple.tryExcept hp hh

theorem tryFinally {f : Except ε α → Coro Op Ret ε Unit} (hp : Carried exec K impl A p D F)
    (ok : ∀ a, Carried exec K impl (D a) (f (.ok a)) (fun _ => B a) E)
    (err : ∀ e, Carried exec K impl (F e) (f (.error e)) (fun _ => E e) E) :
    Carried exec K impl A (p.tryFinally f) B E := by
  unfold Carried
  rw [Coro.implement_tryFinally]
  exact Triple.tryFinally hp ok err

theorem ite {c : Prop} [Decidable c] {q : Coro Op Ret ε α}
    (hp : c → Carried exec K impl A p B E) (hq : ¬ c → Carried exec K impl A q B E) :
    Carried exec K impl A (if c then p else q) B E := by
  by_cases h : c
  · rw [if_pos h]
    exact hp h
  · rw [if_neg h]
    exact hq h

theorem weaken (h : Carried exec K impl A p B E) (pre : ∀ w, A' w → A w)
    (ok : ∀ a w, B a w → D a w) (err : ∀ e w, E e w → F e w) : Carried exec K impl A' p D F :=
  Triple.weaken h pre ok err

theorem of_performs (stable : K.Stable A) (h : p.Performs P)
    (keeps : ∀ o, P o → Triple exec K A (impl o) (fun _ => A) fun _ => A) :
    Carried exec K impl A p (fun _ => A) fun _ => A := by
  induction p with
  | done r => exact Triple.done (by cases r <;> exact stable) fun _ a => by cases r <;> exact a
  | perform o k ih =>
      refine (keeps o h.1).andThen fun r => ?_
      cases r with
      | ok a => exact ih _ (h.2 _)
      | error e => exact ih _ (h.2 _)

end Carried

end Coroutine
