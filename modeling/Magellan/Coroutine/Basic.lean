import Mathlib.Logic.Relation
import Mathlib.Tactic.Common

/-!
# Coroutines

A coroutine of an event loop is a tree: it has returned or raised, or it performs one operation and
continues with what the operation returned or raised. Operations are atomic; whatever else the
program does concurrently happens between two of them, and a crash drops the rest of the tree.
-/

namespace Coroutine

inductive Coro (Op : Type) (Ret : Op → Type) (ε : Type) (α : Type) : Type where
  | done : Except ε α → Coro Op Ret ε α
  | perform : (o : Op) → (Except ε (Ret o) → Coro Op Ret ε α) → Coro Op Ret ε α

namespace Coro

variable {Op : Type} {Ret : Op → Type} {ε α β γ : Type}

/-- Continue with the outcome of `p`, returned or raised. -/
def andThen : Coro Op Ret ε α → (Except ε α → Coro Op Ret ε β) → Coro Op Ret ε β
  | .done r, f => f r
  | .perform o k, f => .perform o fun r => andThen (k r) f

def raise (e : ε) : Coro Op Ret ε α := .done (.error e)

/-- `try: p` followed by `ok`, with the handler `err` in force for `p` only. -/
def attempt (p : Coro Op Ret ε α) (ok : α → Coro Op Ret ε β) (err : ε → Coro Op Ret ε β) :
    Coro Op Ret ε β :=
  p.andThen fun
    | .ok a => ok a
    | .error e => err e

/-- `try: p except: h`. -/
def tryExcept (p : Coro Op Ret ε α) (h : ε → Coro Op Ret ε α) : Coro Op Ret ε α :=
  p.attempt (fun a => .done (.ok a)) h

/-- `try: p finally: f`. An exception of `f` replaces the outcome of `p`. -/
def tryFinally (p : Coro Op Ret ε α) (f : Except ε α → Coro Op Ret ε Unit) : Coro Op Ret ε α :=
  p.andThen fun r => (f r).attempt (fun _ => .done r) raise

instance : Monad (Coro Op Ret ε) where
  pure a := .done (.ok a)
  bind p f := p.attempt f raise

/-- Perform one operation and return its result. -/
def op (o : Op) : Coro Op Ret ε (Ret o) := .perform o .done

@[simp] theorem andThen_done (r : Except ε α) (f : Except ε α → Coro Op Ret ε β) :
    (Coro.done r : Coro Op Ret ε α).andThen f = f r := rfl

@[simp] theorem andThen_perform (o : Op) (k : Except ε (Ret o) → Coro Op Ret ε α)
    (f : Except ε α → Coro Op Ret ε β) :
    (Coro.perform o k).andThen f = .perform o fun r => (k r).andThen f := rfl

theorem andThen_assoc (p : Coro Op Ret ε α) (f : Except ε α → Coro Op Ret ε β)
    (g : Except ε β → Coro Op Ret ε γ) :
    (p.andThen f).andThen g = p.andThen fun r => (f r).andThen g := by
  induction p with
  | done r => rfl
  | perform o k ih => simp [ih]

theorem bind_def (p : Coro Op Ret ε α) (f : α → Coro Op Ret ε β) :
    p >>= f = p.attempt f raise := rfl

theorem pure_def (a : α) : (pure a : Coro Op Ret ε α) = .done (.ok a) := rfl

end Coro

/-! ## Execution under interference -/

section Execution

variable {Op : Type} {Ret : Op → Type} {ε α β Choice World : Type}

/-- `exec o c w` is what operation `o` does in `w` when the environment resolves its
nondeterminism by `c`; `none` means that `c` is not possible. -/
abbrev Semantics (Op : Type) (Ret : Op → Type) (ε Choice World : Type) :=
  (o : Op) → Choice → World → Option (Except ε (Ret o) × World)

/-- `Reach exec R p w tr q v`: started as `p` in `w`, the coroutine can be at `q` in `v` after the
operations `tr`, while the rest of the program does `R` steps in between. -/
inductive Reach (exec : Semantics Op Ret ε Choice World) (R : World → World → Prop) :
    Coro Op Ret ε α → World → List (Op × Choice) → Coro Op Ret ε α → World → Prop
  | refl {p w} : Reach exec R p w [] p w
  | rely {p w w' tr q v} : R w w' → Reach exec R p w' tr q v → Reach exec R p w tr q v
  | perform {o k c w r w' tr q v} : exec o c w = some (r, w') → Reach exec R (k r) w' tr q v →
      Reach exec R (.perform o k) w ((o, c) :: tr) q v

/-- What a coroutine owes and may assume: the operations it is run with, the interference `rely`,
the invariant of the shared state and the relation `guar` that every operation satisfies. -/
structure Contract (Op Choice World : Type) where
  allowed : Op → Choice → World → Prop
  rely : World → World → Prop
  inv : World → Prop
  guar : World → World → Prop

/-- The coroutine keeps its contract from `w` on and establishes `Q` when it ends. -/
def Safe (exec : Semantics Op Ret ε Choice World) (K : Contract Op Choice World)
    (Q : Except ε α → World → Prop) : Coro Op Ret ε α → World → Prop
  | .done r, w => ∀ w', Relation.ReflTransGen K.rely w w' → Q r w'
  | .perform o k, w => ∀ w', Relation.ReflTransGen K.rely w w' → K.inv w' →
      ∀ c r w'', K.allowed o c w' → exec o c w' = some (r, w'') →
        K.inv w'' ∧ K.guar w' w'' ∧ Safe exec K Q (k r) w''

/-- The first operation is performed at once; before each later one the rest may step. -/
def SafeAtOnce (exec : Semantics Op Ret ε Choice World) (K : Contract Op Choice World)
    (Q : Except ε α → World → Prop) : Coro Op Ret ε α → World → Prop
  | .done r, w => Safe exec K Q (.done r) w
  | .perform o k, w => K.inv w → ∀ c r v, K.allowed o c w → exec o c w = some (r, v) →
      K.inv v ∧ K.guar w v ∧ Safe exec K Q (k r) v

variable {exec : Semantics Op Ret ε Choice World} {K : Contract Op Choice World}
  {Q Q' : Except ε α → World → Prop}

theorem Safe.rely {p : Coro Op Ret ε α} {w w' : World} (safe : Safe exec K Q p w)
    (steps : Relation.ReflTransGen K.rely w w') : Safe exec K Q p w' := by
  cases p with
  | done r => exact fun v hv => safe v (steps.trans hv)
  | perform o k => exact fun v hv => safe v (steps.trans hv)

theorem Safe.mono {p : Coro Op Ret ε α} {w : World} (safe : Safe exec K Q p w)
    (weaker : ∀ r w, Q r w → Q' r w) : Safe exec K Q' p w := by
  induction p generalizing w with
  | done r => exact fun v hv => weaker r v (safe v hv)
  | perform o k ih =>
      intro v hv inv c r v' allowed step
      obtain ⟨inv', guar, rest⟩ := safe v hv inv c r v' allowed step
      exact ⟨inv', guar, ih r rest⟩

/-- Sequential composition: the outcome of `p` has to make the continuation safe. -/
theorem Safe.andThen {p : Coro Op Ret ε α} {f : Except ε α → Coro Op Ret ε β}
    {Qf : Except ε β → World → Prop} {w : World}
    (safe : Safe exec K (fun r w => Safe exec K Qf (f r) w) p w) :
    Safe exec K Qf (p.andThen f) w := by
  induction p generalizing w with
  | done r => exact safe w .refl
  | perform o k ih =>
      intro v hv inv c r v' allowed step
      obtain ⟨inv', guar, rest⟩ := safe v hv inv c r v' allowed step
      exact ⟨inv', guar, ih r rest⟩

theorem Safe.atOnce {p : Coro Op Ret ε α} {w : World} (safe : Safe exec K Q p w) :
    SafeAtOnce exec K Q p w := by
  cases p with
  | done r => exact safe
  | perform o k => exact fun inv c r v allowed step => safe w .refl inv c r v allowed step

theorem SafeAtOnce.mono {p : Coro Op Ret ε α} {w : World} (safe : SafeAtOnce exec K Q p w)
    (weaker : ∀ r w, Q r w → Q' r w) : SafeAtOnce exec K Q' p w := by
  cases p with
  | done r => exact Safe.mono safe weaker
  | perform o k =>
      intro inv c r v allowed step
      obtain ⟨inv', guar, rest⟩ := safe inv c r v allowed step
      exact ⟨inv', guar, rest.mono weaker⟩

theorem SafeAtOnce.andThen {p : Coro Op Ret ε α} {f : Except ε α → Coro Op Ret ε β}
    {Qf : Except ε β → World → Prop} {w : World}
    (safe : SafeAtOnce exec K (fun r w => Safe exec K Qf (f r) w) p w) :
    SafeAtOnce exec K Qf (p.andThen f) w := by
  cases p with
  | done r => exact (Safe.andThen safe).atOnce
  | perform o k =>
      intro inv c r v allowed step
      obtain ⟨inv', guar, rest⟩ := safe inv c r v allowed step
      exact ⟨inv', guar, rest.andThen⟩

end Execution

end Coroutine
