import Magellan.Coroutine.Traces

/-!
# Rules for coroutines under interference

A triple says what a coroutine keeps while it runs and what holds when it ends. The assertions
between two operations have to be stable: the rest of the program may step there.
-/

namespace Coroutine

variable {Op : Type} {Ret : Op → Type} {ε α β Choice World : Type}

/-- `B` of a returned value, `E` of a raised exception. -/
def endsWith (B : α → World → Prop) (E : ε → World → Prop) : Except ε α → World → Prop
  | .ok a => B a
  | .error e => E e

/-- Interference does not falsify `A`. -/
def Contract.Stable (K : Contract Op Choice World) (A : World → Prop) : Prop :=
  ∀ ⦃w v⦄, K.rely w v → A w → A v

def Triple (exec : Semantics Op Ret ε Choice World) (K : Contract Op Choice World)
    (A : World → Prop) (p : Coro Op Ret ε α) (B : α → World → Prop) (E : ε → World → Prop) : Prop :=
  ∀ ⦃w⦄, A w → Safe exec K (endsWith B E) p w

/-- One operation from a state with `A`. -/
def OpTriple (exec : Semantics Op Ret ε Choice World) (K : Contract Op Choice World)
    (A : World → Prop) (o : Op) (B : Ret o → World → Prop) (E : ε → World → Prop) : Prop :=
  ∀ ⦃w c r v⦄, A w → K.inv w → K.allowed o c w → exec o c w = some (r, v) →
    K.inv v ∧ K.guar w v ∧ endsWith B E r v

variable {exec : Semantics Op Ret ε Choice World} {K : Contract Op Choice World}
  {A A' : World → Prop} {B D : α → World → Prop} {E F : ε → World → Prop}

namespace Contract.Stable

theorem star (h : K.Stable A) {w v : World} (steps : Relation.ReflTransGen K.rely w v)
    (a : A w) : A v := by
  induction steps with
  | refl => exact a
  | tail _ step ih => exact h step ih

theorem top : K.Stable fun _ => True := fun _ _ _ _ => trivial

theorem and (h : K.Stable A) (h' : K.Stable A') : K.Stable fun w => A w ∧ A' w :=
  fun _ _ step a => ⟨h step a.1, h' step a.2⟩

theorem or (h : K.Stable A) (h' : K.Stable A') : K.Stable fun w => A w ∨ A' w :=
  fun _ _ step => Or.imp (h step) (h' step)

theorem const (P : Prop) : K.Stable fun _ => P := fun _ _ _ a => a

end Contract.Stable

theorem Safe.closed {Q : Except ε α → World → Prop} {p : Coro Op Ret ε α} {w : World}
    (safe : Safe exec K Q p w) :
    Safe exec K (fun r w => ∀ v, Relation.ReflTransGen K.rely w v → Q r v) p w := by
  induction p generalizing w with
  | done r => exact fun v hv u hu => safe u (hv.trans hu)
  | perform o k ih =>
      intro v hv inv c r v' allowed step
      obtain ⟨inv', guar, rest⟩ := safe v hv inv c r v' allowed step
      exact ⟨inv', guar, ih r rest⟩

namespace Triple

theorem done {r : Except ε α} (stable : K.Stable (endsWith B E r))
    (h : ∀ w, A w → endsWith B E r w) : Triple exec K A (.done r) B E :=
  fun w a _ steps => stable.star steps (h w a)

theorem pure {a : α} (stable : K.Stable (B a)) (h : ∀ w, A w → B a w) :
    Triple exec K A (Pure.pure a : Coro Op Ret ε α) B E := done stable h

theorem raise {e : ε} (stable : K.Stable (E e)) (h : ∀ w, A w → E e w) :
    Triple exec K A (Coro.raise e : Coro Op Ret ε α) B E := done stable h

theorem op {o : Op} {B : Ret o → World → Prop} (stable : K.Stable A)
    (stableB : ∀ a, K.Stable (B a)) (stableE : ∀ e, K.Stable (E e))
    (h : OpTriple exec K A o B E) : Triple exec K A (Coro.op o) B E := by
  intro w a v steps inv c r v' allowed step
  obtain ⟨inv', guar, ends⟩ := h (stable.star steps a) inv allowed step
  refine ⟨inv', guar, fun u more => ?_⟩
  cases r with
  | ok b => exact (stableB b).star more ends
  | error e => exact (stableE e).star more ends

theorem weaken {p : Coro Op Ret ε α} (h : Triple exec K A p B E) (pre : ∀ w, A' w → A w)
    (ok : ∀ a w, B a w → D a w) (err : ∀ e w, E e w → F e w) : Triple exec K A' p D F :=
  fun w a => (h (pre w a)).mono fun r v ends => by
    cases r with
    | ok b => exact ok b v ends
    | error e => exact err e v ends

theorem pre {p : Coro Op Ret ε α} (h : Triple exec K A p B E) (pre : ∀ w, A' w → A w) :
    Triple exec K A' p B E := fun w a => h (pre w a)

theorem andThen {p : Coro Op Ret ε α} {f : Except ε α → Coro Op Ret ε β}
    {C : β → World → Prop} (hp : Triple exec K A p B F)
    (hf : ∀ r, Triple exec K (endsWith B F r) (f r) C E) :
    Triple exec K A (p.andThen f) C E :=
  fun _ a => .andThen ((hp a).mono fun r _ ends => hf r ends)

theorem attempt {p : Coro Op Ret ε α} {f : α → Coro Op Ret ε β} {h : ε → Coro Op Ret ε β}
    {C : β → World → Prop} (hp : Triple exec K A p B F)
    (hf : ∀ a, Triple exec K (B a) (f a) C E) (hh : ∀ e, Triple exec K (F e) (h e) C E) :
    Triple exec K A (p.attempt f h) C E :=
  hp.andThen fun
    | .ok a => hf a
    | .error e => hh e

theorem bind {p : Coro Op Ret ε α} {f : α → Coro Op Ret ε β} {C : β → World → Prop}
    (hp : Triple exec K A p B E) (hf : ∀ a, Triple exec K (B a) (f a) C E) :
    Triple exec K A (p >>= f) C E :=
  fun w a => .andThen ((hp a).closed.mono fun r v ends => by
    cases r with
    | ok b => exact hf b (ends v .refl)
    | error e => exact ends)

theorem tryExcept {p : Coro Op Ret ε α} {h : ε → Coro Op Ret ε α}
    (hp : Triple exec K A p B F) (hh : ∀ e, Triple exec K (F e) (h e) B E) :
    Triple exec K A (p.tryExcept h) B E :=
  fun w a => .andThen ((hp a).closed.mono fun r v ends => by
    cases r with
    | ok b => exact ends
    | error e => exact hh e (ends v .refl))

theorem tryFinally {p : Coro Op Ret ε α} {f : Except ε α → Coro Op Ret ε Unit}
    (hp : Triple exec K A p D F)
    (ok : ∀ a, Triple exec K (D a) (f (.ok a)) (fun _ => B a) E)
    (err : ∀ e, Triple exec K (F e) (f (.error e)) (fun _ => E e) E) :
    Triple exec K A (p.tryFinally f) B E :=
  hp.andThen fun
    | .ok a => fun _ b => .andThen ((ok a b).closed.mono fun r _ ends => by
        cases r with
        | ok _ => exact ends
        | error e => exact ends)
    | .error e => fun _ b => .andThen ((err e b).closed.mono fun r _ ends => by
        cases r with
        | ok _ => exact ends
        | error e' => exact ends)

theorem ite {c : Prop} [Decidable c] {p q : Coro Op Ret ε α}
    (hp : c → Triple exec K A p B E) (hq : ¬ c → Triple exec K A q B E) :
    Triple exec K A (if c then p else q) B E := by
  by_cases h : c
  · rw [if_pos h]
    exact hp h
  · rw [if_neg h]
    exact hq h

/-- The part of a precondition that does not depend on the state is a hypothesis. -/
theorem given {P : Prop} {p : Coro Op Ret ε α} (h : P → Triple exec K A p B E) :
    Triple exec K (fun w => P ∧ A w) p B E :=
  fun _ a => h a.1 a.2

theorem assuming {P : Prop} {p : Coro Op Ret ε α}
    (h : P → Triple exec K (fun _ => True) p B E) : Triple exec K (fun _ => P) p B E :=
  fun _ a => h a trivial

theorem of_false {p : Coro Op Ret ε α} (h : ∀ w, ¬ A w) : Triple exec K A p B E :=
  fun w a => absurd a (h w)

theorem of_performs {P : Op → Prop} {p : Coro Op Ret ε α} (stable : K.Stable A)
    (h : p.Performs P) (keeps : ∀ o, P o → OpTriple exec K A o (fun _ => A) fun _ => A) :
    Triple exec K A p (fun _ => A) fun _ => A := by
  induction p with
  | done r =>
      intro _ a _ steps
      cases r <;> exact stable.star steps a
  | perform o k ih =>
      intro w a v steps inv c r v' allowed step
      obtain ⟨inv', guar, ends⟩ := keeps o h.1 (stable.star steps a) inv allowed step
      have a' : A v' := by cases r <;> exact ends
      exact ⟨inv', guar, ih r (h.2 r) a'⟩

theorem raises {S : Op → ε → Prop} {R : ε → Prop} {p : Coro Op Ret ε α}
    (h : Triple exec K A p B E) (raises : p.Raises S R)
    (faults : ∀ {o c w e v}, exec o c w = some (.error e, v) → S o e) :
    Triple exec K A p B fun e w => R e ∧ E e w := by
  intro w a
  have safe := h a
  clear h a
  induction p generalizing w with
  | done r =>
      intro v steps
      cases r with
      | ok b => exact safe v steps
      | error e => exact ⟨raises, safe v steps⟩
  | perform o k ih =>
      intro v steps inv c r v' allowed step
      obtain ⟨inv', guar, rest⟩ := safe v steps inv c r v' allowed step
      refine ⟨inv', guar, ih r ?_ rest⟩
      cases r with
      | ok b => exact raises.1 b
      | error e => exact raises.2 e (faults step)

end Triple

theorem Safe.reach {Q : Except ε α → World → Prop} {R : World → World → Prop}
    {p q : Coro Op Ret ε α} {w v : World} {tr : List (Op × Choice)} (safe : Safe exec K Q p w)
    (within : ∀ {u u'}, R u u' → K.rely u u') (keeps : K.Stable K.inv) (inv : K.inv w)
    (h : Reach exec R p w tr q v) (allowed : ∀ x ∈ tr, ∀ u, K.allowed x.1 x.2 u) :
    K.inv v ∧ Safe exec K Q q v := by
  induction h with
  | refl => exact ⟨inv, safe⟩
  | rely step _ ih =>
      exact ih (safe.rely (.single (within step))) (keeps (within step) inv) allowed
  | perform step _ ih =>
      have here := allowed _ (List.mem_cons_self ..)
      obtain ⟨inv', -, rest⟩ := safe _ .refl inv _ _ _ (here _) step
      exact ih rest inv' fun x mem => allowed x (List.mem_cons_of_mem _ mem)

namespace SafeAtOnce

theorem op {o : Op} {B : Ret o → World → Prop} {w : World} (stableB : ∀ a, K.Stable (B a))
    (stableE : ∀ e, K.Stable (E e))
    (h : K.inv w → ∀ c r v, K.allowed o c w → exec o c w = some (r, v) →
      K.inv v ∧ K.guar w v ∧ endsWith B E r v) :
    SafeAtOnce exec K (endsWith B E) (Coro.op o) w := by
  intro inv c r v allowed step
  obtain ⟨inv', guar, ends⟩ := h inv c r v allowed step
  refine ⟨inv', guar, fun u more => ?_⟩
  cases r with
  | ok b => exact (stableB b).star more ends
  | error e => exact (stableE e).star more ends

theorem bind {p : Coro Op Ret ε α} {f : α → Coro Op Ret ε β} {C : β → World → Prop} {w : World}
    (hp : SafeAtOnce exec K (endsWith B E) p w) (stableE : ∀ e, K.Stable (E e))
    (hf : ∀ a, Triple exec K (B a) (f a) C E) : SafeAtOnce exec K (endsWith C E) (p >>= f) w :=
  .andThen (hp.mono fun r v ends => by
    cases r with
    | ok b => exact hf b ends
    | error e => exact fun u more => (stableE e).star more ends)

end SafeAtOnce

/-- What a triple says of a finished run. -/
theorem Triple.reach {R : World → World → Prop} {p : Coro Op Ret ε α} {r : Except ε α}
    {w v : World} {tr : List (Op × Choice)} (safe : Triple exec K A p B E)
    (within : ∀ {u u'}, R u u' → K.rely u u') (keeps : K.Stable K.inv) (a : A w) (inv : K.inv w)
    (h : Reach exec R p w tr (.done r) v) (allowed : ∀ x ∈ tr, ∀ u, K.allowed x.1 x.2 u) :
    endsWith B E r v :=
  ((safe a).reach within keeps inv h allowed).2 v .refl

end Coroutine
