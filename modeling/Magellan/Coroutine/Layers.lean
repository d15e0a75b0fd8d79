import Magellan.Coroutine.Rules
import Magellan.Coroutine.System

/-!
# Proofs in layers

A system that has been verified may be verified again for stronger conditions. The second proof
assumes at each operation what the first one keeps, and the two hold together.
-/

namespace Coroutine

variable {Op : Type} {Ret : Op → Type} {ε α Choice World : Type}

/-- The contract `L` where `I` is known to hold before and after each operation. -/
def Contract.given (exec : Semantics Op Ret ε Choice World) (L : Contract Op Choice World)
    (I : World → Prop) : Contract Op Choice World where
  allowed o c w := L.allowed o c w ∧ I w ∧ ∀ r v, exec o c w = some (r, v) → I v
  rely := L.rely
  inv := L.inv
  guar := L.guar

/-- The contracts `K` and `L` together, for the operations of `L`. -/
def Contract.extend (K L : Contract Op Choice World) : Contract Op Choice World where
  allowed := L.allowed
  rely w v := K.rely w v ∧ L.rely w v
  inv w := K.inv w ∧ L.inv w
  guar w v := K.guar w v ∧ L.guar w v

section

variable {exec : Semantics Op Ret ε Choice World} {K L : Contract Op Choice World}
  {Q Q' : Except ε α → World → Prop}

theorem Contract.star_extend {w v : World} (steps : Relation.ReflTransGen (K.extend L).rely w v) :
    Relation.ReflTransGen K.rely w v ∧ Relation.ReflTransGen L.rely w v :=
  ⟨steps.lift id fun _ _ step => step.1, steps.lift id fun _ _ step => step.2⟩

theorem Safe.extend {p : Coro Op Ret ε α} {w : World}
    (stronger : ∀ o c w, L.allowed o c w → K.allowed o c w) (first : Safe exec K Q p w)
    (second : Safe exec (L.given exec K.inv) Q' p w) :
    Safe exec (K.extend L) (fun r w => Q r w ∧ Q' r w) p w := by
  induction p generalizing w with
  | done r =>
      intro v steps
      obtain ⟨steps, steps'⟩ := Contract.star_extend steps
      exact ⟨first v steps, second v steps'⟩
  | perform o k ih =>
      intro v steps inv c r v' allowed step
      obtain ⟨steps, steps'⟩ := Contract.star_extend steps
      obtain ⟨holds, keeps, rest⟩ := first v steps inv.1 c r v' (stronger o c v allowed) step
      have after : ∀ r u, exec o c v = some (r, u) → K.inv u := by
        intro r u step'
        cases step.symm.trans step'
        exact holds
      obtain ⟨holds', keeps', rest'⟩ := second v steps' inv.2 c r v' ⟨allowed, inv.1, after⟩ step
      exact ⟨⟨holds, holds'⟩, ⟨keeps, keeps'⟩, ih r rest rest'⟩

theorem SafeAtOnce.extend {p : Coro Op Ret ε α} {w : World}
    (stronger : ∀ o c w, L.allowed o c w → K.allowed o c w) (first : SafeAtOnce exec K Q p w)
    (second : SafeAtOnce exec (L.given exec K.inv) Q' p w) :
    SafeAtOnce exec (K.extend L) (fun r w => Q r w ∧ Q' r w) p w := by
  cases p with
  | done r => exact Safe.extend stronger first second
  | perform o k =>
      intro inv c r v allowed step
      obtain ⟨holds, keeps, rest⟩ := first inv.1 c r v (stronger o c w allowed) step
      have after : ∀ r u, exec o c w = some (r, u) → K.inv u := by
        intro r u step'
        cases step.symm.trans step'
        exact holds
      obtain ⟨holds', keeps', rest'⟩ := second inv.2 c r v ⟨allowed, inv.1, after⟩ step
      exact ⟨⟨holds, holds'⟩, ⟨keeps, keeps'⟩, rest.extend stronger rest'⟩

end

/-- The conditions `D` ask for all that `C` asks for. -/
structure Conditions.Implies {Node Call Event : Type} (D C : Conditions Op Choice World Node Call Event) :
    Prop where
  call : ∀ n a w, D.call n a w → C.call n a w
  op : ∀ n o c w, D.op n o c w → C.op n o c w
  crash : ∀ n w, D.crash n w → C.crash n w
  event : ∀ e w, D.event e w → C.event e w

/-- A second proof of a system, of what the first one does not know. -/
theorem System.VerifiedAtOnce.extend {Node Call Event : Type} [DecidableEq Node]
    {S : System Op Ret ε Choice World Node Call Event}
    {C D : Conditions Op Choice World Node Call Event} {I J : World → Prop}
    {rely guar rely' guar' : Node → World → World → Prop} {always : World → World → Prop}
    (V : S.VerifiedAtOnce C I rely guar always) (stronger : D.Implies C)
    (interference : ∀ {n m v w}, m ≠ n → guar n v w → guar' n v w → rely' m v w)
    (call : ∀ {n a v w}, I v → J v → D.call n a v → S.accept n a v = some w → I w →
      J w ∧ guar' n v w ∧ SafeAtOnce (S.exec n)
        (Contract.given (S.exec n) ⟨D.op n, rely' n, J, guar' n⟩ I) (fun _ _ => True) (S.body n a) w)
    (crash : ∀ {n v}, I v → J v → I (S.crash n v) → J (S.crash n v) ∧ guar' n v (S.crash n v))
    (event : ∀ {e v w}, I v → J v → D.event e v → S.event e v = some w → I w →
      J w ∧ ∀ n, rely' n v w) :
    S.VerifiedAtOnce D (fun w => I w ∧ J w) (fun n v w => rely n v w ∧ rely' n v w)
      (fun n v w => guar n v w ∧ guar' n v w) always where
  trans := V.trans
  interference ne keeps := ⟨V.interference ne keeps.1, interference ne keeps.1 keeps.2⟩
  within keeps := V.within keeps.1
  call {n a v w} inv meets accepted := by
    obtain ⟨holds, keeps, safe⟩ := V.call inv.1 (stronger.call n a v meets) accepted
    obtain ⟨holds', keeps', safe'⟩ := call inv.1 inv.2 meets accepted holds
    have both := SafeAtOnce.extend (L := ⟨D.op n, rely' n, J, guar' n⟩) (stronger.op n) safe safe'
    exact ⟨⟨holds, holds'⟩, ⟨keeps, keeps'⟩, both.mono fun _ _ _ => trivial⟩
  crash {n v} inv meets := by
    obtain ⟨holds, keeps⟩ := V.crash inv.1 (stronger.crash n v meets)
    obtain ⟨holds', keeps'⟩ := crash inv.1 inv.2 holds
    exact ⟨⟨holds, holds'⟩, keeps, keeps'⟩
  event {e v w} inv meets happened := by
    obtain ⟨holds, tolerated, always⟩ := V.event inv.1 (stronger.event e v meets) happened
    obtain ⟨holds', tolerated'⟩ := event inv.1 inv.2 meets happened holds
    exact ⟨⟨holds, holds'⟩, fun n => ⟨tolerated n, tolerated' n⟩, always⟩

end Coroutine
