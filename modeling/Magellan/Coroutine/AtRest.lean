import Magellan.Coroutine.Rules
import Magellan.Coroutine.System

/-!
# Systems at rest

What holds of a node whenever it runs no coroutine. Every coroutine has to establish it when it
ends, whichever way it ends, and a crash must not fall where it does not hold.
-/

namespace Coroutine.System

variable {Op : Type} {Ret : Op → Type} {ε Choice World Node Call Event : Type} [DecidableEq Node]

structure Resting (S : System Op Ret ε Choice World Node Call Event)
    (C : Conditions Op Choice World Node Call Event) (I : World → Prop)
    (rely guar : Node → World → World → Prop) (rest : Node → World → Prop) : Prop where
  interference : ∀ {n m v w}, m ≠ n → guar n v w → rely m v w
  stable : ∀ {n v w}, rely n v w → rest n v → rest n w
  call : ∀ {n a v w}, I v → rest n v → C.call n a v → S.accept n a v = some w →
    I w ∧ guar n v w ∧
      Safe (S.exec n) ⟨C.op n, rely n, I, guar n⟩ (fun _ => rest n) (S.body n a) w
  crash : ∀ {n v}, I v → C.crash n v → I (S.crash n v) ∧ guar n v (S.crash n v) ∧
    rest n (S.crash n v)
  event : ∀ {e v w}, I v → C.event e v → S.event e v = some w → I w ∧ ∀ n, rely n v w

structure AtRest (S : System Op Ret ε Choice World Node Call Event)
    (C : Conditions Op Choice World Node Call Event) (I : World → Prop)
    (rely guar : Node → World → World → Prop) (rest : Node → World → Prop)
    (cfg : Config Op Ret ε World Node) : Prop where
  holds : I cfg.world
  safe : ∀ n p, cfg.running n = some p →
    Safe (S.exec n) ⟨C.op n, rely n, I, guar n⟩ (fun _ => rest n) p cfg.world
  idle : ∀ n, cfg.running n = none → rest n cfg.world

variable {S : System Op Ret ε Choice World Node Call Event}
  {C : Conditions Op Choice World Node Call Event} {I : World → Prop}
  {rely guar : Node → World → World → Prop} {rest : Node → World → Prop}

theorem Resting.advance (V : S.Resting C I rely guar rest) {n : Node} {c : Choice}
    {p : Coro Op Ret ε Unit} {w : World} {running : Node → Option (Coro Op Ret ε Unit)}
    {cfg : Config Op Ret ε World Node} (holds : I w)
    (safe : Safe (S.exec n) ⟨C.op n, rely n, I, guar n⟩ (fun _ => rest n) p w)
    (others : ∀ m, m ≠ n → (∀ q, running m = some q →
      Safe (S.exec m) ⟨C.op m, rely m, I, guar m⟩ (fun _ => rest m) q w) ∧
        (running m = none → rest m w))
    (meets : Meets.first C n c p w) (step : S.advance n c p w running = some cfg) :
    S.AtRest C I rely guar rest cfg := by
  cases p with
  | done r => cases step
  | perform o k =>
      simp only [System.advance] at step
      cases h : S.exec n o c w with
      | none => simp [h] at step
      | some result =>
          obtain ⟨r, w'⟩ := result
          simp only [h, Option.some.injEq] at step
          subst step
          obtain ⟨holds', gives, ends⟩ := safe w .refl holds c r w' meets h
          refine ⟨holds', fun m q hq => ?_, fun m hq => ?_⟩
          · by_cases hm : m = n
            · subst hm
              simp only [Function.update_self] at hq
              exact Coro.pending_eq_some hq ▸ ends
            · simp only [Function.update_of_ne hm] at hq
              exact ((others m hm).1 q hq).rely (.single (V.interference hm gives))
          · by_cases hm : m = n
            · subst hm
              simp only [Function.update_self] at hq
              cases ended : k r with
              | done x =>
                  rw [ended] at ends
                  exact ends w' .refl
              | perform o' k' =>
                  rw [ended] at hq
                  cases hq
            · simp only [Function.update_of_ne hm] at hq
              exact V.stable (V.interference hm gives) ((others m hm).2 hq)

theorem Resting.step (V : S.Resting C I rely guar rest) {cfg cfg' : Config Op Ret ε World Node}
    {l : Label Choice Node Call Event} (sound : S.AtRest C I rely guar rest cfg)
    (meets : S.Meets C l cfg) (step : S.step l cfg = some cfg') :
    S.AtRest C I rely guar rest cfg' := by
  obtain ⟨w, running⟩ := cfg
  cases l with
  | call n a c =>
      cases idle : running n with
      | some p => simp [System.step, idle] at step
      | none =>
          cases accepted : S.accept n a w with
          | none => simp [System.step, idle, accepted] at step
          | some w' =>
              simp only [System.step, idle, accepted] at step
              obtain ⟨holds, gives, safe⟩ :=
                V.call sound.holds (sound.idle n idle) meets.1 accepted
              refine V.advance holds safe (fun m hm => ?_) (meets.2 w' accepted) step
              have tolerated := V.interference hm gives
              exact ⟨fun q hq => (sound.safe m q hq).rely (.single tolerated),
                fun hq => V.stable tolerated (sound.idle m hq)⟩
  | perform n c =>
      cases busy : running n with
      | none => simp [System.step, busy] at step
      | some p =>
          simp only [System.step, busy] at step
          exact V.advance sound.holds (sound.safe n p busy)
            (fun m _ => ⟨sound.safe m, sound.idle m⟩) (meets p busy) step
  | crash n =>
      simp only [System.step, Option.some.injEq] at step
      subst step
      obtain ⟨holds, gives, rested⟩ := V.crash sound.holds meets
      refine ⟨holds, fun m q hq => ?_, fun m hq => ?_⟩
      · by_cases hm : m = n
        · subst hm
          simp at hq
        · simp only [Function.update_of_ne hm] at hq
          exact (sound.safe m q hq).rely (.single (V.interference hm gives))
      · by_cases hm : m = n
        · subst hm
          exact rested
        · simp only [Function.update_of_ne hm] at hq
          exact V.stable (V.interference hm gives) (sound.idle m hq)
  | event e =>
      cases happened : S.event e w with
      | none => simp [System.step, happened] at step
      | some w' =>
          simp only [System.step, happened, Option.map_some, Option.some.injEq] at step
          subst step
          obtain ⟨holds, tolerated⟩ := V.event sound.holds meets happened
          exact ⟨holds, fun m q hq => (sound.safe m q hq).rely (.single (tolerated m)),
            fun m hq => V.stable (tolerated m) (sound.idle m hq)⟩

/-- A node that runs nothing is at rest in every configuration of a run. -/
theorem Resting.reachable (V : S.Resting C I rely guar rest)
    {cfg cfg' : Config Op Ret ε World Node} (initial : I cfg.world)
    (idle : ∀ n, cfg.running n = none) (rested : ∀ n, rest n cfg.world)
    (reach : S.Reachable C cfg cfg') : S.AtRest C I rely guar rest cfg' := by
  induction reach with
  | refl => exact ⟨initial, fun n p h => by simp [idle n] at h, fun n _ => rested n⟩
  | step _ meets step ih => exact V.step ih meets step

end Coroutine.System
