import Magellan.Coroutine.Basic
import Mathlib.Logic.Function.Basic
import Mathlib.Tactic.Common

/-!
# Systems of coroutines

Each node runs at most one coroutine, the one that holds its lock. A step of the system takes up a
call and performs its first operation, performs the next operation of a running coroutine, crashes
a node, or is an event of the environment.
-/

namespace Coroutine

structure System (Op : Type) (Ret : Op → Type) (ε Choice World Node Call Event : Type) where
  exec : Node → Semantics Op Ret ε Choice World
  /-- What taking up a call changes; `none` where the call cannot be taken up. -/
  accept : Node → Call → World → Option World
  body : Node → Call → Coro Op Ret ε Unit
  crash : Node → World → World
  event : Event → World → Option World

inductive Label (Choice Node Call Event : Type) where
  | call (n : Node) (a : Call) (c : Choice)
  | perform (n : Node) (c : Choice)
  | crash (n : Node)
  | event (e : Event)

structure Config (Op : Type) (Ret : Op → Type) (ε World Node : Type) where
  world : World
  running : Node → Option (Coro Op Ret ε Unit) := fun _ => none

variable {Op : Type} {Ret : Op → Type} {ε Choice World Node Call Event : Type} [DecidableEq Node]

/-- A coroutine that has ended releases the lock. -/
def Coro.pending : Coro Op Ret ε Unit → Option (Coro Op Ret ε Unit)
  | .done _ => none
  | p => some p

namespace System

variable (S : System Op Ret ε Choice World Node Call Event)

/-- Perform the first operation of `p` at `n`. -/
def advance (n : Node) (c : Choice) (p : Coro Op Ret ε Unit) (w : World)
    (running : Node → Option (Coro Op Ret ε Unit)) : Option (Config Op Ret ε World Node) :=
  match p with
  | .done _ => none
  | .perform o k =>
      match S.exec n o c w with
      | none => none
      | some (r, w') => some ⟨w', Function.update running n (k r).pending⟩

def step : Label Choice Node Call Event → Config Op Ret ε World Node →
    Option (Config Op Ret ε World Node)
  | .call n a c, ⟨w, running⟩ =>
      match running n, S.accept n a w with
      | none, some w' => S.advance n c (S.body n a) w' running
      | _, _ => none
  | .perform n c, ⟨w, running⟩ =>
      match running n with
      | none => none
      | some p => S.advance n c p w running
  | .crash n, ⟨w, running⟩ => some ⟨S.crash n w, Function.update running n none⟩
  | .event e, ⟨w, running⟩ => (S.event e w).map fun w' => ⟨w', running⟩

def run : List (Label Choice Node Call Event) → Config Op Ret ε World Node →
    Option (Config Op Ret ε World Node)
  | [], cfg => some cfg
  | l :: labels, cfg =>
      match S.step l cfg with
      | none => none
      | some cfg' => run labels cfg'

variable {S}

/-- A property of two moments of a scripted run, by evaluation. -/
theorem exists_runs {labels labels' : List (Label Choice Node Call Event)}
    {cfg : Config Op Ret ε World Node}
    {P : Config Op Ret ε World Node → Config Op Ret ε World Node → Prop}
    [∀ v u, Decidable (P v u)]
    (h : ((S.run labels cfg).any fun v => (S.run labels' v).any fun u => P v u) = true) :
    ∃ v u, S.run labels cfg = some v ∧ S.run labels' v = some u ∧ P v u := by
  obtain ⟨v, run, rest⟩ := Option.any_eq_true _ _ |>.mp h
  obtain ⟨u, run', holds⟩ := Option.any_eq_true _ _ |>.mp rest
  exact ⟨v, u, run, run', of_decide_eq_true holds⟩

end System

/-- What is asked of the steps of a run, at the state before the step. -/
structure Conditions (Op Choice World Node Call Event : Type) where
  call : Node → Call → World → Prop := fun _ _ _ => True
  op : Node → Op → Choice → World → Prop := fun _ _ _ _ => True
  crash : Node → World → Prop := fun _ _ => True
  event : Event → World → Prop := fun _ _ => True

namespace System

variable (S : System Op Ret ε Choice World Node Call Event)
  (C : Conditions Op Choice World Node Call Event)

/-- The next operation of a coroutine meets the conditions. -/
def Meets.first (n : Node) (c : Choice) (p : Coro Op Ret ε Unit) (w : World) : Prop :=
  match p with
  | .done _ => True
  | .perform o _ => C.op n o c w

/-- The step `l` of `cfg` meets the conditions. -/
def Meets : Label Choice Node Call Event → Config Op Ret ε World Node → Prop
  | .call n a c, cfg => C.call n a cfg.world ∧
      ∀ w, S.accept n a cfg.world = some w → Meets.first C n c (S.body n a) w
  | .perform n c, cfg => ∀ p, cfg.running n = some p → Meets.first C n c p cfg.world
  | .crash n, cfg => C.crash n cfg.world
  | .event e, cfg => C.event e cfg.world

/-- The configurations that runs from `cfg` reach by steps that meet the conditions. -/
inductive Reachable (cfg : Config Op Ret ε World Node) : Config Op Ret ε World Node → Prop
  | refl : Reachable cfg cfg
  | step {v l v'} : Reachable cfg v → S.Meets C l v → S.step l v = some v' → Reachable cfg v'

/-- The next operation of a coroutine passes a test. -/
def passesFirst (test : Node → Op → Choice → World → Bool) (n : Node) (c : Choice)
    (p : Coro Op Ret ε Unit) (w : World) : Bool :=
  match p with
  | .done _ => true
  | .perform o _ => test n o c w

def passes (test : Node → Op → Choice → World → Bool) :
    Label Choice Node Call Event → Config Op Ret ε World Node → Bool
  | .call n a c, cfg => (S.accept n a cfg.world).all fun w => passesFirst test n c (S.body n a) w
  | .perform n c, cfg => (cfg.running n).all fun p => passesFirst test n c p cfg.world
  | _, _ => true

/-- Run a script, as long as its operations pass a test. -/
def runTested (test : Node → Op → Choice → World → Bool) :
    List (Label Choice Node Call Event) → Config Op Ret ε World Node →
      Option (Config Op Ret ε World Node)
  | [], cfg => some cfg
  | l :: labels, cfg =>
      if S.passes test l cfg = true then (S.step l cfg).bind (runTested test labels) else none

/-- Run a script, as long as its steps pass a test. -/
def runChecked (check : Label Choice Node Call Event → Config Op Ret ε World Node → Bool) :
    List (Label Choice Node Call Event) → Config Op Ret ε World Node →
      Option (Config Op Ret ε World Node)
  | [], cfg => some cfg
  | l :: labels, cfg =>
      if check l cfg = true then (S.step l cfg).bind (runChecked check labels) else none

theorem reachable_of_run {labels : List (Label Choice Node Call Event)}
    {start cfg v : Config Op Ret ε World Node}
    (meets : ∀ l ∈ labels, ∀ cfg, S.Meets C l cfg) (reached : S.Reachable C start cfg)
    (run : S.run labels cfg = some v) : S.Reachable C start v := by
  induction labels generalizing cfg with
  | nil =>
      cases run
      exact reached
  | cons l labels ih =>
      obtain ⟨here, later⟩ := List.forall_mem_cons.mp meets
      simp only [System.run] at run
      split at run
      · cases run
      · rename_i next stepped
        exact ih later (.step reached (here cfg) stepped) run

section

variable {check : Label Choice Node Call Event → Config Op Ret ε World Node → Bool}
  {labels : List (Label Choice Node Call Event)} {start cfg v : Config Op Ret ε World Node}

theorem run_of_runChecked (run : S.runChecked check labels cfg = some v) :
    S.run labels cfg = some v := by
  induction labels generalizing cfg with
  | nil => exact run
  | cons l labels ih =>
      simp only [runChecked] at run
      split at run
      swap
      · cases run
      obtain ⟨next, stepped, rest⟩ := Option.bind_eq_some_iff.mp run
      simp only [System.run, stepped]
      exact ih rest

theorem reachable_of_runChecked (sound : ∀ l cfg, check l cfg = true → S.Meets C l cfg)
    (reached : S.Reachable C start cfg) (run : S.runChecked check labels cfg = some v) :
    S.Reachable C start v := by
  induction labels generalizing cfg with
  | nil =>
      cases run
      exact reached
  | cons l labels ih =>
      simp only [runChecked] at run
      split at run
      swap
      · cases run
      rename_i passed
      obtain ⟨next, stepped, rest⟩ := Option.bind_eq_some_iff.mp run
      exact ih (.step reached (sound l cfg passed) stepped) rest

theorem runTested_eq (test : Node → Op → Choice → World → Bool) :
    S.runTested test labels cfg = S.runChecked (S.passes test) labels cfg := by
  induction labels generalizing cfg with
  | nil => rfl
  | cons l labels ih =>
      simp only [runTested, runChecked]
      congr 2
      exact funext fun _ => ih

theorem reachable_of_runTested {test : Node → Op → Choice → World → Bool}
    (sound : ∀ n o c w, test n o c w = true → C.op n o c w) (calls : ∀ n a w, C.call n a w)
    (crashes : ∀ n w, C.crash n w) (events : ∀ e w, C.event e w)
    (reached : S.Reachable C start cfg) (run : S.runTested test labels cfg = some v) :
    S.Reachable C start v := by
  have first {n : Node} {c : Choice} {p : Coro Op Ret ε Unit} {w : World}
      (passed : passesFirst test n c p w = true) : Meets.first C n c p w := by
    cases p with
    | done r => trivial
    | perform o k => exact sound n o c w passed
  rw [runTested_eq] at run
  refine reachable_of_runChecked S C (fun l cfg passed => ?_) reached run
  cases l with
  | call n a c =>
      refine ⟨calls n a _, fun w accepted => first ?_⟩
      simpa only [passes, accepted, Option.all_some] using passed
  | perform n c =>
      intro p busy
      refine first ?_
      simpa only [passes, busy, Option.all_some] using passed
  | crash n => exact crashes n _
  | event e => exact events e _

end

/-- A proof of a system: a shared invariant, the interference each node tolerates and the relation
its operations satisfy, and a relation that every step is in. -/
structure Verified (I : World → Prop) (rely guar : Node → World → World → Prop)
    (always : World → World → Prop) : Prop where
  trans : ∀ {u v w}, always u v → always v w → always u w
  interference : ∀ {n m v w}, m ≠ n → guar n v w → rely m v w
  within : ∀ {n v w}, guar n v w → always v w
  call : ∀ {n a v w}, I v → C.call n a v → S.accept n a v = some w →
    I w ∧ guar n v w ∧
      Safe (S.exec n) ⟨C.op n, rely n, I, guar n⟩ (fun _ _ => True) (S.body n a) w
  crash : ∀ {n v}, I v → C.crash n v → I (S.crash n v) ∧ guar n v (S.crash n v)
  event : ∀ {e v w}, I v → C.event e v → S.event e v = some w →
    I w ∧ (∀ n, rely n v w) ∧ always v w

/-- The same where a call is safe because its first operation is performed with it. -/
structure VerifiedAtOnce (I : World → Prop) (rely guar : Node → World → World → Prop)
    (always : World → World → Prop) : Prop where
  trans : ∀ {u v w}, always u v → always v w → always u w
  interference : ∀ {n m v w}, m ≠ n → guar n v w → rely m v w
  within : ∀ {n v w}, guar n v w → always v w
  call : ∀ {n a v w}, I v → C.call n a v → S.accept n a v = some w →
    I w ∧ guar n v w ∧
      SafeAtOnce (S.exec n) ⟨C.op n, rely n, I, guar n⟩ (fun _ _ => True) (S.body n a) w
  crash : ∀ {n v}, I v → C.crash n v → I (S.crash n v) ∧ guar n v (S.crash n v)
  event : ∀ {e v w}, I v → C.event e v → S.event e v = some w →
    I w ∧ (∀ n, rely n v w) ∧ always v w

variable {S C} {I : World → Prop} {rely guar : Node → World → World → Prop}
  {always : World → World → Prop}

/-- The invariant of the configurations of a verified system. -/
structure Sound (S : System Op Ret ε Choice World Node Call Event)
    (C : Conditions Op Choice World Node Call Event) (I : World → Prop)
    (rely guar : Node → World → World → Prop) (cfg : Config Op Ret ε World Node) : Prop where
  holds : I cfg.world
  safe : ∀ n p, cfg.running n = some p →
    Safe (S.exec n) ⟨C.op n, rely n, I, guar n⟩ (fun _ _ => True) p cfg.world

theorem Coro.pending_eq_some {p q : Coro Op Ret ε Unit} (h : p.pending = some q) : q = p := by
  cases p with
  | done r => cases h
  | perform o k => exact (Option.some.inj h).symm

omit [DecidableEq Node] in
theorem Verified.atOnce (V : S.Verified C I rely guar always) :
    S.VerifiedAtOnce C I rely guar always where
  trans := V.trans
  interference := V.interference
  within := V.within
  call inv meets accepted := by
    obtain ⟨inv', gives, safe⟩ := V.call inv meets accepted
    exact ⟨inv', gives, safe.atOnce⟩
  crash := V.crash
  event := V.event

theorem VerifiedAtOnce.advance (V : S.VerifiedAtOnce C I rely guar always) {n : Node} {c : Choice}
    {p : Coro Op Ret ε Unit} {w : World} {running : Node → Option (Coro Op Ret ε Unit)}
    {cfg : Config Op Ret ε World Node} (holds : I w)
    (safe : SafeAtOnce (S.exec n) ⟨C.op n, rely n, I, guar n⟩ (fun _ _ => True) p w)
    (others : ∀ m q, m ≠ n → running m = some q →
      Safe (S.exec m) ⟨C.op m, rely m, I, guar m⟩ (fun _ _ => True) q w)
    (meets : Meets.first C n c p w) (step : S.advance n c p w running = some cfg) :
    Sound S C I rely guar cfg ∧ guar n w cfg.world := by
  cases p with
  | done r => cases step
  | perform o k =>
      simp only [System.advance] at step
      cases h : S.exec n o c w with
      | none => simp [h] at step
      | some result =>
          obtain ⟨r, w'⟩ := result
          simp only [h, Option.some.injEq] at step
          subst step
          obtain ⟨holds', gives, rest⟩ := safe holds c r w' meets h
          refine ⟨⟨holds', fun m q hq => ?_⟩, gives⟩
          by_cases hm : m = n
          · subst hm
            simp only [Function.update_self] at hq
            exact Coro.pending_eq_some hq ▸ rest
          · simp only [Function.update_of_ne hm] at hq
            exact (others m q hm hq).rely (.single (V.interference hm gives))

/-- One step keeps the invariant and is in the relation of all steps. -/
theorem VerifiedAtOnce.step (V : S.VerifiedAtOnce C I rely guar always)
    {cfg cfg' : Config Op Ret ε World Node} {l : Label Choice Node Call Event}
    (sound : Sound S C I rely guar cfg) (meets : S.Meets C l cfg)
    (step : S.step l cfg = some cfg') :
    Sound S C I rely guar cfg' ∧ always cfg.world cfg'.world := by
  obtain ⟨w, running⟩ := cfg
  cases l with
  | call n a c =>
      cases idle : running n with
      | some p => simp [System.step, idle] at step
      | none =>
          cases accepted : S.accept n a w with
          | none => simp [System.step, idle, accepted] at step
          | some w' =>
              simp only [System.step, idle, accepted] at step
              obtain ⟨holds, gives, safe⟩ := V.call sound.holds meets.1 accepted
              have others : ∀ m q, m ≠ n → running m = some q →
                  Safe (S.exec m) ⟨C.op m, rely m, I, guar m⟩ (fun _ _ => True) q w' :=
                fun m q hm hq => (sound.safe m q hq).rely (.single (V.interference hm gives))
              obtain ⟨sound', gives'⟩ := V.advance holds safe others (meets.2 w' accepted) step
              exact ⟨sound', V.trans (V.within gives) (V.within gives')⟩
  | perform n c =>
      cases busy : running n with
      | none => simp [System.step, busy] at step
      | some p =>
          simp only [System.step, busy] at step
          obtain ⟨sound', gives⟩ := V.advance sound.holds (sound.safe n p busy).atOnce
            (fun m q _ hq => sound.safe m q hq) (meets p busy) step
          exact ⟨sound', V.within gives⟩
  | crash n =>
      simp only [System.step, Option.some.injEq] at step
      subst step
      obtain ⟨holds, gives⟩ := V.crash sound.holds meets
      refine ⟨⟨holds, fun m q hq => ?_⟩, V.within gives⟩
      by_cases hm : m = n
      · subst hm
        simp at hq
      · simp only [Function.update_of_ne hm] at hq
        exact (sound.safe m q hq).rely (.single (V.interference hm gives))
  | event e =>
      cases happened : S.event e w with
      | none => simp [System.step, happened] at step
      | some w' =>
          simp only [System.step, happened, Option.map_some, Option.some.injEq] at step
          subst step
          obtain ⟨holds, tolerated, alw⟩ := V.event sound.holds meets happened
          exact ⟨⟨holds, fun m q hq => (sound.safe m q hq).rely (.single (tolerated m))⟩, alw⟩

theorem VerifiedAtOnce.reachable (V : S.VerifiedAtOnce C I rely guar always)
    {cfg cfg' : Config Op Ret ε World Node} (initial : I cfg.world)
    (idle : ∀ n, cfg.running n = none) (reach : S.Reachable C cfg cfg') :
    Sound S C I rely guar cfg' := by
  induction reach with
  | refl => exact ⟨initial, fun n p h => by simp [idle n] at h⟩
  | step _ meets step ih => exact (V.step ih meets step).1

/-- Two moments of a run are in the relation of all steps. -/
theorem VerifiedAtOnce.run (V : S.VerifiedAtOnce C I rely guar always) (refl : ∀ w, always w w)
    {cfg cfg' : Config Op Ret ε World Node} (sound : Sound S C I rely guar cfg)
    (reach : S.Reachable C cfg cfg') :
    Sound S C I rely guar cfg' ∧ always cfg.world cfg'.world := by
  induction reach with
  | refl => exact ⟨sound, refl _⟩
  | step _ meets step ih =>
      obtain ⟨sound', first⟩ := ih
      obtain ⟨sound'', last⟩ := V.step sound' meets step
      exact ⟨sound'', V.trans first last⟩

theorem Verified.reachable (V : S.Verified C I rely guar always)
    {cfg cfg' : Config Op Ret ε World Node} (initial : I cfg.world)
    (idle : ∀ n, cfg.running n = none) (reach : S.Reachable C cfg cfg') :
    Sound S C I rely guar cfg' := V.atOnce.reachable initial idle reach

theorem Verified.run (V : S.Verified C I rely guar always) (refl : ∀ w, always w w)
    {cfg cfg' : Config Op Ret ε World Node} (sound : Sound S C I rely guar cfg)
    (reach : S.Reachable C cfg cfg') :
    Sound S C I rely guar cfg' ∧ always cfg.world cfg'.world := V.atOnce.run refl sound reach

end System

end Coroutine
