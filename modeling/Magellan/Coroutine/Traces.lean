import Magellan.Coroutine.Basic

/-!
# Traces of coroutines

How a trace of a composed coroutine splits into the traces of its parts, and which operations it
can contain.
-/

namespace Coroutine

variable {Op : Type} {Ret : Op → Type} {ε α β Choice World : Type}

namespace Reach

variable {exec : Semantics Op Ret ε Choice World} {R : World → World → Prop}

theorem trans {p q : Coro Op Ret ε α} {r : Coro Op Ret ε α} {u v w : World}
    {tr₁ tr₂ : List (Op × Choice)} (h₁ : Reach exec R p u tr₁ q v)
    (h₂ : Reach exec R q v tr₂ r w) : Reach exec R p u (tr₁ ++ tr₂) r w := by
  induction h₁ with
  | refl => exact h₂
  | rely step _ ih => exact .rely step (ih h₂)
  | perform step _ ih => exact .perform step (ih h₂)

theorem rely_star {p q : Coro Op Ret ε α} {u v w : World} {tr : List (Op × Choice)}
    (steps : Relation.ReflTransGen R u v) (h : Reach exec R p v tr q w) :
    Reach exec R p u tr q w := by
  induction steps using Relation.ReflTransGen.head_induction_on with
  | refl => exact h
  | head step _ ih => exact .rely step ih

theorem of_eq {p q : Coro Op Ret ε α} {w : World} (h : p = q) : Reach exec R p w [] q w :=
  h ▸ .refl

theorem andThen_intro {p q : Coro Op Ret ε α} {f : Except ε α → Coro Op Ret ε β} {u v : World}
    {tr : List (Op × Choice)} (h : Reach exec R p u tr q v) :
    Reach exec R (p.andThen f) u tr (q.andThen f) v := by
  induction h with
  | refl => exact .refl
  | rely step _ ih => exact .rely step ih
  | perform step _ ih => exact .perform step ih

theorem andThen_cases {p : Coro Op Ret ε α} {f : Except ε α → Coro Op Ret ε β}
    {q : Coro Op Ret ε β} {u v : World} {tr : List (Op × Choice)}
    (h : Reach exec R (p.andThen f) u tr q v) :
    (∃ o k, Reach exec R p u tr (.perform o k) v ∧ q = .perform o fun r => (k r).andThen f) ∨
    ∃ r tr₁ tr₂ w, tr = tr₁ ++ tr₂ ∧ Reach exec R p u tr₁ (.done r) w ∧
      Reach exec R (f r) w tr₂ q v := by
  generalize hc : p.andThen f = c at h
  induction h generalizing p with
  | refl =>
      cases p with
      | done r => exact .inr ⟨r, [], [], _, rfl, .refl, hc ▸ .refl⟩
      | perform o k => exact .inl ⟨o, k, .refl, hc.symm⟩
  | rely step rest ih =>
      rcases ih hc with ⟨o, k, reach, rfl⟩ | ⟨r, tr₁, tr₂, w, rfl, reach, reach'⟩
      · exact .inl ⟨o, k, .rely step reach, rfl⟩
      · exact .inr ⟨r, tr₁, tr₂, w, rfl, .rely step reach, reach'⟩
  | perform step rest ih =>
      cases p with
      | done r =>
          refine .inr ⟨r, [], _, _, rfl, .refl, ?_⟩
          rw [Coro.andThen_done] at hc
          exact hc ▸ .perform step rest
      | perform o k =>
          simp only [Coro.andThen_perform, Coro.perform.injEq] at hc
          obtain ⟨rfl, hk⟩ := hc
          rcases ih (congrFun (eq_of_heq hk) _) with
            ⟨o, k', reach, rfl⟩ | ⟨r, tr₁, tr₂, w, rfl, reach, reach'⟩
          · exact .inl ⟨o, k', .perform step reach, rfl⟩
          · exact .inr ⟨r, _ :: tr₁, tr₂, w, rfl, .perform step reach, reach'⟩

theorem done_inv {r : Except ε α} {q : Coro Op Ret ε α} {u v : World} {tr : List (Op × Choice)}
    (h : Reach exec R (.done r) u tr q v) :
    tr = [] ∧ q = .done r ∧ Relation.ReflTransGen R u v := by
  generalize hc : (Coro.done r : Coro Op Ret ε α) = c at h
  induction h with
  | refl => exact ⟨rfl, rfl, .refl⟩
  | rely step _ ih =>
      obtain ⟨htr, hq, steps⟩ := ih hc
      exact ⟨htr, hq, .head step steps⟩
  | perform => cases hc

theorem perform_inv {o : Op} {k : Except ε (Ret o) → Coro Op Ret ε α} {q : Coro Op Ret ε α}
    {u v : World} {tr : List (Op × Choice)} (h : Reach exec R (.perform o k) u tr q v) :
    (tr = [] ∧ q = .perform o k ∧ Relation.ReflTransGen R u v) ∨
    ∃ c tr' r w w', tr = (o, c) :: tr' ∧ Relation.ReflTransGen R u w ∧
      exec o c w = some (r, w') ∧ Reach exec R (k r) w' tr' q v := by
  generalize hc : Coro.perform o k = p at h
  induction h with
  | refl => exact .inl ⟨rfl, rfl, .refl⟩
  | rely step _ ih =>
      rcases ih hc with ⟨htr, hq, steps⟩ | ⟨c, tr', r, w, w', htr, steps, done, rest⟩
      · exact .inl ⟨htr, hq, .head step steps⟩
      · exact .inr ⟨c, tr', r, w, w', htr, .head step steps, done, rest⟩
  | perform step rest =>
      cases hc
      exact .inr ⟨_, _, _, _, _, rfl, .refl, step, rest⟩

theorem perform_done {o : Op} {k : Except ε (Ret o) → Coro Op Ret ε α} {r : Except ε α}
    {u v : World} {tr : List (Op × Choice)} (h : Reach exec R (.perform o k) u tr (.done r) v) :
    ∃ c tr' a w w', tr = (o, c) :: tr' ∧ Relation.ReflTransGen R u w ∧
      exec o c w = some (a, w') ∧ Reach exec R (k a) w' tr' (.done r) v := by
  rcases h.perform_inv with ⟨-, ended, -⟩ | rest
  · cases ended
  · exact rest

theorem andThen_done {p : Coro Op Ret ε α} {f : Except ε α → Coro Op Ret ε β} {r : Except ε β}
    {u v : World} {tr : List (Op × Choice)} (h : Reach exec R (p.andThen f) u tr (.done r) v) :
    ∃ a tr₁ tr₂ w, tr = tr₁ ++ tr₂ ∧ Reach exec R p u tr₁ (.done a) w ∧
      Reach exec R (f a) w tr₂ (.done r) v := by
  rcases h.andThen_cases with ⟨o, k, -, ended⟩ | rest
  · cases ended
  · exact rest

end Reach

namespace Coro

/-- Every operation that the coroutine can perform satisfies `P`. -/
def Performs (P : Op → Prop) : Coro Op Ret ε α → Prop
  | .done _ => True
  | .perform o k => P o ∧ ∀ r, Performs P (k r)

variable {P : Op → Prop}

theorem Performs.raise (e : ε) : Performs P (raise e : Coro Op Ret ε α) := trivial

theorem Performs.pure (a : α) : Performs P (pure a : Coro Op Ret ε α) := trivial

theorem Performs.op {o : Op} (h : P o) : Performs P (op o : Coro Op Ret ε (Ret o)) :=
  ⟨h, fun _ => trivial⟩

theorem Performs.of_forall (h : ∀ o, P o) (p : Coro Op Ret ε α) : Performs P p := by
  induction p with
  | done r => trivial
  | perform o k ih => exact ⟨h o, ih⟩

theorem Performs.mono {Q : Op → Prop} {p : Coro Op Ret ε α} (h : Performs P p)
    (weaker : ∀ o, P o → Q o) : Performs Q p := by
  induction p with
  | done r => trivial
  | perform o k ih => exact ⟨weaker o h.1, fun r => ih r (h.2 r)⟩

theorem Performs.andThen {p : Coro Op Ret ε α} {f : Except ε α → Coro Op Ret ε β}
    (hp : Performs P p) (hf : ∀ r, Performs P (f r)) : Performs P (p.andThen f) := by
  induction p with
  | done r => exact hf r
  | perform o k ih => exact ⟨hp.1, fun r => ih r (hp.2 r)⟩

theorem Performs.attempt {p : Coro Op Ret ε α} {ok : α → Coro Op Ret ε β}
    {err : ε → Coro Op Ret ε β} (hp : Performs P p) (hok : ∀ a, Performs P (ok a))
    (herr : ∀ e, Performs P (err e)) : Performs P (p.attempt ok err) :=
  hp.andThen fun
    | .ok a => hok a
    | .error e => herr e

theorem Performs.bind {p : Coro Op Ret ε α} {f : α → Coro Op Ret ε β} (hp : Performs P p)
    (hf : ∀ a, Performs P (f a)) : Performs P (p >>= f) :=
  hp.attempt hf fun _ => trivial

theorem Performs.tryExcept {p : Coro Op Ret ε α} {h : ε → Coro Op Ret ε α} (hp : Performs P p)
    (hh : ∀ e, Performs P (h e)) : Performs P (p.tryExcept h) :=
  hp.attempt (fun _ => trivial) hh

theorem Performs.tryFinally {p : Coro Op Ret ε α} {f : Except ε α → Coro Op Ret ε Unit}
    (hp : Performs P p) (hf : ∀ r, Performs P (f r)) : Performs P (p.tryFinally f) :=
  hp.andThen fun r => (hf r).attempt (fun _ => trivial) fun _ => trivial

theorem Performs.ite {c : Prop} [Decidable c] {p q : Coro Op Ret ε α} (hp : Performs P p)
    (hq : Performs P q) : Performs P (if c then p else q) := by
  split
  · exact hp
  · exact hq

/-- Every exception with which the coroutine can end satisfies `E`, when operation `o` raises only
exceptions in `S o`. -/
def Raises (S : Op → ε → Prop) (E : ε → Prop) : Coro Op Ret ε α → Prop
  | .done (.ok _) => True
  | .done (.error e) => E e
  | .perform o k => (∀ a, Raises S E (k (.ok a))) ∧ ∀ e, S o e → Raises S E (k (.error e))

section

variable {S : Op → ε → Prop} {E E' : ε → Prop}

theorem Raises.of_forall (h : ∀ e, E e) (p : Coro Op Ret ε α) : Raises S E p := by
  induction p with
  | done r =>
      cases r with
      | ok a => trivial
      | error e => exact h e
  | perform o k ih => exact ⟨fun a => ih _, fun e _ => ih _⟩

theorem Raises.mono {p : Coro Op Ret ε α} (hp : Raises S E p) (weaker : ∀ e, E e → E' e) :
    Raises S E' p := by
  induction p with
  | done r =>
      cases r with
      | ok a => trivial
      | error e => exact weaker e hp
  | perform o k ih => exact ⟨fun a => ih _ (hp.1 a), fun e h => ih _ (hp.2 e h)⟩

theorem Raises.andThen {p : Coro Op Ret ε α} {f : Except ε α → Coro Op Ret ε β}
    (hp : Raises S E p) (hok : ∀ a, Raises S E' (f (.ok a)))
    (herr : ∀ e, E e → Raises S E' (f (.error e))) : Raises S E' (p.andThen f) := by
  induction p with
  | done r =>
      cases r with
      | ok a => exact hok a
      | error e => exact herr e hp
  | perform o k ih => exact ⟨fun a => ih _ (hp.1 a), fun e h => ih _ (hp.2 e h)⟩

theorem Raises.attempt {p : Coro Op Ret ε α} {ok : α → Coro Op Ret ε β}
    {err : ε → Coro Op Ret ε β} (hp : Raises S E p) (hok : ∀ a, Raises S E' (ok a))
    (herr : ∀ e, E e → Raises S E' (err e)) : Raises S E' (p.attempt ok err) :=
  hp.andThen hok herr

theorem Raises.bind {p : Coro Op Ret ε α} {f : α → Coro Op Ret ε β} (hp : Raises S E p)
    (hf : ∀ a, Raises S E (f a)) : Raises S E (p >>= f) :=
  hp.attempt hf fun _ h => h

theorem Raises.pure (a : α) : Raises S E (pure a : Coro Op Ret ε α) := trivial

theorem Raises.op {o : Op} (h : ∀ e, S o e → E e) : Raises S E (op o : Coro Op Ret ε (Ret o)) :=
  ⟨fun _ => trivial, h⟩

theorem Raises.ite {c : Prop} [Decidable c] {p q : Coro Op Ret ε α} (hp : Raises S E p)
    (hq : Raises S E q) : Raises S E (if c then p else q) := by
  split
  · exact hp
  · exact hq

end

/-- The coroutine ends with the first exception that an operation of it raises, and with no
other. -/
def FailFast : Coro Op Ret ε α → Prop
  | .done (.ok _) => True
  | .done (.error _) => False
  | .perform _ k => (∀ e, k (.error e) = .done (.error e)) ∧ ∀ a, FailFast (k (.ok a))

theorem FailFast.pure (a : α) : FailFast (pure a : Coro Op Ret ε α) := trivial

theorem FailFast.op (o : Op) : FailFast (op o : Coro Op Ret ε (Ret o)) :=
  ⟨fun _ => rfl, fun _ => trivial⟩

theorem FailFast.bind {p : Coro Op Ret ε α} {f : α → Coro Op Ret ε β} (hp : FailFast p)
    (hf : ∀ a, FailFast (f a)) : FailFast (p >>= f) := by
  induction p with
  | done r =>
      cases r with
      | ok a => exact hf a
      | error e => exact hp.elim
  | perform o k ih =>
      refine ⟨fun e => ?_, fun a => ih _ (hp.2 a)⟩
      change (k (.error e)).andThen _ = _
      rw [hp.1 e]
      rfl

theorem FailFast.ite {c : Prop} [Decidable c] {p q : Coro Op Ret ε α} (hp : FailFast p)
    (hq : FailFast q) : FailFast (if c then p else q) := by
  split
  · exact hp
  · exact hq

end Coro

namespace Reach

variable {exec : Semantics Op Ret ε Choice World} {R : World → World → Prop}

theorem performs {p q : Coro Op Ret ε α} {u v : World} {tr : List (Op × Choice)} {P : Op → Prop}
    (h : Reach exec R p u tr q v) (hp : p.Performs P) : ∀ x ∈ tr, P x.1 := by
  induction h with
  | refl => simp
  | rely _ _ ih => exact ih hp
  | perform step _ ih => exact List.forall_mem_cons.mpr ⟨hp.1, ih (hp.2 _)⟩

/-- A step of a trace at which the operation returned. -/
def Returned (exec : Semantics Op Ret ε Choice World) (x : Op × Choice) : Prop :=
  ∃ u a v, exec x.1 x.2 u = some (.ok a, v)

/-- Either no operation of the trace raised, or exactly the last one did. -/
theorem failFast {p q : Coro Op Ret ε α} {u v : World} {tr : List (Op × Choice)}
    (h : Reach exec R p u tr q v) (hp : p.FailFast) :
    ((∀ x ∈ tr, Returned exec x) ∧ ∀ e, q ≠ .done (.error e)) ∨
      ∃ tr' o c e w w', tr = tr' ++ [(o, c)] ∧ (∀ x ∈ tr', Returned exec x) ∧
        exec o c w = some (.error e, w') ∧ q = .done (.error e) := by
  induction h with
  | @refl p w =>
      refine .inl ⟨by simp, ?_⟩
      rintro e rfl
      exact hp
  | rely _ _ ih => exact ih hp
  | @perform o k c w r w' tr q v step rest ih =>
      cases r with
      | error e =>
          rw [hp.1 e] at rest
          obtain ⟨rfl, rfl, -⟩ := rest.done_inv
          exact .inr ⟨[], o, c, e, w, w', rfl, by simp, step, rfl⟩
      | ok a =>
          have here : Returned exec (o, c) := ⟨w, a, w', step⟩
          rcases ih (hp.2 a) with ⟨all, ended⟩ | ⟨tr', o', c', e, u, u', rfl, all, raised, rfl⟩
          · exact .inl ⟨List.forall_mem_cons.mpr ⟨here, all⟩, ended⟩
          · exact .inr ⟨(o, c) :: tr', o', c', e, u, u', rfl,
              List.forall_mem_cons.mpr ⟨here, all⟩, raised, rfl⟩

end Reach

/-! ## What a coroutine can do -/

/-- Started as `p` in `w`, the coroutine can be at some point in `v`. -/
def Visits (exec : Semantics Op Ret ε Choice World) (R : World → World → Prop)
    (p : Coro Op Ret ε α) (w v : World) : Prop := ∃ tr q, Reach exec R p w tr q v

/-- Started as `p` in `w`, the coroutine can end with `r` in `v`. -/
def Ends (exec : Semantics Op Ret ε Choice World) (R : World → World → Prop)
    (p : Coro Op Ret ε α) (w : World) (r : Except ε α) (v : World) : Prop :=
  ∃ tr, Reach exec R p w tr (.done r) v

section

variable {exec : Semantics Op Ret ε Choice World} {R : World → World → Prop}
  {p : Coro Op Ret ε α} {u v w : World} {r : Except ε α}

theorem Visits.refl : Visits exec R p w w := ⟨[], p, .refl⟩

theorem Visits.perform {o : Op} {k : Except ε (Ret o) → Coro Op Ret ε α} {a : Except ε (Ret o)}
    (c : Choice) (step : exec o c w = some (a, u)) (rest : Visits exec R (k a) u v) :
    Visits exec R (.perform o k) w v :=
  have ⟨_, q, reach⟩ := rest
  ⟨_, q, .perform step reach⟩

theorem Visits.andThen {f : Except ε α → Coro Op Ret ε β} (h : Visits exec R p w v) :
    Visits exec R (p.andThen f) w v :=
  have ⟨_, _, reach⟩ := h
  ⟨_, _, reach.andThen_intro⟩

theorem Visits.bind {f : α → Coro Op Ret ε β} (h : Visits exec R p w v) :
    Visits exec R (p >>= f) w v := h.andThen

theorem Ends.done : Ends exec R (.done r) w r w := ⟨[], .refl⟩

theorem Ends.perform {o : Op} {k : Except ε (Ret o) → Coro Op Ret ε α} {a : Except ε (Ret o)}
    (c : Choice) (step : exec o c w = some (a, u)) (rest : Ends exec R (k a) u r v) :
    Ends exec R (.perform o k) w r v :=
  have ⟨_, reach⟩ := rest
  ⟨_, .perform step reach⟩

theorem Ends.op {o : Op} {a : Except ε (Ret o)} (c : Choice) (step : exec o c w = some (a, v)) :
    Ends exec R (Coro.op o) w a v := .perform c step .done

theorem Ends.andThen_visits {f : Except ε α → Coro Op Ret ε β} (h : Ends exec R p w r u)
    (rest : Visits exec R (f r) u v) : Visits exec R (p.andThen f) w v :=
  have ⟨_, reach⟩ := h
  have ⟨_, q, reach'⟩ := rest
  ⟨_, q, reach.andThen_intro.trans reach'⟩

theorem Ends.andThen {f : Except ε α → Coro Op Ret ε β} {r' : Except ε β}
    (h : Ends exec R p w r u) (rest : Ends exec R (f r) u r' v) :
    Ends exec R (p.andThen f) w r' v :=
  have ⟨_, reach⟩ := h
  have ⟨_, reach'⟩ := rest
  ⟨_, reach.andThen_intro.trans reach'⟩

theorem Ends.bind_visits {a : α} {f : α → Coro Op Ret ε β} (h : Ends exec R p w (.ok a) u)
    (rest : Visits exec R (f a) u v) : Visits exec R (p >>= f) w v := h.andThen_visits rest

theorem Ends.bind {a : α} {f : α → Coro Op Ret ε β} {r' : Except ε β}
    (h : Ends exec R p w (.ok a) u) (rest : Ends exec R (f a) u r' v) :
    Ends exec R (p >>= f) w r' v := h.andThen rest

end

/-! ## Replay -/

def Coro.outcome? : Coro Op Ret ε α → Option (Except ε α)
  | .done r => some r
  | .perform .. => none

theorem Coro.eq_done {p : Coro Op Ret ε α} {r : Except ε α} (h : p.outcome? = some r) :
    p = .done r := by
  cases p with
  | done r' => exact congrArg _ (Option.some.inj h)
  | perform o k => cases h

/-- Run the coroutine alone, with these choices. -/
def replay (exec : Semantics Op Ret ε Choice World) : Coro Op Ret ε α → World → List Choice →
    Option (List (Op × Choice) × Coro Op Ret ε α × World)
  | p, w, [] => some ([], p, w)
  | .done _, _, _ :: _ => none
  | .perform o k, w, c :: choices =>
      match exec o c w with
      | none => none
      | some (r, w') => (replay exec (k r) w' choices).map fun (tr, q, v) => ((o, c) :: tr, q, v)

theorem Reach.of_replay {exec : Semantics Op Ret ε Choice World} {R : World → World → Prop}
    {p q : Coro Op Ret ε α} {w v : World} {choices : List Choice} {tr : List (Op × Choice)}
    (h : replay exec p w choices = some (tr, q, v)) : Reach exec R p w tr q v := by
  induction choices generalizing p w tr with
  | nil =>
      have h' : (([], p, w) : List (Op × Choice) × _) = (tr, q, v) := by
        cases p <;> simpa [replay] using h
      cases h'
      exact .refl
  | cons c choices ih =>
      cases p with
      | done r => cases h
      | perform o k =>
          simp only [replay] at h
          split at h
          · cases h
          · rename_i r w' step
            obtain ⟨⟨tr', q', v'⟩, rest, eq⟩ := Option.map_eq_some_iff.mp h
            cases eq
            exact .perform step (ih rest)

theorem exists_reach_of_replay {exec : Semantics Op Ret ε Choice World}
    {R : World → World → Prop} {p : Coro Op Ret ε α} {w : World} (choices : List Choice)
    {P : List (Op × Choice) → Coro Op Ret ε α → World → Prop} [∀ tr q v, Decidable (P tr q v)]
    (h : ((replay exec p w choices).any fun x => P x.1 x.2.1 x.2.2) = true) :
    ∃ tr q v, Reach exec R p w tr q v ∧ P tr q v := by
  obtain ⟨⟨tr, q, v⟩, eq, holds⟩ := Option.any_eq_true _ _ |>.mp h
  exact ⟨tr, q, v, .of_replay eq, of_decide_eq_true holds⟩

end Coroutine
