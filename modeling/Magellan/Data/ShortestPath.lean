import Mathlib.Data.Finset.Card
import Mathlib.Tactic.Ring
import Magellan.Data.BestFirst

/-!
# The search finds a cheapest walk

The invariant speaks of the states that have been left, each of which has its final distance. It
carries for every state that has been seen the walk that the search has come by.
-/

namespace BestFirst

variable {σ E R M κ ε : Type} [DecidableEq σ]

/-! ## The walk that the search has come by -/

section Traced

/-- All states of the walk but the last one have been left. -/
inductive Traced (p : Problem σ E R M κ ε) (edges : σ → List (σ × E)) (left : Finset σ)
    (f : Frontier σ E R M κ) : List E → σ → Prop
  | start : Traced p edges left f [] p.start
  | snoc {es : List E} {s t : σ} {e : E} : Traced p edges left f es s → s ∈ left →
      (t, e) ∈ edges s → f.previous.get? t = some (s, e) → t ≠ p.start →
        Traced p edges left f (es ++ [e]) t

variable {p : Problem σ E R M κ ε} {edges : σ → List (σ × E)} {left : Finset σ}
  {f f' : Frontier σ E R M κ} {es : List E} {t : σ}

theorem Traced.walk (traced : Traced p edges left f es t) : Walk edges p.start es t := by
  induction traced with
  | start => exact .nil
  | snoc _ _ edge _ _ ih => exact ih.snoc edge

theorem Traced.update {left' : Finset σ} {next : σ} (fresh : next ∉ left) (sub : left ⊆ left')
    (other : ∀ t, t ≠ next → f'.previous.get? t = f.previous.get? t)
    (traced : Traced p edges left f es t) (different : t ≠ next) :
    Traced p edges left' f' es t := by
  induction traced with
  | start => exact .start
  | @snoc es s t e _ member edge previous notStart ih =>
      have before : s ≠ next := fun same => fresh (same ▸ member)
      exact (ih before).snoc (sub member) edge ((other t different).trans previous) notStart

theorem Traced.mono {left' : Finset σ} (traced : Traced p edges left f es t) (sub : left ⊆ left')
    (same : f'.previous = f.previous) : Traced p edges left' f' es t := by
  induction traced with
  | start => exact .start
  | snoc _ member edge previous notStart ih =>
      exact ih.snoc (sub member) edge (same ▸ previous) notStart

theorem Traced.trace (traced : Traced p edges left f es t) (fuel : Nat) (enough : es.length ≤ fuel) :
    p.trace f fuel t = some es := by
  induction traced generalizing fuel with
  | start => cases fuel <;> simp [Problem.trace]
  | @snoc es s t e _ _ _ previous notStart ih =>
      rw [List.length_append, List.length_singleton] at enough
      obtain ⟨fuel, rfl⟩ := Nat.exists_eq_succ_of_ne_zero (n := fuel) (by omega)
      have rest := ih fuel (by omega)
      simp [Problem.trace, notStart, previous, rest]

end Traced

variable [LinearOrder R]

/-! ## Distances fall -/

/-- States that have been left keep their distances. -/
structure Lowers (left : Finset σ) (f f' : Frontier σ E R M κ) : Prop where
  lower : ∀ t d, f.distances.get? t = some d → ∃ d' ≤ d, f'.distances.get? t = some d'
  same : ∀ s ∈ left, f'.distances.get? s = f.distances.get? s

namespace Lowers

variable {left : Finset σ} {f f' f'' : Frontier σ E R M κ}

theorem refl : Lowers left f f := ⟨fun _ d found => ⟨d, le_rfl, found⟩, fun _ _ => rfl⟩

theorem trans (first : Lowers left f f') (second : Lowers left f' f'') : Lowers left f f'' := by
  constructor
  · intro t d found
    obtain ⟨d', le', found'⟩ := first.lower t d found
    obtain ⟨d'', le'', found''⟩ := second.lower t d' found'
    exact ⟨d'', le''.trans le', found''⟩
  · intro s member
    rw [second.same s member, first.same s member]

end Lowers

variable [Field R] [IsStrictOrderedRing R] [AddCommMonoid M]

/-- What a search may rely on: from every state that can be reached and is not a goal, the ways out
are those of `edges`, whatever valid cache there is, or they cannot be had. -/
structure Problem.Unfolds (p : Problem σ E R M κ ε) (edges : σ → List (σ × E)) (states : Finset σ)
    (Valid : κ → Prop) (Fails : ε → Prop) : Prop where
  start_mem : p.start ∈ states
  closed : ∀ s ∈ states, ∀ next ∈ edges s, next.1 ∈ states
  weight_nonneg : ∀ s, ∀ next ∈ edges s, 0 ≤ p.weight next.2
  tolerance_nonneg : 0 ≤ p.tolerance
  expands : ∀ es s, Walk edges p.start es s → p.goal s = false → ∀ cache, Valid cache →
    (∃ cache', p.expand s cache = .ok (edges s, cache') ∧ Valid cache') ∨
      ∃ e, p.expand s cache = .error e ∧ Fails e

structure Invariant (p : Problem σ E R M κ ε) (edges : σ → List (σ × E)) (states left : Finset σ)
    (floor : R) (f : Frontier σ E R M κ) : Prop where
  sorted : f.queue.Pairwise Entry.Le
  distinct : (f.queue.map fun entry => (entry.state, entry.score)).Nodup
  floor_nonneg : 0 ≤ floor
  floor_le : ∀ entry ∈ f.queue, floor ≤ entry.score
  start : f.distances.get? p.start = some 0
  recorded : ∀ t d, f.distances.get? t = some d → t ∈ states ∧
    ∃ es, Traced p edges left f es t ∧ d = total p.weight es ∧
      f.metrics.get? t = some (total p.measure es)
  queued : ∀ t d, f.distances.get? t = some d → t ∉ left →
    ∃ entry ∈ f.queue, entry.state = t ∧ entry.score = d
  known : ∀ entry ∈ f.queue, ∃ d, f.distances.get? entry.state = some d ∧
    (d + p.tolerance < entry.score ∨ d = entry.score ∧ entry.state ∉ left)
  left_distance : ∀ s ∈ left, s ∈ states ∧ p.goal s = false ∧
    ∃ d, f.distances.get? s = some d ∧ d ≤ floor

/-- The ways out of a state have been looked at. -/
def Relaxed (p : Problem σ E R M κ ε) (f : Frontier σ E R M κ) (s : σ) (out : List (σ × E)) : Prop :=
  ∀ d, f.distances.get? s = some d → ∀ next ∈ out,
    ∃ d', f.distances.get? next.1 = some d' ∧ d' ≤ d + p.weight next.2 + p.tolerance

variable {p : Problem σ E R M κ ε} {edges : σ → List (σ × E)} {states left : Finset σ} {floor : R}
  {f f' : Frontier σ E R M κ} {Valid : κ → Prop} {Fails : ε → Prop}

omit [IsStrictOrderedRing R] [AddCommMonoid M] in
theorem Relaxed.lowers {s : σ} {out : List (σ × E)} (before : Relaxed p f s out)
    (lowers : Lowers left f f') (member : s ∈ left) : Relaxed p f' s out := by
  intro d found next out
  rw [lowers.same s member] at found
  obtain ⟨d', known, le⟩ := before d found next out
  obtain ⟨d'', lower, found'⟩ := lowers.lower next.1 d' known
  exact ⟨d'', found', lower.trans le⟩

/-! ## One way out -/

omit [IsStrictOrderedRing R] [AddCommMonoid M] in
theorem improves_iff {next : σ} {score : R} :
    p.improves f next score = true ↔
      ∀ d, f.distances.get? next = some d → score + p.tolerance < d := by
  unfold Problem.improves
  cases f.distances.get? next <;> simp

omit [IsStrictOrderedRing R] in
theorem mem_queue_improve {entry other : Entry σ R} {next : σ × E} :
    other ∈ (p.improve entry f next).queue ↔
      other = ⟨entry.score + p.weight next.2, f.serial, next.1⟩ ∨ other ∈ f.queue :=
  List.mem_orderedInsert _

section Improve

variable {entry : Entry σ R} {next : σ × E}

theorem Invariant.fresh (inv : Invariant p edges states left floor f)
    (tolerance : 0 ≤ p.tolerance) (score : floor = entry.score) (weight : 0 ≤ p.weight next.2)
    (improves : p.improves f next.1 (entry.score + p.weight next.2) = true) :
    next.1 ∉ left ∧ next.1 ≠ p.start := by
  rw [improves_iff] at improves
  constructor
  · intro member
    obtain ⟨-, -, d, found, le⟩ := inv.left_distance _ member
    have better := improves d found
    linarith
  · intro same
    have better := improves 0 (by rw [same, inv.start])
    have nonneg := inv.floor_nonneg
    linarith

theorem lowers_improve (fresh : next.1 ∉ left) (tolerance : 0 ≤ p.tolerance)
    (improves : p.improves f next.1 (entry.score + p.weight next.2) = true) :
    Lowers left f (p.improve entry f next) := by
  rw [improves_iff] at improves
  constructor
  · intro t d found
    by_cases same : t = next.1
    · have better := improves d (same ▸ found)
      refine ⟨entry.score + p.weight next.2, by linarith, ?_⟩
      rw [Problem.improve, Dict.get?_set, if_pos same]
    · refine ⟨d, le_rfl, ?_⟩
      rw [Problem.improve, Dict.get?_set, if_neg same, found]
  · intro s member
    rw [Problem.improve, Dict.get?_set, if_neg fun same : s = next.1 => fresh (same ▸ member)]

theorem Invariant.worse (inv : Invariant p edges states left floor f) (tolerance : 0 ≤ p.tolerance)
    (improves : p.improves f next.1 (entry.score + p.weight next.2) = true) {other : Entry σ R}
    (queued : other ∈ f.queue) (same : other.state = next.1) :
    entry.score + p.weight next.2 + p.tolerance < other.score := by
  obtain ⟨d, found, old⟩ := inv.known other queued
  have better := improves_iff.mp improves d (same ▸ found)
  rcases old with worse | ⟨rfl, -⟩
  · linarith
  · exact better

theorem Invariant.improve (inv : Invariant p edges states left floor f)
    (tolerance : 0 ≤ p.tolerance) (member : entry.state ∈ left) (score : floor = entry.score)
    (distance : f.distances.get? entry.state = some entry.score) (edge : next ∈ edges entry.state)
    (inside : next.1 ∈ states) (weight : 0 ≤ p.weight next.2)
    (improves : p.improves f next.1 (entry.score + p.weight next.2) = true) :
    Invariant p edges states left floor (p.improve entry f next) := by
  obtain ⟨fresh, notStart⟩ := inv.fresh tolerance score weight improves
  have other : ∀ t, t ≠ next.1 →
      (p.improve entry f next).previous.get? t = f.previous.get? t := by
    intro t different
    rw [Problem.improve, Dict.get?_set, if_neg different]
  have distances : ∀ t, (p.improve entry f next).distances.get? t =
      if t = next.1 then some (entry.score + p.weight next.2) else f.distances.get? t :=
    fun t => Dict.get?_set ..
  have metrics : ∀ t, (p.improve entry f next).metrics.get? t =
      if t = next.1 then some (f.metrics.getD entry.state 0 + p.measure next.2)
      else f.metrics.get? t :=
    fun t => Dict.get?_set ..
  constructor
  case sorted => exact inv.sorted.orderedInsert _ _
  case distinct =>
    have perm := (List.perm_orderedInsert Entry.Le
      (⟨entry.score + p.weight next.2, f.serial, next.1⟩ : Entry σ R) f.queue).map
        fun entry => (entry.state, entry.score)
    refine perm.nodup_iff.mpr (List.nodup_cons.mpr ⟨?_, inv.distinct⟩)
    intro old
    obtain ⟨other, queued, same⟩ := List.mem_map.mp old
    obtain ⟨sameState, sameScore⟩ := Prod.mk.inj same
    have worse := inv.worse tolerance improves queued sameState
    linarith
  case floor_nonneg => exact inv.floor_nonneg
  case floor_le =>
    intro other queued
    rcases mem_queue_improve.mp queued with rfl | old
    · show floor ≤ entry.score + p.weight next.2
      linarith
    · exact inv.floor_le other old
  case start => rw [distances, if_neg (Ne.symm notStart), inv.start]
  case recorded =>
    intro t d found
    rw [distances] at found
    by_cases same : t = next.1
    · rw [if_pos same] at found
      cases found
      subst same
      obtain ⟨-, es, traced, total_es, measured⟩ := inv.recorded _ _ distance
      have notNext : entry.state ≠ next.1 := fun same => fresh (same ▸ member)
      refine ⟨inside, es ++ [next.2], ?_, ?_, ?_⟩
      · apply (traced.update fresh subset_rfl other notNext).snoc member edge _ notStart
        rw [Problem.improve, Dict.get?_set, if_pos rfl]
      · rw [total_snoc, total_es]
      · rw [metrics, if_pos rfl, total_snoc, Dict.getD, measured]
        rfl
    · rw [if_neg same] at found
      obtain ⟨inside, es, traced, total_es, measured⟩ := inv.recorded t d found
      refine ⟨inside, es, traced.update fresh subset_rfl other same, total_es, ?_⟩
      rw [metrics, if_neg same, measured]
  case queued =>
    intro t d found notLeft
    rw [distances] at found
    by_cases same : t = next.1
    · rw [if_pos same] at found
      cases found
      exact ⟨_, mem_queue_improve.mpr (.inl rfl), same.symm, rfl⟩
    · rw [if_neg same] at found
      obtain ⟨entry', queued, of_t⟩ := inv.queued t d found notLeft
      exact ⟨entry', mem_queue_improve.mpr (.inr queued), of_t⟩
  case known =>
    intro other queued
    rcases mem_queue_improve.mp queued with rfl | old
    · exact ⟨_, by rw [distances, if_pos rfl], .inr ⟨rfl, fresh⟩⟩
    · by_cases same : other.state = next.1
      · refine ⟨_, by rw [distances, if_pos same], .inl ?_⟩
        exact inv.worse tolerance improves old same
      · obtain ⟨d, found, order⟩ := inv.known other old
        exact ⟨d, by rw [distances, if_neg same, found], order⟩
  case left_distance =>
    intro s leftMember
    obtain ⟨inside, notGoal, d, found, le⟩ := inv.left_distance s leftMember
    refine ⟨inside, notGoal, d, ?_, le⟩
    rw [distances, if_neg fun same : s = next.1 => fresh (same ▸ leftMember), found]

/-- What the search keeps while it looks at the ways out of the state of `entry`. -/
structure Leaving (p : Problem σ E R M κ ε) (edges : σ → List (σ × E)) (states left : Finset σ)
    (entry : Entry σ R) (f : Frontier σ E R M κ) : Prop where
  invariant : Invariant p edges states left entry.score f
  member : entry.state ∈ left
  distance : f.distances.get? entry.state = some entry.score

theorem Leaving.relax (leaving : Leaving p edges states left entry f)
    (unfolds : p.Unfolds edges states Valid Fails) (edge : next ∈ edges entry.state) :
    Leaving p edges states left entry (p.relax entry f next) ∧
      Lowers left f (p.relax entry f next) ∧ Relaxed p (p.relax entry f next) entry.state [next] ∧
        (p.relax entry f next).cache = f.cache := by
  have tolerance := unfolds.tolerance_nonneg
  have weight := unfolds.weight_nonneg _ next edge
  unfold Problem.relax
  split_ifs with improves
  · have inside := unfolds.closed _ (leaving.invariant.left_distance _ leaving.member).1 next edge
    have fresh := (leaving.invariant.fresh tolerance rfl weight improves).1
    have lowers := lowers_improve fresh tolerance improves
    have kept := lowers.same _ leaving.member
    refine ⟨⟨?_, leaving.member, kept.trans leaving.distance⟩, lowers, ?_, rfl⟩
    · exact leaving.invariant.improve tolerance leaving.member rfl leaving.distance edge inside weight
        improves
    · intro d found next' only
      rw [kept, leaving.distance] at found
      cases found
      rw [List.mem_singleton] at only
      subst only
      refine ⟨entry.score + p.weight next'.2, ?_, by linarith⟩
      rw [Problem.improve, Dict.get?_set, if_pos rfl]
  · refine ⟨leaving, .refl, ?_, rfl⟩
    intro d found next' only
    rw [leaving.distance] at found
    cases found
    rw [List.mem_singleton] at only
    subst only
    rw [improves_iff] at improves
    push Not at improves
    obtain ⟨d', found', le⟩ := improves
    exact ⟨d', found', by linarith⟩

end Improve

theorem Leaving.relaxAll {entry : Entry σ R} (unfolds : p.Unfolds edges states Valid Fails)
    (out : List (σ × E)) (among : ∀ next ∈ out, next ∈ edges entry.state)
    (leaving : Leaving p edges states left entry f) :
    Leaving p edges states left entry (out.foldl (p.relax entry) f) ∧
      Lowers left f (out.foldl (p.relax entry) f) ∧
        Relaxed p (out.foldl (p.relax entry) f) entry.state out ∧
          (out.foldl (p.relax entry) f).cache = f.cache := by
  induction out generalizing f with
  | nil =>
      refine ⟨leaving, .refl, ?_, rfl⟩
      intro _ _ _ impossible
      cases impossible
  | cons next out ih =>
      obtain ⟨one, lowersOne, relaxedOne, cacheOne⟩ := leaving.relax unfolds
        (among next List.mem_cons_self)
      obtain ⟨rest, lowersRest, relaxedRest, cacheRest⟩ := ih
        (fun next member => among next (List.mem_cons_of_mem _ member)) one
      refine ⟨rest, lowersOne.trans lowersRest, ?_, cacheRest.trans cacheOne⟩
      intro d found next' member
      rcases List.mem_cons.mp member with rfl | member
      · exact relaxedOne.lowers lowersRest one.member d found next' List.mem_cons_self
      · exact relaxedRest d found next' member

/-! ## One turn of the loop -/

section Turn

variable {entry : Entry σ R} {queue : List (Entry σ R)}

omit [IsStrictOrderedRing R] in
theorem Invariant.least (inv : Invariant p edges states left floor f)
    (first : f.queue = entry :: queue) : ∀ other ∈ f.queue, entry.score ≤ other.score := by
  intro other queued
  have sorted := inv.sorted
  rw [first] at queued sorted
  rcases List.mem_cons.mp queued with rfl | later
  · exact le_rfl
  · exact Entry.Le.score_le (List.rel_of_pairwise_cons sorted later)

theorem Invariant.passOver (inv : Invariant p edges states left floor f)
    (tolerance : 0 ≤ p.tolerance) (first : f.queue = entry :: queue)
    (stale : p.stale entry f = true) :
    Invariant p edges states left floor { f with queue } := by
  have behind : ∀ d, f.distances.get? entry.state = some d → d < entry.score := by
    intro d found
    simp only [Problem.stale, found, decide_eq_true_eq] at stale
    linarith
  have later : ∀ other ∈ queue, other ∈ f.queue := by
    intro other queued
    rw [first]
    exact List.mem_cons_of_mem _ queued
  have sorted := inv.sorted
  have distinct := inv.distinct
  rw [first] at sorted distinct
  constructor
  case sorted => exact List.Pairwise.of_cons sorted
  case distinct => exact (List.nodup_cons.mp distinct).2
  case floor_nonneg => exact inv.floor_nonneg
  case floor_le => exact fun other queued => inv.floor_le other (later other queued)
  case start => exact inv.start
  case recorded =>
    intro t d found
    obtain ⟨inside, es, traced, rest⟩ := inv.recorded t d found
    exact ⟨inside, es, traced.mono subset_rfl rfl, rest⟩
  case queued =>
    intro t d found notLeft
    obtain ⟨other, queued, of_t, score⟩ := inv.queued t d found notLeft
    rw [first] at queued
    rcases List.mem_cons.mp queued with rfl | queued
    · have less := behind d (of_t ▸ found)
      exact absurd score less.ne'
    · exact ⟨other, queued, of_t, score⟩
  case known => exact fun other queued => inv.known other (later other queued)
  case left_distance => exact inv.left_distance

omit [IsStrictOrderedRing R] in
theorem Invariant.current (inv : Invariant p edges states left floor f)
    (first : f.queue = entry :: queue) (current : p.stale entry f = false) :
    f.distances.get? entry.state = some entry.score ∧ entry.state ∉ left := by
  obtain ⟨d, found, order⟩ := inv.known entry (first ▸ List.mem_cons_self)
  simp only [Problem.stale, found, decide_eq_false_iff_not] at current
  rcases order with worse | ⟨same, fresh⟩
  · exact absurd worse current
  · exact ⟨same ▸ found, fresh⟩

omit [IsStrictOrderedRing R] in
theorem Invariant.leave (inv : Invariant p edges states left floor f)
    (first : f.queue = entry :: queue) (current : p.stale entry f = false)
    (notGoal : p.goal entry.state = false) {cache : κ} :
    Leaving p edges states (insert entry.state left) entry { f with queue, cache } := by
  obtain ⟨distance, fresh⟩ := inv.current first current
  have later : ∀ other ∈ queue, other ∈ f.queue := by
    intro other queued
    rw [first]
    exact List.mem_cons_of_mem _ queued
  have least := inv.least first
  have sorted := inv.sorted
  have distinct := inv.distinct
  have floor_le := inv.floor_le entry (first ▸ List.mem_cons_self)
  rw [first] at sorted distinct
  refine ⟨?_, Finset.mem_insert_self _ _, distance⟩
  constructor
  case sorted => exact List.Pairwise.of_cons sorted
  case distinct => exact (List.nodup_cons.mp distinct).2
  case floor_nonneg => exact inv.floor_nonneg.trans floor_le
  case floor_le => exact fun other queued => least other (later other queued)
  case start => exact inv.start
  case recorded =>
    intro t d found
    obtain ⟨inside, es, traced, rest⟩ := inv.recorded t d found
    exact ⟨inside, es, traced.mono (Finset.subset_insert _ _) rfl, rest⟩
  case queued =>
    intro t d found notLeft
    rw [Finset.mem_insert, not_or] at notLeft
    obtain ⟨other, queued, of_t, score⟩ := inv.queued t d found notLeft.2
    rw [first] at queued
    rcases List.mem_cons.mp queued with rfl | queued
    · exact absurd of_t.symm notLeft.1
    · exact ⟨other, queued, of_t, score⟩
  case known =>
    intro other queued
    obtain ⟨d, found, order⟩ := inv.known other (later other queued)
    refine ⟨d, found, order.imp_right ?_⟩
    rintro ⟨score, otherFresh⟩
    refine ⟨score, ?_⟩
    rw [Finset.mem_insert, not_or]
    refine ⟨?_, otherFresh⟩
    -- Two entries of one state with its distance would be one entry.
    intro same
    rw [same, distance] at found
    cases found
    exact (List.nodup_cons.mp distinct).1
      (List.mem_map.mpr ⟨other, queued, Prod.ext same score.symm⟩)
  case left_distance =>
    intro s member
    rcases Finset.mem_insert.mp member with rfl | member
    · exact ⟨(inv.recorded _ _ distance).1, notGoal, _, distance, le_rfl⟩
    · obtain ⟨inside, notGoal, d, found, le⟩ := inv.left_distance s member
      exact ⟨inside, notGoal, d, found, le.trans floor_le⟩

end Turn

/-! ## Every walk crosses the frontier -/

/-- A walk either ends at a state that has been left, at no greater distance, or it has an entry of
the queue on its way. -/
theorem Invariant.crosses (inv : Invariant p edges states left floor f)
    (unfolds : p.Unfolds edges states Valid Fails) (relaxed : ∀ s ∈ left, Relaxed p f s (edges s))
    {es : List E} {t : σ} (walk : Walk edges p.start es t) :
    (t ∈ left ∧ ∃ d, f.distances.get? t = some d ∧
        d ≤ total p.weight es + es.length * p.tolerance) ∨
      ∃ entry ∈ f.queue, entry.score ≤ total p.weight es + es.length * p.tolerance := by
  induction walk with
  | nil =>
      by_cases member : p.start ∈ left
      · exact .inl ⟨member, 0, inv.start, by simp⟩
      · obtain ⟨entry, queued, -, score⟩ := inv.queued _ _ inv.start member
        exact .inr ⟨entry, queued, by simp [score]⟩
  | @snoc es s t e walk edge ih =>
      have weight := unfolds.weight_nonneg s (t, e) edge
      have tolerance := unfolds.tolerance_nonneg
      have longer : total p.weight (es ++ [e]) + ((es ++ [e]).length : R) * p.tolerance =
          total p.weight es + es.length * p.tolerance + p.weight e + p.tolerance := by
        rw [total_snoc, List.length_append, List.length_singleton]
        push_cast
        ring
      rw [longer]
      rcases ih with ⟨member, d, found, le⟩ | ⟨entry, queued, le⟩
      · obtain ⟨d', found', le'⟩ := relaxed s member d found (t, e) edge
        by_cases leftMember : t ∈ left
        · exact .inl ⟨leftMember, d', found', by linarith⟩
        · obtain ⟨entry, queued, -, score⟩ := inv.queued t d' found' leftMember
          exact .inr ⟨entry, queued, by linarith⟩
      · exact .inr ⟨entry, queued, by linarith⟩

theorem Invariant.queued_of_goal (inv : Invariant p edges states left floor f)
    (unfolds : p.Unfolds edges states Valid Fails) (relaxed : ∀ s ∈ left, Relaxed p f s (edges s))
    {es : List E} {t : σ} (walk : Walk edges p.start es t) (goal : p.goal t = true) :
    ∃ entry ∈ f.queue, entry.score ≤ total p.weight es + es.length * p.tolerance := by
  rcases inv.crosses unfolds relaxed walk with ⟨member, -⟩ | queued
  · have notGoal := (inv.left_distance t member).2.1
    rw [goal] at notGoal
    cases notGoal
  · exact queued

/-! ## The whole search -/

/-- A goal at its least distance up to the tolerance, with the walk that the search has come by. -/
structure Found (p : Problem σ E R M κ ε) (edges : σ → List (σ × E)) (t : σ) (es : List E)
    (f : Frontier σ E R M κ) : Prop where
  goal : p.goal t = true
  walk : Walk edges p.start es t
  trace : ∀ fuel, es.length ≤ fuel → p.trace f fuel t = some es
  distance : f.distances.get? t = some (total p.weight es)
  metrics : f.metrics.get? t = some (total p.measure es)
  least : ∀ es' t', Walk edges p.start es' t' → p.goal t' = true →
    total p.weight es ≤ total p.weight es' + es'.length * p.tolerance

theorem Invariant.found {entry : Entry σ R} {queue : List (Entry σ R)}
    (inv : Invariant p edges states left floor f) (unfolds : p.Unfolds edges states Valid Fails)
    (relaxed : ∀ s ∈ left, Relaxed p f s (edges s)) (first : f.queue = entry :: queue)
    (current : p.stale entry f = false) (goal : p.goal entry.state = true) :
    ∃ es, Found p edges entry.state es { f with queue } := by
  have distance := (inv.current first current).1
  obtain ⟨-, es, traced, score, metrics⟩ := inv.recorded _ _ distance
  refine ⟨es, goal, traced.walk, ?_, distance.trans (congrArg some score), metrics, ?_⟩
  · intro fuel enough
    have here : Traced p edges left { f with queue } es entry.state := traced.mono subset_rfl rfl
    exact here.trace fuel enough
  · intro es' t' walk goal'
    obtain ⟨other, queued, le⟩ := inv.queued_of_goal unfolds relaxed walk goal'
    have least := inv.least first other queued
    rw [← score]
    exact least.trans le

/-- What a search comes back with. -/
inductive Answer (p : Problem σ E R M κ ε) (edges : σ → List (σ × E)) (Fails : ε → Prop) :
    Except ε (Option σ × Frontier σ E R M κ) → Prop
  | found {t : σ} {es : List E} {f : Frontier σ E R M κ} : Found p edges t es f →
      Answer p edges Fails (.ok (some t, f))
  | failed {e : ε} : Fails e → Answer p edges Fails (.error e)

/-- Where no search can get past: a goal, or a state that has no expansion. -/
def Stops (p : Problem σ E R M κ ε) (Valid : κ → Prop) (s : σ) : Prop :=
  p.goal s = true ∨ ∀ cache, Valid cache → ∃ e, p.expand s cache = .error e

theorem Invariant.run {left : Finset σ} {floor : R} {f : Frontier σ E R M κ}
    (unfolds : p.Unfolds edges states Valid Fails)
    (reachable : ∃ es t, Walk edges p.start es t ∧ Stops p Valid t)
    (inv : Invariant p edges states left floor f)
    (relaxed : ∀ s ∈ left, Relaxed p f s (edges s)) (passed : ∀ s ∈ left, ¬ Stops p Valid s)
    (valid : Valid f.cache) :
    ∃ enough result, Answer p edges Fails result ∧
      ∀ fuel, enough ≤ fuel → p.run fuel f = some result := by
  cases first : f.queue with
  | nil =>
      obtain ⟨es, t, walk, stops⟩ := reachable
      rcases inv.crosses unfolds relaxed walk with ⟨member, -⟩ | ⟨entry, queued, -⟩
      · exact absurd stops (passed t member)
      · rw [first] at queued
        cases queued
  | cons entry queue =>
      cases stale : p.stale entry f with
      | true =>
          have passedOver := inv.passOver unfolds.tolerance_nonneg first stale
          have shorter : queue.length < f.queue.length := by
            rw [first, List.length_cons]
            omega
          obtain ⟨enough, result, answer, runs⟩ := passedOver.run unfolds reachable relaxed passed valid
          refine ⟨enough + 1, result, answer, ?_⟩
          intro fuel le
          obtain ⟨fuel, rfl⟩ := Nat.exists_eq_succ_of_ne_zero (n := fuel) (by omega)
          have here : p.stale entry { f with queue } = true := stale
          simp only [Problem.run, first, here, if_true]
          exact runs fuel (by omega)
      | false =>
          have here : p.stale entry { f with queue } = false := stale
          cases goal : p.goal entry.state with
          | true =>
              obtain ⟨es, found⟩ := inv.found unfolds relaxed first stale goal
              refine ⟨1, _, .found found, ?_⟩
              intro fuel le
              obtain ⟨fuel, rfl⟩ := Nat.exists_eq_succ_of_ne_zero (n := fuel) (by omega)
              simp [Problem.run, first, here, goal]
          | false =>
              obtain ⟨distance, fresh⟩ := inv.current first stale
              obtain ⟨-, es, traced, -⟩ := inv.recorded _ _ distance
              rcases unfolds.expands es _ traced.walk goal f.cache valid with
                ⟨cache, expanded, valid'⟩ | ⟨e, expanded, fails⟩
              · obtain ⟨leaving, lowers, out, cache'⟩ := (inv.leave first stale goal).relaxAll unfolds
                  (edges entry.state) fun _ member => member
                have fewer : states.card - (insert entry.state left).card <
                    states.card - left.card := by
                  have sub : insert entry.state left ⊆ states := fun s member =>
                    (leaving.invariant.left_distance s member).1
                  have bound := Finset.card_le_card sub
                  rw [Finset.card_insert_of_notMem fresh] at bound ⊢
                  omega
                have relaxed' : ∀ s ∈ insert entry.state left, Relaxed p
                    ((edges entry.state).foldl (p.relax entry) { f with queue, cache }) s
                      (edges s) := by
                  intro s member
                  by_cases same : s = entry.state
                  · rw [same]
                    exact out
                  · have before : Relaxed p { f with queue, cache } s (edges s) :=
                      relaxed s (Finset.mem_of_mem_insert_of_ne member same)
                    exact before.lowers lowers member
                have passed' : ∀ s ∈ insert entry.state left, ¬ Stops p Valid s := by
                  intro s member
                  rcases Finset.mem_insert.mp member with rfl | member
                  · rintro (reached | fails)
                    · rw [goal] at reached
                      cases reached
                    · obtain ⟨e, failed⟩ := fails f.cache valid
                      rw [expanded] at failed
                      cases failed
                  · exact passed s member
                obtain ⟨enough, result, answer, runs⟩ := leaving.invariant.run unfolds reachable
                  relaxed' passed' (cache'.symm ▸ valid')
                refine ⟨enough + 1, result, answer, ?_⟩
                intro fuel le
                obtain ⟨fuel, rfl⟩ := Nat.exists_eq_succ_of_ne_zero (n := fuel) (by omega)
                simp only [Problem.run, first, here, goal, expanded]
                exact runs fuel (by omega)
              · refine ⟨1, _, .failed fails, ?_⟩
                intro fuel le
                obtain ⟨fuel, rfl⟩ := Nat.exists_eq_succ_of_ne_zero (n := fuel) (by omega)
                simp [Problem.run, first, here, goal, expanded]
termination_by (states.card - left.card, f.queue.length)

omit [IsStrictOrderedRing R] in
theorem invariant_init (unfolds : p.Unfolds edges states Valid Fails) (cache : κ) :
    Invariant p edges states ∅ 0 (p.init cache) := by
  have start : ∀ t d, (p.init cache).distances.get? t = some d → t = p.start ∧ d = 0 := by
    intro t d found
    rw [Problem.init, Dict.get?_set, Dict.get?_empty] at found
    split_ifs at found with same
    · cases found
      exact ⟨same, rfl⟩
  have distance : (p.init cache).distances.get? p.start = some 0 := by
    rw [Problem.init, Dict.get?_set, if_pos rfl]
  constructor
  case sorted => exact List.pairwise_singleton _ _
  case distinct => exact List.nodup_singleton _
  case floor_nonneg => exact le_rfl
  case floor_le =>
    intro entry queued
    rw [Problem.init, List.mem_singleton] at queued
    rw [queued]
  case start => exact distance
  case recorded =>
    intro t d found
    obtain ⟨rfl, rfl⟩ := start t d found
    refine ⟨unfolds.start_mem, [], .start, rfl, ?_⟩
    rw [Problem.init, Dict.get?_set, if_pos rfl]
    rfl
  case queued =>
    intro t d found _
    obtain ⟨rfl, rfl⟩ := start t d found
    exact ⟨_, List.mem_singleton_self _, rfl, rfl⟩
  case known =>
    intro entry queued
    rw [Problem.init, List.mem_singleton] at queued
    subst queued
    exact ⟨0, distance, .inr ⟨rfl, Finset.notMem_empty _⟩⟩
  case left_distance =>
    intro s member
    exact absurd member (Finset.notMem_empty s)

/-- A search that can reach a goal comes back with a goal at its least distance up to the tolerance
for each edge, or with the error of an expansion. -/
theorem run_answers (unfolds : p.Unfolds edges states Valid Fails)
    (reachable : ∃ es t, Walk edges p.start es t ∧ Stops p Valid t) {cache : κ}
    (valid : Valid cache) :
    ∃ enough result, Answer p edges Fails result ∧
      ∀ fuel, enough ≤ fuel → p.run fuel (p.init cache) = some result :=
  (invariant_init unfolds cache).run unfolds reachable
    (fun s member => absurd member (Finset.notMem_empty s))
    (fun s member => absurd member (Finset.notMem_empty s)) valid

end BestFirst
