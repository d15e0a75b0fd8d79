import Mathlib.Algebra.Order.Field.Basic
import Mathlib.Data.List.Sort
import Mathlib.Data.Prod.Lex
import Mathlib.Tactic.Linarith
import Magellan.Data.Dict

/-!
# Best-first search

A search for a cheapest way through a graph that is unfolded on demand. An entry of the queue stays
where it is when a better way to its state is found; it is passed over when its turn comes. A new
way counts as better only when it gains more than a tolerance.
-/

namespace BestFirst

variable {σ E R M κ ε : Type}

structure Entry (σ R : Type) where
  score : R
  serial : Nat
  state : σ

section Order

variable [LinearOrder R]

/-- The order of the queue. States are never compared. -/
def Entry.Le (a b : Entry σ R) : Prop := toLex (a.score, a.serial) ≤ toLex (b.score, b.serial)

instance : DecidableRel (@Entry.Le σ R _) := fun a b =>
  inferInstanceAs (Decidable (toLex (a.score, a.serial) ≤ toLex (b.score, b.serial)))

instance : Std.Total (@Entry.Le σ R _) := ⟨fun a _ => le_total (toLex (a.score, a.serial)) _⟩

instance : IsTrans (Entry σ R) Entry.Le := ⟨fun _ _ _ first second => le_trans first second⟩

theorem Entry.Le.score_le {a b : Entry σ R} (le : Entry.Le a b) : a.score ≤ b.score := by
  rcases Prod.Lex.le_iff.mp le with less | ⟨same, _⟩
  · exact less.le
  · exact same.le

end Order

/-- What is searched: the ways out of a state may be kept in a cache from one visit to the next. -/
structure Problem (σ E R M κ ε : Type) where
  start : σ
  goal : σ → Bool
  expand : σ → κ → Except ε (List (σ × E) × κ)
  weight : E → R
  measure : E → M
  tolerance : R

structure Frontier (σ E R M κ : Type) where
  distances : Dict σ R
  metrics : Dict σ M
  previous : Dict σ (σ × E)
  queue : List (Entry σ R)
  serial : Nat
  cache : κ

variable [DecidableEq σ] [Field R] [LinearOrder R] [AddCommMonoid M]

namespace Problem

variable (p : Problem σ E R M κ ε)

def init (cache : κ) : Frontier σ E R M κ where
  distances := Dict.empty.set p.start 0
  metrics := Dict.empty.set p.start 0
  previous := Dict.empty
  queue := [⟨0, 0, p.start⟩]
  serial := 1
  cache := cache

/-- The entry is not the latest of its state. -/
def stale (entry : Entry σ R) (f : Frontier σ E R M κ) : Bool :=
  match f.distances.get? entry.state with
  | some d => d + p.tolerance < entry.score
  | none => false

def improves (f : Frontier σ E R M κ) (next : σ) (score : R) : Bool :=
  match f.distances.get? next with
  | some d => score + p.tolerance < d
  | none => true

/-- A better way to the state of the candidate. -/
def improve (entry : Entry σ R) (f : Frontier σ E R M κ) (candidate : σ × E) :
    Frontier σ E R M κ :=
  let score := entry.score + p.weight candidate.2
  { f with
    distances := f.distances.set candidate.1 score
    metrics := f.metrics.set candidate.1 (f.metrics.getD entry.state 0 + p.measure candidate.2)
    previous := f.previous.set candidate.1 (entry.state, candidate.2)
    queue := f.queue.orderedInsert Entry.Le ⟨score, f.serial, candidate.1⟩
    serial := f.serial + 1 }

def relax (entry : Entry σ R) (f : Frontier σ E R M κ) (candidate : σ × E) : Frontier σ E R M κ :=
  if p.improves f candidate.1 (entry.score + p.weight candidate.2) then p.improve entry f candidate
  else f

/-- The loop over the queue, with the goal that it stops at. -/
def run : Nat → Frontier σ E R M κ → Option (Except ε (Option σ × Frontier σ E R M κ))
  | 0, _ => none
  | fuel + 1, f =>
    match f.queue with
    | [] => some (.ok (none, f))
    | entry :: queue =>
      let f := { f with queue }
      if p.stale entry f then run fuel f
      else if p.goal entry.state then some (.ok (some entry.state, f))
      else
        match p.expand entry.state f.cache with
        | .error e => some (.error e)
        | .ok (candidates, cache) =>
          run fuel (candidates.foldl (p.relax entry) { f with cache })

/-- The edges that the search has come by, from the start to the cursor. -/
def trace (f : Frontier σ E R M κ) : Nat → σ → Option (List E)
  | 0, cursor => if cursor = p.start then some [] else none
  | fuel + 1, cursor =>
    if cursor = p.start then some []
    else do
      let (parent, edge) ← f.previous.get? cursor
      let edges ← trace f fuel parent
      return edges ++ [edge]

end Problem

/-! ## Walks -/

/-- The ways from the start along `edges`. -/
inductive Walk (edges : σ → List (σ × E)) (start : σ) : List E → σ → Prop
  | nil : Walk edges start [] start
  | snoc {es : List E} {s t : σ} {e : E} : Walk edges start es s → (t, e) ∈ edges s →
      Walk edges start (es ++ [e]) t

/-- What is measured along a walk. -/
def total {A : Type} [AddCommMonoid A] (f : E → A) (es : List E) : A := (es.map f).sum

section Total

variable {A : Type} [AddCommMonoid A] (f : E → A)

@[simp] theorem total_nil : total f [] = 0 := rfl

@[simp] theorem total_snoc (es : List E) (e : E) : total f (es ++ [e]) = total f es + f e := by
  simp [total]

end Total

end BestFirst
