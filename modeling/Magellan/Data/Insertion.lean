import Mathlib.Data.Set.Insert
import Mathlib.Tactic.Common

/-!
# Insertions one after another

A loop that inserts items into a state, skips those that are there already, and stops with an
exception at the first item that conflicts. What has been inserted before it stays.
-/

namespace Insertion

variable {σ ι ε : Type}

/-- The items that were new, and the state at the end of the loop. -/
def insertAll (insert : ι → σ → Except ε (Option σ)) : List ι → σ → Except ε (List ι) × σ
  | [], s => (.ok [], s)
  | x :: xs, s =>
      match insert x s with
      | .error e => (.error e, s)
      | .ok none => insertAll insert xs s
      | .ok (some t) => ((insertAll insert xs t).1.map (x :: ·), (insertAll insert xs t).2)

variable {insert : ι → σ → Except ε (Option σ)} {s : σ} {xs : List ι}

theorem keeps (P : σ → Prop) (step : ∀ x s t, P s → insert x s = .ok (some t) → P t) (h : P s) :
    P (insertAll insert xs s).2 := by
  induction xs generalizing s with
  | nil => exact h
  | cons x xs ih =>
      unfold insertAll
      split
      · exact h
      · exact ih h
      · rename_i t inserted
        exact ih (step x s t h inserted)

theorem relates (R : σ → σ → Prop) (refl : ∀ s, R s s) (trans : ∀ {s t u}, R s t → R t u → R s u)
    (step : ∀ x s t, insert x s = .ok (some t) → R s t) : R s (insertAll insert xs s).2 := by
  induction xs generalizing s with
  | nil => exact refl s
  | cons x xs ih =>
      unfold insertAll
      split
      · exact refl s
      · exact ih
      · rename_i t inserted
        exact trans (step x s t inserted) ih

theorem unchanged_of_nil (h : (insertAll insert xs s).1 = .ok []) : (insertAll insert xs s).2 = s := by
  induction xs generalizing s with
  | nil => rfl
  | cons x xs ih =>
      unfold insertAll at h ⊢
      split at h
      · cases h
      · exact ih h
      · rename_i t inserted
        cases rest : (insertAll insert xs t).1 with
        | error e => simp [rest, Except.map] at h
        | ok added => simp [rest, Except.map] at h

/-- The item is there already. -/
def Known (insert : ι → σ → Except ε (Option σ)) (s : σ) (x : ι) : Prop := insert x s = .ok none

theorem bounded {κ : Type} (content : σ → Set κ) (tag : ι → κ)
    (step : ∀ x s t, insert x s = .ok (some t) → content t = Insert.insert (tag x) (content s))
    {k : κ} (h : k ∈ content (insertAll insert xs s).2) : k ∈ content s ∨ ∃ x ∈ xs, tag x = k := by
  induction xs generalizing s with
  | nil => exact .inl h
  | cons x xs ih =>
      have later (s : σ) (inside : k ∈ content (insertAll insert xs s).2) :
          k ∈ content s ∨ ∃ y ∈ x :: xs, tag y = k := by
        rcases ih inside with old | ⟨y, member, same⟩
        · exact .inl old
        · exact .inr ⟨y, List.mem_cons_of_mem _ member, same⟩
      cases found : insert x s with
      | error e =>
          simp only [insertAll, found] at h
          exact .inl h
      | ok new =>
          cases new with
          | none =>
              simp only [insertAll, found] at h
              exact later s h
          | some t =>
              simp only [insertAll, found] at h
              rcases later t h with old | new
              · rw [step x s t found] at old
                rcases old with same | old
                · exact .inr ⟨x, List.mem_cons_self, same.symm⟩
                · exact .inl old
              · exact .inr new

theorem nil_of_known (h : ∀ x ∈ xs, Known insert s x) : insertAll insert xs s = (.ok [], s) := by
  induction xs with
  | nil => rfl
  | cons x xs ih =>
      obtain ⟨head, rest⟩ := List.forall_mem_cons.mp h
      have old : insert x s = .ok none := head
      simp only [insertAll, old]
      exact ih rest

/-! ## A loop that fails -/

/-- The loop stops at an item before which nothing was new. -/
def StopsClean (insert : ι → σ → Except ε (Option σ)) (xs : List ι) (s : σ) : Prop :=
  ∃ before x after e, xs = before ++ x :: after ∧ (∀ y ∈ before, Known insert s y) ∧
    insert x s = .error e

theorem fails_of_stopsClean (h : StopsClean insert xs s) :
    ∃ e, insertAll insert xs s = (.error e, s) := by
  obtain ⟨before, x, after, e, rfl, known, stops⟩ := h
  refine ⟨e, ?_⟩
  induction before with
  | nil => simp only [List.nil_append, insertAll, stops]
  | cons y before ih =>
      have old : insert y s = .ok none := known y List.mem_cons_self
      simp only [List.cons_append, insertAll, old]
      exact ih fun z member => known z (List.mem_cons_of_mem _ member)

theorem grows (size : σ → Nat) (step : ∀ x s t, insert x s = .ok (some t) → size s < size t) :
    size s ≤ size (insertAll insert xs s).2 :=
  relates (fun s t => size s ≤ size t) (fun _ => Nat.le_refl _) Nat.le_trans
    fun x s t inserted => Nat.le_of_lt (step x s t inserted)

/-- A failed loop has changed nothing exactly when nothing was new before the item it failed at. -/
theorem unchanged_iff_stopsClean (size : σ → Nat)
    (step : ∀ x s t, insert x s = .ok (some t) → size s < size t) {e : ε}
    (failed : (insertAll insert xs s).1 = .error e) :
    (insertAll insert xs s).2 = s ↔ StopsClean insert xs s := by
  constructor
  · intro same
    induction xs with
    | nil => cases failed
    | cons x xs ih =>
        cases found : insert x s with
        | error e' => exact ⟨[], x, xs, e', rfl, by simp, found⟩
        | ok new =>
            cases new with
            | none =>
                simp only [insertAll, found] at failed same
                obtain ⟨before, y, after, e', rfl, known, stops⟩ := ih failed same
                refine ⟨x :: before, y, after, e', rfl, ?_, stops⟩
                exact List.forall_mem_cons.mpr ⟨found, known⟩
            | some t =>
                simp only [insertAll, found] at same
                have larger := step x s t found
                have later : size t ≤ size (insertAll insert xs t).2 := grows size step
                rw [same] at later
                omega
  · intro clean
    obtain ⟨e', stopped⟩ := fails_of_stopsClean clean
    rw [stopped]

/-! ## Loops put together -/

theorem insertAll_append_error {ys : List ι} {e : ε} {t : σ}
    (h : insertAll insert xs s = (.error e, t)) :
    insertAll insert (xs ++ ys) s = (.error e, t) := by
  induction xs generalizing s with
  | nil => cases h
  | cons x xs ih =>
      cases found : insert x s with
      | error e' =>
          simp only [List.cons_append, insertAll, found] at h ⊢
          exact h
      | ok new =>
          cases new with
          | none =>
              simp only [List.cons_append, insertAll, found] at h ⊢
              exact ih h
          | some u =>
              simp only [List.cons_append, insertAll, found] at h ⊢
              cases rest : insertAll insert xs u with
              | mk result v =>
                  cases result with
                  | error e' =>
                      rw [rest] at h
                      cases h
                      rw [ih rest]
                      rfl
                  | ok added =>
                      rw [rest] at h
                      cases h

theorem insertAll_append_ok {ys added : List ι} {t : σ}
    (h : insertAll insert xs s = (.ok added, t)) :
    insertAll insert (xs ++ ys) s =
      ((insertAll insert ys t).1.map (added ++ ·), (insertAll insert ys t).2) := by
  induction xs generalizing s added with
  | nil =>
      cases h
      cases rest : insertAll insert ys t with
      | mk result u => cases result <;> exact rest
  | cons x xs ih =>
      cases found : insert x s with
      | error e => simp [insertAll, found] at h
      | ok new =>
          cases new with
          | none =>
              simp only [List.cons_append, insertAll, found] at h ⊢
              exact ih h
          | some u =>
              simp only [List.cons_append, insertAll, found] at h ⊢
              cases rest : insertAll insert xs u with
              | mk result v =>
                  cases result with
                  | error e =>
                      rw [rest] at h
                      cases h
                  | ok later =>
                      rw [rest] at h
                      cases h
                      rw [ih rest]
                      cases (insertAll insert ys v).1 <;> rfl

theorem insertAll_map {κ : Type} {insert' : κ → σ → Except ε (Option σ)} (f : κ → ι)
    (same : ∀ k s, insert (f k) s = insert' k s) (ks : List κ) (s : σ) :
    insertAll insert (ks.map f) s =
      ((insertAll insert' ks s).1.map (List.map f), (insertAll insert' ks s).2) := by
  induction ks generalizing s with
  | nil => rfl
  | cons k ks ih =>
      simp only [List.map_cons, insertAll, same]
      cases insert' k s with
      | error e => rfl
      | ok new =>
          cases new with
          | none => exact ih s
          | some t =>
              simp only [ih t]
              cases (insertAll insert' ks t).1 <;> rfl

/-! ## A loop that goes through -/

theorem adds {κ : Type} (content : σ → Set κ) (tag : ι → κ) {added : List ι}
    (step : ∀ x s new, insert x s = .ok new →
      content (new.getD s) = Insert.insert (tag x) (content s))
    (ran : (insertAll insert xs s).1 = .ok added) (k : κ) :
    k ∈ content (insertAll insert xs s).2 ↔ k ∈ content s ∨ ∃ x ∈ xs, tag x = k := by
  induction xs generalizing s added with
  | nil => simp [insertAll]
  | cons x xs ih =>
      have first (new : Option σ) (inserted : insert x s = .ok new) :
          k ∈ content (new.getD s) ↔ k ∈ content s ∨ tag x = k := by
        rw [step x s new inserted, Set.mem_insert_iff, or_comm, eq_comm]
      cases found : insert x s with
      | error e => simp [insertAll, found] at ran
      | ok new =>
          have grown := first new found
          cases new with
          | none =>
              simp only [insertAll, found] at ran ⊢
              simp only [ih ran, List.mem_cons, exists_eq_or_imp, ← or_assoc, ← grown]
              rfl
          | some t =>
              simp only [insertAll, found] at ran ⊢
              cases rest : (insertAll insert xs t).1 with
              | error e => simp [rest, Except.map] at ran
              | ok later =>
                  simp only [ih rest, List.mem_cons, exists_eq_or_imp, ← or_assoc, ← grown]
                  rfl

/-- What is there afterwards was there before or is reported. -/
theorem reports {κ : Type} (content : σ → Set κ) (tag : ι → κ) {added : List ι}
    (step : ∀ x s t, insert x s = .ok (some t) → content t = Insert.insert (tag x) (content s))
    (ran : (insertAll insert xs s).1 = .ok added) {k : κ}
    (h : k ∈ content (insertAll insert xs s).2) : k ∈ content s ∨ ∃ x ∈ added, tag x = k := by
  induction xs generalizing s added with
  | nil => exact .inl h
  | cons x xs ih =>
      cases found : insert x s with
      | error e => simp [insertAll, found] at ran
      | ok new =>
          cases new with
          | none =>
              simp only [insertAll, found] at ran h
              exact ih ran h
          | some t =>
              simp only [insertAll, found] at ran h
              cases rest : (insertAll insert xs t).1 with
              | error e => simp [rest, Except.map] at ran
              | ok later =>
                  simp only [rest, Except.map, Except.ok.injEq] at ran
                  subst ran
                  rcases ih rest h with old | ⟨y, member, same⟩
                  · rw [step x s t found] at old
                    rcases old with new | old
                    · exact .inr ⟨x, List.mem_cons_self, new.symm⟩
                    · exact .inl old
                  · exact .inr ⟨y, List.mem_cons_of_mem _ member, same⟩

theorem reported_new {κ : Type} (content : σ → Set κ) (tag : ι → κ) {added : List ι}
    (step : ∀ x s t, insert x s = .ok (some t) →
      tag x ∉ content s ∧ content t = Insert.insert (tag x) (content s))
    (ran : (insertAll insert xs s).1 = .ok added) {x : ι} (h : x ∈ added) :
    x ∈ xs ∧ tag x ∉ content s := by
  induction xs generalizing s added with
  | nil =>
      cases ran
      cases h
  | cons y xs ih =>
      cases found : insert y s with
      | error e => simp [insertAll, found] at ran
      | ok new =>
          cases new with
          | none =>
              simp only [insertAll, found] at ran
              obtain ⟨member, absent⟩ := ih ran h
              exact ⟨List.mem_cons_of_mem _ member, absent⟩
          | some t =>
              obtain ⟨fresh, grown⟩ := step y s t found
              simp only [insertAll, found] at ran
              cases rest : (insertAll insert xs t).1 with
              | error e => simp [rest, Except.map] at ran
              | ok later =>
                  simp only [rest, Except.map, Except.ok.injEq] at ran
                  subst ran
                  rcases List.mem_cons.mp h with rfl | inside
                  · exact ⟨List.mem_cons_self, fresh⟩
                  · obtain ⟨member, absent⟩ := ih rest inside
                    refine ⟨List.mem_cons_of_mem _ member, fun old => absent ?_⟩
                    rw [grown]
                    exact Set.mem_insert_of_mem _ old

theorem succeeds (Fits : ι → σ → Prop) (step : ∀ x s, Fits x s → ∃ new, insert x s = .ok new)
    (kept : ∀ x y s t, Fits x s → Fits y s → insert x s = .ok (some t) → Fits y t)
    (fit : ∀ x ∈ xs, Fits x s) : ∃ added, (insertAll insert xs s).1 = .ok added := by
  induction xs generalizing s with
  | nil => exact ⟨[], rfl⟩
  | cons x xs ih =>
      obtain ⟨head, rest⟩ := List.forall_mem_cons.mp fit
      obtain ⟨new, inserted⟩ := step x s head
      cases new with
      | none =>
          simp only [insertAll, inserted]
          exact ih rest
      | some t =>
          obtain ⟨added, ran⟩ := ih fun y member => kept x y s t head (rest y member) inserted
          simp only [insertAll, inserted, ran]
          exact ⟨x :: added, rfl⟩

end Insertion
