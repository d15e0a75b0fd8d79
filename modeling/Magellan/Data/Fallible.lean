import Mathlib.Tactic.Common

/-!
# Computations that may fail

What is known when a computation has returned or failed.
-/

namespace Except

variable {ε α β : Type} {x : Except ε α} {f : α → Except ε β} {b : β} {e : ε}

theorem bind_eq_ok : x >>= f = .ok b ↔ ∃ a, x = .ok a ∧ f a = .ok b := by
  cases x <;> simp [bind, Except.bind]

theorem ok_bind (a : α) : (Except.ok a : Except ε α) >>= f = f a := rfl

theorem mapM_eq_ok {f : α → Except ε β} {g : α → β} {items : List α}
    (h : ∀ a ∈ items, f a = .ok (g a)) : items.mapM f = .ok (items.map g) := by
  induction items with
  | nil => rfl
  | cons a items ih =>
      rw [List.mapM_cons, h a List.mem_cons_self, ok_bind,
        ih fun b inside => h b (List.mem_cons_of_mem a inside)]
      rfl

theorem exists_mapM {items : List α} (h : ∀ a ∈ items, ∃ b, f a = .ok b) :
    ∃ results, items.mapM f = .ok results := by
  induction items with
  | nil => exact ⟨[], rfl⟩
  | cons a items ih =>
      obtain ⟨b, here⟩ := h a List.mem_cons_self
      obtain ⟨rest, later⟩ := ih fun c inside => h c (List.mem_cons_of_mem a inside)
      refine ⟨b :: rest, ?_⟩
      rw [List.mapM_cons, here, ok_bind, later]
      rfl

/-! ## Loops that have returned -/

section Loops

variable {γ : Type} {items : List α} {results : List β}

theorem mapM_cons_eq_ok {a : α} : (a :: items).mapM f = .ok results ↔
    ∃ b rest, f a = .ok b ∧ items.mapM f = .ok rest ∧ results = b :: rest := by
  rw [List.mapM_cons, bind_eq_ok]
  constructor
  · rintro ⟨b, here, tail⟩
    obtain ⟨rest, later, same⟩ := bind_eq_ok.mp tail
    cases same
    exact ⟨b, rest, here, later, rfl⟩
  · rintro ⟨b, rest, here, later, rfl⟩
    exact ⟨b, here, bind_eq_ok.mpr ⟨rest, later, rfl⟩⟩

theorem mapM_result_of_mem {a : α} (h : items.mapM f = .ok results) (member : a ∈ items) :
    ∃ b ∈ results, f a = .ok b := by
  induction items generalizing results with
  | nil => cases member
  | cons first items ih =>
      obtain ⟨b, rest, here, later, rfl⟩ := mapM_cons_eq_ok.mp h
      rcases List.mem_cons.mp member with rfl | inside
      · exact ⟨b, List.mem_cons_self, here⟩
      · obtain ⟨b', found, same⟩ := ih later inside
        exact ⟨b', List.mem_cons_of_mem _ found, same⟩

theorem mapM_item_of_mem (h : items.mapM f = .ok results) (member : b ∈ results) :
    ∃ a ∈ items, f a = .ok b := by
  induction items generalizing results with
  | nil =>
      cases h
      cases member
  | cons first items ih =>
      obtain ⟨b', rest, here, later, rfl⟩ := mapM_cons_eq_ok.mp h
      rcases List.mem_cons.mp member with rfl | inside
      · exact ⟨first, List.mem_cons_self, here⟩
      · obtain ⟨a, found, same⟩ := ih later inside
        exact ⟨a, List.mem_cons_of_mem _ found, same⟩

theorem map_of_mapM {g : β → γ} {k : α → γ} (h : items.mapM f = .ok results)
    (same : ∀ a b, f a = .ok b → g b = k a) : results.map g = items.map k := by
  induction items generalizing results with
  | nil =>
      cases h
      rfl
  | cons first items ih =>
      obtain ⟨b, rest, here, later, rfl⟩ := mapM_cons_eq_ok.mp h
      rw [List.map_cons, List.map_cons, same first b here, ih later]

end Loops

end Except
