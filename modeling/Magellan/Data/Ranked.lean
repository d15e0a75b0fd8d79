import Mathlib.Data.List.MinMax
import Mathlib.Data.List.Sort

/-!
# Lists ranked by a key

The stable sort of a list by a key in a linear order.
-/

variable {α β : Type} [LinearOrder β]

def rankBy (key : α → β) (items : List α) : List α := items.insertionSort fun a b => key a ≤ key b

namespace RankBy

variable {key : α → β} {items : List α}

theorem perm : (rankBy key items).Perm items := List.perm_insertionSort _ _

@[simp] theorem mem_iff {a : α} : a ∈ rankBy key items ↔ a ∈ items := perm.mem_iff

theorem sorted : (rankBy key items).Pairwise fun a b => key a ≤ key b := by
  have total : Std.Total fun a b => key a ≤ key b := ⟨fun a b => le_total (key a) (key b)⟩
  have trans : IsTrans α fun a b => key a ≤ key b := ⟨fun _ _ _ => le_trans⟩
  exact List.pairwise_insertionSort _ items

theorem first_le {a : α} (first : a ∈ (rankBy key items).head?) : ∀ b ∈ items, key a ≤ key b := by
  intro b member
  have inside : b ∈ rankBy key items := mem_iff.mpr member
  have order : (rankBy key items).Pairwise fun a b => key a ≤ key b := sorted
  cases ranking : rankBy key items with
  | nil => simp [ranking] at first
  | cons c rest =>
      rw [ranking] at first inside order
      cases first
      rcases List.mem_cons.mp inside with rfl | later
      · exact le_rfl
      · exact List.rel_of_pairwise_cons order later

theorem map {γ : Type} (f : α → γ) {key' : γ → β} (same : ∀ a ∈ items, key' (f a) = key a) :
    rankBy key' (items.map f) = (rankBy key items).map f := by
  apply Eq.symm
  apply List.map_insertionSort
  intro a inside b inside'
  rw [same a inside, same b inside']

end RankBy
