import Mathlib.Data.List.Nodup
import Mathlib.Data.List.Perm.Basic
import Mathlib.Tactic.Common

/-!
# Dictionaries that keep their insertion order

Setting a key that is present replaces its value in place; a new key goes to the end.
-/

structure Dict (κ α : Type) where
  entries : List (κ × α)
  nodup : (entries.map Prod.fst).Nodup

namespace Dict

variable {κ α : Type}

theorem ext {d e : Dict κ α} (h : d.entries = e.entries) : d = e := by
  cases d
  cases e
  cases h
  rfl

def empty : Dict κ α := ⟨[], List.nodup_nil⟩

def keys (d : Dict κ α) : List κ := d.entries.map Prod.fst

def values (d : Dict κ α) : List α := d.entries.map Prod.snd

/-- Each value replaced by its image under `f`. -/
def map (f : α → α) (d : Dict κ α) : Dict κ α where
  entries := d.entries.map fun (k, v) => (k, f v)
  nodup := by
    rw [List.map_map]
    exact d.nodup

@[simp] theorem keys_map (f : α → α) (d : Dict κ α) : (d.map f).keys = d.keys := by
  simp only [keys, map, List.map_map]
  rfl

@[simp] theorem values_map (f : α → α) (d : Dict κ α) : (d.map f).values = d.values.map f := by
  simp only [values, map, List.map_map]
  rfl

variable [DecidableEq κ]

def get? (d : Dict κ α) (k : κ) : Option α := (d.entries.find? (·.1 = k)).map Prod.snd

def getD (d : Dict κ α) (k : κ) (default : α) : α := (d.get? k).getD default

theorem mem_entries_iff {d : Dict κ α} {k : κ} {v : α} : (k, v) ∈ d.entries ↔ d.get? k = some v := by
  unfold get?
  rw [Option.map_eq_some_iff]
  constructor
  · intro member
    cases found : d.entries.find? (·.1 = k) with
    | none => simpa using List.find?_eq_none.mp found _ member
    | some e =>
        have key : e.1 = k := by simpa using List.find?_some found
        have same := List.inj_on_of_nodup_map d.nodup (List.mem_of_find?_eq_some found) member key
        exact ⟨e, rfl, congrArg Prod.snd same⟩
  · rintro ⟨⟨k', v'⟩, found, rfl⟩
    have key : k' = k := by simpa using List.find?_some found
    rw [← key]
    exact List.mem_of_find?_eq_some found

theorem mem_values_iff {d : Dict κ α} {v : α} : v ∈ d.values ↔ ∃ k, d.get? k = some v := by
  simp only [values, List.mem_map, ← mem_entries_iff]
  exact ⟨fun ⟨⟨k, _⟩, member, same⟩ => ⟨k, same ▸ member⟩, fun ⟨k, member⟩ => ⟨(k, v), member, rfl⟩⟩

theorem get?_eq_none_iff {d : Dict κ α} {k : κ} : d.get? k = none ↔ k ∉ d.keys := by
  rw [Option.eq_none_iff_forall_not_mem]
  simp only [Option.mem_def, ← mem_entries_iff, keys, List.mem_map, not_exists, not_and]
  exact ⟨fun h e member same => h e.2 (same ▸ member), fun h v member => h (k, v) member rfl⟩

@[simp] theorem get?_empty (k : κ) : (empty : Dict κ α).get? k = none := rfl

@[simp] theorem get?_map (f : α → α) (d : Dict κ α) (k : κ) :
    (d.map f).get? k = (d.get? k).map f := by
  simp only [get?, map, List.find?_map, Option.map_map]
  rfl

theorem get?_eq_of_perm {d e : Dict κ α} (h : d.entries.Perm e.entries) (k : κ) :
    d.get? k = e.get? k := by
  ext v
  rw [← mem_entries_iff, ← mem_entries_iff, h.mem_iff]

def set (d : Dict κ α) (k : κ) (v : α) : Dict κ α :=
  if present : k ∈ d.keys then
    { entries := d.entries.map fun e => if e.1 = k then (k, v) else e
      nodup := by
        rw [List.map_map]
        have same : (Prod.fst ∘ fun e : κ × α => if e.1 = k then (k, v) else e) = Prod.fst := by
          funext e
          by_cases h : e.1 = k <;> simp [h]
        rw [same]
        exact d.nodup }
  else
    { entries := d.entries ++ [(k, v)]
      nodup := by
        rw [List.map_append]
        exact d.nodup.append (List.nodup_singleton k) (by simpa [keys] using present) }

theorem mem_entries_set {d : Dict κ α} {k k' : κ} {v v' : α} :
    (k', v') ∈ (d.set k v).entries ↔ (k' = k ∧ v' = v) ∨ (k' ≠ k ∧ (k', v') ∈ d.entries) := by
  unfold set
  by_cases present : k ∈ d.keys
  · rw [dif_pos present]
    obtain ⟨⟨k₀, v₀⟩, old, rfl⟩ := List.mem_map.mp present
    simp only [List.mem_map]
    constructor
    · rintro ⟨e, member, same⟩
      split_ifs at same with h
      · exact .inl ⟨congrArg Prod.fst same.symm, congrArg Prod.snd same.symm⟩
      · subst same
        exact .inr ⟨h, member⟩
    · rintro (⟨rfl, rfl⟩ | ⟨other, member⟩)
      · exact ⟨_, old, if_pos rfl⟩
      · exact ⟨_, member, if_neg other⟩
  · rw [dif_neg present]
    simp only [List.mem_append, List.mem_singleton, Prod.mk.injEq]
    constructor
    · rintro (member | new)
      · refine .inr ⟨fun same => present ?_, member⟩
        exact List.mem_map.mpr ⟨_, member, same⟩
      · exact .inl new
    · rintro (new | ⟨-, member⟩)
      · exact .inr new
      · exact .inl member

@[simp] theorem get?_set (d : Dict κ α) (k k' : κ) (v : α) :
    (d.set k v).get? k' = if k' = k then some v else d.get? k' := by
  ext v'
  rw [← mem_entries_iff, mem_entries_set]
  by_cases h : k' = k
  · simp [h, eq_comm]
  · simp [h, mem_entries_iff]

theorem entries_set_of_not_mem {d : Dict κ α} {k : κ} (h : k ∉ d.keys) (v : α) :
    (d.set k v).entries = d.entries ++ [(k, v)] := by
  unfold set
  rw [dif_neg h]

theorem keys_set_of_mem {d : Dict κ α} {k : κ} (h : k ∈ d.keys) (v : α) :
    (d.set k v).keys = d.keys := by
  unfold set
  rw [dif_pos h]
  unfold keys
  rw [List.map_map]
  apply List.map_congr_left
  intro e _
  by_cases same : e.1 = k <;> simp [same]

/-! ## Counting values -/

theorem countP_values (d : Dict κ α) (p : α → Bool) :
    d.values.countP p = d.keys.countP fun k => (d.get? k).any p := by
  unfold values keys
  rw [List.countP_map, List.countP_map]
  apply List.countP_congr
  rintro ⟨k, v⟩ member
  have found := mem_entries_iff.mp member
  simp [found]

theorem countP_le_of_eq_off {l : List κ} (nodup : l.Nodup) {p q : κ → Bool} (k : κ)
    (off : ∀ k' ∈ l, k' ≠ k → q k' → p k') : l.countP q ≤ l.countP p + if q k then 1 else 0 := by
  induction l with
  | nil => simp
  | cons k' l ih =>
      obtain ⟨new, nodup⟩ := List.nodup_cons.mp nodup
      by_cases same : k' = k
      · have rest : l.countP q ≤ l.countP p := by
          apply List.countP_mono_left
          intro x member
          exact off x (List.mem_cons_of_mem _ member) fun h => new (same ▸ h ▸ member)
        rw [List.countP_cons, List.countP_cons, same]
        omega
      · have rest := ih nodup fun x member => off x (List.mem_cons_of_mem _ member)
        have head := off k' List.mem_cons_self same
        rw [List.countP_cons, List.countP_cons]
        by_cases q' : q k'
        · rw [if_pos q', if_pos (head q')]
          omega
        · rw [if_neg q']
          omega

theorem countP_values_set_le (d : Dict κ α) (k : κ) (v : α) (p : α → Bool) :
    (d.set k v).values.countP p ≤ d.values.countP p + if p v then 1 else 0 := by
  by_cases present : k ∈ d.keys
  · rw [countP_values, countP_values, keys_set_of_mem present]
    have at_ : ((d.set k v).get? k).any p = p v := by simp
    rw [← at_]
    exact countP_le_of_eq_off d.nodup k fun k' _ other => by simp [other]
  · unfold values
    rw [entries_set_of_not_mem present, List.map_append, List.countP_append]
    simp [List.countP_cons]

/-- The dictionary of a list of entries; of two with one key the later one counts. -/
def ofList (entries : List (κ × α)) : Dict κ α := entries.foldl (fun d (k, v) => d.set k v) empty

theorem entries_ofList {entries : List (κ × α)} (h : (entries.map Prod.fst).Nodup) :
    (ofList entries).entries = entries := by
  have step (d : Dict κ α) (disjoint : (d.entries ++ entries).map Prod.fst |>.Nodup) :
      (entries.foldl (fun d (k, v) => d.set k v) d).entries = d.entries ++ entries := by
    clear h
    induction entries generalizing d with
    | nil => simp
    | cons e entries ih =>
        have new : e.1 ∉ d.keys := by
          rw [List.map_append, List.map_cons] at disjoint
          exact fun member => (List.nodup_append.mp disjoint).2.2 _ member _ (by simp) rfl
        have extended := entries_set_of_not_mem new e.2
        rw [List.foldl_cons, ih, extended, List.append_assoc]
        · rfl
        · rw [extended, List.append_assoc]
          exact disjoint
  exact step empty (by simpa [empty] using h)

theorem forall_set {d : Dict κ α} {p : κ × α → Prop} (h : ∀ e ∈ d.entries, p e) {k : κ} {v : α}
    (new : p (k, v)) : ∀ e ∈ (d.set k v).entries, p e := by
  rintro ⟨k', v'⟩ member
  rcases mem_entries_set.mp member with ⟨rfl, rfl⟩ | ⟨-, old⟩
  · exact new
  · exact h _ old

theorem forall_ofList {entries : List (κ × α)} {p : κ × α → Prop} (h : ∀ e ∈ entries, p e) :
    ∀ e ∈ (ofList entries).entries, p e := by
  have step (d : Dict κ α) (old : ∀ e ∈ d.entries, p e) :
      ∀ e ∈ (entries.foldl (fun d (k, v) => d.set k v) d).entries, p e := by
    induction entries generalizing d with
    | nil => exact old
    | cons e entries ih =>
        obtain ⟨head, rest⟩ := List.forall_mem_cons.mp h
        exact ih rest _ (forall_set old head)
  apply step
  intro e member
  cases member

theorem mem_of_get?_ofList {entries : List (κ × α)} {k : κ} {v : α}
    (found : (ofList entries).get? k = some v) : (k, v) ∈ entries :=
  forall_ofList (p := fun e => e ∈ entries) (fun _ member => member) (k, v)
    (mem_entries_iff.mpr found)

theorem get?_ofList_isSome {entries : List (κ × α)} {e : κ × α} (member : e ∈ entries) :
    ((ofList entries).get? e.1).isSome := by
  have step (d : Dict κ α) (present : (d.get? e.1).isSome ∨ e ∈ entries) :
      ((entries.foldl (fun d (k, v) => d.set k v) d).get? e.1).isSome := by
    clear member
    induction entries generalizing d with
    | nil => simpa using present
    | cons e' entries ih =>
        apply ih
        rw [get?_set]
        split_ifs with same
        · exact .inl rfl
        · rcases present with old | member
          · exact .inl old
          · rcases List.mem_cons.mp member with rfl | member
            · exact absurd rfl same
            · exact .inr member
  exact step empty (.inr member)

theorem map_set (f : α → α) (d : Dict κ α) (k : κ) (v : α) :
    (d.set k v).map f = (d.map f).set k (f v) := by
  apply ext
  by_cases present : k ∈ d.keys
  · have present' : k ∈ (d.map f).keys := by rwa [keys_map]
    unfold set
    rw [dif_pos present, dif_pos present']
    simp only [map, List.map_map]
    apply List.map_congr_left
    intro e _
    simp only [Function.comp_apply]
    split <;> rfl
  · have absent : k ∉ (d.map f).keys := by rwa [keys_map]
    rw [entries_set_of_not_mem absent]
    simp only [map]
    rw [entries_set_of_not_mem present, List.map_append]
    rfl

theorem map_ofList (f : α → α) (entries : List (κ × α)) :
    (ofList entries).map f = ofList (entries.map fun e => (e.1, f e.2)) := by
  have step (d : Dict κ α) : (entries.foldl (fun d (k, v) => d.set k v) d).map f =
      (entries.map fun e => (e.1, f e.2)).foldl (fun d (k, v) => d.set k v) (d.map f) := by
    induction entries generalizing d with
    | nil => rfl
    | cons e entries ih => rw [List.foldl_cons, ih, map_set, List.map_cons, List.foldl_cons]
  exact step empty

/-- The dictionary without a key. -/
def erase (d : Dict κ α) (k : κ) : Dict κ α where
  entries := d.entries.filter fun e => e.1 ≠ k
  nodup := d.nodup.sublist (List.filter_sublist.map _)

@[simp] theorem get?_erase (d : Dict κ α) (k k' : κ) :
    (d.erase k).get? k' = if k' = k then none else d.get? k' := by
  ext v
  rw [← mem_entries_iff, erase, List.mem_filter]
  by_cases h : k' = k
  · simp [h]
  · simp [h, mem_entries_iff]

end Dict
