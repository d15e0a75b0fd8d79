import Magellan.Data.Dict

/-!
# Writes that are cut off

A list of writes, each to one key with a value that may depend on what is there, of which only the
first ones are made.
-/

/-- A write of one key. -/
abbrev Write (κ α : Type) := κ × (Dict κ α → α)

namespace Write

variable {κ α : Type} [DecidableEq κ]

def run (writes : List (Write κ α)) (d : Dict κ α) : Dict κ α :=
  writes.foldl (fun d w => d.set w.1 (w.2 d)) d

theorem run_append (writes writes' : List (Write κ α)) (d : Dict κ α) :
    run (writes ++ writes') d = run writes' (run writes d) :=
  List.foldl_append

theorem run_other {writes : List (Write κ α)} {k : κ} (other : k ∉ writes.map Prod.fst)
    (d : Dict κ α) : (run writes d).get? k = d.get? k := by
  induction writes generalizing d with
  | nil => rfl
  | cons w writes ih =>
      rw [List.map_cons, List.mem_cons, not_or] at other
      show (run writes (d.set w.1 (w.2 d))).get? k = d.get? k
      rw [ih other.2, Dict.get?_set, if_neg other.1]

theorem run_take_other {writes : List (Write κ α)} {k : κ} (other : k ∉ writes.map Prod.fst)
    (n : Nat) (d : Dict κ α) : (run (writes.take n) d).get? k = d.get? k := by
  apply run_other
  intro member
  obtain ⟨w, taken, rfl⟩ := List.mem_map.mp member
  exact other (List.mem_map_of_mem (List.mem_of_mem_take taken))

theorem run_take_once {before after : List (Write κ α)} {k : κ} {f : Dict κ α → α}
    (notBefore : k ∉ before.map Prod.fst) (notAfter : k ∉ after.map Prod.fst) (n : Nat)
    (d : Dict κ α) :
    (run ((before ++ (k, f) :: after).take n) d).get? k =
      if before.length < n then some (f (run before d)) else d.get? k := by
  split_ifs with reached
  · obtain ⟨m, rfl⟩ : ∃ m, n = before.length + 1 + m := ⟨n - before.length - 1, by omega⟩
    have taken : (before ++ (k, f) :: after).take (before.length + 1 + m) =
        before ++ (k, f) :: after.take m := by
      rw [List.take_append, List.take_of_length_le (by omega)]
      congr 1
      rw [show before.length + 1 + m - before.length = m + 1 by omega, List.take_succ_cons]
    rw [taken, run_append]
    show (run (after.take m) ((run before d).set k (f (run before d)))).get? k = _
    rw [run_take_other notAfter, Dict.get?_set, if_pos rfl]
  · have taken : (before ++ (k, f) :: after).take n = before.take n := by
      rw [List.take_append, Nat.sub_eq_zero_of_le (by omega), List.take_zero, List.append_nil]
    rw [taken, run_take_other notBefore]

theorem run_keys {writes : List (Write κ α)} {p : κ → Prop} (new : ∀ w ∈ writes, p w.1)
    {d : Dict κ α} (old : ∀ k ∈ d.keys, p k) : ∀ k ∈ (run writes d).keys, p k := by
  induction writes generalizing d with
  | nil => exact old
  | cons w writes ih =>
      obtain ⟨here, rest⟩ := List.forall_mem_cons.mp new
      apply ih rest
      intro k member
      obtain ⟨e, entry, rfl⟩ := List.mem_map.mp member
      exact Dict.forall_set (p := fun e => p e.1) (fun e entry => old _ (List.mem_map_of_mem entry))
        here e entry

end Write
