import Magellan.Data.Path

/-!
# Where a path leads to

Absolute paths as `pathlib` joins them, with their `..` parts, and the place that such a path leads
to. Links are left out.
-/

namespace Magellan

/-- The parts of a path from the root of the file system on. -/
abbrev AbsolutePath := List (List Char)

/-- The part that leads to the directory above. -/
def up : List Char := ['.', '.']

/-- What a part of a path can be. -/
structure IsPart (part : List Char) : Prop where
  nonempty : part ≠ []
  other : part ≠ ['.']
  slash : '/' ∉ part

/-- A string that names an entry of a directory. -/
def IsName (name : String) : Prop := IsPart name.toList ∧ name.toList ≠ up

instance (name : String) : Decidable (IsName name) :=
  decidable_of_iff ((name.toList ≠ [] ∧ name.toList ≠ ['.'] ∧ '/' ∉ name.toList) ∧ name.toList ≠ up)
    ⟨fun ⟨⟨nonempty, other, slash⟩, below⟩ => ⟨⟨nonempty, other, slash⟩, below⟩,
      fun ⟨⟨nonempty, other, slash⟩, below⟩ => ⟨⟨nonempty, other, slash⟩, below⟩⟩

/-- The parts of a path. -/
def components (path : String) : AbsolutePath :=
  (pathParts path).filter fun part => part ≠ [] ∧ part ≠ ['.']

/-- `base / path`. -/
def joinPath (base : AbsolutePath) (path : String) : AbsolutePath :=
  if path.toList.head? = some '/' then components path else base ++ components path

def enter (here : AbsolutePath) (part : List Char) : AbsolutePath :=
  if part = up then here.dropLast else here ++ [part]

/-- The place that a path leads to. -/
def landing (path : AbsolutePath) : AbsolutePath := path.foldl enter []

/-- A path leads to a directory or to what is below it. -/
def Under (directory path : AbsolutePath) : Prop := directory <+: landing path

instance (directory path : AbsolutePath) : Decidable (Under directory path) := by
  unfold Under
  infer_instance

/-! ## Parts -/

variable {path base directory rest : AbsolutePath} {name s : String} {part : List Char}

theorem slash_not_mem_splitOn {text : List Char} (inside : part ∈ text.splitOn '/') : '/' ∉ part := by
  induction text generalizing part with
  | nil =>
      rw [List.splitOn_nil, List.mem_singleton] at inside
      rw [inside]
      exact List.not_mem_nil
  | cons c text ih =>
      rw [List.splitOn_cons_eq_if_modifyHead] at inside
      split_ifs at inside with separator
      · rcases List.mem_cons.mp inside with rfl | later
        · exact List.not_mem_nil
        · exact ih later
      · obtain ⟨first, others, split⟩ := List.exists_cons_of_ne_nil (List.splitOn_ne_nil '/' text)
        rw [split, List.modifyHead_cons] at inside
        rcases List.mem_cons.mp inside with rfl | later
        · intro slash
          rcases List.mem_cons.mp slash with rfl | slash
          · exact separator (beq_self_eq_true _)
          · exact ih (split ▸ List.mem_cons_self) slash
        · exact ih (split ▸ List.mem_cons_of_mem _ later)

theorem isPart_of_mem_components (inside : part ∈ components s) : IsPart part := by
  obtain ⟨inside, proper⟩ := List.mem_filter.mp inside
  rw [decide_eq_true_eq] at proper
  exact ⟨proper.1, proper.2, slash_not_mem_splitOn inside⟩

theorem IsName.components (h : IsName name) : components name = [name.toList] := by
  unfold Magellan.components pathParts
  rw [List.splitOn_eq_singleton h.1.slash]
  exact List.filter_cons_of_pos (by simp [h.1.nonempty, h.1.other])

theorem IsName.joinPath (h : IsName name) : joinPath base name = base ++ [name.toList] := by
  unfold Magellan.joinPath
  rw [h.components, if_neg]
  intro absolute
  exact h.1.slash (List.mem_of_mem_head? (Option.mem_def.mpr absolute))

theorem isPart_of_mem_joinPath (parts : ∀ part ∈ base, IsPart part) (inside : part ∈ joinPath base s) :
    IsPart part := by
  unfold joinPath at inside
  split_ifs at inside
  · exact isPart_of_mem_components inside
  · rcases List.mem_append.mp inside with old | new
    · exact parts part old
    · exact isPart_of_mem_components new

/-! ## Places -/

theorem mem_foldl_enter {here : AbsolutePath} (inside : part ∈ path.foldl enter here) :
    part ∈ here ∨ (part ∈ path ∧ part ≠ up) := by
  induction path generalizing here with
  | nil => exact .inl inside
  | cons first path ih =>
      rcases ih inside with old | ⟨later, below⟩
      · unfold enter at old
        split_ifs at old with climbs
        · exact .inl (List.dropLast_subset _ old)
        · rcases List.mem_append.mp old with older | new
          · exact .inl older
          · rw [List.mem_singleton] at new
            rw [new]
            exact .inr ⟨List.mem_cons_self, climbs⟩
      · exact .inr ⟨List.mem_cons_of_mem _ later, below⟩

theorem foldl_enter_names {here : AbsolutePath} (names : up ∉ path) : path.foldl enter here = here ++ path := by
  induction path generalizing here with
  | nil => rw [List.foldl_nil, List.append_nil]
  | cons first path ih =>
      have below : first ≠ up := fun same => names (same ▸ List.mem_cons_self)
      rw [List.foldl_cons, ih fun later => names (List.mem_cons_of_mem _ later), enter, if_neg below]
      simp

theorem landing_of_names (names : up ∉ path) : landing path = path := foldl_enter_names names

theorem under_append (names : up ∉ path) : Under directory path ↔ directory <+: path := by
  rw [Under, landing_of_names names]

theorem isName_of_under (parts : ∀ part ∈ path, IsPart part)
    (under : Under (base ++ [name.toList]) path) : IsName name := by
  have inside : name.toList ∈ landing path := under.subset (by simp)
  rcases mem_foldl_enter inside with nothing | ⟨inside, below⟩
  · exact absurd nothing List.not_mem_nil
  · exact ⟨parts _ inside, below⟩

end Magellan
