import Mathlib.Data.Char
import Mathlib.Data.List.Lex
import Mathlib.Data.List.Sort
import Mathlib.Tactic.Common

/-!
# Relative paths

Paths below a directory in their posix form.
-/

namespace Magellan

def pathParts (path : String) : List (List Char) := path.toList.splitOn '/'

/-- `Path(path).name`. -/
def fileName (path : String) : List Char := (pathParts path).getLastD []

/-- The relative name of a file that a directory listing gives. -/
def Plain (path : String) : Prop :=
  ∀ part ∈ pathParts path, part ≠ [] ∧ part ≠ ['.'] ∧ part ≠ ['.', '.']

instance (path : String) : Decidable (Plain path) := by
  unfold Plain
  infer_instance

/-- A path that is neither absolute nor leads upwards. -/
def SafePath (path : String) : Prop :=
  path.toList.head? ≠ some '/' ∧ ['.', '.'] ∉ pathParts path

instance (path : String) : Decidable (SafePath path) := by
  unfold SafePath
  infer_instance

/-- The order of paths. -/
def PathLe {α : Type} (a b : String × α) : Prop := pathParts a.1 ≤ pathParts b.1

instance {α : Type} : DecidableRel (@PathLe α) := fun a b => by
  unfold PathLe
  infer_instance

/-- `sorted` on the files of a directory. -/
def sortedFiles {α : Type} (files : List (String × α)) : List (String × α) :=
  files.insertionSort PathLe

@[simp] theorem mem_sortedFiles {α : Type} {files : List (String × α)} {file : String × α} :
    file ∈ sortedFiles files ↔ file ∈ files :=
  List.mem_insertionSort PathLe

end Magellan
