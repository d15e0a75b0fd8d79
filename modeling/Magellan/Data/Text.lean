import Mathlib.Data.List.DropRight
import Mathlib.Tactic.Common

/-!
# Texts

Whitespace, line breaks and decimal digits as the methods of a Python text know them, by the tables
of Unicode 14.0. The limit on the digits of an integer is left out.
-/

namespace Magellan.Text

/-- The code points of whitespace that break no line. -/
def blanks : List Nat :=
  [0x9, 0x1F, 0x20, 0xA0, 0x1680, 0x2000, 0x2001, 0x2002, 0x2003, 0x2004, 0x2005, 0x2006, 0x2007,
    0x2008, 0x2009, 0x200A, 0x202F, 0x205F, 0x3000]

/-- The code points of line breaks. -/
def breaks : List Nat := [0xA, 0xB, 0xC, 0xD, 0x1C, 0x1D, 0x1E, 0x85, 0x2028, 0x2029]

/-- The zeros of the ranges of ten decimal digits. -/
def zeros : List Nat :=
  [0x30, 0x660, 0x6F0, 0x7C0, 0x966, 0x9E6, 0xA66, 0xAE6, 0xB66, 0xBE6, 0xC66, 0xCE6, 0xD66, 0xDE6,
    0xE50, 0xED0, 0xF20, 0x1040, 0x1090, 0x17E0, 0x1810, 0x1946, 0x19D0, 0x1A80, 0x1A90, 0x1B50,
    0x1BB0, 0x1C40, 0x1C50, 0xA620, 0xA8D0, 0xA900, 0xA9D0, 0xA9F0, 0xAA50, 0xABF0, 0xFF10, 0x104A0,
    0x10D30, 0x11066, 0x110F0, 0x11136, 0x111D0, 0x112F0, 0x11450, 0x114D0, 0x11650, 0x116C0,
    0x11730, 0x118E0, 0x11950, 0x11C50, 0x11D50, 0x11DA0, 0x16A60, 0x16AC0, 0x16B50, 0x1D7CE,
    0x1D7D8, 0x1D7E2, 0x1D7EC, 0x1D7F6, 0x1E140, 0x1E2F0, 0x1E950, 0x1FBF0]

def isBreak (c : Char) : Bool := c.toNat ∈ breaks

/-- `c.isspace()`. -/
def isSpace (c : Char) : Bool := c.toNat ∈ blanks ∨ isBreak c

/-- The value of a decimal digit. -/
def decimal? (c : Char) : Option Nat :=
  (zeros.find? fun z => z ≤ c.toNat ∧ c.toNat < z + 10).map (c.toNat - ·)

theorem isSpace_of_isBreak {c : Char} (h : isBreak c = true) : isSpace c = true :=
  decide_eq_true (.inr h)

theorem not_isSpace_of_decimal {c : Char} (digit : (decimal? c).isSome) : isSpace c = false := by
  rw [decimal?, Option.isSome_map, List.find?_isSome] at digit
  obtain ⟨z, mem, range⟩ := digit
  have apart : ∀ z ∈ zeros, ∀ space ∈ blanks ++ breaks, ¬ (z ≤ space ∧ space < z + 10) := by
    decide +kernel
  by_contra space
  rw [Bool.not_eq_false, isSpace, decide_eq_true_eq, isBreak, decide_eq_true_eq,
    ← List.mem_append] at space
  exact apart z mem _ space (of_decide_eq_true range)

/-! ## Methods of a text -/

section

variable {α : Type} (space : α → Bool)

/-- `text.strip()`. -/
def strip (text : List α) : List α := (text.dropWhile space).rdropWhile space

variable {space}

theorem forall_eq_false_of_any {text : List α} (solid : text.any space = false) :
    ∀ c ∈ text, space c = false := fun c mem =>
  eq_false_of_ne_true (List.any_eq_false.mp solid c mem)

theorem strip_of_solid {text : List α} (first : ∀ c ∈ text.head?, space c = false)
    (last : ∀ c ∈ text.getLast?, space c = false) : strip space text = text := by
  have front : text.dropWhile space = text := by
    cases text with
    | nil => rfl
    | cons c rest => exact List.dropWhile_cons_of_neg (by simp [first c rfl])
  rw [strip, front, List.rdropWhile_eq_self_iff]
  intro nonempty
  simp [last _ (List.getLast?_eq_some_getLast nonempty)]

theorem strip_of_forall {text : List α} (solid : ∀ c ∈ text, space c = false) :
    strip space text = text :=
  strip_of_solid (fun _ mem => solid _ (List.mem_of_head? mem)) fun _ mem =>
    solid _ (List.mem_of_getLast? mem)

theorem strip_infix (text : List α) : strip space text <:+: text :=
  (List.rdropWhile_prefix space _).isInfix.trans (List.dropWhile_suffix space).isInfix

/-- A stripped text ends with no space. -/
theorem strip_getLast {text : List α} {c : α} (last : (strip space text).getLast? = some c) :
    space c = false := by
  have nonempty : strip space text ≠ [] := by
    rintro empty
    rw [empty] at last
    cases last
  have solid := List.rdropWhile_last_not space (text.dropWhile space) nonempty
  rw [List.getLast?_eq_some_getLast nonempty, Option.some_inj] at last
  rw [← last]
  exact eq_false_of_ne_true solid

/-- No piece of a split has a separator. -/
theorem forall_of_mem_splitOnP {p : α → Bool} {text piece : List α} (mem : piece ∈ text.splitOnP p) :
    ∀ c ∈ piece, p c = false := by
  induction text generalizing piece with
  | nil =>
      rw [List.splitOnP_nil, List.mem_singleton] at mem
      simp [mem]
  | cons c text ih =>
      rw [List.splitOnP_cons_eq_if_modifyHead] at mem
      split at mem
      · rcases List.mem_cons.mp mem with rfl | later
        · simp
        · exact ih later
      · rename_i plain
        obtain ⟨first, rest, split⟩ := List.exists_cons_of_ne_nil (List.splitOnP_ne_nil p text)
        rw [split, List.modifyHead_cons] at mem
        rcases List.mem_cons.mp mem with rfl | later
        · exact List.forall_mem_cons.mpr
            ⟨eq_false_of_ne_true plain, ih (split ▸ List.mem_cons_self)⟩
        · exact ih (split ▸ List.mem_cons_of_mem _ later)

theorem mem_intercalate {separator : List α} {parts : List (List α)} {c : α}
    (mem : c ∈ separator.intercalate parts) : c ∈ separator ∨ ∃ part ∈ parts, c ∈ part := by
  induction parts with
  | nil => cases mem
  | cons part parts ih =>
      cases parts with
      | nil =>
          rw [List.intercalate_singleton] at mem
          exact .inr ⟨part, List.mem_cons_self, mem⟩
      | cons next parts =>
          rw [List.intercalate_cons_cons, List.append_assoc, List.mem_append, List.mem_append] at mem
          rcases mem with here | between | later
          · exact .inr ⟨part, List.mem_cons_self, here⟩
          · exact .inl between
          · rcases ih later with between | ⟨part', mem', inside⟩
            · exact .inl between
            · exact .inr ⟨part', List.mem_cons_of_mem _ mem', inside⟩

/-- `text.split(separator, 1)`, where the separator occurs. -/
def splitFirst [DecidableEq α] (separator : List α) : List α → Option (List α × List α)
  | [] => if separator = [] then some ([], []) else none
  | c :: rest =>
      if separator.isPrefixOf (c :: rest) then some ([], (c :: rest).drop separator.length)
      else (splitFirst separator rest).map fun (before, after) => (c :: before, after)

theorem eq_of_splitFirst [DecidableEq α] {separator text before after : List α}
    (found : splitFirst separator text = some (before, after)) :
    text = before ++ separator ++ after := by
  induction text generalizing before with
  | nil =>
      rw [splitFirst] at found
      split at found
      · cases found
        simpa using ‹separator = []›.symm
      · cases found
  | cons c rest ih =>
      rw [splitFirst] at found
      split at found
      · rename_i here
        cases found
        obtain ⟨after, split⟩ := List.isPrefixOf_iff_prefix.mp here
        rw [← split, List.drop_left, List.nil_append]
      · obtain ⟨⟨before', after'⟩, later, same⟩ := Option.map_eq_some_iff.mp found
        cases same
        rw [ih later]
        rfl

theorem splitFirst_append [DecidableEq α] {s : α} {separator before : List α} (after : List α)
    (notBefore : s ∉ before) :
    splitFirst (s :: separator) (before ++ s :: separator ++ after) = some (before, after) := by
  induction before with
  | nil => simp [splitFirst]
  | cons c before ih =>
      rw [List.mem_cons, not_or] at notBefore
      rw [List.cons_append, List.cons_append, splitFirst,
        if_neg (by simp [notBefore.1]), ih notBefore.2]
      rfl

end

/-! ## Lines -/

/-- A carriage return and a line feed are one break. -/
def joinCrLf : List Char → List Char
  | '\r' :: '\n' :: rest => '\n' :: joinCrLf rest
  | c :: rest => c :: joinCrLf rest
  | [] => []

/-- What `read_text` makes of the line ends of a file. -/
def universalNewlines (text : List Char) : List Char :=
  (joinCrLf text).map fun c => if c = '\r' then '\n' else c

/-- `text.splitlines()`. -/
def splitlines (text : List Char) : List (List Char) :=
  let pieces := (joinCrLf text).splitOnP isBreak
  if pieces.getLast? = some [] then pieces.dropLast else pieces

theorem joinCrLf_of_not_mem {text : List Char} (h : '\r' ∉ text) : joinCrLf text = text := by
  induction text with
  | nil => rfl
  | cons c rest ih =>
      rw [List.mem_cons, not_or] at h
      rw [joinCrLf, ih h.2]
      rintro rest' rfl -
      exact h.1 rfl

theorem universalNewlines_of_not_mem {text : List Char} (h : '\r' ∉ text) :
    universalNewlines text = text := by
  rw [universalNewlines, joinCrLf_of_not_mem h]
  refine (List.map_congr_left fun c mem => if_neg ?_).trans (List.map_id _)
  rintro rfl
  exact h mem

/-- No line has a break. -/
theorem forall_of_mem_splitlines {text line : List Char} (mem : line ∈ splitlines text) :
    ∀ c ∈ line, isBreak c = false := by
  unfold splitlines at mem
  dsimp only at mem
  split at mem
  · exact forall_of_mem_splitOnP (List.dropLast_subset _ mem)
  · exact forall_of_mem_splitOnP mem

theorem splitOnP_lines {line : List Char} {lines : List (List Char)}
    (unbroken : ∀ l ∈ line :: lines, ∀ c ∈ l, isBreak c = false) :
    (['\n'].intercalate (line :: lines) ++ ['\n']).splitOnP isBreak = line :: lines ++ [[]] := by
  induction lines generalizing line with
  | nil =>
      have here := unbroken line List.mem_cons_self
      rw [List.intercalate_singleton,
        List.splitOnP_append_cons_of_forall_mem here '\n' (by decide), List.splitOnP_nil]
      rfl
  | cons next lines ih =>
      obtain ⟨here, later⟩ := List.forall_mem_cons.mp unbroken
      rw [List.intercalate_cons_cons, List.append_assoc, List.append_assoc, List.singleton_append,
        List.splitOnP_append_cons_of_forall_mem here '\n' (by decide), ih later]
      rfl

/-- A text of lines is read as these lines. -/
theorem splitlines_lines {line : List Char} {lines : List (List Char)}
    (unbroken : ∀ l ∈ line :: lines, ∀ c ∈ l, isBreak c = false) :
    splitlines (universalNewlines (['\n'].intercalate (line :: lines) ++ ['\n'])) =
      line :: lines := by
  have noReturn : '\r' ∉ ['\n'].intercalate (line :: lines) ++ ['\n'] := by
    rw [List.mem_append, not_or]
    refine ⟨fun mem => ?_, by decide⟩
    rcases mem_intercalate mem with separator | ⟨l, mem', inside⟩
    · revert separator
      decide
    · exact absurd (unbroken l mem' _ inside) (by decide)
  rw [universalNewlines_of_not_mem noReturn]
  unfold splitlines
  rw [joinCrLf_of_not_mem noReturn, splitOnP_lines unbroken]
  dsimp only
  rw [List.getLast?_concat, if_pos rfl, List.dropLast_concat]

/-! ## Numbers -/

/-- `re.findall(r"\d+", text)`. -/
def digitRuns (text : List Char) : List (List Char) :=
  (text.splitOnP fun c => (decimal? c).isNone).filter (· ≠ [])

/-- `int(digits)`. -/
def int (digits : List Char) : Nat := digits.foldl (fun n c => 10 * n + (decimal? c).getD 0) 0

theorem digitRuns_append {c : Char} (other : (decimal? c).isNone) (before after : List Char) :
    digitRuns (before ++ c :: after) = digitRuns before ++ digitRuns after := by
  unfold digitRuns
  rw [List.splitOnP_append_cons (p := fun c => (decimal? c).isNone) _ _ other, List.filter_append]

theorem digitRuns_of_forall {run : List Char} (nonempty : run ≠ [])
    (digits : ∀ c ∈ run, (decimal? c).isSome) : digitRuns run = [run] := by
  rw [digitRuns, List.splitOnP_eq_singleton fun c mem => by simpa using digits c mem]
  simp [nonempty]

end Magellan.Text
