import Mathlib.Logic.Function.Basic
import Mathlib.Tactic.Common

/-!
# Two read-modify-write operations

Each operation reads a record in one atomic step, and in another one returns and perhaps writes the
record that it has made of what it read. An interleaving loses an update when the result is that of
no serial order.
-/

namespace Coroutine

/-- What an operation that has read `s` returns, and what it writes. -/
abbrev ReadModifyWrite (State Value : Type) := State → Value × Option State

inductive Thread where
  | left
  | right
  deriving DecidableEq

def Thread.other : Thread → Thread
  | .left => .right
  | .right => .left

namespace ReadModifyWrite

variable {State Value : Type}

def value (f : ReadModifyWrite State Value) (s : State) : Value := (f s).1

/-- The record after an operation that nothing interrupts. -/
def next (f : ReadModifyWrite State Value) (s : State) : State := (f s).2.getD s

inductive Progress (State Value : Type) where
  | ready
  | read (s : State)
  | done (v : Value)

structure Pair (State Value : Type) where
  record : State
  left : Progress State Value := .ready
  right : Progress State Value := .ready

def Pair.swap (p : Pair State Value) : Pair State Value := ⟨p.record, p.right, p.left⟩

/-- The next step of one operation: its progress and the record. -/
def advance (f : ReadModifyWrite State Value) (record : State) :
    Progress State Value → Option (State × Progress State Value)
  | .ready => some (record, .read record)
  | .read s => some ((f s).2.getD record, .done (f s).1)
  | .done _ => none

def step (f g : ReadModifyWrite State Value) (p : Pair State Value) :
    Thread → Option (Pair State Value)
  | .left => (advance f p.record p.left).map fun (record, left) => { p with record, left }
  | .right => (advance g p.record p.right).map fun (record, right) => { p with record, right }

def run (f g : ReadModifyWrite State Value) : List Thread → Pair State Value →
    Option (Pair State Value)
  | [], p => some p
  | t :: schedule, p =>
      match step f g p t with
      | none => none
      | some p' => run f g schedule p'

/-- The result is that of one operation after the other. -/
def Serial (f g : ReadModifyWrite State Value) (s : State) (p : Pair State Value) : Prop :=
  p = ⟨g.next (f.next s), .done (f.value s), .done (g.value (f.next s))⟩ ∨
    p = ⟨f.next (g.next s), .done (f.value (g.next s)), .done (g.value s)⟩

/-- Both have read `s`, `f` writes first and `g` last: one of them writes nothing, or `g` does the
same with what `f` has written, or `f` does the same with what `g` has written and changes nothing
of it. -/
def Absorbs (f g : ReadModifyWrite State Value) (s : State) : Prop :=
  (f s).2 = none ∨ (g s).2 = none ∨ (g.next (f.next s) = g.next s ∧ g.value (f.next s) = g.value s) ∨
    (f.next (g.next s) = g.next s ∧ f.value (g.next s) = f.value s)

/-- The operations do not overlap, or the overlap does no harm. -/
def Harmless (f g : ReadModifyWrite State Value) (s : State) : List Thread → Prop
  | [first, second, _, last] =>
      first = second ∨ match last with
        | .right => Absorbs f g s
        | .left => Absorbs g f s
  | _ => True

variable {f g : ReadModifyWrite State Value} {s : State}

theorem serial_swap {t : State} {u v : Progress State Value} :
    Serial f g s ⟨t, u, v⟩ ↔ Serial g f s ⟨t, v, u⟩ := by
  simp only [Serial, Pair.mk.injEq]
  rw [or_comm]
  constructor <;> exact Or.imp (fun ⟨a, b, c⟩ => ⟨a, c, b⟩) fun ⟨a, b, c⟩ => ⟨a, c, b⟩

theorem overlap_serial_iff :
    Serial f g s ⟨(g s).2.getD ((f s).2.getD s), .done (f s).1, .done (g s).1⟩ ↔
      Absorbs f g s := by
  simp only [Serial, Absorbs, next, value, Pair.mk.injEq, Progress.done.injEq]
  cases left : (f s).2 with
  | none => simp
  | some t =>
      cases right : (g s).2 with
      | none => simp [left]
      | some t' =>
          simp only [Option.getD_some, true_and, reduceCtorEq, false_or]
          constructor
          · rintro (⟨record, value⟩ | ⟨record, value, -⟩)
            · exact .inl ⟨record.symm, value.symm⟩
            · exact .inr ⟨record.symm, value.symm⟩
          · rintro (⟨record, value⟩ | ⟨record, value⟩)
            · exact .inl ⟨record.symm, value.symm⟩
            · exact .inr ⟨record.symm, value.symm, trivial⟩

/-- One operation has written before the other reads. -/
theorem serial_left_right : Serial f g s
    ⟨(g ((f s).2.getD s)).2.getD ((f s).2.getD s), .done (f s).1, .done (g ((f s).2.getD s)).1⟩ :=
  .inl rfl

theorem run_done {schedule : List Thread} {t : State} {u v : Value} {p : Pair State Value}
    (h : run f g schedule ⟨t, .done u, .done v⟩ = some p) :
    schedule = [] ∧ p = ⟨t, .done u, .done v⟩ := by
  cases schedule with
  | nil => exact ⟨rfl, (Option.some.inj h).symm⟩
  | cons thread schedule => cases thread <;> simp [run, step, advance] at h

theorem step_swap (p : Pair State Value) (thread : Thread) :
    step g f p.swap thread.other = (step f g p thread).map Pair.swap := by
  cases thread with
  | left => simp [step, Thread.other, Pair.swap, Option.map_map, Function.comp_def]
  | right => simp [step, Thread.other, Pair.swap, Option.map_map, Function.comp_def]

theorem run_swap (schedule : List Thread) (p : Pair State Value) :
    run g f (schedule.map Thread.other) p.swap = (run f g schedule p).map Pair.swap := by
  induction schedule generalizing p with
  | nil => rfl
  | cons thread schedule ih =>
      rw [List.map_cons, run, step_swap, run]
      cases step f g p thread with
      | none => rfl
      | some p' => exact ih p'

theorem run_right {schedule : List Thread} {r t : State} {u u' v : Value}
    (h : run f g schedule ⟨r, .done u, .read s⟩ = some ⟨t, .done u', .done v⟩) :
    schedule = [.right] ∧ t = (g s).2.getD r ∧ u' = u ∧ v = (g s).1 := by
  cases schedule with
  | nil => simp [run] at h
  | cons thread schedule =>
      cases thread with
      | left => simp [run, step, advance] at h
      | right =>
          obtain ⟨rfl, same⟩ := run_done (show run f g schedule _ = _ from h)
          simp only [Pair.mk.injEq, Progress.done.injEq] at same
          exact ⟨rfl, same⟩

theorem run_left {schedule : List Thread} {r t : State} {u v v' : Value}
    (h : run f g schedule ⟨r, .read s, .done v⟩ = some ⟨t, .done u, .done v'⟩) :
    schedule = [.left] ∧ t = (f s).2.getD r ∧ u = (f s).1 ∧ v' = v := by
  have swapped := run_swap schedule ⟨r, .read s, .done v⟩ (f := f) (g := g)
  rw [h] at swapped
  obtain ⟨rest, record, first, second⟩ := run_right swapped
  refine ⟨?_, record, second, first⟩
  have back := congrArg (List.map Thread.other) rest
  rw [List.map_map] at back
  have involutive : Thread.other ∘ Thread.other = id := by
    funext thread
    cases thread <;> rfl
  rwa [involutive, List.map_id] at back

/-- Both operations have read. -/
theorem run_both_read {schedule : List Thread} {t : State} {u v : Value}
    (h : run f g schedule ⟨s, .read s, .read s⟩ = some ⟨t, .done u, .done v⟩) :
    u = (f s).1 ∧ v = (g s).1 ∧
      ((schedule = [.left, .right] ∧ t = (g s).2.getD (f.next s)) ∨
        (schedule = [.right, .left] ∧ t = (f s).2.getD (g.next s))) := by
  cases schedule with
  | nil => simp [run] at h
  | cons thread schedule =>
      cases thread with
      | left =>
          obtain ⟨rfl, record, left, right⟩ := run_right (show run f g schedule _ = _ from h)
          exact ⟨left, right, .inl ⟨rfl, record⟩⟩
      | right =>
          obtain ⟨rfl, record, left, right⟩ := run_left (show run f g schedule _ = _ from h)
          exact ⟨left, right, .inr ⟨rfl, record⟩⟩

theorem run_right_alone {schedule : List Thread} {r t : State} {u u' v : Value}
    (h : run f g schedule ⟨r, .done u, .ready⟩ = some ⟨t, .done u', .done v⟩) :
    schedule = [.right, .right] ∧ t = g.next r ∧ u' = u ∧ v = g.value r := by
  cases schedule with
  | nil => simp [run] at h
  | cons thread schedule =>
      cases thread with
      | left => simp [run, step, advance] at h
      | right =>
          obtain ⟨rfl, record, left, right⟩ := run_right (show run f g schedule _ = _ from h)
          exact ⟨rfl, record, left, right⟩

theorem run_serial_of_left {schedule : List Thread} {t : State} {u v : Value}
    (h : run f g (.left :: schedule) ⟨s, .ready, .ready⟩ = some ⟨t, .done u, .done v⟩) :
    Serial f g s ⟨t, .done u, .done v⟩ ↔ Harmless f g s (.left :: schedule) := by
  have first : run f g schedule ⟨s, .read s, .ready⟩ = some ⟨t, .done u, .done v⟩ := h
  cases schedule with
  | nil => simp [run] at first
  | cons thread schedule =>
      cases thread with
      | left =>
          obtain ⟨rfl, rfl, rfl, rfl⟩ := run_right_alone (show run f g schedule _ = _ from first)
          exact iff_of_true serial_left_right (.inl rfl)
      | right =>
          obtain ⟨rfl, rfl, ⟨rfl, rfl⟩ | ⟨rfl, rfl⟩⟩ :=
            run_both_read (show run f g schedule _ = _ from first)
          · exact overlap_serial_iff.trans (by simp [Harmless])
          · rw [serial_swap]
            exact overlap_serial_iff.trans (by simp [Harmless])

theorem Harmless.swap {schedule : List Thread} :
    Harmless g f s (schedule.map Thread.other) ↔ Harmless f g s schedule := by
  rcases schedule with _ | ⟨a, _ | ⟨b, _ | ⟨c, _ | ⟨d, _ | ⟨e, rest⟩⟩⟩⟩⟩ <;> try rfl
  have same : a.other = b.other ↔ a = b := by cases a <;> cases b <;> simp [Thread.other]
  cases d with
  | left => exact or_congr same Iff.rfl
  | right => exact or_congr same Iff.rfl

theorem run_serial_iff {schedule : List Thread} {t : State} {u v : Value}
    (h : run f g schedule ⟨s, .ready, .ready⟩ = some ⟨t, .done u, .done v⟩) :
    Serial f g s ⟨t, .done u, .done v⟩ ↔ Harmless f g s schedule := by
  cases schedule with
  | nil => simp [run] at h
  | cons thread schedule =>
      cases thread with
      | left => exact run_serial_of_left h
      | right =>
          have swapped := run_swap (.right :: schedule) ⟨s, .ready, .ready⟩ (f := f) (g := g)
          rw [h] at swapped
          rw [serial_swap, ← Harmless.swap]
          exact run_serial_of_left swapped

end ReadModifyWrite

end Coroutine
