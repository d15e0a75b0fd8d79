import Magellan.Daemon.Services
import Magellan.Node.Effects
import Magellan.State.Control

/-!
# What the steps do

The steps that read or write the record, start a process or let it go on, and the frame of the
others.
-/

namespace Magellan

open Coroutine

variable {n : NodeId} {t : ServiceThread} {f : Fate} {v v' : Shared}

theorem exec_of_effect {o : Op} {c : Choice} {w w' : World} {r : Except Exn o.Ret}
    (h : effect n w o c = some (r, w')) : exec n o c w = some (r, w') := by
  cases c with
  | fail e => cases o <;> cases h
  | _ => exact h

theorem effect_registry {o : Op} {c : Choice} {w w' : World} {r : Except Exn o.Ret}
    (quiet : o.isRecordOp = false) (h : effect n w o c = some (r, w')) (i : NodeId) :
    (w'.nodes i).registry = (w.nodes i).registry := by
  by_cases here : i = n
  · subst here
    unfold effect at h
    split at h <;> (try cases quiet) <;> (try simp only [reads, writes, raises, bidResult] at h) <;>
      (try split at h) <;> cases h <;> first
        | rfl
        | simp only [World.modify_self, World.putRecord_self]
  · have same : w'.nodes i = w.nodes i := exec_elsewhere here (exec_of_effect h)
    rw [same]

namespace Shared

@[simp] theorem record_saw (t : ServiceThread) (s : TaskRuntimeState) (i : NodeId) :
    (v.saw t s).record i = v.record i := rfl

@[simp] theorem record_note (n : NodeId) (g : History → History) (i : NodeId) :
    (v.note n g).record i = v.record i := rfl

@[simp] theorem record_acted (t : ServiceThread) (a : Action) (i : NodeId) :
    (v.acted t a).record i = v.record i := rfl

@[simp] theorem record_put_self (t : ServiceThread) (s : TaskRuntimeState) :
    (v.put t s).record t.node = s := by
  simp only [put, record, saw, note, World.modify_self]

theorem record_put_of_ne (t : ServiceThread) (s : TaskRuntimeState) {i : NodeId} (ne : i ≠ t.node) :
    (v.put t s).record i = v.record i := by
  simp only [put, record, saw, note, World.modify_of_ne _ _ ne]

@[simp] theorem seen_saw_self (t : ServiceThread) (s : TaskRuntimeState) :
    (v.saw t s).seen t = some s := Function.update_self ..

theorem seen_saw_of_ne (s : TaskRuntimeState) {t u : ServiceThread} (ne : u ≠ t) :
    (v.saw t s).seen u = v.seen u := Function.update_of_ne ne ..

@[simp] theorem seen_note (n : NodeId) (g : History → History) :
    (v.note n g).seen = v.seen := rfl

@[simp] theorem seen_put_self (t : ServiceThread) (s : TaskRuntimeState) :
    (v.put t s).seen t = some s := by
  simp only [put, seen_note, seen_saw_self]

theorem seen_put_of_ne (s : TaskRuntimeState) {t u : ServiceThread} (ne : u ≠ t) :
    (v.put t s).seen u = v.seen u := by
  simp only [put, seen_note, seen_saw_of_ne s ne]

@[simp] theorem history_note_self (n : NodeId) (g : History → History) :
    (v.note n g).history n = g (v.history n) := Function.update_self ..

theorem history_note_of_ne (g : History → History) {n i : NodeId} (ne : i ≠ n) :
    (v.note n g).history i = v.history i := Function.update_of_ne ne ..

@[simp] theorem history_put_self (t : ServiceThread) (s : TaskRuntimeState) :
    (v.put t s).history t.node =
      if s.status = .completed then
        { v.history t.node with completions := s.generation :: (v.history t.node).completions }
      else v.history t.node := by
  simp only [put, history_note_self, saw]

theorem history_put_of_ne (t : ServiceThread) (s : TaskRuntimeState) {i : NodeId} (ne : i ≠ t.node) :
    (v.put t s).history i = v.history i := by
  simp only [put, history_note_of_ne _ ne, saw]

end Shared

/-- A step that no thread notices; it may end migrations. -/
structure Silent (v v' : Shared) : Prop where
  record : ∀ i, v'.record i = v.record i
  seen : v'.seen = v.seen
  history : ∀ i, ∃ isOpen : MigrationId → Bool,
    v'.history i = { v.history i with quiesced := (v.history i).quiesced.filter isOpen }
  activity : v'.activity = v.activity

theorem unfiltered (h : History) :
    ∃ isOpen : MigrationId → Bool, h = { h with quiesced := h.quiesced.filter isOpen } :=
  ⟨fun _ => true, by rw [List.filter_eq_self.mpr fun _ _ => rfl]⟩

theorem Silent.refl (v : Shared) : Silent v v := ⟨fun _ => rfl, rfl, fun _ => unfiltered _, rfl⟩

theorem Silent.completions (h : Silent v v') (i : NodeId) :
    (v'.history i).completions = (v.history i).completions := by
  obtain ⟨isOpen, same⟩ := h.history i
  rw [same]

theorem Silent.restarting (h : Silent v v') (i : NodeId) :
    (v'.history i).restarting = (v.history i).restarting := by
  obtain ⟨isOpen, same⟩ := h.history i
  rw [same]

theorem Silent.fenced (h : Silent v v') {i : NodeId} (fenced : (v'.history i).Fenced) :
    (v.history i).Fenced := by
  obtain ⟨isOpen, same⟩ := h.history i
  rw [same] at fenced
  intro none_
  apply fenced
  simp only [none_, List.filter_nil]

/-- The steps that read or write the record, start a process or let it go on. -/
def Step.isLoud : Step → Bool
  | .getState | .finish .. | .setState _ | .op .spawn | .signal .cont _ => true
  | _ => false

theorem silent_did {o : Op} {c : Choice} {r : Except Exn o.Ret} {w : World}
    (quiet : o.isRecordOp = false) (tame : (Step.op o).isLoud = false)
    (h : effect t.node v.world o c = some (r, w)) : Silent v (v.did t w o) := by
  have record : ∀ i, (w.nodes i).registry = v.record i := effect_registry quiet h
  have moved : Silent v { v with world := w } := ⟨record, rfl, fun _ => unfiltered _, rfl⟩
  have recorded : Silent v (({ v with world := w } : Shared).note t.node
      (History.closed (w.nodes t.node).journal)) := by
    refine ⟨record, rfl, fun i => ?_, rfl⟩
    by_cases here : i = t.node
    · subst here
      exact ⟨_, Shared.history_note_self ..⟩
    · rw [Shared.history_note_of_ne _ here]
      exact unfiltered _
  cases o with
  | spawn => cases tame
  | journalPut | setRecordStatus => exact recorded
  | _ => exact moved

theorem exec_silent {s : Step} {r : Except Exn s.Ret} (tame : s.isLoud = false)
    (h : s.exec t f v = some (r, v')) : Silent v v' := by
  rcases Step.exec_cases h with ⟨e, -, -, -, rfl⟩ | h
  · exact .refl _
  cases s with
  | op o =>
      cases f with
      | synthesized marker => cases h
      | of c =>
          simp only [Step.effect] at h
          split at h
          · cases h
          · rename_i quiet
            have quiet : o.isRecordOp = false := Bool.eq_false_iff.mpr quiet
            cases done : effect t.node v.world o c with
            | none => simp [done] at h
            | some result =>
                obtain ⟨outcome, w⟩ := result
                cases outcome with
                | ok a =>
                    simp only [done, Option.some.injEq, Prod.mk.injEq] at h
                    rw [← h.2]
                    exact silent_did quiet tame done
                | error e =>
                    simp only [done, Option.some.injEq, Prod.mk.injEq] at h
                    rw [← h.2]
                    exact ⟨effect_registry quiet done, rfl, fun _ => unfiltered _, rfl⟩
  | getState | finish | setState => cases tame
  | signal kind pid =>
      cases kind with
      | cont => cases tame
      | stop =>
          cases f with
          | synthesized marker => cases h
          | of c =>
              cases c <;> simp only [Step.effect] at h <;> (try split at h) <;> cases h <;>
                exact .refl _
  | synthesizeCompletion exitCode =>
      cases f with
      | synthesized marker =>
          simp only [Step.effect] at h
          split at h
          · cases h
            refine ⟨fun i => ?_, rfl, fun _ => unfiltered _, rfl⟩
            simp only [Shared.record, World.modify_nodes]
            split <;> rfl
          · cases h
      | of c =>
          cases c <;> cases h
          exact .refl _
  | loadMarker =>
      cases f with
      | synthesized marker => cases h
      | of c =>
          cases c <;> simp only [Step.effect] at h <;> (try split at h) <;> cases h
          all_goals exact .refl _
  | _ =>
      cases f with
      | synthesized marker => cases h
      | of c =>
          cases c <;> cases h
          exact .refl _

/-! ## The other steps -/

theorem Step.exec_getState {r : Except Exn TaskRuntimeState}
    (h : Step.getState.exec t f v = some (r, v')) :
    (∃ e, e.cls ≠ .activationOutcomeUnknownError ∧ r = .error e ∧ v' = v) ∨
      r = .ok (v.record t.node) ∧ v' = v.saw t (v.record t.node) := by
  rcases Step.exec_cases h with ⟨e, -, may, rfl, rfl⟩ | h
  · exact .inl ⟨e, of_decide_eq_true may, rfl, rfl⟩
  · cases f with
    | synthesized marker => cases h
    | of c =>
        cases c <;> cases h
        exact .inr ⟨rfl, rfl⟩

theorem Step.exec_finish {o : Registry.Operation} {read : TaskRuntimeState}
    {r : Except Exn Registry.Value} (h : (Step.finish o read).exec t f v = some (r, v')) :
    (∃ e, e.cls ≠ .activationOutcomeUnknownError ∧ r = .error e ∧ v' = v) ∨
      ∃ value, (o.perform t.node read).outcome = .ok value ∧ r = .ok value ∧
        v' = (v.putAny t (o.perform t.node read).written).note t.node
          (History.after t.lane (v.call t) o) := by
  rcases Step.exec_cases h with ⟨e, -, may, rfl, rfl⟩ | h
  · exact .inl ⟨e, of_decide_eq_true may, rfl, rfl⟩
  · cases f with
    | synthesized marker => cases h
    | of c =>
        cases c with
        | ok now =>
            simp only [Step.effect] at h
            cases done : (o.perform t.node read).outcome with
            | error e =>
                simp only [done, Option.some.injEq, Prod.mk.injEq] at h
                refine .inl ⟨e, ?_, h.1.symm, h.2.symm⟩
                rw [Registry.outcome_known done]
                decide
            | ok value =>
                simp only [done, Option.some.injEq, Prod.mk.injEq] at h
                exact .inr ⟨value, rfl, h.1.symm, h.2.symm⟩
        | _ => cases h

theorem Step.exec_setState {s : TaskRuntimeState} {r : Except Exn Unit}
    (h : (Step.setState s).exec t f v = some (r, v')) :
    (∃ e, e.cls ≠ .activationOutcomeUnknownError ∧ r = .error e ∧ v' = v) ∨
      r = .ok () ∧ v' = v.put t s := by
  rcases Step.exec_cases h with ⟨e, -, may, rfl, rfl⟩ | h
  · exact .inl ⟨e, of_decide_eq_true may, rfl, rfl⟩
  · cases f with
    | synthesized marker => cases h
    | of c =>
        cases c <;> cases h
        exact .inr ⟨rfl, rfl⟩

/-- A process has been started by `t`. -/
def Shared.spawned (v : Shared) (t : ServiceThread) (pid : Pid) : Shared :=
  v.did t (v.world.modify t.node fun s =>
    { s with processes := pid :: s.processes, starting := some pid }) .spawn

namespace Shared

@[simp] theorem record_spawned (t : ServiceThread) (pid : Pid) (i : NodeId) :
    (v.spawned t pid).record i = v.record i := by
  simp only [spawned, did, record, note, acted, World.modify_nodes]
  split <;> rfl

@[simp] theorem history_spawned_self (t : ServiceThread) (pid : Pid) :
    (v.spawned t pid).history t.node =
      if t.lane = .migration then { v.history t.node with restarting := true }
      else v.history t.node := by
  simp only [spawned, did, history_note_self, acted]

theorem history_spawned_of_ne (t : ServiceThread) (pid : Pid) {i : NodeId} (ne : i ≠ t.node) :
    (v.spawned t pid).history i = v.history i := by
  simp only [spawned, did, history_note_of_ne _ ne, acted]

theorem completions_spawned (t : ServiceThread) (pid : Pid) (i : NodeId) :
    ((v.spawned t pid).history i).completions = (v.history i).completions := by
  by_cases here : i = t.node
  · subst here
    rw [history_spawned_self]
    split <;> rfl
  · rw [history_spawned_of_ne t pid here]

end Shared

theorem Step.exec_spawn {r : Except Exn Pid} (h : (Step.op .spawn).exec t f v = some (r, v')) :
    (∃ e, e.cls ≠ .activationOutcomeUnknownError ∧ r = .error e ∧ v' = v) ∨
      ∃ pid, r = .ok pid ∧ v' = v.spawned t pid := by
  rcases Step.exec_cases h with ⟨e, -, may, rfl, rfl⟩ | h
  · exact .inl ⟨e, of_decide_eq_true may, rfl, rfl⟩
  · cases f with
    | synthesized marker => cases h
    | of c =>
        cases c with
        | spawned pid =>
            simp only [Step.effect, Op.isRecordOp, Bool.false_eq_true, if_false, Magellan.effect,
              writes] at h
            by_cases new : 0 < pid ∧ pid ∉ (v.world.nodes t.node).processes
            · simp only [if_pos new, Option.some.injEq, Prod.mk.injEq] at h
              exact .inr ⟨pid, h.1.symm, h.2.symm⟩
            · simp [if_neg new] at h
        | _ => cases h

theorem Step.exec_cont {pid : Pid} {r : Except Exn Bool}
    (h : (Step.signal .cont pid).exec t f v = some (r, v')) :
    (∃ e, r = .error e ∧ v' = v) ∨ (r = .ok false ∧ v' = v) ∨
      r = .ok true ∧ v' = v.acted t .resume := by
  rcases Step.exec_cases h with ⟨e, -, -, rfl, rfl⟩ | h
  · exact .inl ⟨e, rfl, rfl⟩
  · cases f with
    | synthesized marker => cases h
    | of c =>
        cases c with
        | ok now =>
            simp only [Step.effect, if_true] at h
            split at h <;> cases h
            · exact .inr (.inr ⟨rfl, rfl⟩)
            · exact .inr (.inl ⟨rfl, rfl⟩)
        | _ => cases h

theorem Step.known_of_raises {s : Step} {e : Exn} (wait : ∀ o, s = .op o → o.isAwait = false)
    (may : s.mayRaise e = true) : e.cls ≠ .activationOutcomeUnknownError := by
  intro unknown
  cases s with
  | op o =>
      simp only [Step.mayRaise, Bool.and_eq_true] at may
      have waits := Op.isAwait_of_mayRaise may.2 unknown
      rw [wait o rfl] at waits
      cases waits
  | _ => simp [Step.mayRaise, unknown] at may

theorem event_registry {e : Event} {w w' : World} (outside : e.isOutside = true)
    (h : event e w = some w') (i : NodeId) : (w'.nodes i).registry = (w.nodes i).registry := by
  cases e <;> (try cases outside) <;> simp only [event] at h <;> (try split at h) <;> cases h <;>
    (try rfl) <;> simp only [World.modify_nodes] <;> split <;> rfl

theorem crash_registry (n i : NodeId) (w : World) :
    ((crash n w).nodes i).registry = (w.nodes i).registry := by
  simp only [crash, World.modify_nodes]
  split <;> rfl

theorem takeUp_registry {call : ServiceCall} {w w' : World} (h : takeUp t call w = some w')
    (i : NodeId) : (w'.nodes i).registry = (w.nodes i).registry := by
  have unchanged : ∀ {c : Prop} [Decidable c], (if c then some w else none) = some w' →
      (w'.nodes i).registry = (w.nodes i).registry := fun {c} _ h => by
    by_cases hc : c
    · rw [if_pos hc] at h
      cases h
      rfl
    · rw [if_neg hc] at h
      cases h
  obtain ⟨node, lane⟩ := t
  cases lane with
  | migration =>
      cases call with
      | migration call =>
          cases call with
          | migrate call => exact unchanged h
          | activate request => exact unchanged h
          | reconcile record =>
              simp only [takeUp, accept] at h
              split at h
              · cases h
                simp only [World.modify_nodes]
                split <;> rfl
              · cases h
      | _ => cases h
  | recovery =>
      cases call <;> cases h
      rfl
  | service index =>
      cases call with
      | mergeUpdate u => exact unchanged h
      | postOwnership u => exact unchanged h
      | migration | recover => cases h
      | _ =>
          cases h
          rfl

/-! ## What a thread knows, and what is added to the history -/

/-- The other threads leave alone what `t` has seen. -/
def Rely (t : ServiceThread) (v w : Shared) : Prop := w.seen t = v.seen t

/-- Nothing is known. -/
abbrev Anything (_ : Shared) : Prop := True

/-- What the thread has seen last. -/
def Sees (t : ServiceThread) (P : Option TaskRuntimeState → Prop) (v : Shared) : Prop := P (v.seen t)

theorem Sees.stable {K : Contract Step Fate Shared} {P : Option TaskRuntimeState → Prop}
    (rely : K.rely = Rely t) : K.Stable (Sees t P) := by
  intro v w step sees
  rw [rely] at step
  unfold Sees
  rw [show w.seen t = v.seen t from step]
  exact sees

/-- Every start and every resumption from `v` to `w` satisfies `P`. -/
def Adds (P : Activity → Prop) (v w : Shared) : Prop :=
  ∃ new, w.activity = new ++ v.activity ∧ ∀ a ∈ new, P a

namespace Adds

variable {P Q : Activity → Prop} {u w : Shared}

theorem of_same (same : w.activity = v.activity) : Adds P v w :=
  ⟨[], same, fun _ none_ => by cases none_⟩

theorem refl (v : Shared) : Adds P v v := of_same rfl

theorem single {a : Activity} (h : P a) (added : w.activity = a :: v.activity) : Adds P v w :=
  ⟨[a], added, fun _ mem => by rwa [List.mem_singleton.mp mem]⟩

theorem mono (h : Adds P v w) (weaker : ∀ a, P a → Q a) : Adds Q v w := by
  obtain ⟨new, added, all⟩ := h
  exact ⟨new, added, fun a mem => weaker a (all a mem)⟩

theorem trans (h : Adds P u v) (h' : Adds P v w) : Adds P u w := by
  obtain ⟨new, added, all⟩ := h
  obtain ⟨new', added', all'⟩ := h'
  refine ⟨new' ++ new, by rw [added', added, List.append_assoc], fun a mem => ?_⟩
  rcases List.mem_append.mp mem with late | early
  · exact all' a late
  · exact all a early

end Adds

end Magellan
