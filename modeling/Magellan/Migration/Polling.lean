import Magellan.Coroutine.Traces
import Magellan.Migration.Service

/-!
# Status polls

What the source concludes from the answers to its status polls.
-/

namespace Magellan.MigrationService

open Coroutine Coro

/-! ## Answers -/

/-- The answer to one status poll. -/
inductive PollAnswer where
  | record (record : MigrationRecord)
  | notFound
  | unreachable
  deriving DecidableEq

namespace PollAnswer

def record? : PollAnswer → Option MigrationRecord
  | .record r => some r
  | _ => none

def isAnswered : PollAnswer → Bool
  | .unreachable => false
  | _ => true

end PollAnswer

def pollAnswer : Op × Choice → Option PollAnswer
  | (.awaitStatus .., .answer (some r)) => some (.record r)
  | (.awaitStatus .., .answer none) => some .notFound
  | (.awaitStatus .., .fail _) => some .unreachable
  | _ => none

/-- The answers to the polls of a trace. -/
def polls (tr : List (Op × Choice)) : List PollAnswer := tr.filterMap pollAnswer

/-- The two variables of the polling loop after these answers. -/
def resolve (answers : List PollAnswer) (outcome : Option MigrationRecord × Bool) :
    Option MigrationRecord × Bool :=
  answers.foldl (fun o a => (a.record?, a.isAnswered || o.2)) outcome

def Shows (answers : List PollAnswer) (status : MigrationStatus) : Prop :=
  ∃ r, .record r ∈ answers ∧ r.status = status

/-- Every answered poll was a 404. -/
def AllNotFound (answers : List PollAnswer) : Prop :=
  ∀ a ∈ answers, a.isAnswered → a = .notFound

/-- A record in progress was shown and then an error or a 404 came last. -/
def Misread (answers : List PollAnswer) : Prop :=
  (∃ r, .record r ∈ answers) ∧ (∀ r, .record r ∈ answers → r.status.isTerminal = false) ∧
    ∀ a ∈ answers.getLast?, a.record? = none

/-- Polling ends with the first terminal record. -/
def EndsAtTerminal (answers : List PollAnswer) : Prop :=
  ∀ r, .record r ∈ answers.dropLast → r.status.isTerminal = false

theorem resolve_eq (answers : List PollAnswer) (outcome : Option MigrationRecord × Bool) :
    resolve answers outcome =
      match answers.getLast? with
      | none => outcome
      | some a => (a.record?, answers.any (·.isAnswered) || outcome.2) := by
  induction answers generalizing outcome with
  | nil => rfl
  | cons a answers ih =>
      rw [show resolve (a :: answers) outcome =
        resolve answers (a.record?, a.isAnswered || outcome.2) from rfl, ih]
      cases answers with
      | nil => simp
      | cons b answers =>
          simp only [List.getLast?_cons_cons]
          cases h : (b :: answers).getLast? with
          | none => simp at h
          | some c => simp [Bool.or_left_comm, Bool.or_assoc]

theorem mem_dropLast_or_getLast? {α : Type} {a : α} {l : List α} (h : a ∈ l) :
    a ∈ l.dropLast ∨ l.getLast? = some a := by
  rcases List.eq_nil_or_concat l with rfl | ⟨l', b, rfl⟩
  · simp at h
  · simpa [or_comm, eq_comm] using h

theorem EndsAtTerminal.cons {a : PollAnswer} {answers : List PollAnswer}
    (inProgress : ∀ r, a = .record r → r.status.isTerminal = false)
    (ends : EndsAtTerminal answers) : EndsAtTerminal (a :: answers) := by
  intro r mem
  cases answers with
  | nil => simp at mem
  | cons b answers =>
      rw [List.dropLast_cons_cons] at mem
      rcases List.mem_cons.mp mem with h | h
      · exact inProgress r h.symm
      · exact ends r h

theorem EndsAtTerminal.inProgress {answers : List PollAnswer} (ends : EndsAtTerminal answers)
    (last : ∀ a ∈ answers.getLast?, a.record? = none) {r : MigrationRecord}
    (shown : .record r ∈ answers) : r.status.isTerminal = false := by
  rcases mem_dropLast_or_getLast? shown with h | h
  · exact ends r h
  · exact absurd (last _ h) (by simp [PollAnswer.record?])

theorem confirmsActivation_of_shows {answers : List PollAnswer} (ends : EndsAtTerminal answers)
    (shown : Shows answers .activated) :
    confirmsActivation (resolve answers (none, false)) = true := by
  obtain ⟨r, mem, status⟩ := shown
  rcases mem_dropLast_or_getLast? mem with h | h
  · simpa [status, MigrationStatus.isTerminal] using ends r h
  · simp [resolve_eq, h, confirmsActivation, PollAnswer.record?, status]

/-- What the source takes for a confirmation that the activation did not commit is one, unless it
misread the answers. -/
theorem confirmsNoActivation_sound {answers : List PollAnswer} (ends : EndsAtTerminal answers)
    (read : ¬ Misread answers)
    (confirmed : confirmsNoActivation (resolve answers (none, false)) = true) :
    Shows answers .rolledBack ∨ AllNotFound answers := by
  cases h : answers.getLast? with
  | none => simp [resolve_eq, h, confirmsNoActivation] at confirmed
  | some a =>
      cases ha : a.record? with
      | some r =>
          have hr : a = .record r := by cases a <;> simp_all [PollAnswer.record?]
          subst hr
          simp only [resolve_eq, h, confirmsNoActivation, PollAnswer.record?] at confirmed
          exact .inl ⟨r, List.mem_of_getLast? h, by simpa using confirmed⟩
      | none =>
          have last : ∀ b ∈ answers.getLast?, b.record? = none := by simpa [h] using ha
          refine .inr fun b mem answered => ?_
          cases b with
          | record r =>
              exact absurd ⟨⟨r, mem⟩, fun _ => ends.inProgress last, last⟩ read
          | notFound => rfl
          | unreachable => cases answered

/-- A misreading is taken for a confirmation, though the answers confirm nothing. -/
theorem Misread.confirmsNoActivation {answers : List PollAnswer} (misread : Misread answers) :
    confirmsActivation (resolve answers (none, false)) = false ∧
      confirmsNoActivation (resolve answers (none, false)) = true := by
  obtain ⟨⟨r, mem⟩, -, last⟩ := misread
  cases h : answers.getLast? with
  | none => simp [List.getLast?_eq_none_iff] at h; simp [h] at mem
  | some a =>
      have answered : answers.any (·.isAnswered) = true :=
        List.any_eq_true.mpr ⟨_, mem, rfl⟩
      have none : a.record? = none := last a h
      simp [resolve_eq, h, answered, none, MigrationService.confirmsActivation,
        MigrationService.confirmsNoActivation]

theorem Misread.not_justified {answers : List PollAnswer} (misread : Misread answers) :
    ¬ (Shows answers .rolledBack ∨ AllNotFound answers) := by
  obtain ⟨⟨r, mem⟩, inProgress, -⟩ := misread
  rintro (⟨s, mem', status⟩ | all)
  · simpa [status, MigrationStatus.isTerminal] using inProgress s mem'
  · cases all _ mem rfl

/-! ## The polling loop -/

/-- An operation of a rollback: the saved state is written back, the task is started. -/
def isRollback : Op → Bool
  | .registry (.restoreOriginal ..) | .spawn => true
  | _ => false

section

variable {n d : NodeId} {m : MigrationId} {R : World → World → Prop} {w v : World}
  {tr : List (Op × Choice)}

/-- What `MigrationClient.status` returns for an answer. -/
def PollAnswer.Returns : PollAnswer → Except Exn (Option MigrationRecord) → Prop
  | .record x, r => r = .ok (some x)
  | .notFound, r => r = .ok none
  | .unreachable, r => ∃ e, e.cls = .activationOutcomeUnknownError ∧ r = .error e

theorem status_trace {q : Async (Option MigrationRecord)}
    (h : Reach (exec n) R (MigrationClient.status d m) w tr q v) :
    (∀ x ∈ tr, isRollback x.1 = false) ∧
      ((polls tr = [] ∧ ∀ r, q ≠ .done r) ∨
        ∃ a r, polls tr = [a] ∧ a.Returns r ∧ q = .done r) := by
  rcases Reach.perform_inv h with ⟨rfl, rfl, -⟩ | ⟨c, tr, r, u, u', rfl, -, sent, h⟩
  · exact ⟨by simp, .inl ⟨rfl, by simp⟩⟩
  obtain ⟨now, rfl, rfl, -⟩ := MigrationClient.exec_sendStatusQuery sent
  rcases Reach.perform_inv h with ⟨rfl, rfl, -⟩ | ⟨c, tr, r, u, u', rfl, -, answered, h⟩
  · exact ⟨by simp [isRollback], .inl ⟨rfl, by simp⟩⟩
  obtain ⟨rfl, rfl, -⟩ := Reach.done_inv h
  refine ⟨by simp [isRollback], .inr ?_⟩
  obtain ⟨-, ⟨e, rfl, cls, rfl⟩ | ⟨a, rfl, -, rfl⟩⟩ := MigrationClient.exec_awaitStatus answered
  · exact ⟨.unreachable, _, rfl, ⟨e, cls, rfl⟩, rfl⟩
  · cases a with
    | none => exact ⟨.notFound, _, rfl, rfl, rfl⟩
    | some x => exact ⟨.record x, _, rfl, rfl, rfl⟩

@[simp] theorem polls_append (tr tr' : List (Op × Choice)) :
    polls (tr ++ tr') = polls tr ++ polls tr' := List.filterMap_append

theorem resolve_cons (a : PollAnswer) (answers : List PollAnswer)
    (outcome : Option MigrationRecord × Bool) :
    resolve (a :: answers) outcome = resolve answers (a.record?, a.isAnswered || outcome.2) := rfl

/-- The loop returns the fold of the answers, and it stops at a terminal record. -/
theorem pollOutcome_trace {count : Nat} (outcome : Option MigrationRecord × Bool)
    {q : Async (Option MigrationRecord × Bool)}
    (h : Reach (exec n) R (pollOutcome d m count outcome.1 outcome.2) w tr q v) :
    (∀ x ∈ tr, isRollback x.1 = false) ∧ EndsAtTerminal (polls tr) ∧
      ∀ r, q = .done r → r = .ok (resolve (polls tr) outcome) := by
  induction count generalizing outcome w tr with
  | zero =>
      obtain ⟨rfl, rfl, -⟩ := Reach.done_inv h
      exact ⟨by simp, by simp [EndsAtTerminal, polls], fun r hr => by cases hr; rfl⟩
  | succ count ih =>
      rcases Reach.andThen_cases h with ⟨o, k, reach, rfl⟩ | ⟨r, tr₁, tr₂, u, rfl, reach, rest⟩
      · obtain ⟨quiet, ⟨none, -⟩ | ⟨a, r, -, -, ended⟩⟩ := status_trace reach
        · exact ⟨quiet, by simp [EndsAtTerminal, none], by simp⟩
        · cases ended
      · obtain ⟨quiet, ⟨-, running⟩ | ⟨a, r, one, returns, ended⟩⟩ := status_trace reach
        · exact absurd rfl (running r)
        cases ended
        have goesOn : (∀ x, a = .record x → x.status.isTerminal = false) →
            Reach (exec n) R (pollOutcome d m count a.record? (a.isAnswered || outcome.2)) u tr₂
              q v →
            (∀ x ∈ tr₁ ++ tr₂, isRollback x.1 = false) ∧ EndsAtTerminal (polls (tr₁ ++ tr₂)) ∧
              ∀ r, q = .done r → r = .ok (resolve (polls (tr₁ ++ tr₂)) outcome) := by
          intro inProgress rest
          obtain ⟨quiet', ends, result⟩ := ih (_, _) rest
          simp only [polls_append, one, List.singleton_append, resolve_cons]
          exact ⟨List.forall_mem_append.mpr ⟨quiet, quiet'⟩, ends.cons inProgress, result⟩
        cases a with
        | record x =>
            cases returns
            cases terminal : x.status.isTerminal with
            | true =>
                simp only [Option.any_some, terminal, if_true] at rest
                obtain ⟨rfl, rfl, -⟩ := Reach.done_inv rest
                simp only [List.append_nil, one]
                exact ⟨quiet, by simp [EndsAtTerminal], fun r hr => by cases hr; rfl⟩
            | false =>
                simp only [Option.any_some, terminal] at rest
                exact goesOn (by simpa using terminal) rest
        | notFound =>
            cases returns
            exact goesOn (by simp) rest
        | unreachable =>
            obtain ⟨e, cls, rfl⟩ := returns
            simp only [cls, if_true] at rest
            exact goesOn (by simp) rest

theorem queryRemoteOutcome_trace {q : Async (Option MigrationRecord × Bool)}
    (h : Reach (exec n) R (queryRemoteOutcome d m) w tr q v) :
    (∀ x ∈ tr, isRollback x.1 = false) ∧ EndsAtTerminal (polls tr) ∧
      ∀ r, q = .done r → r = .ok (resolve (polls tr) (none, false)) := by
  rcases Reach.perform_inv h with ⟨rfl, rfl, -⟩ | ⟨c, tr, r, u, u', rfl, -, done, h⟩
  · exact ⟨by simp, by simp [EndsAtTerminal, polls], by simp⟩
  rcases exec_cases done with ⟨e, -, may, -⟩ | done
  · cases may
  · cases c with
    | polls count =>
        cases done
        obtain ⟨quiet, rest⟩ := pollOutcome_trace (none, false) h
        exact ⟨List.forall_mem_cons.mpr ⟨rfl, quiet⟩, rest⟩
    | _ => cases done

/-! ## The decision -/

def isPoll : Op → Bool
  | .awaitStatus .. => true
  | _ => false

theorem polls_eq_nil (h : ∀ x ∈ tr, isPoll x.1 = false) : polls tr = [] := by
  refine List.filterMap_eq_nil_iff.mpr fun x mem => ?_
  have free := h x mem
  obtain ⟨o, c⟩ := x
  cases o <;> first | rfl | cases free

def RollsBack (tr : List (Op × Choice)) : Prop := ∃ x ∈ tr, isRollback x.1 = true

/-- The hand-over `m` is finalized: the node gives the task away. -/
def Finalizes (m : MigrationId) (tr : List (Op × Choice)) : Prop :=
  ∃ owner generation at_ c, (.registry (.markRemote owner generation m at_), c) ∈ tr

/-- A sound resolution of `m`; `ended` says that the trace is complete. -/
structure OutcomeSound (m : MigrationId) (tr : List (Op × Choice)) (ended : Prop) : Prop where
  rollback : RollsBack tr → Shows (polls tr) .rolledBack ∨ AllNotFound (polls tr)
  finalize : Shows (polls tr) .activated → ¬ RollsBack tr ∧ (ended → Finalizes m tr)

theorem OutcomeSound.of_polls_nil {ended : Prop} (h : polls tr = []) :
    OutcomeSound m tr ended :=
  ⟨fun _ => .inr (by simp [h, AllNotFound]), fun ⟨r, mem, _⟩ => by simp [h] at mem⟩

theorem not_rollsBack (h : ∀ x ∈ tr, isRollback x.1 = false) : ¬ RollsBack tr := by
  rintro ⟨x, mem, rolls⟩
  simp [h x mem] at rolls

theorem RollsBack.of_append {tr' : List (Op × Choice)} (quiet : ∀ x ∈ tr, isRollback x.1 = false)
    (h : RollsBack (tr ++ tr')) : RollsBack tr' := by
  obtain ⟨x, mem, rolls⟩ := h
  rcases List.mem_append.mp mem with mem | mem
  · simp [quiet x mem] at rolls
  · exact ⟨x, mem, rolls⟩

theorem OutcomeSound.prepend {tr' : List (Op × Choice)} {ended : Prop}
    (noPolls : ∀ x ∈ tr, isPoll x.1 = false) (quiet : ∀ x ∈ tr, isRollback x.1 = false)
    (sound : OutcomeSound m tr' ended) : OutcomeSound m (tr ++ tr') ended := by
  have same : polls (tr ++ tr') = polls tr' := by simp [polls_eq_nil noPolls]
  refine ⟨fun h => same ▸ sound.rollback (h.of_append quiet), fun h => ?_⟩
  obtain ⟨no, finalizes⟩ := sound.finalize (same ▸ h)
  refine ⟨fun h => no (h.of_append quiet), fun e => ?_⟩
  obtain ⟨owner, generation, at_, c, mem⟩ := finalizes e
  exact ⟨owner, generation, at_, c, List.mem_append_right _ mem⟩

theorem OutcomeSound.cons {o : Op} {c : Choice} {ended : Prop} (noPoll : isPoll o = false)
    (quiet : isRollback o = false) (sound : OutcomeSound m tr ended) :
    OutcomeSound m ((o, c) :: tr) ended :=
  sound.prepend (List.forall_mem_singleton.mpr noPoll) (List.forall_mem_singleton.mpr quiet)

/-- A continuation that acts on the outcome of the polls as both call sites do. -/
structure Decides {α : Type} (m : MigrationId)
    (f : Except Exn (Option MigrationRecord × Bool) → Async α) : Prop where
  noPolls : ∀ o, (f (.ok o)).Performs (isPoll · = false)
  finalizes : ∀ o, confirmsActivation o = true → ∃ owner generation at_ k,
    f (.ok o) = .perform (.registry (.markRemote owner generation m at_)) k
  keeps : ∀ o, confirmsActivation o = true ∨ confirmsNoActivation o = false →
    (f (.ok o)).Performs (isRollback · = false)

theorem Decides.sound {α : Type} {f : Except Exn (Option MigrationRecord × Bool) → Async α}
    (decides : Decides m f) {q : Async α}
    (h : Reach (exec n) R ((queryRemoteOutcome d m).andThen f) w tr q v)
    (read : ¬ Misread (polls tr)) : OutcomeSound m tr (∃ r, q = .done r) := by
  rcases Reach.andThen_cases h with ⟨o, k, reach, rfl⟩ | ⟨r, tr₁, tr₂, u, rfl, reach, rest⟩
  · have quiet := not_rollsBack (queryRemoteOutcome_trace reach).1
    exact ⟨fun rolls => absurd rolls quiet, fun _ => ⟨quiet, by simp⟩⟩
  · obtain ⟨quiet, ends, result⟩ := queryRemoteOutcome_trace reach
    cases result r rfl
    have same : polls (tr₁ ++ tr₂) = polls tr₁ := by
      simp [polls_eq_nil (rest.performs (decides.noPolls _))]
    rw [same] at read
    constructor
    · intro rolls
      rw [same]
      refine confirmsNoActivation_sound ends read ?_
      by_contra no
      exact not_rollsBack (rest.performs (decides.keeps _ (.inr (by simpa using no))))
        (rolls.of_append quiet)
    · intro shown
      rw [same] at shown
      have confirmed := confirmsActivation_of_shows ends shown
      refine ⟨fun rolls => not_rollsBack (rest.performs (decides.keeps _ (.inl confirmed)))
        (rolls.of_append quiet), ?_⟩
      rintro ⟨r, rfl⟩
      obtain ⟨owner, generation, at_, k, eq⟩ := decides.finalizes _ confirmed
      rw [eq] at rest
      rcases Reach.perform_inv rest with ⟨-, ended, -⟩ | ⟨c, tr', -, -, -, rfl, -⟩
      · cases ended
      · exact ⟨owner, generation, at_, c, by simp⟩

end

end Magellan.MigrationService
