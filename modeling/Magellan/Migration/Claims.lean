import Magellan.Migration.Commitment
import Magellan.Migration.Failure

/-!
# Claims

A destination claims the task before it has committed the activation. What every node records is
good, or it is the open claim of the node itself; and no message says anything that is not good.
-/

namespace Magellan.Claims

open Coroutine Commitment MigrationService

/-- What is in flight. -/
structure Mail where
  requests : List MigrationActivationRequest
  responses : List MigrationActivationResponse
  answers : List (NodeId × MigrationId × Option MigrationRecord)
  updates : List Registry.OwnershipUpdate

def mail (w : World) : Mail := ⟨w.requests, w.responses, w.answers, w.updates⟩

structure Mail.Good (initial : Ownership) (h : History) (x : Mail) : Prop where
  requests : ∀ q ∈ x.requests, Begun q.migrationId q.destinationNodeId q.generation h
  responses : ∀ a ∈ x.responses, a.activated = true →
    Committed a.destinationNodeId a.migrationId a.generation h
  answers : ∀ {d m r}, (d, m, some r) ∈ x.answers → (d, r) ∈ h ∧ r.migrationId = m
  updates : ∀ u ∈ x.updates, Commitment.Good initial u.ownerNodeId u.generation h

/-- What `n` records is good. -/
def GoodAt (initial : Ownership) (n : NodeId) (w : World) : Prop :=
  GoodState initial w.history (w.nodes n).registry

/-- There is an open record of the activation of `m` with generation `g`. -/
def OpenRecord (m : MigrationId) (g : Nat) (j : Journal) : Prop :=
  ∃ r, j.get m = some r ∧ r.role = .destination ∧ r.status.isTerminal = false ∧ r.generation = g

/-- The node records a claim of its own, whose activation is open. -/
def OpenClaim (n : NodeId) (m : MigrationId) (w : World) : Prop :=
  (w.nodes n).registry.ownerNodeId = n ∧
    OpenRecord m (w.nodes n).registry.generation (w.nodes n).journal

/-- The node records no claim of its own that it has not committed. -/
def Settled (initial : Ownership) (n : NodeId) (w : World) : Prop :=
  (w.nodes n).registry.ownerNodeId = n → GoodAt initial n w

structure Invariant (initial : Ownership) (w : World) : Prop where
  sound : Sound initial w.history
  journals : ∀ {n r}, r ∈ (w.nodes n).journal → (n, r) ∈ w.history
  passes : ∀ {n r}, r ∈ (w.nodes n).pass → (n, r) ∈ w.history
  latest : ∀ {n m}, RolledBack n m w.history → ∃ r, (w.nodes n).journal.get m = some r ∧
    (r.status = .rolledBack ∨ Committed n m r.generation w.history)
  mail : (mail w).Good initial w.history
  claims : ∀ n, GoodAt initial n w ∨ ∃ m, OpenClaim n m w

/-- What the other nodes and the messages leave at `n`. -/
structure Rely (initial : Ownership) (n : NodeId) (w v : World) : Prop where
  later : w.history <:+ v.history
  journal : (v.nodes n).journal = (w.nodes n).journal
  registry : (v.nodes n).registry.ownership = (w.nodes n).registry.ownership ∨ GoodAt initial n v

/-- A step at `n`. -/
structure Keeps (n : NodeId) (w v : World) : Prop where
  later : w.history <:+ v.history
  others : ∀ i, i ≠ n → v.nodes i = w.nodes i

/-- A step that has nothing to do with claims. -/
structure Calm (w v : World) : Prop where
  history : v.history = w.history
  journals : ∀ i, (v.nodes i).journal = (w.nodes i).journal
  passes : ∀ i, (v.nodes i).pass ⊆ (w.nodes i).pass
  ownerships : ∀ i, (v.nodes i).registry.ownership = (w.nodes i).registry.ownership
  mail : Claims.mail v = Claims.mail w

section

variable {initial : Ownership} {n i d : NodeId} {m : MigrationId} {g : Nat} {w v : World} {c : Choice}
  {h h' : History} {r : MigrationRecord}

theorem Mail.Good.mono {x : Mail} (later : h <:+ h') (good : x.Good initial h) :
    x.Good initial h' where
  requests q mem := (good.requests q mem).mono later
  responses a mem activated := (good.responses a mem activated).mono later
  answers mem := ⟨later.subset (good.answers mem).1, (good.answers mem).2⟩
  updates u mem := (good.updates u mem).mono later

theorem goodAt_congr (later : w.history <:+ v.history)
    (same : (v.nodes n).registry.ownership = (w.nodes n).registry.ownership)
    (good : GoodAt initial n w) : GoodAt initial n v := by
  obtain ⟨generation, owner⟩ := (Ownership.mk.injEq ..).mp same
  unfold GoodAt GoodState
  rw [generation, owner]
  exact Commitment.Good.mono later good

theorem openClaim_congr (journal : (v.nodes n).journal = (w.nodes n).journal)
    (same : (v.nodes n).registry.ownership = (w.nodes n).registry.ownership) :
    OpenClaim n m v ↔ OpenClaim n m w := by
  obtain ⟨generation, owner⟩ := (Ownership.mk.injEq ..).mp same
  unfold OpenClaim
  rw [generation, owner, journal]

theorem Rely.goodAt (rely : Rely initial n w v) (good : GoodAt initial n w) :
    GoodAt initial n v := by
  rcases rely.registry with same | good'
  · exact goodAt_congr rely.later same good
  · exact good'

theorem Rely.claims (rely : Rely initial n w v)
    (claim : GoodAt initial n w ∨ ∃ m, OpenClaim n m w) :
    GoodAt initial n v ∨ ∃ m, OpenClaim n m v := by
  rcases claim with good | ⟨m, claim⟩
  · exact .inl (rely.goodAt good)
  · rcases rely.registry with same | good
    · exact .inr ⟨m, (openClaim_congr rely.journal same).mpr claim⟩
    · exact .inl good

theorem Keeps.rely (keeps : Keeps n w v) (ne : i ≠ n) : Rely initial i w v :=
  ⟨keeps.later, by rw [keeps.others i ne], .inl (by rw [keeps.others i ne])⟩

theorem Invariant.goodAt (inv : Invariant initial w) (settled : Settled initial n w) :
    GoodAt initial n w := by
  rcases inv.claims n with good | ⟨m, owner, -⟩
  · exact good
  · exact settled owner

theorem Invariant.recorded (inv : Invariant initial w)
    (found : (w.nodes n).journal.get m = some r) : (n, r) ∈ w.history ∧ r.migrationId = m :=
  ⟨inv.journals (List.mem_of_find?_eq_some found), Journal.get_migrationId found⟩

namespace Calm

theorem later (calm : Calm w v) : w.history <:+ v.history := calm.history ▸ List.suffix_refl _

theorem rely (calm : Calm w v) : Rely initial n w v :=
  ⟨calm.later, calm.journals n, .inl (calm.ownerships n)⟩

theorem refl (w : World) : Calm w w := ⟨rfl, fun _ => rfl, fun _ => List.Subset.refl _, fun _ => rfl, rfl⟩

theorem invariant (calm : Calm w v) (inv : Invariant initial w) : Invariant initial v where
  sound := calm.history ▸ inv.sound
  journals {n r} mem := by
    rw [calm.journals] at mem
    exact calm.later.subset (inv.journals mem)
  passes {n r} mem := calm.later.subset (inv.passes (calm.passes n mem))
  latest {n m} back := by
    rw [calm.history] at back ⊢
    rw [calm.journals]
    exact inv.latest back
  mail := by
    rw [calm.mail]
    exact inv.mail.mono calm.later
  claims n := calm.rely.claims (inv.claims n)

end Calm

/-! ## Operations -/

theorem history_logged (e : LogEntry) : (w.logged e).history = (match e.journalWrite with
    | some write => write :: w.history
    | none => w.history) := by
  unfold World.history World.logged
  rw [List.filterMap_cons]
  cases e <;> rfl

theorem history_of_log {e : LogEntry} (longer : v.log = e :: w.log) :
    w.history <:+ v.history := by
  unfold World.history
  rw [longer, List.filterMap_cons]
  split
  · exact List.suffix_refl _
  · exact List.suffix_cons ..

theorem exec_keeps {o : Op} {r : Except Exn o.Ret} (h : exec n o c w = some (r, v)) :
    Keeps n w v := by
  refine ⟨?_, fun i ne => exec_elsewhere ne h⟩
  rcases exec_log h with same | ⟨e, longer⟩
  · simp only [World.history, same, List.suffix_rfl]
  · exact history_of_log longer

theorem ownership_of_isUpkeepOp {o : Op} {r : Except Exn o.Ret} (upkeep : isUpkeepOp o = true)
    (h : exec n o c w = some (r, v)) :
    (v.nodes n).registry.ownership = (w.nodes n).registry.ownership := by
  by_cases keeps : keepsOwnership o = true
  · exact exec_ownership keeps h
  cases o with
  | registry op =>
      cases op with
      | markRecoveryExhausted error =>
          rcases exec_registry h with ⟨-, rfl⟩ | ⟨now, -, applied, ⟨-, -, rfl⟩ | ⟨state, rfl, rfl⟩⟩
          · rfl
          · rfl
          · rw [World.putState_self]
            cases applied
            rfl
      | _ => first | exact absurd rfl keeps | cases upkeep
  | _ => exact absurd rfl keeps

theorem exec_mail {o : Op} {r : Except Exn o.Ret} (upkeep : isUpkeepOp o = true)
    (h : exec n o c w = some (r, v)) :
    v.history = w.history ∧ (v.nodes n).pass = (w.nodes n).pass ∧ mail v = mail w := by
  rcases exec_cases h with ⟨e, -, -, -, rfl⟩ | h
  · exact ⟨rfl, rfl, rfl⟩
  unfold effect at h
  split at h <;> (try cases upkeep) <;> (try simp only [reads, writes, raises, bidResult] at h) <;>
    (try split at h) <;> cases h <;> first
      | exact ⟨rfl, rfl, rfl⟩
      | (refine ⟨rfl, ?_, rfl⟩
         simp only [World.modify_self, World.putState_self])

theorem exec_calm {o : Op} {r : Except Exn o.Ret} (upkeep : isUpkeepOp o = true)
    (h : exec n o c w = some (r, v)) : Calm w v := by
  have keeps := exec_keeps h
  obtain ⟨history, pass, mail⟩ := exec_mail upkeep h
  have unwritten : o.isJournalWrite = false := by cases o <;> first | rfl | cases upkeep
  have everywhere {β : Type} {f : NodeState → β} (here : f (v.nodes n) = f (w.nodes n))
      (i : NodeId) : f (v.nodes i) = f (w.nodes i) := by
    by_cases same : i = n
    · exact same ▸ here
    · rw [keeps.others i same]
  refine ⟨history, everywhere (f := (·.journal)) (exec_journal unwritten h), fun i => ?_,
    everywhere (f := (·.registry.ownership)) (ownership_of_isUpkeepOp upkeep h), mail⟩
  rw [everywhere (f := (·.pass)) pass i]
  exact List.Subset.refl _

/-! ## Journal writes -/

theorem mem_put {j : Journal} {x : MigrationRecord} (mem : x ∈ j.put r) : x = r ∨ x ∈ j := by
  induction j with
  | nil => exact .inl (List.mem_singleton.mp mem)
  | cons y j ih =>
      unfold Journal.put at mem
      split at mem
      · rcases List.mem_cons.mp mem with same | later
        · exact .inl same
        · exact .inr (List.mem_cons_of_mem _ later)
      · rcases List.mem_cons.mp mem with same | later
        · exact .inr (same ▸ List.mem_cons_self ..)
        · exact (ih later).imp id (List.mem_cons_of_mem _)

@[simp] theorem history_putRecord : (w.putRecord n r).history = (n, r) :: w.history :=
  history_logged _

theorem putRecord_ne (ne : i ≠ n) : (w.putRecord n r).nodes i = w.nodes i := if_neg ne

theorem committed_write (role : r.role = .destination) (status : r.status = .activated)
    (notBack : RolledBack n r.migrationId h → Committed n r.migrationId r.generation h) :
    Committed n r.migrationId r.generation ((n, r) :: h) := by
  by_cases back : RolledBack n r.migrationId h
  · exact .inl (notBack back)
  · exact .inr ⟨⟨rfl, role, rfl, status⟩, rfl, back⟩

/-- The write of a record that agrees with what has begun. A record is not closed under an open
claim. -/
theorem invariant_putRecord (inv : Invariant initial w)
    (agrees : ∀ {d g}, Begun r.migrationId d g w.history → claimant n r = d ∧ r.generation = g)
    (known : Entry initial ((n, r) :: w.history) n r)
    (back : RolledBack n r.migrationId w.history →
      r.status = .rolledBack ∨ Committed n r.migrationId r.generation w.history)
    (releases : r.status.isTerminal = true → OpenClaim n r.migrationId w →
      GoodState initial ((n, r) :: w.history) (w.nodes n).registry) :
    Invariant initial (w.putRecord n r) := by
  have later : w.history <:+ (w.putRecord n r).history := by
    rw [history_putRecord]
    exact List.suffix_cons ..
  constructor
  · rw [history_putRecord]
    exact inv.sound.cons agrees known
  · intro i x mem
    by_cases here : i = n
    · subst here
      rw [World.putRecord_self] at mem
      rcases mem_put mem with rfl | before
      · rw [history_putRecord]
        exact List.mem_cons_self ..
      · exact later.subset (inv.journals before)
    · rw [putRecord_ne here] at mem
      exact later.subset (inv.journals mem)
  · intro i x mem
    have before : x ∈ (w.nodes i).pass := by
      by_cases here : i = n
      · subst here
        rw [World.putRecord_self] at mem
        exact mem
      · rwa [putRecord_ne here] at mem
    exact later.subset (inv.passes before)
  · intro i m rolled
    by_cases here : i = n ∧ m = r.migrationId
    · obtain ⟨rfl, rfl⟩ := here
      refine ⟨r, ?_, ?_⟩
      · rw [World.putRecord_self]
        exact Journal.get_put_self ..
      · rw [history_putRecord] at rolled ⊢
        obtain ⟨e, mem, said⟩ := rolled
        rcases List.mem_cons.mp mem with rfl | before
        · exact .inl said.2.2.2
        · exact (back ⟨e, before, said⟩).imp id (Committed.mono (List.suffix_cons ..))
    · have before : RolledBack i m w.history := by
        rw [history_putRecord] at rolled
        obtain ⟨e, mem, said⟩ := rolled
        rcases List.mem_cons.mp mem with rfl | before
        · exact absurd ⟨said.1.symm, said.2.2.1.symm⟩ here
        · exact ⟨e, before, said⟩
      obtain ⟨x, found, finished⟩ := inv.latest before
      refine ⟨x, ?_, finished.imp id (Committed.mono later)⟩
      by_cases same : i = n
      · subst same
        rw [World.putRecord_self]
        exact (Journal.get_put_of_ne _ r fun same => here ⟨rfl, same⟩).trans found
      · rwa [putRecord_ne same]
  · exact inv.mail.mono later
  · intro i
    by_cases here : i = n
    swap
    · have rely : Rely initial i w (w.putRecord n r) :=
        ⟨later, by rw [putRecord_ne here], .inl (by rw [putRecord_ne here])⟩
      exact rely.claims (inv.claims i)
    subst here
    have same : ((w.putRecord i r).nodes i).registry = (w.nodes i).registry := by
      rw [World.putRecord_self]
    rcases inv.claims i with good | ⟨m, owner, x, found, role, open_, generation⟩
    · exact .inl (goodAt_congr later (by rw [same]) good)
    by_cases other : m = r.migrationId
    swap
    · refine .inr ⟨m, by rw [same]; exact owner, x, ?_, role, open_, by rw [same]; exact generation⟩
      rw [World.putRecord_self]
      exact (Journal.get_put_of_ne _ r other).trans found
    subst other
    by_cases closed : r.status.isTerminal = true
    · refine .inl ?_
      unfold GoodAt
      rw [same, history_putRecord]
      exact releases closed ⟨owner, x, found, role, open_, generation⟩
    · obtain ⟨mem, id⟩ := inv.recorded found
      have begun := (inv.sound.entries mem).begun role
      rw [id] at begun
      obtain ⟨here, generation'⟩ := agrees begun
      have role' : r.role = .destination := by
        unfold claimant at here
        cases role' : r.role with
        | source =>
            rw [role'] at here
            exact absurd here (known.elsewhere role')
        | destination => rfl
      refine .inr ⟨r.migrationId, by rw [same]; exact owner, r, ?_, role',
        eq_false_of_ne_true closed, by rw [same, generation', generation]⟩
      rw [World.putRecord_self]
      exact Journal.get_put_self ..

/-- What a new status of the record `r` of `n` has to satisfy. -/
structure Allows (initial : Ownership) (n : NodeId) (r : MigrationRecord) (status : MigrationStatus)
    (w : World) : Prop where
  reopens : status ≠ .rolledBack → r.role = .destination → r.status = .rolledBack →
    Committed n r.migrationId r.generation w.history
  releases : status = .rolledBack → OpenClaim n r.migrationId w → GoodAt initial n w

theorem invariant_setStatus (inv : Invariant initial w) {status : MigrationStatus}
    {pid : Option Pid} {error : Option String} (found : (w.nodes n).journal.get m = some r)
    (allows : Allows initial n r status w) :
    Invariant initial (w.putRecord n { r with status, pid, error }) ∧
      (r.role = .destination → status = .activated →
        Committed n m r.generation (w.putRecord n { r with status, pid, error }).history) := by
  obtain ⟨mem, rfl⟩ := inv.recorded found
  have later : w.history <:+ (n, ({ r with status, pid, error } : MigrationRecord)) :: w.history :=
    List.suffix_cons ..
  have known := (inv.sound.entries mem).mono later
  have back (role : r.role = .destination) (status' : status ≠ .rolledBack)
      (rolled : RolledBack n r.migrationId w.history) :
      Committed n r.migrationId r.generation w.history := by
    obtain ⟨x, found', finished⟩ := inv.latest rolled
    cases found'.symm.trans found
    exact finished.elim (allows.reopens status' role) id
  have commits (role : r.role = .destination) (status' : status = .activated) :
      Committed n r.migrationId r.generation
        ((n, ({ r with status, pid, error } : MigrationRecord)) :: w.history) :=
    @committed_write n w.history { r with status, pid, error } role status' fun rolled =>
      back role (by rw [status']; exact MigrationStatus.noConfusion) rolled
  have agrees {d g} (begun : Begun r.migrationId d g w.history) :
      claimant n r = d ∧ r.generation = g := inv.sound.agree mem begun
  refine ⟨?_, by rw [history_putRecord]; exact commits⟩
  refine invariant_putRecord inv agrees ?_ (fun rolled => ?_)
    fun closed claim => ?_
  · exact ⟨known.elsewhere, known.origin, known.begun, commits, known.original⟩
  · by_cases status' : status = .rolledBack
    · exact .inl status'
    · have role : r.role = .destination := by
        obtain ⟨e, mem', rfl, role, id, -⟩ := rolled
        have begun := (inv.sound.entries mem').begun role
        rw [id] at begun
        exact inv.sound.isDestination mem begun
      exact .inr (back role status' rolled)
  · obtain ⟨owner, x, found', role, open_, generation⟩ := claim
    cases found'.symm.trans found
    by_cases status' : status = .rolledBack
    · exact (allows.releases status' ⟨owner, r, found, role, open_, generation⟩).mono later
    · have activated : status = .activated := by
        cases status <;> first | rfl | exact absurd rfl status' | cases closed
      unfold GoodState
      rw [owner, ← generation]
      exact .inr ⟨_, commits role activated⟩

end

end Magellan.Claims
