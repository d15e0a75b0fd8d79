import Magellan.Migration.Departures

/-!
# Departing coroutines

Every coroutine keeps the invariant of departures. A source takes a migration back only when nobody
will commit its activation, and records the hand-over of one that is committed without fail.
-/

namespace Magellan.Departures

open Coroutine Coro Commitment Claims MigrationService Propagation

section

variable {services : Services} {initial : Ownership} {n d : NodeId} {m : MigrationId} {g b : Nat}
  {w v : World} {c : Choice} {r x : MigrationRecord} {A : World → Prop}

/-! ## Operations -/

theorem exec_writes {o : Op} {a : Except Exn o.Ret} (h : exec n o c w = some (a, v)) :
    (v.history = w.history ∨ ∃ x, v.history = (n, x) :: w.history) ∧
      (v.requests = w.requests ∨ ∃ q, o = .sendActivation q ∧ v.requests = q :: w.requests) ∧
      v.answers = w.answers := by
  rcases exec_cases h with ⟨e, -, -, -, rfl⟩ | h
  · exact ⟨.inl rfl, .inl rfl, rfl⟩
  unfold effect at h
  split at h <;> (try simp only [reads, writes, raises, bidResult] at h) <;>
    (try split at h) <;> cases h <;> first
      | exact ⟨.inl rfl, .inl rfl, rfl⟩
      | exact ⟨.inr ⟨_, rfl⟩, .inl rfl, rfl⟩
      | exact ⟨.inl rfl, .inr ⟨_, rfl, rfl⟩, rfl⟩

theorem exec_keeps_departures {o : Op} {a : Except Exn o.Ret} (h : exec n o c w = some (a, v))
    (own : ∀ q, o = .sendActivation q → q.sourceNodeId = n) : Departures.Keeps n w v := by
  obtain ⟨history, requests, answers⟩ := exec_writes h
  obtain ⟨later, others⟩ := Claims.exec_keeps h
  refine ⟨later, others, fun i x ne mem => ?_, ?_, answers⟩
  · rcases history with same | ⟨y, new⟩
    · exact same ▸ mem
    · rw [new] at mem
      rcases List.mem_cons.mp mem with same | before
      · cases same
        exact absurd rfl ne
      · exact before
  · rcases requests with same | ⟨q, sends, new⟩
    · rw [same]
      exact ⟨List.Subset.refl _, fun q sent => .inl sent⟩
    · rw [new]
      refine ⟨List.subset_cons_self _ _, List.forall_mem_cons.mpr ⟨.inr (own q sends), fun q sent => .inl sent⟩⟩

theorem Keeps.rely {i : NodeId} (keeps : Departures.Keeps n w v) (ne : i ≠ n) : Departures.Rely i w v where
  later := keeps.later
  own r mem := keeps.history i r ne mem
  journal := by rw [keeps.others i ne]
  requests := ⟨keeps.requests.1, fun q sent from_ => (keeps.requests.2 q sent).resolve_right fun here =>
    ne (from_.symm.trans here)⟩
  answers := keeps.answers ▸ List.Subset.refl _
  generation := by rw [keeps.others i ne]

/-! ## Rules -/

def obligation (initial : Ownership) (n : NodeId) : Contract Op Choice World where
  allowed := (oneAtATime initial).op n
  rely := Departures.Rely n
  inv := Departures.Invariant
  guar := Departures.Keeps n

/-- What a coroutine owes when it knows where claims are. -/
def duty (initial : Ownership) (n : NodeId) : Contract Op Choice World :=
  (obligation initial n).given (exec n) (Claims.Invariant initial)

abbrev Respects {α : Type} (initial : Ownership) (n : NodeId) (A : World → Prop) (p : Async α)
    (B : α → World → Prop) (E : Exn → World → Prop) : Prop :=
  Triple (exec n) (duty initial n) A p B E

/-- Steps that leave the journal of `n` do not falsify `A`. -/
def Lasts (n : NodeId) (A : World → Prop) : Prop := ∀ ⦃w v⦄, Around n w v → A w → A v

theorem Lasts.stable (lasts : Lasts n A) : (duty initial n).Stable A :=
  fun _ _ step a => lasts (Rely.toAround step) a

theorem Lasts.and {B : World → Prop} (first : Lasts n A) (second : Lasts n B) : Lasts n fun w => A w ∧ B w :=
  fun _ _ step a => ⟨first step a.1, second step a.2⟩

theorem Lasts.imp {B : World → Prop} (P : Prop) (lasts : Lasts n B) : Lasts n fun w => P → B w :=
  fun _ _ step b p => lasts step (b p)

theorem lasts_const (P : Prop) : Lasts n fun _ => P := fun _ _ _ a => a

theorem lasts_journal (J : Journal → Prop) : Lasts n fun w => J (w.nodes n).journal := by
  intro w v step known
  rw [step.journal]
  exact known

theorem lasts_known {F : History → Prop} (lasting : Lasting F) : Lasts n (Known F) :=
  fun _ _ step known => lasting step.later known

theorem stable_generation : (duty initial n).Stable fun w => g ≤ (w.nodes n).registry.generation :=
  fun _ _ step known => known.trans (Rely.generation step)

/-- One operation that sends no request for another node. -/
theorem perform_respects {o : Op} {B : o.Ret → World → Prop} {E : Exn → World → Prop}
    (stable : (duty initial n).Stable A) (stableB : ∀ a, (duty initial n).Stable (B a))
    (stableE : ∀ e, (duty initial n).Stable (E e)) (own : ∀ q, o = .sendActivation q → q.sourceNodeId = n)
    (step : ∀ {w c a v}, A w → Claims.Invariant initial w → Departures.Invariant w →
      (oneAtATime initial).op n o c w → exec n o c w = some (a, v) → Claims.Invariant initial v →
        Departures.Invariant v ∧ endsWith B E a v) :
    Respects initial n A (await o) B E := by
  refine .op stable stableB stableE fun w c a v known inv allowed done => ?_
  obtain ⟨allowed, claims, after⟩ := allowed
  obtain ⟨inv', ends⟩ := step known claims inv allowed done (after a v done)
  exact ⟨inv', exec_keeps_departures done own, ends⟩

theorem around_of_calm (calm : Calm w v) : Departures.Rely n w v := by
  obtain ⟨requests, -, answers, -⟩ := (Mail.mk.injEq ..).mp calm.mail
  refine ⟨⟨calm.later, fun r mem => calm.history ▸ mem, calm.journals n, ⟨fun q sent => requests ▸ sent,
    fun q sent _ => requests ▸ sent⟩, fun a sent => answers ▸ sent⟩, ?_⟩
  rw [((Ownership.mk.injEq ..).mp (calm.ownerships n)).1]

theorem upkeep_respects {α : Type} {p : Async α} (stable : (duty initial n).Stable A)
    (performs : p.Performs (isUpkeepOp ·)) : Respects initial n A p (fun _ => A) fun _ => A := by
  refine .of_performs stable performs fun o ok w c a v known inv allowed done => ?_
  have calm := exec_calm ok done
  have after : A v := stable (around_of_calm calm) known
  refine ⟨(still_of_calm calm).invariant allowed.2.1 inv, exec_keeps_departures done ?_, ?_⟩
  · rintro q rfl
    cases ok
  · cases a <;> exact after

/-- An operation that fails only by itself does not fail at a source whose task has arrived. -/
theorem surely_respects {o : Op} {B : o.Ret → World → Prop} {E : Exn → World → Prop}
    (h : Respects initial n A (await o) B E) (stable : (duty initial n).Stable A)
    (arrived : ∀ {w}, A w → Arrived n w) (local_ : o.isAwait = false)
    (alone : ∀ {w c e v}, exec n o c w = some (.error e, v) → c.isFail = true) :
    Respects initial n A (await o) B fun _ _ => False := by
  intro w a v steps inv c r v' allowed step
  obtain ⟨inv', keeps, rest⟩ := h a v steps inv c r v' allowed step
  cases r with
  | ok x => exact ⟨inv', keeps, rest⟩
  | error e =>
      have fails := allowed.1.2.1 (alone step)
      rw [local_] at fails
      exact absurd (arrived (stable.star steps a)) (fails.resolve_left Bool.false_ne_true)

/-- A new status of the record of `m`. -/
theorem move_respects {status : MigrationStatus} {pid : Option Pid} {error : Option String}
    {B : World → Prop} (stable : (duty initial n).Stable A) (stableB : (duty initial n).Stable B)
    (known : ∀ {w}, A w → ∃ x, (w.nodes n).journal.get m = some x)
    (moves : ∀ {w x}, A w → Claims.Invariant initial w → Departures.Invariant w →
      (w.nodes n).journal.get m = some x →
        (x.role = .destination → x.status.isTerminal = true → status = x.status) → Moves n x status w)
    (after : ∀ {w x}, A w → Claims.Invariant initial w → (w.nodes n).journal.get m = some x →
      B (w.putRecord n { x with status, pid, error })) :
    Respects initial n A (await (.setRecordStatus m status pid error)) (fun _ => B) fun _ => A := by
  refine perform_respects stable (fun _ => stableB) (fun _ => stable) (fun q same => nomatch same)
    fun {w c a v} holds claims inv allowed step _ => ?_
  rcases exec_recordStatus step with ⟨⟨e, -, rfl⟩, rfl⟩ | ⟨rfl, ⟨missing, rfl⟩ | ⟨x, found, rfl⟩⟩
  · exact ⟨inv, holds⟩
  · obtain ⟨x, found⟩ := known holds
    cases missing.symm.trans found
  · exact ⟨invariant_move claims inv found (moves holds claims inv found (allowed.2.2 x found)),
      after holds claims found⟩

theorem around_putState {op : RegistryOp} {state : TaskRuntimeState} : Around n w (w.putState n op state) := by
  have history : (w.putState n op state).history = w.history := history_logged _
  refine ⟨history ▸ List.suffix_refl _, fun r mem => history ▸ mem, by rw [World.putState_self],
    ⟨List.Subset.refl _, fun q sent _ => sent⟩, List.Subset.refl _⟩

theorem invariant_state {op : RegistryOp} {state : TaskRuntimeState} (claims : Claims.Invariant initial w)
    (inv : Departures.Invariant w) (bound : Bound n state.generation w) :
    Departures.Invariant (w.putState n op state) := by
  have others {i : NodeId} (ne : i ≠ n) : (w.putState n op state).nodes i = w.nodes i := if_neg ne
  refine Still.invariant (w := w) ⟨history_logged _, fun i => ?_, fun {i r} mem => .inl ?_, fun i low => ?_,
    fun q sent => .inl sent, List.Subset.refl _, fun a sent => .inl sent, fun unknown => .inl unknown,
    List.Subset.refl _⟩ claims inv
  all_goals by_cases here : i = n
  · rw [here, World.putState_self]
  · rw [others here]
  · subst here
    rwa [World.putState_self] at mem
  · rwa [others here] at mem
  · subst here
    rwa [World.putState_self]
  · rwa [others here]

/-- A registry operation that goes back to no generation below those that have been handed over. -/
theorem registry_respects {op : RegistryOp} {B : World → Prop} (lasts : Lasts n A)
    (stableB : (duty initial n).Stable B)
    (bound : ∀ {w now state}, A w → Claims.Invariant initial w → Departures.Invariant w →
      op.apply n now (w.nodes n).registry = .ok state → Bound n state.generation w)
    (after : ∀ {w now state}, A w → op.apply n now (w.nodes n).registry = .ok state →
      B (w.putState n op state)) :
    Respects initial n A (await (.registry op)) (fun _ => B) fun _ => A := by
  refine perform_respects lasts.stable (fun _ => stableB) (fun _ => lasts.stable)
    (fun q same => nomatch same) fun {w c a v} holds claims inv _ step _ => ?_
  rcases exec_registry step with ⟨⟨e, -, rfl⟩, rfl⟩ | ⟨now, -, applied, ⟨e, rfl, rfl⟩ | ⟨state, rfl, rfl⟩⟩
  · exact ⟨inv, holds⟩
  · exact ⟨inv, holds⟩
  · exact ⟨invariant_state claims inv (bound holds claims inv applied), after holds applied⟩

theorem Bound.mono {b' : Nat} (le : b ≤ b') (bound : Bound n b w) : Bound n b' w :=
  fun i r found role status => (bound i r found role status).trans le

/-! ## The source -/

/-- `n` has an open migration `m` to `d`, with generation `g`. -/
def Underway (n d : NodeId) (m : MigrationId) (g : Nat) (w : World) : Prop :=
  ∃ x, (w.nodes n).journal.get m = some x ∧ x.role = .source ∧ x.status.isTerminal = false ∧
    x.destinationNodeId = d ∧ x.generation = g

/-- `n` has said that it goes on with the migration `m`. -/
def Ready (n d : NodeId) (m : MigrationId) (g : Nat) (w : World) : Prop :=
  ∃ x, (w.nodes n).journal.get m = some x ∧ x.role = .source ∧ x.status.isTerminal = false ∧
    x.destinationNodeId = d ∧ x.generation = g ∧ x.status ≠ .preparing

/-- `n` has not asked for the activation of `m`. -/
def Unasked (n : NodeId) (m : MigrationId) (w : World) : Prop :=
  ∀ q ∈ w.requests, q.sourceNodeId = n → q.migrationId ≠ m

/-- The activation of `m` at `d` will not be committed, as far as `n` is concerned. -/
def Recallable (n d : NodeId) (m : MigrationId) (w : World) : Prop :=
  RolledBack d m w.history ∨ (d, m, none) ∈ w.answers ∨ Unasked n m w

theorem lasts_underway : Lasts n (Underway n d m g) :=
  lasts_journal fun j => ∃ x, j.get m = some x ∧ x.role = .source ∧ x.status.isTerminal = false ∧
    x.destinationNodeId = d ∧ x.generation = g

theorem lasts_ready : Lasts n (Ready n d m g) :=
  lasts_journal fun j => ∃ x, j.get m = some x ∧ x.role = .source ∧ x.status.isTerminal = false ∧
    x.destinationNodeId = d ∧ x.generation = g ∧ x.status ≠ .preparing

theorem Ready.underway (ready : Ready n d m g w) : Underway n d m g w := by
  obtain ⟨x, found, role, open_, destination, generation, -⟩ := ready
  exact ⟨x, found, role, open_, destination, generation⟩

theorem lasts_unasked : Lasts n (Unasked n m) :=
  fun _ _ step unasked q sent from_ => unasked q (step.requests.2 q sent from_) from_

theorem lasts_recallable : Lasts n (Recallable n d m) := fun _ _ step known =>
  known.imp (.mono step.later) (.imp (fun unknown => step.answers unknown) (lasts_unasked step))

theorem lasts_committed : Lasts n (Known (Committed d m g)) := lasts_known lasting_committed

theorem Recallable.harmless (claims : Claims.Invariant initial w) (inv : Departures.Invariant w)
    (underway : Underway n d m g w) (known : Recallable n d m w) : Harmless d m w := by
  refine known.imp id (.imp id fun unasked q sent same => ?_)
  obtain ⟨x, found, role, -⟩ := underway
  obtain ⟨y, found', role', -⟩ := inv.senders q sent
  obtain ⟨mem, id⟩ := claims.recorded found
  obtain ⟨mem', id'⟩ := claims.recorded found'
  exact unasked q sent (inv.origin mem' mem role' role (id'.trans (same.trans id.symm))) same

theorem Underway.bound (inv : Departures.Invariant w) (underway : Underway n d m g w) : Bound n (g - 1) w := by
  obtain ⟨x, found, role, open_, -, rfl⟩ := underway
  refine inv.floors found open_ ?_
  unfold floor
  rw [role]

theorem Underway.found (underway : Underway n d m g w) : ∃ x, (w.nodes n).journal.get m = some x :=
  underway.imp fun _ known => known.1

theorem Underway.begun (claims : Claims.Invariant initial w) (underway : Underway n d m g w) :
    Begun m d g w.history := by
  obtain ⟨x, found, role, -, rfl, rfl⟩ := underway
  obtain ⟨mem, rfl⟩ := claims.recorded found
  exact ⟨_, mem, role, rfl, rfl, rfl⟩

theorem Underway.arrived (underway : Underway n d m g w) (committed : Known (Committed d m g) w) :
    Arrived n w := by
  obtain ⟨x, found, role, open_, rfl, rfl⟩ := underway
  exact ⟨m, x, found, role, open_, committed⟩

section

variable {status : MigrationStatus} {pid : Option Pid} {error : Option String}

/-- The migration goes on. -/
theorem goesOn {B : World → Prop} (lasts : Lasts n A) (underway : ∀ {w}, A w → Underway n d m g w)
    (open_ : status.isTerminal = false) (started : status ≠ .preparing) (lastsB : Lasts n B)
    (weaker : ∀ {w}, A w → B w)
    (keeps : ∀ {w r}, B w → B (w.putRecord n r)) :
    Respects initial n A (await (.setRecordStatus m status pid error))
      (fun _ w => Ready n d m g w ∧ B w) fun _ => A := by
  refine move_respects lasts.stable (lasts_ready.and lastsB).stable (fun holds => (underway holds).found)
    (fun {w x} holds _ _ found _ => ?_) fun {w x} holds claims found => ?_
  · obtain ⟨y, found', role, opened, -⟩ := underway holds
    cases found.symm.trans found'
    refine ⟨started, fun _ => opened, fun role' => ?_, fun _ back => ?_, fun _ activated => ?_⟩
    · cases role.symm.trans role'
    · rw [back] at open_
      cases open_
    · rw [activated] at open_
      cases open_
  · obtain ⟨y, found', role, -, destination, generation⟩ := underway holds
    cases found.symm.trans found'
    refine ⟨⟨{ x with status, pid, error }, ?_, role, open_, destination, generation, started⟩, keeps (weaker holds)⟩
    obtain ⟨-, rfl⟩ := claims.recorded found
    rw [World.putRecord_self]
    exact Journal.get_put_self ..

/-- The migration is taken back. -/
theorem takesBack (lasts : Lasts n A) (underway : ∀ {w}, A w → Underway n d m g w)
    (recallable : ∀ {w}, A w → Recallable n d m w) :
    Respects initial n A (await (.setRecordStatus m .rolledBack pid error)) (fun _ _ => True) fun _ => A := by
  refine move_respects lasts.stable .top (fun holds => (underway holds).found)
    (fun {w x} holds claims inv found _ => ?_) fun _ _ _ => trivial
  have harmless := (recallable holds).harmless claims inv (underway holds)
  obtain ⟨y, found', role, opened, rfl, -⟩ := underway holds
  cases found.symm.trans found'
  obtain ⟨-, rfl⟩ := claims.recorded found
  refine ⟨MigrationStatus.noConfusion, fun _ => opened, fun role' => ?_, fun _ _ => harmless,
    fun _ activated => ?_⟩
  · cases role.symm.trans role'
  · cases activated

/-- The hand-over is recorded. -/
theorem handsOver (stable : (duty initial n).Stable A) (underway : ∀ {w}, A w → Underway n d m g w)
    (reached : ∀ {w}, A w → g ≤ (w.nodes n).registry.generation) :
    Respects initial n A (await (.setRecordStatus m .activated pid error)) (fun _ _ => True) fun _ => A := by
  refine move_respects stable .top (fun holds => (underway holds).found)
    (fun {w x} holds claims inv found _ => ?_) fun _ _ _ => trivial
  have ahead := reached holds
  obtain ⟨y, found', role, opened, -, rfl⟩ := underway holds
  cases found.symm.trans found'
  refine ⟨MigrationStatus.noConfusion, fun _ => opened, fun role' => ?_, fun _ back => ?_, fun _ _ => ahead⟩
  · cases role.symm.trans role'
  · cases back

end

/-- A source takes the task back with the generation that it had. -/
theorem restores {op : RegistryOp} (lasts : Lasts n A) (underway : ∀ {w}, A w → Underway n d m g w)
    (writes : ∀ {w now state}, A w → op.apply n now (w.nodes n).registry = .ok state →
      state.generation = g - 1) :
    Respects initial n A (await (.registry op)) (fun _ => A) fun _ => A :=
  registry_respects lasts lasts.stable (fun holds _ inv applied => writes holds applied ▸
    (underway holds).bound inv) fun holds _ => lasts around_putState holds

/-! ## After the commit -/

/-- The operations that raise only by the choice of the environment. -/
def raisesAlone : Op → Bool
  | .getState | .getPolicy | .external _ | .broadcast _ | .setRecordStatus .. | .registry (.markRemote ..) => true
  | _ => false

theorem isFail_of_raised {o : Op} {e : Exn} (alone : raisesAlone o = true)
    (h : exec n o c w = some (.error e, v)) : c.isFail = true := by
  rcases exec_fails_or h with ⟨⟨e, rfl, -⟩, -⟩ | done
  · rfl
  cases o with
  | registry op => cases op <;> first | (cases alone; done) | cases c <;> cases done
  | setRecordStatus =>
      rcases exec_recordStatus h with ⟨⟨e, rfl, -⟩, -⟩ | ⟨same, -⟩
      · rfl
      · cases same
  | _ => first | (cases alone; done) | cases c <;> cases done

/-- What a source knows whose activation is committed. -/
def Handed (n d : NodeId) (m : MigrationId) (g : Nat) (w : World) : Prop :=
  Underway n d m g w ∧ Known (Committed d m g) w

theorem lasts_handed : Lasts n (Handed n d m g) := lasts_underway.and lasts_committed

theorem Handed.arrived (handed : Handed n d m g w) : Arrived n w := handed.1.arrived handed.2

/-- No operation of a source fails when its activation is committed. -/
theorem surely {o : Op} {B : o.Ret → World → Prop} (h : Respects initial n A (await o) B fun _ => A)
    (stable : (duty initial n).Stable A) (handed : ∀ {w}, A w → Handed n d m g w)
    (alone : raisesAlone o = true) : Respects initial n A (await o) B fun _ _ => False := by
  refine surely_respects h stable (fun holds => (handed holds).arrived) ?_ (isFail_of_raised alone)
  cases o <;> first | rfl | cases alone

theorem surely_upkeep {o : Op} (stable : (duty initial n).Stable A)
    (handed : ∀ {w}, A w → Handed n d m g w) (alone : raisesAlone o = true) (upkeep : isUpkeepOp o = true) :
    Respects initial n A (await o) (fun _ => A) fun _ _ => False :=
  surely (upkeep_respects stable (.op upkeep)) stable handed alone

theorem around_of_mail (nodes : v.nodes = w.nodes) (log : v.log = w.log) (requests : v.requests = w.requests)
    (answers : v.answers = w.answers) : Departures.Rely n w v := by
  have history : v.history = w.history := by
    unfold World.history
    rw [log]
  refine ⟨⟨history ▸ List.suffix_refl _, fun r mem => history ▸ mem, by rw [nodes], ?_, ?_⟩, by rw [nodes]⟩
  · rw [requests]
    exact ⟨List.Subset.refl _, fun q sent _ => sent⟩
  · rw [answers]
    exact List.Subset.refl _

theorem still_of_mail (nodes : v.nodes = w.nodes) (log : v.log = w.log) (requests : w.requests ⊆ v.requests)
    (senders : ∀ q ∈ v.requests, q ∈ w.requests ∨
      ∃ r, (w.nodes q.sourceNodeId).journal.get q.migrationId = some r ∧ r.role = .source ∧
        r.status.isTerminal = false ∧ r.status ≠ .preparing)
    (responses : ∀ a ∈ v.responses, a ∈ w.responses ∨
      (a.activated = false → RolledBack a.destinationNodeId a.migrationId w.history))
    (answers : v.answers = w.answers) : Still w v := by
  refine ⟨?_, fun i => by rw [nodes], fun mem => .inl (nodes ▸ mem), fun i bound => nodes ▸ bound, senders,
    requests, responses, fun unknown => .inl (answers ▸ unknown), fun a sent => answers ▸ sent⟩
  unfold World.history
  rw [log]

theorem broadcast_respects {u : Registry.OwnershipUpdate} (stable : (duty initial n).Stable A) :
    Respects initial n A (await (.broadcast u)) (fun _ => A) fun _ => A := by
  refine perform_respects stable (fun _ => stable) (fun _ => stable) (fun q same => nomatch same)
    fun {w c a v} holds claims inv _ step _ => ?_
  rcases exec_fails_or step with ⟨⟨e, -, rfl⟩, rfl⟩ | step
  · exact ⟨inv, holds⟩
  · cases c <;> cases step
    have still : Still w { w with updates := u :: w.updates } := still_of_mail rfl rfl
      (List.Subset.refl _) (fun q sent => .inl sent) (fun a sent => .inl sent) rfl
    refine ⟨still.invariant claims inv, ?_⟩
    exact stable (around_of_mail (w := w) rfl rfl rfl rfl) holds

theorem finalizeSourceSuccess_respects {at_ : Timestamp} {bindings : List ArtifactBinding} :
    Respects initial n (Handed n d m g) (finalizeSourceSuccess services d m g at_ bindings) (fun _ _ => True)
      fun _ _ => False := by
  have written {now : Timestamp} {s state : TaskRuntimeState}
      (applied : RegistryOp.apply n now (.markRemote d g m at_) s = .ok state) : state.generation = g := by
    cases applied
    unfold Registry.markRemote
    split
    · rename_i same
      exact same.1
    · rfl
  have stable : (duty initial n).Stable fun w => Handed n d m g w ∧ g ≤ (w.nodes n).registry.generation :=
    lasts_handed.stable.and stable_generation
  have quiet {o : Op} (alone : raisesAlone o = true) (upkeep : isUpkeepOp o = true) :=
    surely_upkeep stable And.left alone upkeep
  refine .bind (B := fun _ w => Handed n d m g w ∧ g ≤ (w.nodes n).registry.generation) ?_ fun _ => ?_
  · refine surely (registry_respects lasts_handed stable (fun handed _ inv applied => ?_)
      fun handed applied => ⟨lasts_handed around_putState handed, ?_⟩) lasts_handed.stable id rfl
    · rw [written applied]
      exact (handed.1.bound inv).mono (Nat.sub_le ..)
    · rw [World.putState_self]
      exact (written applied).ge
  refine .bind (quiet rfl rfl) fun _ => .bind (.ite (fun _ => quiet rfl rfl) fun _ => .pure stable
    fun _ known => known) fun _ => ?_
  refine .bind (surely (broadcast_respects stable) stable And.left rfl) fun _ => ?_
  exact surely (handsOver stable (·.1.1) And.right) stable And.left rfl

/-- An end of `migrate` after the commit. -/
theorem commit_respects {call : MigrateCall} {original : TaskRuntimeState} {bindings : List ArtifactBinding} :
    Respects initial n (Handed n call.destinationNodeId call.migrationId (original.generation + 1))
      (commit services call original bindings) (fun _ _ => True) fun _ _ => False := by
  have stable : (duty initial n).Stable (Handed n call.destinationNodeId call.migrationId
      (original.generation + 1)) := lasts_handed.stable
  have note {x : External} := surely_upkeep (o := .external x) stable id rfl rfl
  refine .bind (.ite (fun _ => note) fun _ => .pure stable fun _ known => known) fun _ =>
    .bind (.ite (fun _ => note) fun _ => .pure stable fun _ known => known) fun _ => ?_
  exact .bind finalizeSourceSuccess_respects fun _ => .pure .top fun _ _ => trivial

/-! ## Taking back -/

/-- What a source knows that may take its migration back. -/
def Recalled (n d : NodeId) (m : MigrationId) (g : Nat) (w : World) : Prop :=
  Underway n d m g w ∧ Recallable n d m w

theorem lasts_recalled : Lasts n (Recalled n d m g) := lasts_underway.and lasts_recallable

/-- Whatever a coroutine raises. -/
theorem raisingAny {α : Type} {p : Async α} {B : α → World → Prop} {E : Exn → World → Prop}
    (h : Respects initial n A p B E) : Respects initial n A p B fun _ _ => True :=
  h.weaken (fun _ a => a) (fun _ _ b => b) fun _ _ _ => trivial

theorem quietly {α : Type} {p : Async α} (lasts : Lasts n A) (performs : p.Performs (isUpkeepOp ·)) :
    Respects initial n A p (fun _ => A) fun _ => A := upkeep_respects lasts.stable performs

/-- The clean-up, of which nothing is known or needed. -/
theorem tidy {α : Type} {p : Async α} (performs : p.Performs (isUpkeepOp ·)) :
    Respects initial n A p (fun _ _ => True) fun _ _ => True :=
  (upkeep_respects .top performs).pre fun _ _ => trivial

theorem rollbackSourceRecord_respects {record : MigrationRecord} {reason : String} :
    Respects initial n (Recalled n d record.migrationId record.generation)
      (rollbackSourceRecord n record reason) (fun _ _ => True) fun _ _ => True := by
  refine .bind (raisingAny (restores lasts_recalled And.left fun _ applied => ?_)) fun _ => ?_
  · simp only [RegistryOp.apply] at applied
    split at applied <;> cases applied <;> rfl
  · exact .bind (raisingAny (quietly lasts_recalled (.op rfl))) fun _ =>
      .bind (raisingAny (quietly lasts_recalled (.ite (restart_upkeep n) (.pure _)))) fun _ =>
        raisingAny (takesBack lasts_recalled And.left And.right)

theorem rollbackMigration_respects :
    Respects initial n (Recalled n d m g) (rollbackMigration n m) (fun _ _ => True) fun _ _ => True := by
  have lasts {found : Option MigrationRecord} : Lasts n fun w =>
      Recalled n d m g w ∧ (w.nodes n).journal.get m = found :=
    lasts_recalled.and (lasts_journal fun j => j.get m = found)
  refine .bind (B := fun found w => Recalled n d m g w ∧ (w.nodes n).journal.get m = found) ?_
    fun found => ?_
  · refine perform_respects lasts_recalled.stable (fun _ => lasts.stable) (fun _ => .top)
      (fun q same => nomatch same) fun known claims inv _ step _ => ?_
    rcases exec_journalGet step with ⟨⟨e, -, rfl⟩, rfl⟩ | ⟨rfl, rfl⟩
    · exact ⟨inv, trivial⟩
    · exact ⟨inv, known, rfl⟩
  · cases found with
    | none => exact .pure .top fun _ _ => trivial
    | some record =>
        intro w ⟨recalled, found⟩
        have id : record.migrationId = m := Journal.get_migrationId found
        obtain ⟨x, found', -, -, -, generation⟩ := recalled.1
        cases found.symm.trans found'
        subst id generation
        exact rollbackSourceRecord_respects recalled

theorem withCleanup_respects {call : MigrateCall} {activated : Bool} {p : Async Bool}
    (h : Respects initial n A p (fun _ _ => True) fun _ _ => True) :
    Respects initial n A (withCleanup call activated p) (fun _ _ => True) fun _ _ => True := by
  have cancel {A : World → Prop} : Respects initial n A (onlyIf (¬ activated) (cancelRemoteReservation
      call.bidId call.destinationNodeId s!"Source migration {call.migrationId} did not complete"))
      (fun _ _ => True) fun _ _ => True := tidy (.ite (.tryExcept (.op rfl) fun _ => .pure _) (.pure _))
  exact .tryFinally h (fun _ => cancel) fun _ => cancel

/-! ## Outcome of an activation -/

/-- What the polls about an activation have found out. -/
structure Heard (d : NodeId) (m : MigrationId) (g : Nat) (outcome : Option MigrationRecord × Bool)
    (w : World) : Prop where
  record : ∀ r, outcome.1 = some r → (d, m, some r) ∈ w.answers ∧
    (r.status = .activated → Committed d m g w.history) ∧ (r.status = .rolledBack → RolledBack d m w.history)
  missing : outcome.1 = none → outcome.2 = true → (d, m, none) ∈ w.answers

theorem lasts_heard {outcome : Option MigrationRecord × Bool} : Lasts n (Heard d m g outcome) := by
  refine fun w v step heard => ⟨fun r is => ?_, fun unknown reached => step.answers (heard.missing unknown reached)⟩
  obtain ⟨sent, activated, back⟩ := heard.record r is
  exact ⟨step.answers sent, fun status => (activated status).mono step.later, fun status =>
    (back status).mono step.later⟩

theorem lasts_hearing {outcome : Option MigrationRecord × Bool} :
    Lasts n fun w => Underway n d m g w ∧ Heard d m g outcome w := lasts_underway.and lasts_heard

theorem heard_answer {found : Option MigrationRecord} {reached : Bool} (claims : Claims.Invariant initial w)
    (underway : Underway n d m g w) (sent : (d, m, found) ∈ w.answers) : Heard d m g (found, reached) w := by
  refine ⟨fun r is => ?_, fun unknown _ => ?_⟩
  · dsimp only at is
    subst is
    obtain ⟨mem, rfl⟩ := claims.mail.answers sent
    have begun := underway.begun claims
    have role := claims.sound.isDestination mem begun
    obtain ⟨-, rfl⟩ := claims.sound.agree mem begun
    exact ⟨sent, (claims.sound.entries mem).activated role, fun status => ⟨_, mem, rfl, role, rfl, status⟩⟩
  · dsimp only at unknown
    exact unknown ▸ sent

theorem Heard.committed {outcome : Option MigrationRecord × Bool} (heard : Heard d m g outcome w)
    (confirms : confirmsActivation outcome = true) : Committed d m g w.history := by
  obtain ⟨r, found, status⟩ := Option.any_eq_true _ _ |>.mp confirms
  exact (heard.record r found).2.1 (of_decide_eq_true status)

theorem Heard.recallable {outcome : Option MigrationRecord × Bool} (heard : Heard d m g outcome w)
    (confirms : confirmsNoActivation outcome = true) : Recallable n d m w := by
  rcases Bool.or_eq_true_iff.mp confirms with back | unknown
  · obtain ⟨r, found, status⟩ := Option.any_eq_true _ _ |>.mp back
    exact .inl ((heard.record r found).2.2 (of_decide_eq_true status))
  · obtain ⟨reached, none⟩ := Bool.and_eq_true_iff.mp unknown
    exact .inr (.inl (heard.missing (Option.isNone_iff_eq_none.mp none) reached))

/-- A status query, after the last poll has found an open record or nothing. -/
theorem status_respects {lastRecord : Option MigrationRecord} {reached : Bool}
    (open_ : ∀ r, lastRecord = some r → r.status.isTerminal = false) :
    Respects initial n (fun w => Underway n d m g w ∧ Heard d m g (lastRecord, reached) w)
      (MigrationClient.status d m) (fun found w => Underway n d m g w ∧ Heard d m g (found, true) w)
      fun _ w => Underway n d m g w ∧ Heard d m g (none, reached) w := by
  refine .bind (B := fun _ w => Underway n d m g w ∧ Heard d m g (lastRecord, reached) w) ?_ fun _ => ?_
  · refine perform_respects lasts_hearing.stable (fun _ => lasts_hearing.stable) (fun _ => lasts_hearing.stable)
      (fun q same => nomatch same) fun known claims inv _ step _ => ?_
    have calm := exec_calm (o := .sendStatusQuery d m) rfl step
    obtain ⟨now, -, rfl, -⟩ := MigrationClient.exec_sendStatusQuery step
    exact ⟨(still_of_calm calm).invariant claims inv, lasts_hearing (around_of_calm (n := n) calm).toAround known⟩
  · refine perform_respects lasts_hearing.stable (fun _ => lasts_hearing.stable) (fun _ => lasts_hearing.stable)
      (fun q same => nomatch same) fun {w c a v} known claims inv allowed step _ => ?_
    obtain ⟨rfl, ⟨e, rfl, -, rfl⟩ | ⟨a, -, sent, rfl⟩⟩ := MigrationClient.exec_awaitStatus step
    · refine ⟨inv, known.1, fun r is => ?_, fun _ again => ?_⟩
      · cases is
      · cases last : lastRecord with
        | none => exact known.2.missing last again
        | some r =>
            have terminal := allowed.2.2 rfl r (known.2.record r last).1
            rw [open_ r last] at terminal
            cases terminal
    · exact ⟨inv, known.1, heard_answer claims known.1 sent⟩

theorem pollOutcome_respects {polls : Nat} {lastRecord : Option MigrationRecord} {reached : Bool}
    (open_ : ∀ r, lastRecord = some r → r.status.isTerminal = false) :
    Respects initial n (fun w => Underway n d m g w ∧ Heard d m g (lastRecord, reached) w)
      (pollOutcome d m polls lastRecord reached)
      (fun outcome w => Underway n d m g w ∧ Heard d m g outcome w) fun _ _ => True := by
  induction polls generalizing lastRecord reached with
  | zero => exact .pure lasts_hearing.stable fun _ known => known
  | succ polls ih =>
      refine .attempt (status_respects open_) (fun record => .ite (fun _ => ?_) fun more => ?_)
        fun e => .ite (fun _ => ?_) fun _ => .raise .top fun _ _ => trivial
      · exact .pure lasts_hearing.stable fun _ known => known
      · refine ih fun r is => ?_
        subst is
        exact eq_false_of_ne_true more
      · exact ih fun r is => by cases is

theorem queryRemoteOutcome_respects :
    Respects initial n (Underway n d m g) (queryRemoteOutcome d m)
      (fun outcome w => Underway n d m g w ∧ Heard d m g outcome w) fun _ _ => True := by
  refine .bind (raisingAny (quietly lasts_underway (.op rfl))) fun polls => ?_
  refine (pollOutcome_respects fun r is => by cases is).pre fun w underway => ⟨underway, ?_⟩
  exact ⟨fun r is => (by cases is), fun _ reached => by cases reached⟩

/-! ## Ends of a migration -/

section

variable {call : MigrateCall} {original : TaskRuntimeState} {bindings : List ArtifactBinding} {e : Exn}

/-- The migration of a call is on the way. -/
abbrev OnTheWay (n : NodeId) (call : MigrateCall) (original : TaskRuntimeState) : World → Prop :=
  Underway n call.destinationNodeId call.migrationId (original.generation + 1)

theorem resolveOutcome_respects {outcome : Option MigrationRecord × Bool} :
    Respects initial n (fun w => OnTheWay n call original w ∧
        Heard call.destinationNodeId call.migrationId (original.generation + 1) outcome w)
      (resolveOutcome services n call original bindings e outcome) (fun _ _ => True) fun _ _ => True := by
  refine .ite (fun confirmed => ?_) fun _ => .ite (fun confirmed => ?_) fun _ => ?_
  · refine withCleanup_respects (.bind (raisingAny (finalizeSourceSuccess_respects.pre fun w known =>
      ⟨known.1, known.2.committed confirmed⟩)) fun _ => .pure .top fun _ _ => trivial)
  · refine withCleanup_respects (.bind (rollbackMigration_respects.pre fun w known =>
      ⟨known.1, known.2.recallable confirmed⟩) fun _ => .pure .top fun _ _ => trivial)
  · exact withCleanup_respects (.bind (tidy (.op rfl)) fun _ => .pure .top fun _ _ => trivial) |>.pre
      fun _ _ => trivial

theorem outcomeUnknown_respects :
    Respects initial n (OnTheWay n call original) (outcomeUnknown services n call original bindings e)
      (fun _ _ => True) fun _ _ => True := by
  refine .attempt (.bind (raisingAny (goesOn lasts_underway id rfl MigrationStatus.noConfusion (lasts_const True)
    (fun _ => trivial) fun _ => trivial)) fun _ => queryRemoteOutcome_respects.pre fun _ known =>
      known.1.underway) (fun outcome => resolveOutcome_respects) fun e => ?_
  exact withCleanup_respects (.raise .top fun _ a => a)

theorem migrationFailed_respects {sourceWasStopped : Bool} :
    Respects initial n (Recalled n call.destinationNodeId call.migrationId (original.generation + 1))
      (migrationFailed services n call original sourceWasStopped e) (fun _ _ => True) fun _ _ => True := by
  refine .bind (raisingAny (quietly lasts_recalled (.ite (.op rfl) (.pure _)))) fun _ =>
    .bind (raisingAny (restores lasts_recalled And.left fun _ applied => ?_)) fun _ => ?_
  · cases applied
    rfl
  · exact .bind (raisingAny (quietly lasts_recalled (.ite (restart_upkeep n) (.pure _)))) fun _ =>
      .bind (raisingAny (takesBack lasts_recalled And.left And.right)) fun _ => .pure .top fun _ _ => trivial

/-- What is known where `migrate` fails: only the activation itself may leave it open what happened. -/
def Failing (n : NodeId) (call : MigrateCall) (original : TaskRuntimeState) (e : Exn) (w : World) : Prop :=
  OnTheWay n call original w ∧
    (e.cls ≠ .activationOutcomeUnknownError → Recallable n call.destinationNodeId call.migrationId w)

theorem onMigrateError_respects {sourceWasStopped activated : Bool} :
    Respects initial n (Failing n call original e)
      (onMigrateError services n call original bindings sourceWasStopped activated e)
      (fun _ _ => True) fun _ _ => True :=
  .ite (fun _ => outcomeUnknown_respects.pre fun _ known => known.1) fun other =>
    withCleanup_respects (migrationFailed_respects.pre fun _ known => ⟨known.1, known.2 other⟩)

/-! ## A migration -/

/-- The activation of a call has not been asked for. -/
def Unsent (n : NodeId) (call : MigrateCall) (original : TaskRuntimeState) (w : World) : Prop :=
  OnTheWay n call original w ∧ Unasked n call.migrationId w

theorem lasts_unsent : Lasts n (Unsent n call original) := lasts_underway.and lasts_unasked

theorem Unsent.failing (unsent : Unsent n call original w) : Failing n call original e w :=
  ⟨unsent.1, fun _ => .inr (.inr unsent.2)⟩

theorem quiesce_respects :
    Respects initial n (Unsent n call original) (quiesce services call)
      (fun prefetched w => prefetched.isSome = true → Unsent n call original w)
      fun _ => Unsent n call original := by
  have lasts {P : Prop} := (@lasts_unsent n call original).imp P
  have quiet {α : Type} {p : Async α} (performs : p.Performs (isUpkeepOp ·)) :
      Respects initial n (Unsent n call original) p (fun _ => Unsent n call original)
        fun _ => Unsent n call original := quietly lasts_unsent performs
  refine .bind (B := fun prefetched w => prefetched.isSome = true → Unsent n call original w) ?_
    fun prefetched => ?_
  · refine .attempt (quiet prefetch_upkeep) (fun bindings => .pure lasts.stable fun _ known _ => known)
      fun e => .bind (takesBack lasts_unsent And.left fun known => .inr (.inr known.2)) fun _ =>
        .pure lasts.stable fun _ _ none => by cases none
  · cases prefetched with
    | none => exact .pure lasts.stable fun _ _ none => by cases none
    | some bindings =>
        refine Triple.pre (A := Unsent n call original) ?_ fun _ known => known rfl
        refine .bind (quiet (.ite (.op rfl) (.pure _))) fun _ => .bind (quiet (.op rfl)) fun _ => ?_
        refine .bind (B := fun _ => Unsent n call original) ?_ fun _ => ?_
        · exact (goesOn lasts_unsent And.left rfl MigrationStatus.noConfusion lasts_unasked And.right
            fun known => known).weaken (fun _ a => a) (fun _ _ b => ⟨b.1.underway, b.2⟩) fun _ _ e => e
        · exact .bind (quiet (LocalProcess.stop_performs.mono fun _ => isUpkeepOp_of_isStopOp)) fun _ =>
            .pure lasts.stable fun _ known _ => known

/-- The request that a call sends. -/
structure Requests (n d : NodeId) (m : MigrationId) (g : Nat) (q : MigrationActivationRequest) : Prop where
  source : q.sourceNodeId = n
  destination : q.destinationNodeId = d
  migration : q.migrationId = m
  generation : q.generation = g

theorem prepareActivation_respects :
    Respects initial n (Unsent n call original) (prepareActivation services n call original bindings)
      (fun request w => Requests n call.destinationNodeId call.migrationId (original.generation + 1) request ∧
        Ready n call.destinationNodeId call.migrationId (original.generation + 1) w)
      fun _ => Unsent n call original := by
  have quiet {α : Type} {p : Async α} (performs : p.Performs (isUpkeepOp ·)) :
      Respects initial n (Unsent n call original) p (fun _ => Unsent n call original)
        fun _ => Unsent n call original := quietly lasts_unsent performs
  refine .bind (quiet (.op rfl)) fun _ => .bind (quiet (.op rfl)) fun _ =>
    .bind (quiet (.ite (.op rfl) (.pure _))) fun _ => .bind (quiet (.ite (.op rfl) (.pure _))) fun _ =>
      .bind (quiet (.op rfl)) fun _ => .bind (quiet (.ite (.op rfl) (.pure _))) fun _ => ?_
  refine .bind (goesOn lasts_unsent And.left rfl MigrationStatus.noConfusion (lasts_const True)
    (fun _ => trivial) fun _ => trivial) fun _ => ?_
  exact .pure ((lasts_const _).and lasts_ready).stable fun _ known => ⟨⟨rfl, rfl, rfl, rfl⟩, known.1⟩

/-- A source asks for an activation that it goes on with. -/
theorem sendActivation_respects {q : MigrationActivationRequest} (requests : Requests n d m g q) :
    Respects initial n (Ready n d m g) (await (.sendActivation q)) (fun _ => Ready n d m g)
      fun _ _ => False := by
  refine perform_respects lasts_ready.stable (fun _ => lasts_ready.stable) (fun _ => (lasts_const False).stable)
    (fun q' same => ?_) fun {w c a v} ready claims inv _ step _ => ?_
  · cases same
    exact requests.source
  rcases exec_cases step with ⟨e, -, may, -⟩ | step
  · cases may
  · cases c <;> cases step
    obtain ⟨x, found, role, open_, -, -, started⟩ := id ready
    have still : Still w { w with requests := q :: w.requests } := by
      refine still_of_mail rfl rfl (List.subset_cons_self _ _) (fun q' sent => ?_) (fun a sent => .inl sent) rfl
      rcases List.mem_cons.mp sent with rfl | before
      · refine .inr ⟨x, ?_, role, open_, started⟩
        rw [requests.source, requests.migration]
        exact found
      · exact .inl before
    exact ⟨still.invariant claims inv, ready⟩

/-- The answer to a request is true. -/
def Answered (n d : NodeId) (m : MigrationId) (g : Nat) (activated : Bool) (w : World) : Prop :=
  Underway n d m g w ∧ (activated = true → Known (Committed d m g) w) ∧
    (activated = false → Known (RolledBack d m) w)

theorem lasts_answered {activated : Bool} : Lasts n (Answered n d m g activated) :=
  lasts_underway.and ((lasts_committed.imp _).and
    ((lasts_known fun _ _ later back => RolledBack.mono later back).imp _))

theorem awaitActivation_respects :
    Respects initial n (Ready n d m g) (await (.awaitActivation m)) (fun a => Answered n d m g a.activated)
      fun e w => (e.cls = .httpError ∨ e.cls = .valueError ∨ e.cls = .activationOutcomeUnknownError) ∧
        Ready n d m g w := by
  refine perform_respects lasts_ready.stable (fun _ => lasts_answered.stable)
    (fun _ => ((lasts_const _).and lasts_ready).stable) (fun q same => nomatch same)
    fun {w c r v} ready claims inv _ step _ => ?_
  have underway := ready.underway
  rcases exec_cases step with ⟨e, rfl, may, rfl, rfl⟩ | -
  · exact ⟨inv, by simpa [Op.mayRaise] using may, ready⟩
  obtain ⟨rfl, ⟨e, rfl, rfl⟩ | ⟨a, -, sent, rfl, rfl⟩⟩ := MigrationClient.exec_awaitActivation step
  · exact ⟨inv, by simpa [Op.mayRaise] using (exec_fail step).2.2, ready⟩
  · have begun := underway.begun claims
    refine ⟨inv, underway, fun activated => ?_, fun refused => ?_⟩
    · have committed := claims.mail.responses a sent activated
      obtain ⟨rfl, rfl⟩ := claims.sound.unique begun (claims.sound.begun_of_committed committed)
      exact committed
    · have back := inv.refused a sent refused
      obtain ⟨⟨_, x⟩, mem, here, role, same, -⟩ := id back
      have begun' := (claims.sound.entries mem).begun role
      rw [same] at begun'
      obtain ⟨same, -⟩ := claims.sound.unique begun begun'
      rw [← here, ← same] at back
      exact back

theorem activate_respects {q : MigrationActivationRequest} (requests : Requests n d m g q) :
    Respects initial n (Ready n d m g) (MigrationClient.activate q) (fun a => Answered n d m g a.activated)
      fun e w => e.cls = .activationOutcomeUnknownError ∧ Underway n d m g w := by
  have stable {P : Prop} : (duty initial n).Stable fun w => P ∧ Underway n d m g w :=
    ((lasts_const P).and lasts_underway).stable
  unfold MigrationClient.activate
  generalize "None" = lastError
  generalize 3 = attempts
  induction attempts generalizing lastError with
  | zero => exact .raise stable fun _ ready => ⟨rfl, ready.underway⟩
  | succ attempts ih =>
      refine .tryExcept (F := fun e w => (e.cls = .httpError ∨ e.cls = .valueError ∨
        e.cls = .activationOutcomeUnknownError) ∧ Ready n d m g w) (.bind ((sendActivation_respects
          requests).weaken (fun _ a => a) (fun _ _ b => b) fun _ _ never => never.elim) fun _ => ?_)
        fun e => .ite (fun _ => (ih _).pre fun _ known => known.2) fun other => ?_
      · have await_ : Respects initial n (Ready n d m g) (await (.awaitActivation m)) _ _ := awaitActivation_respects
        rwa [← requests.migration] at await_ ⊢
      · refine .raise stable fun w known => ⟨?_, known.2.underway⟩
        rcases known.1 with http | value | unknown
        · exact absurd (.inl http) other
        · exact absurd (.inr value) other
        · exact unknown

theorem handOver_respects :
    Respects initial n (Unsent n call original) (handOver services n call original bindings)
      (fun _ => Handed n call.destinationNodeId call.migrationId (original.generation + 1))
      fun e => Failing n call original e := by
  have failing {e : Exn} : Lasts n (Failing n call original e) := lasts_underway.and (lasts_recallable.imp _)
  refine .bind (prepareActivation_respects.weaken (fun _ a => a) (fun _ _ b => b) fun _ _ unsent =>
    unsent.failing) fun request => .given fun requests => ?_
  refine .bind ((activate_respects requests).weaken (fun _ a => a) (fun _ _ b => b) fun e w known =>
    ⟨known.2, fun other => absurd known.1 other⟩) fun response => .ite (fun activated => ?_) fun refused => ?_
  · exact .pure lasts_handed.stable fun _ known => ⟨known.1, known.2.1 activated⟩
  · refine .raise failing.stable fun w known => ⟨known.1, fun _ => .inl (known.2.2 ?_)⟩
    exact eq_false_of_ne_true refused

/-- `n` has no migration on the way, and none that it handed over is from above `original`. -/
def Idle (n : NodeId) (original : TaskRuntimeState) (w : World) : Prop :=
  (∀ i r, (w.nodes n).journal.get i = some r → r.status.isTerminal = true) ∧ Bound n original.generation w

theorem lasts_idle : Lasts n (Idle n original) := lasts_journal fun j =>
  (∀ i r, j.get i = some r → r.status.isTerminal = true) ∧
    ∀ i r, j.get i = some r → r.role = .source → r.status = .activated → r.generation ≤ original.generation

/-- A migration begins under an id that is new. -/
theorem putSource_respects :
    Respects initial n (Idle n original) (await (.journalPut (sourceRecord n call original)))
      (fun _ => Unsent n call original) fun _ _ => True := by
  refine perform_respects lasts_idle.stable (fun _ => lasts_unsent.stable) (fun _ => .top)
    (fun q same => nomatch same) fun {w c a v} idle claims inv allowed step _ => ?_
  rcases exec_journalPut step with ⟨⟨e, -, rfl⟩, rfl⟩ | ⟨rfl, rfl⟩
  · exact ⟨inv, trivial⟩
  have fresh : ∀ {i x}, (i, x) ∈ w.history → x.migrationId ≠ call.migrationId :=
    fun mem => isFresh_iff.mp (allowed.1 rfl) _ mem
  have unasked : Unasked n call.migrationId w := by
    rintro q sent rfl same
    obtain ⟨x, found, -⟩ := inv.senders q sent
    obtain ⟨mem, id⟩ := claims.recorded found
    exact fresh mem (id.trans same)
  have new {x} (found : (w.nodes n).journal.get call.migrationId = some x) : False :=
    fresh (claims.recorded found).1 (claims.recorded found).2
  refine ⟨invariant_write inv ⟨fun x found _ => (new found).elim, fun _ => Nat.le_add_left .., fun _ i x mem _ same =>
    absurd same (fresh mem), fun q sent from_ same => absurd same (unasked q sent from_), fun role => ?_, fun role =>
      ?_, fun _ back => ?_, fun _ x mem role generation => .inr (.inl ?_), fun _ i x found open_ => ?_,
        fun _ activated => ?_, fun _ b low => ?_⟩, ?_, unasked⟩
  · cases role
  · cases role
  · cases back
  · -- the record of an earlier departure from here is finished, and not by a hand-over
    obtain ⟨y, found⟩ := inv.kept mem
    obtain ⟨role', generation', -⟩ := agrees claims mem found
    obtain ⟨mem', same⟩ := claims.recorded found
    refine ⟨y, mem', role'.trans role, same, ?_⟩
    have finished := idle.1 _ _ found
    cases status : y.status <;> rw [status] at finished <;> first
      | rfl
      | cases finished
    have bound := idle.2 _ _ found (role'.trans role) status
    rw [generation', generation] at bound
    exact absurd bound (Nat.not_succ_le_self _)
  · rw [idle.1 i x found] at open_
    cases open_
  · cases activated
  · cases low
    exact idle.2
  · refine ⟨sourceRecord n call original, ?_, rfl, rfl, rfl, rfl⟩
    rw [World.putRecord_self]
    exact Journal.get_put_self ..

theorem migrate_respects (settled : ∀ i r, (w.nodes n).journal.get i = some r → r.status.isTerminal = true) :
    SafeAtOnce (exec n) (duty initial n) (endsWith (fun _ _ => True) fun _ _ => True)
      (migrate services n call) w := by
  refine .bind (B := fun original => Idle n original) ?_ (fun _ => .top) fun original =>
    .ite (fun _ => .pure .top fun _ _ => trivial) fun _ => ?_
  · refine .op (fun _ => lasts_idle.stable) (fun _ => .top) fun inv c r v allowed step => ?_
    have keeps := exec_keeps_departures step fun q same => nomatch same
    rcases exec_getState step with ⟨⟨e, -, rfl⟩, rfl⟩ | ⟨rfl, rfl⟩
    · exact ⟨inv, keeps, trivial⟩
    · exact ⟨inv, keeps, settled, inv.ahead n⟩
  refine .bind putSource_respects fun _ => .attempt quiesce_respects (fun prefetched => ?_) fun e =>
    onMigrateError_respects.pre fun _ unsent => unsent.failing
  have ended {b c : Bool} {A : World → Prop} : Respects initial n A (withCleanup call b (pure c))
      (fun _ _ => True) fun _ _ => True := withCleanup_respects (.pure .top fun _ _ => trivial)
  cases prefetched with
  | none => exact ended
  | some bindings =>
      refine .attempt (handOver_respects.pre fun _ known => known rfl) (fun _ => ?_) fun e =>
        onMigrateError_respects
      exact .attempt commit_respects (fun _ => ended) fun e => .of_false fun _ never => never

end

/-! ## The destination -/

section

variable {request : MigrationActivationRequest} {state : TaskRuntimeState}
  {existing : Option MigrationRecord} {status : MigrationStatus} {pid : Option Pid} {error : Option String}

/-- The activation of a request at `n`, which has nothing else on the way and can go back to `state`. -/
structure Arriving (n : NodeId) (request : MigrationActivationRequest) (state : TaskRuntimeState) (w : World) :
    Prop where
  sent : request ∈ w.requests
  begun : Begun request.migrationId n request.generation w.history
  alone : ∀ i r, (w.nodes n).journal.get i = some r → r.status.isTerminal = false → i = request.migrationId
  bound : Bound n state.generation w

theorem lasts_arriving : Lasts n (Arriving n request state) := by
  refine fun w v step arriving => ⟨step.requests.1 arriving.sent, arriving.begun.mono step.later, ?_, ?_⟩
  · rw [step.journal]
    exact arriving.alone
  · unfold Bound
    rw [step.journal]
    exact arriving.bound

theorem Arriving.put (arriving : Arriving n request state w) (role : r.role = .destination)
    (id : r.migrationId = request.migrationId) : Arriving n request state (w.putRecord n r) := by
  refine ⟨arriving.sent, arriving.begun.mono ?_, fun i x found open_ => ?_, fun i x found source status => ?_⟩
  · rw [history_putRecord]
    exact List.suffix_cons ..
  all_goals rw [get_putRecord] at found; split_ifs at found with here
  · exact here.2.trans id
  · exact arriving.alone i x found open_
  · cases found
    cases role.symm.trans source
  · exact arriving.bound i x found source status

/-- There is a record of the activation `m` at `n`. -/
def Recorded (n : NodeId) (m : MigrationId) (w : World) : Prop :=
  ∃ x, (w.nodes n).journal.get m = some x ∧ x.role = .destination

theorem lasts_recorded : Lasts n (Recorded n m) :=
  lasts_journal fun j => ∃ x, j.get m = some x ∧ x.role = .destination

theorem recorded_put (role : r.role = .destination) : Recorded n r.migrationId (w.putRecord n r) := by
  refine ⟨r, ?_, role⟩
  rw [World.putRecord_self]
  exact Journal.get_put_self ..

/-- The record of an activation gets another status. -/
theorem settles {B : World → Prop} (lasts : Lasts n A) (recorded : ∀ {w}, A w → Recorded n m w)
    (started : status ≠ .preparing) (stableB : (duty initial n).Stable B)
    (after : ∀ {w : World} {x : MigrationRecord}, A w → x.role = .destination → x.migrationId = m →
      B (w.putRecord n { x with status, pid, error })) :
    Respects initial n A (await (.setRecordStatus m status pid error)) (fun _ => B) fun _ => A := by
  have role {w x} (holds : A w) (found : (w.nodes n).journal.get m = some x) : x.role = .destination := by
    obtain ⟨y, found', role⟩ := recorded holds
    cases found.symm.trans found'
    exact role
  refine move_respects lasts.stable stableB (fun holds => ?_) (fun holds _ _ found finished =>
    ⟨started, fun source => ?_, fun role => finished role, fun source => ?_, fun source => ?_⟩)
      fun holds _ found => after holds (role holds found) (Journal.get_migrationId found)
  · obtain ⟨x, found, -⟩ := recorded holds
    exact ⟨x, found⟩
  all_goals cases (role holds found).symm.trans source

/-- The record of the activation is there. -/
def Entered (n : NodeId) (request : MigrationActivationRequest) (state : TaskRuntimeState) (w : World) : Prop :=
  Arriving n request state w ∧ Recorded n request.migrationId w

theorem lasts_entered : Lasts n (Entered n request state) := lasts_arriving.and lasts_recorded

theorem Arriving.entered (arriving : Arriving n request state w) (role : r.role = .destination)
    (id : r.migrationId = request.migrationId) : Entered n request state (w.putRecord n r) :=
  ⟨arriving.put role id, id ▸ recorded_put role⟩

/-- What is found under the id of a request. -/
def Finds (n : NodeId) (m : MigrationId) (existing : Option MigrationRecord) (w : World) : Prop :=
  (w.nodes n).journal.get m = existing ∧
    ∀ r, existing = some r → r.role = .destination ∧ r.migrationId = m ∧ (n, r) ∈ w.history

theorem lasts_finds : Lasts n (Finds n m existing) := by
  refine fun w v step finds => ⟨?_, fun r is => ?_⟩
  · rw [step.journal]
    exact finds.1
  · obtain ⟨role, id, mem⟩ := finds.2 r is
    exact ⟨role, id, step.later.subset mem⟩

theorem lasts_finding :
    Lasts n fun w => Arriving n request state w ∧ Finds n request.migrationId existing w :=
  lasts_arriving.and lasts_finds

theorem putRecord_respects {original : Option TaskRuntimeState} (started : status ≠ .preparing)
    (back : status.isTerminal = false → original = some state) :
    Respects initial n (fun w => Arriving n request state w ∧ Finds n request.migrationId existing w)
      (putRecord existing (destinationRecord request status original pid))
      (fun _ => Entered n request state) fun _ _ => True := by
  cases existing with
  | some record =>
      refine raisingAny (settles lasts_finding (fun known => ?_) started lasts_entered.stable fun known role id =>
        known.1.entered role id)
      exact ⟨record, known.2.1, (known.2.2 record rfl).1⟩
  | none =>
      refine perform_respects lasts_finding.stable (fun _ => lasts_entered.stable) (fun _ => .top)
        (fun q same => by cases same) fun {w c a v} known claims inv allowed step _ => ?_
      obtain ⟨arriving, absent, -⟩ := known
      rcases exec_journalPut step with ⟨⟨e, -, rfl⟩, rfl⟩ | ⟨rfl, rfl⟩
      · exact ⟨inv, trivial⟩
      refine ⟨invariant_write inv ⟨fun x found _ => ?_, fun role => ?_, fun role => ?_, fun q sent from_ same => ?_,
        fun _ => ⟨request, arriving.sent, rfl⟩, fun role => allowed.2.2 role, fun role => ?_, fun role => ?_,
          fun _ => arriving.alone, fun role => ?_, fun open_ b low => ?_⟩, arriving.entered rfl rfl⟩
      · cases absent.symm.trans found
      · cases role
      · cases role
      · obtain ⟨x, found, -⟩ := inv.senders q sent
        rw [from_, same] at found
        cases absent.symm.trans found
      · cases role
      · cases role
      · cases role
      · cases (back open_)
        cases low
        exact arriving.bound

/-- A refusal is true. -/
def Refuses (a : MigrationActivationResponse) (h : History) : Prop :=
  a.activated = false → RolledBack a.destinationNodeId a.migrationId h

theorem lasts_refuses {a : MigrationActivationResponse} : Lasts n (Known (Refuses a)) :=
  (lasts_known fun _ _ later back => RolledBack.mono later back).imp _

theorem entering {α : Type} {p : Async α} (performs : p.Performs (isUpkeepOp ·)) :
    Respects initial n (Entered n request state) p (fun _ => Entered n request state)
      fun _ => Entered n request state := quietly lasts_entered performs

theorem claimAndStart_respects :
    Respects initial n (Entered n request state) (claimAndStart n request) (fun _ => Entered n request state)
      fun _ => Entered n request state := by
  refine .bind (entering (.op rfl)) fun _ => .bind (entering (.op rfl)) fun _ => .bind (registry_respects lasts_entered
    lasts_entered.stable (fun {w now s} _ _ inv applied => ?_) fun known _ => lasts_entered around_putState known)
      fun _ => entering ((LocalProcess.start_performs n).mono fun _ => isUpkeepOp_of_isStartOp)
  simp only [RegistryOp.apply, Registry.claimLocal] at applied
  split at applied <;> cases applied
  exact (inv.ahead n).mono (not_lt.mp ‹_›)

theorem commitActivation_respects {runtimeState : TaskRuntimeState} :
    Respects initial n (Entered n request state) (commitActivation services n request runtimeState)
      (fun a => Known (Refuses a)) fun _ => Entered n request state := by
  refine .bind (entering (mergeRequestPolicy_performs fun _ => rfl)) fun _ => .bind (entering (.op rfl)) fun _ =>
    .bind (settles lasts_entered And.right MigrationStatus.noConfusion lasts_entered.stable fun known role id =>
      known.1.entered role id) fun _ => ?_
  exact .bind (entering (ifBackupExists_performs rfl (.op rfl))) fun _ => .bind (entering (.op rfl)) fun _ =>
    .pure lasts_refuses.stable fun _ _ refused => by cases refused

theorem rollbackActivation_respects {replaced started : Bool} {e : Exn} :
    Respects initial n (Entered n request state) (rollbackActivation n request state replaced started e)
      (fun a => Known (Refuses a)) fun _ _ => True := by
  have back : Lasts n (Known (RolledBack n request.migrationId)) :=
    lasts_known fun _ _ later back => RolledBack.mono later back
  refine .bind (raisingAny (entering (.ite (.tryExcept stopTask_upkeep fun _ => .pure _) (.pure _)))) fun _ =>
    .bind (raisingAny (entering (.ite (ifCheckpointExists_performs rfl (.op rfl)) (.pure _)))) fun _ =>
      .bind (raisingAny (entering (ifBackupExists_performs rfl (.op rfl)))) fun _ => ?_
  refine .bind (raisingAny (registry_respects lasts_entered lasts_entered.stable (fun known _ _ applied => ?_)
    fun known _ => lasts_entered around_putState known)) fun _ => ?_
  · cases applied
    exact known.1.bound
  refine .bind (raisingAny (settles lasts_entered And.right MigrationStatus.noConfusion back.stable
    fun {w x} known role id => ?_)) fun _ => ?_
  · change RolledBack n _ (World.history (World.putRecord w n _))
    rw [history_putRecord]
    exact ⟨_, List.mem_cons_self .., rfl, role, id, rfl⟩
  exact .bind (raisingAny (quietly back cancelBid_upkeep)) fun _ => .bind (raisingAny (quietly back (.op rfl)))
    fun _ => .pure lasts_refuses.stable fun _ known _ => known

theorem activationTransaction_respects :
    Respects initial n (Entered n request state) (activationTransaction services n request state)
      (fun a => Known (Refuses a)) fun _ _ => True :=
  .attempt (entering replaceCheckpoint_upkeep) (fun _ => .attempt claimAndStart_respects (fun _ =>
    .tryExcept commitActivation_respects fun _ => rollbackActivation_respects)
      fun _ => rollbackActivation_respects) fun _ => rollbackActivation_respects

theorem activateIncoming_respects (here : request.destinationNodeId = n) (sent : request ∈ w.requests)
    (begun : Begun request.migrationId n request.generation w.history)
    (alone : ∀ i r, (w.nodes n).journal.get i = some r → r.status.isTerminal = false → i = request.migrationId) :
    SafeAtOnce (exec n) (duty initial n) (endsWith (fun a => Known (Refuses a)) fun _ _ => True)
      (activateIncoming services n request) w := by
  unfold activateIncoming
  rw [if_neg (not_not_intro here)]
  refine .bind (B := fun state => Arriving n request state) ?_ (fun _ => .top) fun state => ?_
  · refine .op (fun _ => lasts_arriving.stable) (fun _ => .top) fun inv c r v allowed step => ?_
    have keeps := exec_keeps_departures step fun q same => by cases same
    rcases exec_getState step with ⟨⟨e, -, rfl⟩, rfl⟩ | ⟨rfl, rfl⟩
    · exact ⟨inv, keeps, trivial⟩
    · exact ⟨inv, keeps, sent, begun, alone, inv.ahead n⟩
  refine .bind (B := fun existing w => Arriving n request state w ∧ Finds n request.migrationId existing w) ?_
    fun existing => ?_
  · refine perform_respects lasts_arriving.stable (fun _ => lasts_finding.stable) (fun _ => .top)
      (fun q same => by cases same) fun {w c a v} arriving claims inv _ step _ => ?_
    rcases exec_journalGet step with ⟨⟨e, -, rfl⟩, rfl⟩ | ⟨rfl, rfl⟩
    · exact ⟨inv, trivial⟩
    · refine ⟨inv, arriving, rfl, fun r found => ?_⟩
      obtain ⟨mem, id⟩ := claims.recorded found
      exact ⟨claims.sound.isDestination mem (id ▸ arriving.begun), id, mem⟩
  refine .bind (raisingAny (quietly lasts_finding (mergeRequestPolicy_performs fun _ => rfl))) fun _ =>
    .ite (fun _ => ?_) fun _ => .ite (fun back => ?_) fun _ => ?_
  · refine .bind (putRecord_respects MigrationStatus.noConfusion fun finished => ?_) fun _ =>
      .pure lasts_refuses.stable fun _ _ refused => by cases refused
    cases finished
  · refine .pure lasts_refuses.stable fun w known _ => ?_
    obtain ⟨r, found, status⟩ := Option.any_eq_true _ _ |>.mp back
    obtain ⟨role, id, mem⟩ := known.2.2 r found
    exact ⟨_, mem, rfl, role, id, of_decide_eq_true status⟩
  · exact .bind (putRecord_respects MigrationStatus.noConfusion fun _ => rfl) fun _ =>
      activationTransaction_respects

theorem respond_respects {a : MigrationActivationResponse} :
    Respects initial n (Known (Refuses a)) (await (.respond a)) (fun _ _ => True) fun _ _ => True := by
  refine perform_respects lasts_refuses.stable (fun _ => .top) (fun _ => .top) (fun q same => by cases same)
    fun {w c r v} refuses claims inv _ step _ => ?_
  rcases exec_fails_or step with ⟨⟨e, -, rfl⟩, rfl⟩ | step
  · exact ⟨inv, trivial⟩
  · cases c <;> cases step
    have still : Still w { w with responses := a :: w.responses } := by
      refine still_of_mail rfl rfl (List.Subset.refl _) (fun q sent => .inl sent) (fun a' sent => ?_) rfl
      rcases List.mem_cons.mp sent with rfl | before
      · exact .inr refuses
      · exact .inl before
    exact ⟨still.invariant claims inv, trivial⟩

theorem serveActivation_respects (here : request.destinationNodeId = n) (sent : request ∈ w.requests)
    (begun : Begun request.migrationId n request.generation w.history)
    (alone : ∀ i r, (w.nodes n).journal.get i = some r → r.status.isTerminal = false → i = request.migrationId) :
    SafeAtOnce (exec n) (duty initial n) (endsWith (fun _ _ => True) fun _ _ => True)
      (serveActivation services n request) w :=
  .bind (activateIncoming_respects here sent begun alone) (fun _ => .top) fun _ => respond_respects

end

/-! ## Reconciliation -/

section

variable {record : MigrationRecord} {state : TaskRuntimeState}

/-- A record of an activation as it is, with the generation that it can go back to. -/
def Undone (n : NodeId) (record : MigrationRecord) (w : World) : Prop :=
  Recorded n record.migrationId w ∧ ∀ s, record.originalState = some s → Bound n s.generation w

theorem lasts_undone : Lasts n (Undone n record) :=
  lasts_recorded.and fun _ _ step bound s is => by
    unfold Bound
    rw [step.journal]
    exact bound s is

theorem reconcileDestinationRecord_respects :
    Respects initial n (Undone n record) (reconcileDestinationRecord n record) (fun _ _ => True) fun _ _ => True := by
  have quiet {α : Type} {p : Async α} (performs : p.Performs (isUpkeepOp ·)) :=
    (raisingAny (quietly lasts_undone performs) :
      Respects initial n (Undone n record) p (fun _ => Undone n record) fun _ _ => True)
  have close {status : MigrationStatus} {pid error} (started : status ≠ .preparing) :
      Respects initial n (Undone n record) (await (.setRecordStatus record.migrationId status pid error))
        (fun _ _ => True) fun _ _ => True :=
    raisingAny (settles lasts_undone And.left started .top fun _ _ _ => trivial)
  refine .bind (quiet (.op rfl)) fun state => .ite (fun _ => .bind (quiet settleReservation_upkeep) fun _ =>
    close MigrationStatus.noConfusion) fun _ => ?_
  refine .bind (quiet (.ite (.tryExcept stopTask_upkeep fun _ => .pure _) (.pure _))) fun _ =>
    .bind (quiet (ifBackupExists_performs rfl (.bind (ifCheckpointExists_performs rfl (.op rfl)) fun _ => .op rfl)))
      fun _ => .bind (B := fun _ => Undone n record) ?_ fun _ => .bind (quiet cancelBid_upkeep) fun _ =>
        .bind (quiet (.op rfl)) fun _ => close MigrationStatus.noConfusion
  unfold restoreState
  cases original : record.originalState with
  | none => exact quiet (.pure _)
  | some s =>
      refine .bind (raisingAny (registry_respects lasts_undone lasts_undone.stable (fun known _ _ applied => ?_)
        fun known _ => lasts_undone around_putState known)) fun _ => quiet (.pure _)
      cases applied
      exact known.2 s original

/-- A record of a departure as it is. -/
def Departing (n : NodeId) (record : MigrationRecord) (w : World) : Prop :=
  Underway n record.destinationNodeId record.migrationId record.generation w ∧
    (record.status = .preparing → Unasked n record.migrationId w)

theorem lasts_departing : Lasts n (Departing n record) := lasts_underway.and (lasts_unasked.imp _)

theorem reconcileSourceRecord_respects :
    Respects initial n (Departing n record) (reconcileSourceRecord services n record) (fun _ _ => True)
      fun _ _ => True := by
  have stable {b : Nat} : (duty initial n).Stable fun w =>
      Departing n record w ∧ b ≤ (w.nodes n).registry.generation := lasts_departing.stable.and stable_generation
  refine .bind (B := fun state w => Departing n record w ∧ state.generation ≤ (w.nodes n).registry.generation) ?_
    fun state => .ite (fun owned => ?_) fun _ => .ite (fun preparing => ?_) fun _ => ?_
  · refine perform_respects lasts_departing.stable (fun _ => stable) (fun _ => .top) (fun q same => by cases same)
      fun known claims inv _ step _ => ?_
    rcases exec_getState step with ⟨⟨e, -, rfl⟩, rfl⟩ | ⟨rfl, rfl⟩
    · exact ⟨inv, trivial⟩
    · exact ⟨inv, known, le_rfl⟩
  · exact raisingAny (handsOver stable (·.1.1) fun known => owned.2.trans known.2)
  · exact raisingAny ((takesBack lasts_departing And.left fun known => .inr (.inr (known.2 preparing.1))).pre
      fun _ known => known.1)
  · refine .bind (queryRemoteOutcome_respects.pre fun _ known => known.1.1) fun outcome => .ite (fun confirmed => ?_)
      fun _ => .ite (fun confirmed => ?_) fun _ => ?_
    · exact raisingAny (finalizeSourceSuccess_respects.pre fun w known => ⟨known.1, known.2.committed confirmed⟩)
    · exact rollbackSourceRecord_respects.pre fun w known => ⟨known.1, known.2.recallable confirmed⟩
    · refine raisingAny (((goesOn lasts_underway id rfl MigrationStatus.noConfusion (lasts_const True)
        (fun _ => trivial) fun _ => trivial).weaken (fun _ a => a) (fun _ _ _ => trivial) fun _ _ e => e).pre
          fun _ known => known.1)

theorem reconcileRecord_respects (inv : Departures.Invariant w)
    (found : (w.nodes n).journal.get record.migrationId = some record)
    (open_ : record.status.isTerminal = false) :
    Safe (exec n) (duty initial n) (fun _ _ => True) (reconcileRecord services n record) w := by
  unfold reconcileRecord
  cases role : record.role with
  | source =>
      refine (reconcileSourceRecord_respects ⟨⟨record, found, role, open_, rfl, rfl⟩, fun preparing => ?_⟩).mono
        fun _ _ _ => trivial
      rintro q sent rfl same
      obtain ⟨x, found', -, started⟩ := inv.senders q sent
      rw [same] at found'
      cases found.symm.trans found'
      exact started preparing
  | destination =>
      refine (reconcileDestinationRecord_respects ⟨⟨record, found, role⟩, fun s is => ?_⟩).mono fun _ _ _ => trivial
      refine inv.floors found open_ ?_
      unfold floor
      rw [role, is]
      rfl

end

end

end Magellan.Departures
