import Magellan.Migration.Claims

/-!
# Propagation of claims

A claim is to leave its node only once it is committed. It leaves in a snapshot of the registry, in
a migration to the next node, or as the original state of another activation.
-/

namespace Magellan.Propagation

open Coroutine Coro Commitment Claims MigrationService

/-- Nothing that a node records is copied while it holds a claim that is not committed, no
activation that was rolled back is marked ACTIVATED, and a migration draws a fresh id. -/
def claimsStayHome (initial : Ownership) : ClusterConditions where
  call n a w := match a with
    | .migrate _ => Settled initial n w
    | .activate request => isRetry n request (w.nodes n).registry = true ∨ Settled initial n w
    | .reconcile _ => True
  op n o _ w := match o with
    | .journalPut record => record.role = .source → w.isFresh record.migrationId = true
    | .setRecordStatus m .activated _ _ => ∀ r, (w.nodes n).journal.get m = some r →
        r.role = .destination → r.status = .rolledBack → Committed n m r.generation w.history
    | _ => True
  event e w := match e with
    | .exportSnapshot n => Settled initial n w
    | _ => True

def contract (initial : Ownership) (n : NodeId) : Contract Op Choice World where
  allowed := (claimsStayHome initial).op n
  rely := Rely initial n
  inv := Invariant initial
  guar := Keeps n

abbrev Upholds {α : Type} (initial : Ownership) (n : NodeId) (A : World → Prop) (p : Async α)
    (B : α → World → Prop) (E : World → Prop) : Prop :=
  Triple (exec n) (contract initial n) A p B fun _ => E

/-- What the journals say and cannot take back. -/
def Lasting (F : History → Prop) : Prop := ∀ ⦃h h'⦄, h <:+ h' → F h → F h'

def Known (F : History → Prop) (w : World) : Prop := F w.history

section

variable {services : Services} {initial : Ownership} {n d : NodeId} {m : MigrationId} {g : Nat}
  {w v : World} {c : Choice} {F G : History → Prop} {A B E : World → Prop}
  {status : MigrationStatus} {pid : Option Pid} {error : Option String}

theorem stable_known (lasting : Lasting F) : (contract initial n).Stable (Known F) :=
  fun _ _ step known => lasting (Rely.later step) known

theorem stable_goodAt : (contract initial n).Stable (GoodAt initial n) :=
  fun _ _ step good => Rely.goodAt step good

theorem stable_journal (J : Journal → Prop) :
    (contract initial n).Stable fun w => J (w.nodes n).journal := fun _ _ step known => by
  have same : _ = _ := Rely.journal step
  change J _
  rw [same]
  exact known

theorem Lasting.and (first : Lasting F) (second : Lasting G) : Lasting fun h => F h ∧ G h :=
  fun _ _ later known => ⟨first later known.1, second later known.2⟩

theorem Lasting.imp (P : Prop) (lasting : Lasting F) : Lasting fun h => P → F h :=
  fun _ _ later known p => lasting later (known p)

theorem Lasting.const (P : Prop) : Lasting fun _ => P := fun _ _ _ known => known

theorem lasting_committed : Lasting (Committed d m g) := fun _ _ later known => known.mono later

theorem lasting_goodState {s : TaskRuntimeState} : Lasting fun h => GoodState initial h s :=
  fun _ _ later known => Good.mono later known

/-! ## Operations -/

theorem upkeep {α : Type} {p : Async α} (stable : (contract initial n).Stable A)
    (performs : p.Performs (isUpkeepOp ·)) : Upholds initial n A p (fun _ => A) A := by
  refine .of_performs stable performs fun o ok w c r v a inv _ step => ?_
  have calm := exec_calm ok step
  have after : A v := stable calm.rely a
  refine ⟨calm.invariant inv, exec_keeps step, ?_⟩
  cases r <;> exact after

/-- One operation; a call that raises leaves what is known. -/
theorem perform {o : Op} {B : o.Ret → World → Prop} (lasting : Lasting F)
    (stable : (contract initial n).Stable A) (weaker : ∀ w, A w → Known F w)
    (stableB : ∀ a, (contract initial n).Stable (B a))
    (step : ∀ {w c r v}, A w → Invariant initial w → (claimsStayHome initial).op n o c w →
      exec n o c w = some (r, v) → Invariant initial v ∧ ∀ a, r = .ok a → B a v) :
    Upholds initial n A (await o) B (Known F) := by
  refine .op stable stableB (fun _ => stable_known lasting) fun w c r v a inv allowed done => ?_
  have keeps := exec_keeps done
  obtain ⟨inv', post⟩ := step a inv allowed done
  refine ⟨inv', keeps, ?_⟩
  cases r with
  | ok x => exact post x rfl
  | error e => exact lasting keeps.later (weaker w a)

theorem invariant_putState {op : RegistryOp} {state : TaskRuntimeState} (inv : Invariant initial w)
    (claim : GoodState initial w.history state ∨ state.ownerNodeId = n ∧
      ∃ m, OpenRecord m state.generation (w.nodes n).journal) :
    Invariant initial (w.putState n op state) := by
  have history : (w.putState n op state).history = w.history := history_logged _
  have others {i : NodeId} (ne : i ≠ n) : (w.putState n op state).nodes i = w.nodes i := if_neg ne
  have journals (i : NodeId) : ((w.putState n op state).nodes i).journal = (w.nodes i).journal := by
    by_cases here : i = n
    · rw [here, World.putState_self]
    · rw [others here]
  have passes (i : NodeId) : ((w.putState n op state).nodes i).pass = (w.nodes i).pass := by
    by_cases here : i = n
    · rw [here, World.putState_self]
    · rw [others here]
  constructor
  · rw [history]
    exact inv.sound
  · intro i r mem
    rw [journals] at mem
    rw [history]
    exact inv.journals mem
  · intro i r mem
    rw [passes] at mem
    rw [history]
    exact inv.passes mem
  · intro i m back
    rw [history] at back ⊢
    rw [journals]
    exact inv.latest back
  · rw [history]
    exact inv.mail
  · intro i
    unfold GoodAt OpenClaim
    rw [history, journals]
    by_cases here : i = n
    · subst here
      rw [World.putState_self]
      exact claim.imp id fun ⟨owner, m, record⟩ => ⟨m, owner, record⟩
    · rw [others here]
      exact inv.claims i

/-- A registry operation that writes a good state. -/
theorem registry_upholds {op : RegistryOp} (lasting : Lasting F)
    (good : ∀ {h now s state}, F h → op.apply n now s = .ok state → GoodState initial h state) :
    Upholds initial n (Known F) (await (.registry op)) (fun _ w => GoodAt initial n w ∧ Known F w)
      (Known F) := by
  refine perform lasting (stable_known lasting) (fun _ known => known)
    (fun _ => stable_goodAt.and (stable_known lasting)) fun known inv _ step => ?_
  rcases exec_registry step with ⟨⟨e, -, rfl⟩, rfl⟩ | ⟨now, -, applied, ⟨e, rfl, rfl⟩ | ⟨state, rfl, rfl⟩⟩
  · exact ⟨inv, fun _ same => by cases same⟩
  · exact ⟨inv, fun _ same => by cases same⟩
  · have here := good known applied
    refine ⟨invariant_putState inv (.inl here), fun _ _ => ⟨?_, lasting (exec_keeps step).later known⟩⟩
    unfold GoodAt
    rw [World.putState_self]
    exact Good.mono (exec_keeps step).later here

theorem claimLocal_upholds {digests : List (String × String)} {at_ : Timestamp}
    {accounting : Option TaskAccountingSnapshot} (lasting : Lasting F) :
    Upholds initial n (fun w => OpenRecord m g (w.nodes n).journal ∧ Known F w)
      (await (.registry (.claimLocal g m digests at_ accounting)))
      (fun _ w => OpenRecord m g (w.nodes n).journal ∧ Known F w) (Known F) := by
  have stable := (@stable_journal initial n (OpenRecord m g)).and (stable_known lasting)
  refine perform lasting stable (fun _ known => known.2) (fun _ => stable) fun known inv _ step => ?_
  rcases exec_registry step with ⟨⟨e, -, rfl⟩, rfl⟩ | ⟨now, -, applied, ⟨e, rfl, rfl⟩ | ⟨state, rfl, rfl⟩⟩
  · exact ⟨inv, fun _ same => by cases same⟩
  · exact ⟨inv, fun _ same => by cases same⟩
  · have claimed : state.ownerNodeId = n ∧ state.generation = g := by
      simp only [RegistryOp.apply, Registry.claimLocal] at applied
      split at applied <;> cases applied
      exact ⟨rfl, rfl⟩
    refine ⟨invariant_putState inv (.inr ⟨claimed.1, m, claimed.2 ▸ known.1⟩), fun _ _ =>
      ⟨?_, lasting (exec_keeps step).later known.2⟩⟩
    rw [World.putState_self]
    exact known.1

theorem invariant_mail (inv : Invariant initial w) (nodes : v.nodes = w.nodes)
    (log : v.log = w.log) (good : (mail v).Good initial w.history) : Invariant initial v := by
  have history : v.history = w.history := by
    unfold World.history
    rw [log]
  constructor
  · exact history ▸ inv.sound
  · rw [nodes, history]
    exact inv.journals
  · rw [nodes, history]
    exact inv.passes
  · rw [nodes, history]
    exact inv.latest
  · exact history ▸ good
  · unfold GoodAt OpenClaim
    rw [nodes, history]
    exact inv.claims

theorem sendActivation_upholds {q : MigrationActivationRequest} (lasting : Lasting F)
    (begun : ∀ {h}, F h → Begun q.migrationId q.destinationNodeId q.generation h) :
    Upholds initial n (Known F) (await (.sendActivation q)) (fun _ => Known F) (Known F) := by
  refine perform lasting (stable_known lasting) (fun _ known => known)
    (fun _ => stable_known lasting) fun {w c r v} known inv _ step => ?_
  have known' := lasting (exec_keeps step).later known
  rcases exec_fails_or step with ⟨-, rfl⟩ | step
  · exact ⟨inv, fun _ _ => known'⟩
  · cases c <;> cases step
    refine ⟨invariant_mail inv rfl rfl ⟨?_, inv.mail.responses, inv.mail.answers,
      inv.mail.updates⟩, fun _ _ => known'⟩
    exact List.forall_mem_cons.mpr ⟨begun known, inv.mail.requests⟩

theorem respond_upholds {a : MigrationActivationResponse} (lasting : Lasting F)
    (committed : ∀ {h}, F h → a.activated = true →
      Committed a.destinationNodeId a.migrationId a.generation h) :
    Upholds initial n (Known F) (await (.respond a)) (fun _ => Known F) (Known F) := by
  refine perform lasting (stable_known lasting) (fun _ known => known)
    (fun _ => stable_known lasting) fun {w c r v} known inv _ step => ?_
  have known' := lasting (exec_keeps step).later known
  rcases exec_fails_or step with ⟨-, rfl⟩ | step
  · exact ⟨inv, fun _ _ => known'⟩
  · cases c <;> cases step
    refine ⟨invariant_mail inv rfl rfl ⟨inv.mail.requests, ?_, inv.mail.answers,
      inv.mail.updates⟩, fun _ _ => known'⟩
    exact List.forall_mem_cons.mpr ⟨committed known, inv.mail.responses⟩

theorem broadcast_upholds {u : Registry.OwnershipUpdate} (lasting : Lasting F)
    (good : ∀ {h}, F h → Good initial u.ownerNodeId u.generation h) :
    Upholds initial n (Known F) (await (.broadcast u)) (fun _ => Known F) (Known F) := by
  refine perform lasting (stable_known lasting) (fun _ known => known)
    (fun _ => stable_known lasting) fun {w c r v} known inv _ step => ?_
  have known' := lasting (exec_keeps step).later known
  rcases exec_fails_or step with ⟨-, rfl⟩ | step
  · exact ⟨inv, fun _ _ => known'⟩
  · cases c <;> cases step
    refine ⟨invariant_mail inv rfl rfl ⟨inv.mail.requests, inv.mail.responses, inv.mail.answers,
      ?_⟩, fun _ _ => known'⟩
    exact List.forall_mem_cons.mpr ⟨good known, inv.mail.updates⟩

/-- Whoever hears that the activation has been done knows that it is committed. -/
theorem awaitActivation_upholds (lasting : Lasting F) (begun : ∀ {h}, F h → Begun m d g h) :
    Upholds initial n (Known F) (await (.awaitActivation m))
      (fun a => Known fun h => F h ∧ (a.activated = true → Committed d m g h)) (Known F) := by
  refine perform lasting (stable_known lasting) (fun _ known => known) (fun a => stable_known
    (lasting.and (lasting_committed.imp _)))
    fun known inv _ step => ?_
  obtain ⟨rfl, ⟨e, -, rfl⟩ | ⟨a, -, sent, rfl, rfl⟩⟩ := MigrationClient.exec_awaitActivation step
  · exact ⟨inv, fun _ same => by cases same⟩
  · refine ⟨inv, fun _ same => ?_⟩
    cases same
    refine ⟨known, fun activated => ?_⟩
    have committed := inv.mail.responses a sent activated
    obtain ⟨here, generation⟩ := inv.sound.unique (begun known)
      (inv.sound.begun_of_committed committed)
    rw [here, generation]
    exact committed

/-- What a status query has found out about the activation of `m`. -/
def Reports (d : NodeId) (m : MigrationId) (g : Nat) (found : Option MigrationRecord)
    (h : History) : Prop :=
  ∀ r, found = some r → r.status = .activated → Committed d m g h

theorem lasting_reports {found : Option MigrationRecord} : Lasting (Reports d m g found) :=
  fun _ _ later known r same status => (known r same status).mono later

theorem awaitStatus_upholds (lasting : Lasting F) (begun : ∀ {h}, F h → Begun m d g h) :
    Upholds initial n (Known F) (await (.awaitStatus d m))
      (fun found => Known fun h => F h ∧ Reports d m g found h) (Known F) := by
  refine perform lasting (stable_known lasting) (fun _ known => known) (fun a => stable_known
    (lasting.and lasting_reports)) fun known inv _ step => ?_
  obtain ⟨rfl, ⟨e, -, -, rfl⟩ | ⟨a, -, sent, rfl⟩⟩ := MigrationClient.exec_awaitStatus step
  · exact ⟨inv, fun _ same => by cases same⟩
  · refine ⟨inv, fun _ same => ?_⟩
    cases same
    refine ⟨known, ?_⟩
    rintro r rfl status
    obtain ⟨mem, rfl⟩ := inv.mail.answers sent
    have role := inv.sound.isDestination mem (begun known)
    obtain ⟨-, rfl⟩ := inv.sound.agree mem (begun known)
    exact (inv.sound.entries mem).activated role status

/-! ## Records -/

theorem setStatus_step {r : Except Exn Unit} (inv : Invariant initial w)
    (allowed : (claimsStayHome initial).op n (.setRecordStatus m status pid error) c w)
    (allows : ∀ x, (w.nodes n).journal.get m = some x →
      (status = .activated → x.role = .destination → x.status = .rolledBack →
        Committed n m x.generation w.history) → Allows initial n x status w)
    (step : exec n (.setRecordStatus m status pid error) c w = some (r, v)) :
    Invariant initial v ∧ ∀ x, r = .ok () → (w.nodes n).journal.get m = some x →
      v = w.putRecord n { x with status, pid, error } ∧ (x.role = .destination →
        status = .activated → Committed n m x.generation v.history) := by
  rcases exec_recordStatus step with ⟨⟨e, -, rfl⟩, rfl⟩ | ⟨rfl, ⟨none, rfl⟩ | ⟨x, found, rfl⟩⟩
  · exact ⟨inv, fun _ same => by cases same⟩
  · exact ⟨inv, fun x _ found => by cases none.symm.trans found⟩
  · have fits := allows x found fun activated => by
      subst activated
      exact allowed x found
    obtain ⟨inv', commits⟩ := @invariant_setStatus _ _ _ _ _ inv _ pid error found fits
    refine ⟨inv', fun x' _ found' => ?_⟩
    cases found'.symm.trans found
    exact ⟨rfl, commits⟩

/-- A migration from `n` to `d`, of a task that `n` had with the generation before. -/
structure Departs (initial : Ownership) (n d : NodeId) (m : MigrationId) (g : Nat) (h : History) : Prop where
  begun : Begun m d g h
  elsewhere : d ≠ n
  origin : Good initial n (g - 1) h

theorem lasting_departs : Lasting (Departs initial n d m g) := fun _ _ later departs =>
  ⟨departs.begun.mono later, departs.elsewhere, departs.origin.mono later⟩

theorem departs_of_entry {h : History} {r : MigrationRecord} (sound : Sound initial h)
    (mem : (n, r) ∈ h) (role : r.role = .source) :
    Departs initial n r.destinationNodeId r.migrationId r.generation h :=
  ⟨⟨(n, r), mem, role, rfl, rfl, rfl⟩, (sound.entries mem).elsewhere role,
    (sound.entries mem).origin role⟩

/-- The record that has been found, if any, is of a departure. -/
def Found (initial : Ownership) (n : NodeId) (found : Option MigrationRecord) (h : History) : Prop :=
  ∀ r ∈ found, Departs initial n r.destinationNodeId r.migrationId r.generation h

theorem lasting_found {found : Option MigrationRecord} : Lasting (Found initial n found) :=
  fun _ _ later known r is => lasting_departs later (known r is)

/-- A new status for the record of a departure. -/
theorem departed {F : History → Prop} (lasting : Lasting F)
    (departs : ∀ {h}, F h → Departs initial n d m g h) :
    Upholds initial n (Known F) (await (.setRecordStatus m status pid error)) (fun _ => Known F)
      (Known F) := by
  refine perform lasting (stable_known lasting) (fun _ known => known)
    (fun _ => stable_known lasting) fun {w c r v} known inv allowed step => ?_
  refine ⟨(setStatus_step inv allowed (fun x found _ => ?_) step).1, fun _ _ =>
    lasting (exec_keeps step).later known⟩
  have leaves := departs known
  have isSource {y} (found : (w.nodes n).journal.get m = some y) : y.role = .source := by
    obtain ⟨mem, rfl⟩ := inv.recorded found
    exact inv.sound.isSource mem leaves.begun leaves.elsewhere
  refine ⟨fun _ role => ?_, fun _ claim => ?_⟩
  · cases (isSource found).symm.trans role
  · obtain ⟨-, y, found', role, -⟩ := claim
    rw [(inv.recorded found).2] at found'
    cases (isSource found').symm.trans role

/-! ## The source -/

theorem quietly {α : Type} {p : Async α} (lasting : Lasting F) (performs : p.Performs (isUpkeepOp ·)) :
    Upholds initial n (Known F) p (fun _ => Known F) (Known F) := upkeep (stable_known lasting) performs

/-- The two writes by which a source takes a task back. -/
theorem takeBack_upholds {op : RegistryOp} (lasting : Lasting F)
    (origin : ∀ {h}, F h → Good initial n (g - 1) h)
    (writes : ∀ {now s state}, op.apply n now s = .ok state →
      state.ownerNodeId = n ∧ state.generation = g - 1) :
    Upholds initial n (Known F) (await (.registry op)) (fun _ => Known F) (Known F) := by
  refine (registry_upholds lasting fun known applied => ?_).weaken (fun _ a => a)
    (fun _ _ b => b.2) fun _ _ e => e
  obtain ⟨owner, generation⟩ := writes applied
  unfold GoodState
  rw [owner, generation]
  exact origin known

theorem finalizeSourceSuccess_upholds {at_ : Timestamp} {bindings : List ArtifactBinding}
    (lasting : Lasting F) (departs : ∀ {h}, F h → Departs initial n d m g h)
    (committed : ∀ {h}, F h → Committed d m g h) :
    Upholds initial n (Known F) (finalizeSourceSuccess services d m g at_ bindings)
      (fun _ => Known F) (Known F) := by
  have good {h} (known : F h) : Good initial d g h := .inr ⟨m, committed known⟩
  refine .bind (B := fun _ => Known F) ?_ fun _ => ?_
  · refine (registry_upholds lasting fun known applied => ?_).weaken (fun _ a => a)
      (fun _ _ b => b.2) fun _ _ e => e
    have written : _ = _ := Except.ok.inj applied
    rw [← written]
    unfold GoodState Registry.markRemote
    split
    · rename_i same
      rw [same.1, same.2.1]
      exact good known
    · exact good known
  · refine .bind (quietly lasting (.op rfl)) fun _ => .bind (quietly lasting (.ite (.op rfl)
      (.pure _))) fun _ => .bind (broadcast_upholds lasting fun known => good known) fun _ =>
        departed lasting departs

theorem rollbackSourceRecord_upholds {record : MigrationRecord} {reason : String}
    (lasting : Lasting F)
    (departs : ∀ {h}, F h → Departs initial n record.destinationNodeId record.migrationId
      record.generation h) :
    Upholds initial n (Known F) (rollbackSourceRecord n record reason) (fun _ => Known F)
      (Known F) := by
  refine .bind (takeBack_upholds lasting (fun known => (departs known).origin)
    fun {now s state} applied => ?_) fun _ => ?_
  · simp only [RegistryOp.apply] at applied
    split at applied <;> cases applied <;> exact ⟨rfl, rfl⟩
  · exact .bind (quietly lasting (.op rfl)) fun _ => .bind (quietly lasting (.ite (restart_upkeep n)
      (.pure _))) fun _ => departed lasting departs

theorem rollbackMigration_upholds (lasting : Lasting F)
    (departs : ∀ {h}, F h → Departs initial n d m g h) :
    Upholds initial n (Known F) (rollbackMigration n m) (fun _ => Known F) (Known F) := by
  refine .bind (B := fun found => Known fun h => F h ∧ Found initial n found h) ?_ fun found => ?_
  · refine perform lasting (stable_known lasting) (fun _ known => known) (fun found =>
      stable_known (lasting.and lasting_found)) fun known inv _ step => ?_
    rcases exec_journalGet step with ⟨⟨e, -, rfl⟩, rfl⟩ | ⟨rfl, rfl⟩
    · exact ⟨inv, fun _ same => by cases same⟩
    · refine ⟨inv, fun _ same => ⟨known, fun r is => ?_⟩⟩
      cases same
      obtain ⟨mem, rfl⟩ := inv.recorded is
      have leaves := departs known
      exact departs_of_entry inv.sound mem (inv.sound.isSource mem leaves.begun leaves.elsewhere)
  · cases found with
    | none => exact (quietly lasting (.pure _)).pre fun _ known => known.1
    | some record =>
        exact (rollbackSourceRecord_upholds (lasting.and lasting_found) fun known =>
          known.2 record rfl).weaken (fun _ a => a) (fun _ _ b => b.1) fun _ _ e => e.1

theorem withCleanup_upholds {call : MigrateCall} {activated : Bool} {p : Async Bool}
    (lasting : Lasting F) (h : Upholds initial n A p (fun _ => Known F) (Known F)) :
    Upholds initial n A (withCleanup call activated p) (fun _ => Known F) (Known F) := by
  have cancel : Upholds initial n (Known F) (onlyIf (¬ activated) (cancelRemoteReservation
      call.bidId call.destinationNodeId s!"Source migration {call.migrationId} did not complete"))
      (fun _ => Known F) (Known F) :=
    quietly lasting (.ite (.tryExcept (.op rfl) fun _ => .pure _) (.pure _))
  exact .tryFinally h (fun _ => cancel) fun _ => cancel

theorem pollOutcome_upholds (lasting : Lasting F) (begun : ∀ {h}, F h → Begun m d g h)
    {polls : Nat} {lastRecord : Option MigrationRecord} {destinationReached : Bool} :
    Upholds initial n (Known fun h => F h ∧ Reports d m g lastRecord h)
      (pollOutcome d m polls lastRecord destinationReached)
      (fun outcome => Known fun h => F h ∧ Reports d m g outcome.1 h) (Known F) := by
  have none {w} (known : Known F w) : Known (fun h => F h ∧ Reports d m g none h) w :=
    ⟨known, fun _ same => by cases same⟩
  induction polls generalizing lastRecord destinationReached with
  | zero => exact .pure (stable_known (lasting.and lasting_reports)) fun _ known => known
  | succ polls ih =>
      refine .attempt (.bind ((quietly lasting (.op rfl)).pre fun _ known => known.1) fun _ =>
        awaitStatus_upholds lasting begun) (fun record => .ite (fun _ => ?_) fun _ => ih)
        fun e => .ite (fun _ => ih.pre fun _ => none) fun _ => ?_
      · exact .pure (stable_known (lasting.and lasting_reports)) fun _ known => known
      · exact .raise (stable_known lasting) fun _ known => known

theorem queryRemoteOutcome_upholds (lasting : Lasting F) (begun : ∀ {h}, F h → Begun m d g h) :
    Upholds initial n (Known F) (queryRemoteOutcome d m)
      (fun outcome => Known fun h => F h ∧ Reports d m g outcome.1 h) (Known F) :=
  .bind (quietly lasting (.op rfl)) fun _ => (pollOutcome_upholds lasting begun).pre fun _ known =>
    ⟨known, fun _ same => by cases same⟩

theorem committed_of_confirms {outcome : Option MigrationRecord × Bool} {h : History}
    (reports : Reports d m g outcome.1 h) (confirms : confirmsActivation outcome = true) :
    Committed d m g h := by
  obtain ⟨r, found, status⟩ := Option.any_eq_true _ _ |>.mp confirms
  exact reports r found (of_decide_eq_true status)

section

variable {call : MigrateCall} {original : TaskRuntimeState} {bindings : List ArtifactBinding}
  {e : Exn}

/-- The departure of a call. -/
abbrev Leaves (initial : Ownership) (n : NodeId) (call : MigrateCall) (original : TaskRuntimeState) :
    History → Prop :=
  Departs initial n call.destinationNodeId call.migrationId (original.generation + 1)

/-- The departure of a call whose activation is committed. -/
abbrev Arrived (initial : Ownership) (n : NodeId) (call : MigrateCall) (original : TaskRuntimeState) :
    History → Prop := fun h =>
  Leaves initial n call original h ∧
    Committed call.destinationNodeId call.migrationId (original.generation + 1) h

theorem lasting_arrived : Lasting (Arrived initial n call original) :=
  lasting_departs.and lasting_committed

theorem resolveOutcome_upholds {outcome : Option MigrationRecord × Bool} :
    Upholds initial n (Known fun h => Leaves initial n call original h ∧
        Reports call.destinationNodeId call.migrationId (original.generation + 1) outcome.1 h)
      (resolveOutcome services n call original bindings e outcome)
      (fun _ => Known (Leaves initial n call original))
      (Known (Leaves initial n call original)) := by
  have ends {b : Bool} : Upholds initial n (Known (Leaves initial n call original)) (pure b)
      (fun _ => Known (Leaves initial n call original)) (Known (Leaves initial n call original)) :=
    quietly lasting_departs (.pure _)
  refine .ite (fun confirmed => ?_) fun _ => Triple.pre (A := Known (Leaves initial n call original))
    (.ite (fun _ => ?_) fun _ => ?_) fun _ known => known.1
  · refine (withCleanup_upholds (F := Arrived initial n call original) lasting_arrived
      (.bind (finalizeSourceSuccess_upholds lasting_arrived (·.1) (·.2)) fun _ =>
        quietly lasting_arrived (.pure _))).weaken (fun _ known => ?_) (fun _ _ b => b.1)
      fun _ _ e => e.1
    exact ⟨known.1, committed_of_confirms known.2 confirmed⟩
  · exact withCleanup_upholds lasting_departs (.bind (rollbackMigration_upholds lasting_departs id)
      fun _ => ends)
  · exact withCleanup_upholds lasting_departs (.bind (quietly lasting_departs (.op rfl)) fun _ => ends)

theorem outcomeUnknown_upholds :
    Upholds initial n (Known (Leaves initial n call original))
      (outcomeUnknown services n call original bindings e)
      (fun _ => Known (Leaves initial n call original))
      (Known (Leaves initial n call original)) := by
  refine .attempt (.bind (departed lasting_departs id) fun _ => queryRemoteOutcome_upholds
    lasting_departs (·.begun)) (fun _ => resolveOutcome_upholds) fun e => ?_
  exact withCleanup_upholds lasting_departs (.raise (stable_known lasting_departs) fun _ a => a)

theorem migrationFailed_upholds {sourceWasStopped : Bool} :
    Upholds initial n (Known (Leaves initial n call original))
      (migrationFailed services n call original sourceWasStopped e)
      (fun _ => Known (Leaves initial n call original))
      (Known (Leaves initial n call original)) := by
  refine .bind (quietly lasting_departs (.ite (.op rfl) (.pure _))) fun _ =>
    .bind (takeBack_upholds lasting_departs (fun known => known.origin) fun applied => ?_) fun _ =>
      .bind (quietly lasting_departs (.ite (restart_upkeep n) (.pure _))) fun _ =>
        .bind (departed lasting_departs id) fun _ => quietly lasting_departs (.pure _)
  cases applied
  exact ⟨rfl, rfl⟩

theorem onMigrateError_upholds {sourceWasStopped activated : Bool} :
    Upholds initial n (Known (Leaves initial n call original))
      (onMigrateError services n call original bindings sourceWasStopped activated e)
      (fun _ => Known (Leaves initial n call original))
      (Known (Leaves initial n call original)) :=
  .ite (fun _ => outcomeUnknown_upholds) fun _ =>
    withCleanup_upholds lasting_departs migrationFailed_upholds

theorem quiesce_upholds :
    Upholds initial n (Known (Leaves initial n call original)) (quiesce services call)
      (fun _ => Known (Leaves initial n call original))
      (Known (Leaves initial n call original)) := by
  refine .bind (.attempt (quietly lasting_departs prefetch_upkeep) (fun _ => quietly lasting_departs
    (.pure _)) fun _ => .bind (departed lasting_departs id) fun _ => quietly lasting_departs
      (.pure _)) fun prefetched => ?_
  cases prefetched with
  | none => exact quietly lasting_departs (.pure _)
  | some bindings =>
      exact .bind (quietly lasting_departs (.ite (.op rfl) (.pure _))) fun _ =>
        .bind (quietly lasting_departs (.op rfl)) fun _ => .bind (departed lasting_departs id) fun _ =>
          quietly lasting_departs (.bind (LocalProcess.stop_performs.mono fun _ =>
            isUpkeepOp_of_isStopOp) fun _ => .pure _)

/-- The activation is requested, and its answer is believed. -/
theorem activate_upholds {request : MigrationActivationRequest} (lasting : Lasting F)
    (begun : ∀ {h}, F h →
      Begun request.migrationId request.destinationNodeId request.generation h) :
    Upholds initial n (Known F) (MigrationClient.activate request)
      (fun a => Known fun h => F h ∧ (a.activated = true →
        Committed request.destinationNodeId request.migrationId request.generation h))
      (Known F) := by
  unfold MigrationClient.activate
  generalize "None" = lastError
  generalize 3 = attempts
  induction attempts generalizing lastError with
  | zero => exact .raise (stable_known lasting) fun _ known => known
  | succ attempts ih =>
      refine .tryExcept (.bind (sendActivation_upholds lasting begun) fun _ =>
        awaitActivation_upholds lasting begun) fun e => .ite (fun _ => ih _) fun _ => ?_
      exact .raise (stable_known lasting) fun _ known => known

theorem handOver_upholds :
    Upholds initial n (Known (Leaves initial n call original))
      (handOver services n call original bindings)
      (fun _ => Known (Arrived initial n call original)) (Known (Leaves initial n call original)) := by
  refine .bind (B := fun request => fun w => (request.migrationId = call.migrationId ∧
    request.destinationNodeId = call.destinationNodeId ∧
      request.generation = original.generation + 1) ∧ Known (Leaves initial n call original) w)
    ?_ fun request => Triple.given fun named => ?_
  · refine .bind (quietly lasting_departs (.op rfl)) fun _ =>
      .bind (quietly lasting_departs (.op rfl)) fun _ => ?_
    refine .bind (quietly lasting_departs (.ite (.op rfl) (.pure _))) fun _ =>
      .bind (quietly lasting_departs (.ite (.op rfl) (.pure _))) fun _ =>
        .bind (quietly lasting_departs (.op rfl)) fun _ => ?_
    exact .bind (quietly lasting_departs (.ite (.op rfl) (.pure _))) fun _ =>
      .bind (departed lasting_departs id) fun _ =>
        .pure ((Contract.Stable.const _).and (stable_known lasting_departs)) fun _ known =>
          ⟨⟨rfl, rfl, rfl⟩, known⟩
  · obtain ⟨id, destination, generation⟩ := named
    refine .bind (activate_upholds lasting_departs fun known => ?_) fun response => ?_
    · rw [id, destination, generation]
      exact known.begun
    rw [id, destination, generation]
    refine .ite (fun activated => ?_) fun _ => ?_
    · exact .pure (stable_known lasting_arrived) fun _ known => ⟨known.1, known.2 activated⟩
    · exact .raise (stable_known lasting_departs) fun _ known => known.1

theorem commit_upholds :
    Upholds initial n (Known (Arrived initial n call original))
      (commit services call original bindings) (fun _ => Known (Leaves initial n call original))
      (Known (Leaves initial n call original)) := by
  refine Triple.weaken (A := Known (Arrived initial n call original))
    (.bind (quietly lasting_arrived (.ite (.op rfl) (.pure _))) fun _ =>
      .bind (quietly lasting_arrived (.ite (.op rfl) (.pure _))) fun _ =>
        .bind (finalizeSourceSuccess_upholds lasting_arrived (·.1) (·.2)) fun _ =>
          quietly lasting_arrived (.pure _)) (fun _ a => a) (fun _ _ b => b.1) fun _ _ e => e.1

end

/-- A node that departs with a task has it with a good generation. -/
def OwnedGood (initial : Ownership) (n : NodeId) (state : TaskRuntimeState) (h : History) : Prop :=
  state.ownerNodeId = n → Good initial n state.generation h

theorem lasting_ownedGood {state : TaskRuntimeState} : Lasting (OwnedGood initial n state) :=
  fun _ _ later known owner => (known owner).mono later

theorem isFresh_iff : w.isFresh m = true ↔ ∀ e ∈ w.history, e.2.migrationId ≠ m := by
  unfold World.isFresh World.history
  rw [List.all_eq_true]
  constructor
  · rintro fresh ⟨n, r⟩ mem
    obtain ⟨e, mem', write⟩ := List.mem_filterMap.mp mem
    have here := fresh e mem'
    cases e with
    | journal n' r' held =>
        cases write
        exact of_decide_eq_true here
    | registry => cases write
  · intro fresh e mem
    cases e with
    | journal n' r' held =>
        exact decide_eq_true (fresh (n', r') (List.mem_filterMap.mpr ⟨_, mem, rfl⟩))
    | registry => rfl

/-- The first write of a departure. -/
theorem putSource_upholds {call : MigrateCall} {original : TaskRuntimeState}
    (elsewhere : call.destinationNodeId ≠ n) (owner : original.ownerNodeId = n) :
    Upholds initial n (Known (OwnedGood initial n original))
      (await (.journalPut (sourceRecord n call original)))
      (fun _ => Known (Leaves initial n call original))
      (Known (OwnedGood initial n original)) := by
  refine perform lasting_ownedGood (stable_known lasting_ownedGood) (fun _ known => known)
    (fun _ => stable_known lasting_departs) fun {w c r v} known inv allowed step => ?_
  rcases exec_journalPut step with ⟨⟨e, -, rfl⟩, rfl⟩ | ⟨rfl, rfl⟩
  · exact ⟨inv, fun _ same => by cases same⟩
  have fresh := isFresh_iff.mp (allowed rfl)
  have later : w.history <:+ (n, sourceRecord n call original) :: w.history := List.suffix_cons ..
  have good := (known owner).mono later
  have first {d g} (begun : Begun call.migrationId d g w.history) : False := by
    obtain ⟨e, mem, -, id, -⟩ := begun
    exact fresh e mem id
  have unwritten : ¬ RolledBack n call.migrationId w.history := by
    rintro ⟨e, mem, -, -, id, -⟩
    exact fresh e mem id
  refine ⟨invariant_putRecord inv (fun begun => (first begun).elim) ⟨fun _ => elsewhere, fun _ => good,
    fun role => (by cases role), fun role => (by cases role), fun role => (by cases role)⟩
    (fun back => absurd back unwritten) fun closed => (by cases closed), fun _ _ => ?_⟩
  change Leaves initial n call original (w.putRecord n _).history
  rw [history_putRecord]
  exact ⟨⟨_, List.mem_cons_self .., rfl, rfl, rfl, rfl⟩, elsewhere, good⟩

/-- The call is taken up where the node holds no claim that is open. -/
theorem getState_atOnce {B : TaskRuntimeState → History → Prop} (lasting : ∀ s, Lasting (B s))
    (here : Invariant initial w → B (w.nodes n).registry w.history) :
    SafeAtOnce (exec n) (contract initial n)
      (endsWith (fun state => Known (B state)) fun _ _ => True) (await .getState) w := by
  refine .op (fun s => stable_known (lasting s)) (fun _ => .top) fun inv c r v _ step => ?_
  rcases exec_getState step with ⟨⟨e, -, rfl⟩, rfl⟩ | ⟨rfl, rfl⟩
  · exact ⟨inv, exec_keeps step, trivial⟩
  · exact ⟨inv, exec_keeps step, here inv⟩

theorem migrate_upholds {call : MigrateCall} (elsewhere : call.destinationNodeId ≠ n)
    (settled : Settled initial n w) :
    SafeAtOnce (exec n) (contract initial n)
      (endsWith (fun _ _ => True) fun _ _ => True) (migrate services n call) w := by
  refine .bind (B := fun original => Known (OwnedGood initial n original)) (getState_atOnce
    (fun _ => lasting_ownedGood) fun inv owner => ?_) (fun _ => .top) fun original => ?_
  · have good := inv.goodAt settled
    unfold GoodAt GoodState at good
    rwa [owner] at good
  refine .ite (fun _ => .pure .top fun _ _ => trivial) fun owner => ?_
  refine .bind ((putSource_upholds elsewhere (not_not.mp owner)).weaken (fun _ a => a)
    (fun _ _ b => b) fun _ _ _ => trivial) fun _ => ?_
  have ends {A : World → Prop} {p : Async Bool}
      (h : Upholds initial n A p (fun _ => Known (Leaves initial n call original))
        (Known (Leaves initial n call original))) :
      Upholds initial n A p (fun _ _ => True) fun _ => True :=
    h.weaken (fun _ a => a) (fun _ _ _ => trivial) fun _ _ _ => trivial
  have finished {b c : Bool} : Upholds initial n (Known (Leaves initial n call original))
      (withCleanup call b (pure c)) (fun _ => Known (Leaves initial n call original))
        (Known (Leaves initial n call original)) :=
    withCleanup_upholds lasting_departs (quietly lasting_departs (.pure _))
  refine ends (.attempt quiesce_upholds (fun prefetched => ?_) fun e => onMigrateError_upholds)
  cases prefetched with
  | none => exact finished
  | some bindings =>
      exact .attempt handOver_upholds (fun _ => .attempt commit_upholds (fun _ => finished)
        fun e => onMigrateError_upholds) fun e => onMigrateError_upholds

/-! ## The destination -/

section

variable {request : MigrationActivationRequest} {state : TaskRuntimeState}
  {existing : Option MigrationRecord}

/-- The activation of a request at `n`. -/
abbrev Begins (n : NodeId) (request : MigrationActivationRequest) : History → Prop :=
  Begun request.migrationId n request.generation

/-- The activation of a request at `n`, which can go back to `state`. -/
abbrev Enters (initial : Ownership) (n : NodeId) (request : MigrationActivationRequest)
    (state : TaskRuntimeState) : History → Prop := fun h =>
  Begins n request h ∧ GoodState initial h state

/-- An answer that the activation has been done is true. -/
def Truthful (a : MigrationActivationResponse) (h : History) : Prop :=
  a.activated = true → Committed a.destinationNodeId a.migrationId a.generation h

theorem lasting_begun : Lasting (Begun m d g) := fun _ _ later begun => begun.mono later

theorem lasting_enters : Lasting (Enters initial n request state) :=
  lasting_begun.and lasting_goodState

theorem lasting_truthful {a : MigrationActivationResponse} : Lasting (Truthful a) :=
  lasting_committed.imp _

/-- The journal has `existing` under the id of the request. -/
def Holds (n : NodeId) (m : MigrationId) (existing : Option MigrationRecord) (w : World) : Prop :=
  (w.nodes n).journal.get m = existing

theorem stable_holds : (contract initial n).Stable (Holds n m existing) :=
  stable_journal fun j => j.get m = existing

/-- The record with which an activation begins. -/
theorem putFirst_upholds {original : Option TaskRuntimeState} (lasting : Lasting F)
    (begun : ∀ {h}, F h → Begins n request h)
    (back : ∀ {h}, F h → match original with
      | some s => GoodState initial h s
      | none => status = .activated) :
    Upholds initial n (fun w => Holds n request.migrationId none w ∧ Known F w)
      (await (.journalPut (destinationRecord request status original pid)))
      (fun _ w => Known F w ∧
        Holds n request.migrationId (some (destinationRecord request status original pid)) w ∧
        (status = .activated → Known (Committed n request.migrationId request.generation) w))
      (Known F) := by
  have known : (contract initial n).Stable (Known F) := stable_known lasting
  refine perform lasting (stable_holds.and known) (fun _ known => known.2) (fun _ => known.and
    (stable_holds.and (stable_known (lasting_committed.imp _)))) fun {w c r v} a inv _ step => ?_
  obtain ⟨absent, fact⟩ := a
  rcases exec_journalPut step with ⟨⟨e, -, rfl⟩, rfl⟩ | ⟨rfl, rfl⟩
  · exact ⟨inv, fun _ same => by cases same⟩
  have later : w.history <:+ (n, destinationRecord request status original pid) :: w.history :=
    List.suffix_cons ..
  have unwritten : ¬ RolledBack n request.migrationId w.history := fun rolled => by
    obtain ⟨x, found, -⟩ := inv.latest rolled
    cases absent.symm.trans found
  have commits (status' : status = .activated) : Committed n request.migrationId
      request.generation ((n, destinationRecord request status original pid) :: w.history) :=
    @committed_write n w.history (destinationRecord request status original pid) rfl status'
      fun rolled => absurd rolled unwritten
  refine ⟨invariant_putRecord inv (fun other => inv.sound.unique (begun fact) other)
    ⟨fun role => (by cases role), fun role => (by cases role), fun _ => (begun fact).mono later,
      fun _ => commits, fun _ => ?_⟩ (fun rolled => absurd rolled unwritten) fun _ claim => ?_,
    fun _ _ => ⟨lasting (exec_keeps step).later fact, ?_, fun status' => ?_⟩⟩
  · have back := back fact
    cases original with
    | some s => exact Good.mono later back
    | none => exact commits back
  · obtain ⟨-, x, found, -⟩ := claim
    cases absent.symm.trans found
  · unfold Holds
    rw [World.putRecord_self]
    exact Journal.get_put_self ..
  · change Committed _ _ _ (w.putRecord n _).history
    rw [history_putRecord]
    exact commits status'

/-- A retry is answered once its record says ACTIVATED. -/
theorem answerRetry_upholds :
    Upholds initial n (fun w => Holds n request.migrationId existing w ∧ Known (Begins n request) w)
      (answerRetry n request state existing) (fun a => Known (Truthful a)) fun _ => True := by
  have answers : Upholds initial n (Known (Committed n request.migrationId request.generation))
      (pure (activationResponse n request true state.pid none)) (fun a => Known (Truthful a))
      fun _ => True := .pure (stable_known lasting_truthful) fun _ committed _ => committed
  refine .bind (B := fun _ => Known (Committed n request.migrationId request.generation)) ?_
    fun _ => answers
  cases existing with
  | none =>
      exact (putFirst_upholds lasting_begun id fun _ => rfl).weaken (fun _ a => a)
        (fun _ _ b => b.2.2 rfl) fun _ _ _ => trivial
  | some record =>
      refine (perform lasting_begun (stable_holds.and (stable_known lasting_begun))
        (fun _ known => known.2) (fun _ => stable_known lasting_committed)
        fun {w c r v} a inv allowed step => ?_).weaken (fun _ a => a) (fun _ _ b => b)
          fun _ _ _ => trivial
      obtain ⟨found, begun⟩ := a
      obtain ⟨inv', post⟩ := setStatus_step inv allowed (fun x found' reopens => ⟨fun _ role back =>
        (inv.recorded found').2 ▸ reopens rfl role back, fun other => by cases other⟩) step
      refine ⟨inv', fun _ same => ?_⟩
      obtain ⟨-, commits⟩ := post record same found
      obtain ⟨mem, id⟩ := inv.recorded found
      have begun' : Begun record.migrationId n request.generation w.history := id ▸ begun
      have here := commits (inv.sound.isDestination mem begun') rfl
      rw [(inv.sound.agree mem begun').2] at here
      exact here

/-- The record of an activation is opened, and not after it was rolled back. -/
theorem putActivating_upholds (notBack : ¬ existing.any (·.status = .rolledBack) = true) :
    Upholds initial n
      (fun w => Holds n request.migrationId existing w ∧ Known (Enters initial n request state) w)
      (putRecord existing (destinationRecord request .activating (some state) none))
      (fun _ w => OpenRecord request.migrationId request.generation (w.nodes n).journal ∧
        Known (Enters initial n request state) w) fun _ => True := by
  have stable := (@stable_journal initial n (OpenRecord request.migrationId request.generation)).and
    (stable_known (@lasting_enters initial n request state))
  cases existing with
  | none =>
      exact (putFirst_upholds lasting_enters (·.1) fun known => known.2).weaken
        (fun _ a => a) (fun _ _ b => ⟨⟨_, b.2.1, rfl, rfl, rfl⟩, b.1⟩) fun _ _ _ => trivial
  | some record =>
      refine (perform lasting_enters (stable_holds.and (stable_known lasting_enters))
        (fun _ known => known.2) (fun _ => stable) fun {w c r v} a inv allowed step => ?_).weaken
          (fun _ a => a) (fun _ _ b => b) fun _ _ _ => trivial
      obtain ⟨found, known⟩ := a
      have open_ : record.status ≠ .rolledBack := fun back => notBack (by simp [back])
      obtain ⟨inv', post⟩ := setStatus_step inv allowed (fun x found' _ => ⟨fun _ _ back => by
        cases found.symm.trans found'
        exact absurd back open_, fun other => by cases other⟩) step
      refine ⟨inv', fun _ same => ⟨?_, lasting_enters (exec_keeps step).later known⟩⟩
      obtain ⟨rfl, -⟩ := post record same found
      obtain ⟨mem, id⟩ := inv.recorded found
      have begun' : Begun record.migrationId n request.generation w.history := id ▸ known.1
      have role := inv.sound.isDestination mem begun'
      have generation := (inv.sound.agree mem begun').2
      refine ⟨{ record with status := .activating, pid := none, error := none }, ?_, role, rfl,
        generation⟩
      rw [World.putRecord_self, ← id]
      exact Journal.get_put_self ..

/-- The record of the activation is open. -/
abbrev Entered (initial : Ownership) (n : NodeId) (request : MigrationActivationRequest)
    (state : TaskRuntimeState) (w : World) : Prop :=
  OpenRecord request.migrationId request.generation (w.nodes n).journal ∧
    Known (Enters initial n request state) w

theorem stable_entered : (contract initial n).Stable (Entered initial n request state) :=
  (stable_journal (OpenRecord request.migrationId request.generation)).and
    (stable_known lasting_enters)

theorem entering {α : Type} {p : Async α} (performs : p.Performs (isUpkeepOp ·)) :
    Upholds initial n (Entered initial n request state) p
      (fun _ => Entered initial n request state) (Known (Enters initial n request state)) :=
  (upkeep stable_entered performs).weaken (fun _ a => a) (fun _ _ b => b) fun _ _ e => e.2

theorem claimAndStart_upholds :
    Upholds initial n (Entered initial n request state) (claimAndStart n request)
      (fun _ => Entered initial n request state) (Known (Enters initial n request state)) :=
  .bind (entering (.op rfl)) fun _ => .bind (entering (.op rfl)) fun _ =>
    .bind (claimLocal_upholds lasting_enters) fun _ =>
      entering ((LocalProcess.start_performs n).mono fun _ => isUpkeepOp_of_isStartOp)

theorem commitActivation_upholds {runtimeState : TaskRuntimeState} :
    Upholds initial n (Entered initial n request state)
      (commitActivation services n request runtimeState) (fun a => Known (Truthful a))
      (Known (Enters initial n request state)) := by
  have lasting := (@lasting_enters initial n request state).and
    (@lasting_committed n request.migrationId request.generation)
  refine .bind (entering (mergeRequestPolicy_performs fun _ => rfl)) fun _ =>
    .bind (entering (.op rfl)) fun _ => .bind (B := fun _ => Known fun h =>
      Enters initial n request state h ∧ Committed n request.migrationId request.generation h)
      ?_ fun _ => ?_
  · refine perform lasting_enters stable_entered (fun _ known => known.2)
      (fun _ => stable_known lasting) fun {w c r v} a inv allowed step => ?_
    obtain ⟨⟨record, found, role, -, generation⟩, known⟩ := a
    obtain ⟨inv', post⟩ := setStatus_step inv allowed (fun x found' reopens => ⟨fun _ role back =>
      (inv.recorded found').2 ▸ reopens rfl role back, fun other => by cases other⟩) step
    exact ⟨inv', fun _ same => ⟨lasting_enters (exec_keeps step).later known,
      generation ▸ (post record same found).2 role rfl⟩⟩
  · have cleaning {p : Async Unit} (performs : p.Performs (isUpkeepOp ·)) :
        Upholds initial n (Known fun h => Enters initial n request state h ∧
            Committed n request.migrationId request.generation h) p
          (fun _ => Known fun h => Enters initial n request state h ∧
            Committed n request.migrationId request.generation h)
          (Known (Enters initial n request state)) :=
      (quietly lasting performs).weaken (fun _ a => a) (fun _ _ b => b) fun _ _ e => e.1
    exact .bind (cleaning (ifBackupExists_performs rfl (.op rfl))) fun _ => .bind (cleaning (.op rfl))
      fun _ => .pure (stable_known lasting_truthful) fun _ known _ => known.2

/-- A record is rolled back once the registry is good again. -/
theorem close_upholds (lasting : Lasting F) (stable : (contract initial n).Stable A)
    (weaker : ∀ w, A w → Known F w)
    (releases : ∀ {w}, A w → Invariant initial w → OpenClaim n m w → GoodAt initial n w) :
    Upholds initial n A (await (.setRecordStatus m .rolledBack pid error)) (fun _ => Known F)
      (Known F) := by
  refine perform lasting stable weaker (fun _ => stable_known lasting)
    fun {w c r v} a inv allowed step => ?_
  refine ⟨(setStatus_step inv allowed (fun x found _ => ⟨fun other => absurd rfl other, fun _ claim =>
    releases a inv ?_⟩) step).1, fun _ _ => lasting (exec_keeps step).later (weaker _ a)⟩
  exact (inv.recorded found).2 ▸ claim

theorem setState_upholds (lasting : Lasting F) (good : ∀ {h}, F h → GoodState initial h state) :
    Upholds initial n (Known F) (await (.registry (.setState state)))
      (fun _ w => GoodAt initial n w ∧ Known F w) (Known F) :=
  registry_upholds lasting fun known applied => by
    cases applied
    exact good known

theorem rollbackActivation_upholds {replaced started : Bool} {e : Exn} :
    Upholds initial n (Known (Enters initial n request state))
      (rollbackActivation n request state replaced started e) (fun a => Known (Truthful a))
      (Known (Enters initial n request state)) := by
  have lasting := @lasting_enters initial n request state
  refine .bind (quietly lasting (.ite (.tryExcept stopTask_upkeep fun _ => .pure _) (.pure _)))
    fun _ => .bind (quietly lasting (.ite (ifCheckpointExists_performs rfl (.op rfl)) (.pure _))) fun _ =>
      .bind (quietly lasting (ifBackupExists_performs rfl (.op rfl))) fun _ =>
        .bind (setState_upholds lasting (·.2)) fun _ => ?_
  refine .bind (close_upholds lasting (stable_goodAt.and (stable_known lasting))
    (fun _ known => known.2) fun known _ _ => known.1) fun _ => ?_
  refine .bind (quietly lasting cancelBid_upkeep) fun _ => .bind (quietly lasting (.op rfl)) fun _ =>
    .pure (stable_known lasting_truthful) fun _ _ activated => by cases activated

theorem activationTransaction_upholds :
    Upholds initial n (Entered initial n request state)
      (activationTransaction services n request state) (fun a => Known (Truthful a))
      (Known (Enters initial n request state)) :=
  .attempt (entering replaceCheckpoint_upkeep) (fun _ => .attempt claimAndStart_upholds (fun _ =>
    .tryExcept commitActivation_upholds fun _ => rollbackActivation_upholds)
      fun _ => rollbackActivation_upholds) fun _ => rollbackActivation_upholds

/-- What is known of a request and the state that it finds. -/
def Meets (initial : Ownership) (n : NodeId) (request : MigrationActivationRequest)
    (state : TaskRuntimeState) (h : History) : Prop :=
  Begins n request h ∧ (¬ isRetry n request state = true → GoodState initial h state)

theorem lasting_meets : Lasting (Meets initial n request state) :=
  lasting_begun.and (lasting_goodState.imp _)

theorem activateIncoming_upholds (here : request.destinationNodeId = n)
    (begun : Begins n request w.history)
    (settled : isRetry n request (w.nodes n).registry = true ∨ Settled initial n w) :
    SafeAtOnce (exec n) (contract initial n) (endsWith (fun a => Known (Truthful a)) fun _ _ => True)
      (activateIncoming services n request) w := by
  unfold activateIncoming
  rw [if_neg (not_not_intro here)]
  refine .bind (B := fun state => Known (Meets initial n request state)) (getState_atOnce
    (fun _ => lasting_meets) fun inv => ⟨begun, fun fresh => ?_⟩) (fun _ => .top) fun state => ?_
  · exact inv.goodAt (settled.resolve_left fresh)
  have any {A : World → Prop} {B : MigrationActivationResponse → World → Prop} {E : World → Prop}
      {p : Async MigrationActivationResponse} (h : Upholds initial n A p B E) :
      Upholds initial n A p B fun _ => True :=
    h.weaken (fun _ a => a) (fun _ _ b => b) fun _ _ _ => trivial
  have stable {existing} := (@stable_holds initial n request.migrationId existing).and
    (stable_known (@lasting_meets initial n request state))
  refine .bind (B := fun existing w => Holds n request.migrationId existing w ∧
    Known (Meets initial n request state) w) ?_ fun existing => ?_
  · refine (perform lasting_meets (stable_known lasting_meets) (fun _ known => known)
      (fun _ => stable) fun {w c r v} known inv _ step => ?_).weaken (fun _ a => a) (fun _ _ b => b)
        fun _ _ _ => trivial
    rcases exec_journalGet step with ⟨⟨e, -, rfl⟩, rfl⟩ | ⟨rfl, rfl⟩
    · exact ⟨inv, fun _ same => by cases same⟩
    · refine ⟨inv, fun _ same => ⟨?_, known⟩⟩
      cases same
      rfl
  refine .bind ((upkeep stable (mergeRequestPolicy_performs fun _ => rfl)).weaken (fun _ a => a)
    (fun _ _ b => b) fun _ _ _ => trivial) fun _ => .ite (fun _ => ?_) fun fresh => .ite (fun _ => ?_)
      fun notBack => ?_
  · exact answerRetry_upholds.pre fun _ known => ⟨known.1, known.2.1⟩
  · exact .pure (stable_known lasting_truthful) fun _ _ activated => by cases activated
  · exact .bind ((putActivating_upholds notBack).pre fun _ known => ⟨known.1, known.2.1,
      known.2.2 fresh⟩) fun _ => any activationTransaction_upholds

theorem serveActivation_upholds (here : request.destinationNodeId = n)
    (begun : Begins n request w.history)
    (settled : isRetry n request (w.nodes n).registry = true ∨ Settled initial n w) :
    SafeAtOnce (exec n) (contract initial n) (endsWith (fun _ _ => True) fun _ _ => True)
      (serveActivation services n request) w :=
  .bind (activateIncoming_upholds here begun settled) (fun _ => .top) fun _ =>
    (respond_upholds lasting_truthful id).weaken (fun _ a => a) (fun _ _ _ => trivial)
      fun _ _ _ => trivial

end

/-! ## Reconciliation -/

section

variable {record : MigrationRecord} {state : TaskRuntimeState}

/-- An activation that can be taken back. -/
structure Undoable (initial : Ownership) (n : NodeId) (record : MigrationRecord) (h : History) : Prop where
  begun : Begun record.migrationId n record.generation h
  original : match record.originalState with
    | some s => GoodState initial h s
    | none => Committed n record.migrationId record.generation h

theorem lasting_undoable : Lasting (Undoable initial n record) := fun _ _ later known => by
  refine ⟨known.begun.mono later, ?_⟩
  have original := known.original
  split
  · rename_i found
    rw [found] at original
    exact original.mono later
  · rename_i found
    rw [found] at original
    exact original.mono later

/-- An activation that is committed has no open claim. -/
theorem goodAt_of_committed (inv : Invariant initial w) (committed : Committed n m g w.history)
    (claim : OpenClaim n m w) : GoodAt initial n w := by
  obtain ⟨owner, x, found, role, -, generation⟩ := claim
  obtain ⟨mem, rfl⟩ := inv.recorded found
  have same := (inv.sound.agree mem (inv.sound.begun_of_committed committed)).2
  unfold GoodAt GoodState
  rw [owner, ← generation, same]
  exact .inr ⟨_, committed⟩

theorem undoActivation_upholds :
    Upholds initial n (Known (Undoable initial n record)) (undoActivation n record state)
      (fun _ => Known (Undoable initial n record)) (Known (Undoable initial n record)) := by
  have lasting := @lasting_undoable initial n record
  have released : (contract initial n).Stable fun w => (GoodAt initial n w ∨
      Known (Committed n record.migrationId record.generation) w) ∧
        Known (Undoable initial n record) w :=
    (stable_goodAt.or (stable_known lasting_committed)).and (stable_known lasting)
  refine .bind (quietly lasting (.ite (.tryExcept stopTask_upkeep fun _ => .pure _) (.pure _)))
    fun _ => .bind (quietly lasting (ifBackupExists_performs rfl (.bind (ifCheckpointExists_performs rfl (.op rfl))
      fun _ => .op rfl))) fun _ => ?_
  refine .bind (B := fun _ w => (GoodAt initial n w ∨
    Known (Committed n record.migrationId record.generation) w) ∧
      Known (Undoable initial n record) w) ?_ fun _ => ?_
  · unfold restoreState
    cases original : record.originalState with
    | none =>
        refine .pure released fun w known => ⟨.inr ?_, known⟩
        have here := known.original
        rw [original] at here
        exact here
    | some s =>
        refine .bind (setState_upholds lasting fun known => ?_) fun _ =>
          .pure released fun w known => ⟨.inl known.1, known.2⟩
        have here := known.original
        rw [original] at here
        exact here
  · refine .bind ((upkeep released cancelBid_upkeep).weaken (fun _ a => a) (fun _ _ b => b)
      fun _ _ e => e.2) fun _ => .bind ((upkeep released (.op rfl)).weaken (fun _ a => a)
        (fun _ _ b => b) fun _ _ e => e.2) fun _ => ?_
    exact close_upholds lasting released (fun _ known => known.2) fun known inv claim =>
      known.1.elim id fun committed => goodAt_of_committed inv committed claim

/-- An activation is found committed. -/
theorem closeActivated_upholds {pid : Option Pid} (lasting : Lasting F) :
    Upholds initial n (Known F) (await (.setRecordStatus m .activated pid none)) (fun _ => Known F)
      (Known F) := by
  refine perform lasting (stable_known lasting) (fun _ known => known)
    (fun _ => stable_known lasting) fun {w c r v} known inv allowed step => ?_
  exact ⟨(setStatus_step inv allowed (fun x found reopens => ⟨fun _ role back =>
    (inv.recorded found).2 ▸ reopens rfl role back, fun other => by cases other⟩) step).1,
      fun _ _ => lasting (exec_keeps step).later known⟩

theorem reconcileDestinationRecord_upholds :
    Upholds initial n (Known (Undoable initial n record)) (reconcileDestinationRecord n record)
      (fun _ => Known (Undoable initial n record)) (Known (Undoable initial n record)) :=
  .bind (quietly lasting_undoable (.op rfl)) fun _ => .ite (fun _ =>
    .bind (quietly lasting_undoable settleReservation_upkeep) fun _ =>
      closeActivated_upholds lasting_undoable) fun _ => undoActivation_upholds

/-- The departure of a source record. -/
abbrev Left (initial : Ownership) (n : NodeId) (record : MigrationRecord) : History → Prop :=
  Departs initial n record.destinationNodeId record.migrationId record.generation

theorem reconcileSourceRecord_upholds :
    Upholds initial n (Known (Left initial n record)) (reconcileSourceRecord services n record)
      (fun _ => Known (Left initial n record)) (Known (Left initial n record)) := by
  refine .bind (quietly lasting_departs (.op rfl)) fun _ => .ite (fun _ =>
    departed lasting_departs id) fun _ => .ite (fun _ => departed lasting_departs id) fun _ => ?_
  refine .bind (queryRemoteOutcome_upholds lasting_departs (·.begun)) fun outcome =>
    .ite (fun confirmed => ?_) fun _ => Triple.pre (A := Known (Left initial n record))
      (.ite (fun _ => rollbackSourceRecord_upholds lasting_departs id) fun _ =>
        departed lasting_departs id) fun _ known => known.1
  refine (finalizeSourceSuccess_upholds (lasting_departs.and lasting_committed) (·.1) (·.2)).weaken
    (fun _ known => ?_) (fun _ _ b => b.1) fun _ _ e => e.1
  exact ⟨known.1, committed_of_confirms known.2 confirmed⟩

theorem reconcileRecord_upholds (known : Entry initial w.history n record)
    (begun : record.role = .source → Departs initial n record.destinationNodeId record.migrationId
      record.generation w.history) :
    Safe (exec n) (contract initial n) (fun _ _ => True) (reconcileRecord services n record) w := by
  unfold reconcileRecord
  cases role : record.role with
  | source => exact (reconcileSourceRecord_upholds (begun role)).mono fun _ _ _ => trivial
  | destination =>
      exact (reconcileDestinationRecord_upholds ⟨known.begun role, known.original role⟩).mono
        fun _ _ _ => trivial

end

end

end Magellan.Propagation
