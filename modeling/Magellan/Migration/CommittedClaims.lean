import Magellan.Migration.Absorption
import Magellan.Migration.Propagation
import Magellan.Migration.Retry

/-!
# Committed claims

What runs beside the coroutines keeps the claims too, and so do whole runs: what a node records of
another node is committed there. Where a snapshot is taken of an open claim, it is not.
-/

namespace Magellan.CommittedClaims

open Coroutine Commitment Claims MigrationService Propagation

section

variable {services : Services} {initial : Ownership} {n : NodeId} {w v : World}

/-! ## What runs beside -/

theorem ownership_settleTask (alive : Pid → Bool) (i : Accounting.SettleInput)
    (s : TaskRuntimeState) : (Accounting.settleTask n alive i s).ownership = s.ownership := by
  unfold Accounting.settleTask
  split <;> rfl

theorem ownership_reconcileRuntime (verdict : RuntimeVerdict) (s : NodeState) :
    (reconcileRuntime n verdict s).registry.ownership = s.registry.ownership := by
  unfold reconcileRuntime
  dsimp only
  split
  · rfl
  split
  · split
    · rename_i state completed
      unfold Registry.markCompleted at completed
      split at completed <;> cases completed
      rfl
    · rfl
  · rfl
  · rfl

/-- An update is fenced off, or the node records what it says. -/
theorem mergeUpdate_ownership (u : Registry.OwnershipUpdate) (s : NodeState) :
    (mergeUpdate n u s).registry.ownership = s.registry.ownership ∨
      (mergeUpdate n u s).registry.ownership = ⟨u.generation, u.ownerNodeId⟩ := by
  unfold mergeUpdate
  split
  · exact .inl rfl
  · rename_i state applied
    refine .inr ?_
    have written : state.ownership = ⟨u.generation, u.ownerNodeId⟩ := by
      unfold Registry.applyOwnership at applied
      split_ifs at applied <;> cases applied <;> rfl
    dsimp only
    split
    · exact written
    · exact written

theorem postOwnership_ownership (u : Registry.OwnershipUpdate) (s : NodeState) :
    (postOwnership n u s).registry.ownership = s.registry.ownership ∨
      (postOwnership n u s).registry.ownership = ⟨u.generation, u.ownerNodeId⟩ := by
  unfold postOwnership
  split
  · split <;> exact .inl rfl
  · exact mergeUpdate_ownership u s

/-- A node is changed from outside: its registry stays or becomes good. -/
theorem modify_step {f : NodeState → NodeState} (inv : Invariant initial w)
    (journal : (f (w.nodes n)).journal = (w.nodes n).journal)
    (pass : ∀ r ∈ (f (w.nodes n)).pass, r ∈ (w.nodes n).pass ∨ r ∈ (w.nodes n).journal)
    (registry : (f (w.nodes n)).registry.ownership = (w.nodes n).registry.ownership ∨
      GoodState initial w.history (f (w.nodes n)).registry) :
    Invariant initial (w.modify n f) ∧ ∀ i, Rely initial i w (w.modify n f) := by
  have rely (i : NodeId) : Rely initial i w (w.modify n f) := by
    by_cases here : i = n
    · subst here
      refine ⟨List.suffix_refl _, ?_, ?_⟩
      · rw [World.modify_self]
        exact journal
      · unfold GoodAt
        rw [World.modify_self]
        exact registry
    · have same := w.modify_of_ne f here
      exact ⟨List.suffix_refl _, by rw [same], .inl (by rw [same])⟩
  refine ⟨⟨inv.sound, fun {i r} mem => ?_, fun {i r} mem => ?_, fun {i m} back => ?_, inv.mail,
    fun i => (rely i).claims (inv.claims i)⟩, rely⟩
  · rw [(rely i).journal] at mem
    exact inv.journals mem
  · by_cases here : i = n
    · subst here
      rw [World.modify_self] at mem
      exact (pass r mem).elim inv.passes inv.journals
    · rw [w.modify_of_ne f here] at mem
      exact inv.passes mem
  · rw [(rely i).journal]
    exact inv.latest back

theorem same_step {f : NodeState → NodeState} (inv : Invariant initial w)
    (journal : (f (w.nodes n)).journal = (w.nodes n).journal)
    (pass : (f (w.nodes n)).pass = (w.nodes n).pass)
    (ownership : (f (w.nodes n)).registry.ownership = (w.nodes n).registry.ownership) :
    Invariant initial (w.modify n f) ∧ ∀ i, Rely initial i w (w.modify n f) :=
  modify_step inv journal (fun _ mem => .inl (pass ▸ mem)) (.inl ownership)

/-- An update that has been published reaches the registry of `n`. -/
theorem gossip_step {f : NodeState → NodeState} {u : Registry.OwnershipUpdate}
    (inv : Invariant initial w) (published : u ∈ w.updates)
    (journal : (f (w.nodes n)).journal = (w.nodes n).journal)
    (pass : (f (w.nodes n)).pass = (w.nodes n).pass)
    (ownership : (f (w.nodes n)).registry.ownership = (w.nodes n).registry.ownership ∨
      (f (w.nodes n)).registry.ownership = ⟨u.generation, u.ownerNodeId⟩) :
    Invariant initial (w.modify n f) ∧ ∀ i, Rely initial i w (w.modify n f) := by
  refine modify_step inv journal (fun _ mem => .inl (pass ▸ mem)) (ownership.imp id fun same => ?_)
  obtain ⟨generation, owner⟩ := (Ownership.mk.injEq ..).mp same
  unfold GoodState
  rw [generation, owner]
  exact inv.mail.updates u published

theorem mergeUpdate_pass (u : Registry.OwnershipUpdate) (s : NodeState) :
    (mergeUpdate n u s).pass = s.pass := by
  unfold mergeUpdate
  split <;> rfl

theorem postOwnership_pass (u : Registry.OwnershipUpdate) (s : NodeState) :
    (postOwnership n u s).pass = s.pass := by
  unfold postOwnership
  split
  · split_ifs <;> rfl
  · exact mergeUpdate_pass u s

theorem reconcileRuntime_pass (verdict : RuntimeVerdict) (s : NodeState) :
    (reconcileRuntime n verdict s).pass = s.pass := by
  unfold reconcileRuntime
  dsimp only
  split
  · rfl
  split
  · split <;> rfl
  · rfl
  · rfl

/-- A message is sent that says nothing but what is good. -/
theorem mail_step (inv : Invariant initial w) (nodes : v.nodes = w.nodes) (log : v.log = w.log)
    (good : (mail v).Good initial w.history) :
    Invariant initial v ∧ ∀ i, Rely initial i w v := by
  have history : v.history = w.history := by
    unfold World.history
    rw [log]
  exact ⟨invariant_mail inv nodes log good, fun i =>
    ⟨history ▸ List.suffix_refl _, by rw [nodes], .inl (by rw [nodes])⟩⟩

theorem event_step {e : Event} (inv : Invariant initial w)
    (meets : (claimsStayHome initial).event e w) (happened : event e w = some v) :
    Invariant initial v ∧ ∀ i, Rely initial i w v := by
  cases e with
  | answerQuery d m =>
      simp only [event] at happened
      split at happened <;> cases happened
      refine mail_step inv rfl rfl ⟨inv.mail.requests, inv.mail.responses, fun {d' m' r} mem => ?_,
        inv.mail.updates⟩
      rcases List.mem_cons.mp mem with same | sent
      · obtain ⟨rfl, same⟩ := Prod.mk.inj same
        obtain ⟨rfl, found⟩ := Prod.mk.inj same
        exact inv.recorded found.symm
      · exact inv.mail.answers sent
  | exportSnapshot i =>
      cases happened
      refine mail_step inv rfl rfl ⟨inv.mail.requests, inv.mail.responses, inv.mail.answers, ?_⟩
      exact List.forall_mem_cons.mpr ⟨inv.goodAt meets, inv.mail.updates⟩
  | mergeUpdate i u =>
      simp only [event] at happened
      split at happened <;> cases happened
      exact gossip_step inv ‹_› (Absorption.mergeUpdate_journal u _) (mergeUpdate_pass u _)
        (mergeUpdate_ownership u _)
  | postOwnership i u =>
      simp only [event] at happened
      split at happened <;> cases happened
      exact gossip_step inv ‹_› (Absorption.postOwnership_journal u _) (postOwnership_pass u _)
        (postOwnership_ownership u _)
  | settle i input =>
      cases happened
      exact same_step inv rfl rfl (ownership_settleTask _ input _)
  | reconcileRuntime i verdict =>
      cases happened
      exact same_step inv (Absorption.reconcileRuntime_journal verdict _)
        (reconcileRuntime_pass verdict _) (ownership_reconcileRuntime verdict _)
  | beginPass i =>
      cases happened
      refine modify_step inv rfl (fun r mem => ?_) (.inl rfl)
      exact (List.mem_append.mp mem).imp id fun listed => (List.mem_filter.mp listed).1
  | cancelReservation =>
      simp only [event] at happened
      split at happened <;> cases happened
      exact same_step inv rfl rfl rfl
  | bidStore =>
      cases happened
      exact same_step inv rfl rfl rfl
  | exit =>
      simp only [event] at happened
      split at happened <;> cases happened
      exact same_step inv rfl rfl rfl
  | writeCheckpoint =>
      simp only [event] at happened
      split at happened <;> cases happened
      exact same_step inv rfl rfl rfl

/-! ## Runs -/

theorem propagation_verified (services : Services) :
    (cluster services).VerifiedAtOnce (claimsStayHome initial) (Invariant initial) (Rely initial)
      Keeps fun _ _ => True where
  trans _ _ := trivial
  interference ne keeps := keeps.rely ne
  within _ := trivial
  call {n a v w} inv meets accepted := by
    change accept n a v = some w at accepted
    cases a with
    | migrate call =>
        simp only [accept] at accepted
        split at accepted <;> cases accepted
        rename_i new
        exact ⟨inv, ⟨List.suffix_refl _, fun _ _ => rfl⟩, .mono (.bind (C := fun _ _ => True)
          (migrate_upholds new.2 meets) (fun _ => .top) fun _ => .pure .top fun _ _ => trivial)
            fun _ _ _ => trivial⟩
    | activate request =>
        simp only [accept] at accepted
        split at accepted <;> cases accepted
        rename_i sent
        refine ⟨inv, ⟨List.suffix_refl _, fun _ _ => rfl⟩, .mono (serveActivation_upholds sent.2 ?_
          meets) fun _ _ _ => trivial⟩
        have begun := inv.mail.requests request sent.1
        rwa [sent.2] at begun
    | reconcile record =>
        simp only [accept] at accepted
        split at accepted <;> cases accepted
        rename_i held
        have mem := inv.passes held
        let f (s : NodeState) : NodeState := { s with pass := s.pass.erase record }
        have held : Invariant initial (v.modify n f) ∧ ∀ i, Rely initial i v (v.modify n f) :=
          modify_step inv rfl (fun r mem => .inl (List.mem_of_mem_erase mem)) (.inl rfl)
        have safe : Safe (exec n) (contract initial n) (fun _ _ => True)
            (reconcileRecord services n record) (v.modify n f) :=
          reconcileRecord_upholds (inv.sound.entries mem) fun role =>
            departs_of_entry inv.sound mem role
        exact ⟨held.1, ⟨List.suffix_refl _, fun i ne => v.modify_of_ne f ne⟩, safe.atOnce⟩
  crash {n v} inv _ := by
    let f (s : NodeState) : NodeState := { s with starting := none, pass := [] }
    have lost : Invariant initial (v.modify n f) ∧ ∀ i, Rely initial i v (v.modify n f) :=
      modify_step inv rfl (fun r mem => by cases mem) (.inl rfl)
    exact ⟨lost.1, List.suffix_refl _, fun i ne => v.modify_of_ne f ne⟩
  event inv meets happened := by
    obtain ⟨inv', rely⟩ := event_step inv meets happened
    exact ⟨inv', rely, trivial⟩

/-- Nothing has been migrated, and every node records the same ownership. -/
structure Fresh (initial : Ownership) (w : World) : Prop where
  log : w.log = []
  journals : ∀ n, (w.nodes n).journal = [] ∧ (w.nodes n).pass = []
  mail : w.requests = [] ∧ w.responses = [] ∧ w.answers = [] ∧ w.updates = []
  ownerships : ∀ n, (w.nodes n).registry.ownership = initial

theorem Fresh.invariant (fresh : Fresh initial w) : Invariant initial w := by
  have none : w.history = [] := by
    unfold World.history
    rw [fresh.log]
    rfl
  obtain ⟨requests, responses, answers, updates⟩ := fresh.mail
  constructor
  · rw [none]
    exact ⟨fun ⟨_, mem, _⟩ => absurd mem List.not_mem_nil, fun mem => absurd mem List.not_mem_nil⟩
  · intro n r mem
    rw [(fresh.journals n).1] at mem
    cases mem
  · intro n r mem
    rw [(fresh.journals n).2] at mem
    cases mem
  · rintro n m ⟨e, mem, -⟩
    rw [none] at mem
    cases mem
  · unfold Claims.mail
    rw [requests, responses, answers, updates]
    exact ⟨fun _ mem => absurd mem List.not_mem_nil, fun _ mem => absurd mem List.not_mem_nil,
      fun mem => absurd mem List.not_mem_nil, fun _ mem => absurd mem List.not_mem_nil⟩
  · exact fun n => .inl (.inl (fresh.ownerships n).symm)

/-- What a node may record: a generation that its owner has committed, or its own open claim. -/
def Justified (initial : Ownership) (n : NodeId) (w : World) : Prop :=
  GoodAt initial n w ∨
    ((w.nodes n).registry.ownerNodeId = n ∧ ∃ r ∈ (w.nodes n).journal, r.role = .destination ∧
      r.status.isTerminal = false ∧ r.generation = (w.nodes n).registry.generation)

/-- In every run in which claims stay home until they are committed, a node that records another
owner records a generation that this owner has committed. The only claim that is not committed is
held by the node that makes it, while its record is open. -/
theorem recorded_claims_are_committed (services : Services) {start v : ClusterConfig}
    (idle : ∀ n, start.running n = none) (fresh : Fresh initial start.world)
    (reach : (cluster services).Reachable (claimsStayHome initial) start v) (n : NodeId) :
    Justified initial n v.world := by
  have inv := ((propagation_verified services).reachable fresh.invariant idle reach).holds
  rcases inv.claims n with good | ⟨m, owner, r, found, role, open_, generation⟩
  · exact .inl good
  · exact .inr ⟨owner, r, List.mem_of_find?_eq_some found, role, open_, generation⟩

end

/-! ## A snapshot of an open claim -/

/-- What `b` publishes once it has claimed the task. -/
def claimUpdate : Registry.OwnershipUpdate where
  ownerNodeId := "b"
  generation := 1
  lastMigrationId := some "m"
  migrationAtUtc := some 0
  finalOutputBytes := some 0
  accounting := some {}

/-- Node `b` claims the task, and its snapshot reaches `c`. Then the start fails, and `b` rolls the
activation back. -/
def leakScript : List ClusterLabel :=
  [.call "b" (.activate sampleRequest) (.ok 0)] ++ proceed "b" 11 ++
    [.event (.exportSnapshot "b"), .event (.mergeUpdate "c" claimUpdate),
      .perform "b" (.fail ⟨.osError, "No space left on device"⟩)] ++ proceed "b" 8

set_option maxRecDepth 100000 in
/-- Node `c` records the claim of `b`, which `b` has never committed. -/
theorem snapshot_spreadsClaim : ∃ v u,
    (cluster bareServices).run requestScript sampleCluster = some v ∧
    (cluster bareServices).run leakScript v = some u ∧
    (u.world.nodes "b").registry.ownership = ⟨0, "a"⟩ ∧
    ((u.world.nodes "b").journal.get "m").map (·.status) = some .rolledBack ∧
    (u.world.nodes "c").registry.ownership = ⟨1, "b"⟩ ∧ ¬ Justified ⟨0, "a"⟩ "c" u.world := by
  have script : ∃ v u, (cluster bareServices).run requestScript sampleCluster = some v ∧
      (cluster bareServices).run leakScript v = some u ∧
      (u.world.nodes "b").registry.ownership = ⟨0, "a"⟩ ∧
      ((u.world.nodes "b").journal.get "m").map (·.status) = some .rolledBack ∧
      (u.world.nodes "c").registry.ownership = ⟨1, "b"⟩ ∧
      (u.world.history.all fun e => decide (e.2.status ≠ .activated)) = true :=
    System.exists_runs (by decide)
  obtain ⟨v, u, run, run', owner, status, recorded, never⟩ := script
  refine ⟨v, u, run, run', owner, status, recorded, ?_⟩
  obtain ⟨generation, owner⟩ := (Ownership.mk.injEq ..).mp recorded
  unfold Justified GoodAt GoodState
  rw [owner, generation]
  rintro ((first | ⟨m, committed⟩) | ⟨here, -⟩)
  · exact absurd first (by decide)
  · obtain ⟨r, mem, -, -, -, activated⟩ := committed.exists_write
    exact absurd activated (of_decide_eq_true (List.all_eq_true.mp never _ mem))
  · exact absurd here (by decide)

/-- No claim of `n` is open but for migrations other than `m`. -/
def isSettled (n : NodeId) (w : World) : Bool :=
  (w.nodes n).registry.ownerNodeId ≠ n ∨ (w.nodes n).registry.ownership = ⟨0, "a"⟩ ∨
    Committed n "m" (w.nodes n).registry.generation w.history

/-- The next write of a coroutine meets the conditions. -/
def writesWell (n : NodeId) (p : Async Unit) (w : World) : Bool :=
  match p with
  | .perform (.journalPut record) _ => record.role = .destination ∨ w.isFresh record.migrationId
  | .perform (.setRecordStatus m .activated _ _) _ =>
      ((w.nodes n).journal.get m).all (·.status ≠ .rolledBack)
  | _ => true

/-- A test of the conditions, by evaluation. -/
def staysHome : ClusterLabel → ClusterConfig → Bool
  | .call n (.migrate _) _, cfg => isSettled n cfg.world
  | .call n (.activate request) _, cfg => request.destinationNodeId = n ∧ isSettled n cfg.world
  | .call _ (.reconcile _) _, _ => false
  | .perform n _, cfg => (cfg.running n).all fun p => writesWell n p cfg.world
  | .event (.exportSnapshot n), cfg => isSettled n cfg.world
  | _, _ => true

theorem settled_of_isSettled {n : NodeId} {w : World} (h : isSettled n w = true) :
    Settled ⟨0, "a"⟩ n w := by
  intro owner
  unfold GoodAt GoodState
  rcases of_decide_eq_true h with other | first | committed
  · exact absurd owner other
  · exact .inl first.symm
  · rw [owner]
    exact .inr ⟨"m", committed⟩

theorem meets_of_writesWell {n : NodeId} {c : Choice} {p : Async Unit} {w : World}
    (h : writesWell n p w = true) : System.Meets.first (claimsStayHome ⟨0, "a"⟩) n c p w := by
  cases p with
  | done r => trivial
  | perform o k =>
      cases o with
      | journalPut record =>
          intro role
          rcases of_decide_eq_true h with other | fresh
          · cases role.symm.trans other
          · exact fresh
      | setRecordStatus m status pid error =>
          cases status with
          | activated =>
              intro r found _ back
              have here : ((w.nodes n).journal.get m).all (·.status ≠ .rolledBack) = true := h
              rw [found] at here
              exact absurd back (of_decide_eq_true here)
          | _ => trivial
      | _ => trivial

theorem meets_of_staysHome {services : Services} (l : ClusterLabel) (cfg : ClusterConfig)
    (h : staysHome l cfg = true) : (cluster services).Meets (claimsStayHome ⟨0, "a"⟩) l cfg := by
  cases l with
  | call n a c =>
      cases a with
      | migrate call => exact ⟨settled_of_isSettled h, fun _ _ => trivial⟩
      | activate request =>
          obtain ⟨here, settled⟩ := of_decide_eq_true h
          refine ⟨.inr (settled_of_isSettled settled), fun w _ => ?_⟩
          change System.Meets.first _ n c (serveActivation services n request) w
          unfold serveActivation activateIncoming
          rw [if_neg (not_not_intro here)]
          trivial
      | reconcile record => cases h
  | perform n c =>
      intro p busy
      refine meets_of_writesWell ?_
      have test : (cfg.running n).all (fun p => writesWell n p cfg.world) = true := h
      rwa [busy] at test
  | crash n => trivial
  | event e =>
      cases e with
      | exportSnapshot n => exact settled_of_isSettled h
      | _ => trivial

/-- The activation goes through, and then the snapshot of `b` reaches `c`. -/
def shareScript : List ClusterLabel :=
  [.call "b" (.activate sampleRequest) (.ok 0)] ++ Retry.activationScript ++ proceed "b" 1 ++
    [.event (.exportSnapshot "b"), .event (.mergeUpdate "c" claimUpdate)]

set_option maxRecDepth 100000 in
theorem recorded_claims_are_committed_sample : ∃ v,
    (cluster bareServices).run (requestScript ++ shareScript) sampleCluster = some v ∧
    (v.world.nodes "c").registry.ownership = ⟨1, "b"⟩ ∧ Justified ⟨0, "a"⟩ "c" v.world := by
  have script : ((cluster bareServices).runChecked staysHome (requestScript ++ shareScript)
      sampleCluster).any (fun v => (v.world.nodes "c").registry.ownership = ⟨1, "b"⟩) = true := by
    decide
  obtain ⟨v, run, recorded⟩ := Option.any_eq_true _ _ |>.mp script
  have reach := System.reachable_of_runChecked _ (claimsStayHome ⟨0, "a"⟩) meets_of_staysHome .refl run
  refine ⟨v, System.run_of_runChecked _ run, of_decide_eq_true recorded, ?_⟩
  refine recorded_claims_are_committed bareServices (fun _ => rfl) ⟨rfl, fun _ => ⟨rfl, rfl⟩,
    ⟨rfl, rfl, rfl, rfl⟩, fun _ => ?_⟩ reach "c"
  rfl

end Magellan.CommittedClaims
