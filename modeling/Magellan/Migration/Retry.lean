import Magellan.Coroutine.AtRest
import Magellan.Migration.DestinationCrash

/-!
# The answer to a retried activation

A node answers a repeated request from three fields of its registry, and it writes them before it
starts the workload. The log of its registry operations says what has become of the claim.
-/

namespace Magellan.Retry

open Coroutine Coro MigrationService

/-- The registry operations of node `n`, the last one first. -/
def registryOps (n : NodeId) (log : List LogEntry) : List RegistryOp :=
  log.filterMap fun
    | .registry i op => if i = n then some op else none
    | .journal .. => none

/-- Another claim, and the operations with which a claim is taken back. -/
def endsClaim : RegistryOp → Bool
  | .claimLocal .. | .markStopped | .setState _ => true
  | .restoreOriginal .. | .restoreLocalAfterFailure .. => true
  | _ => false

/-- Migration `m` has claimed the task, and the claim stands. -/
def Claimed (m : MigrationId) : List RegistryOp → Prop
  | [] => False
  | .claimLocal _ m' _ _ _ :: _ => m' = m
  | op :: earlier => endsClaim op = false ∧ Claimed m earlier

/-- The workload was started under the claim of `m`, and the claim stands. -/
def Started (m : MigrationId) : List RegistryOp → Prop
  | [] => False
  | .markRunning .. :: earlier => Claimed m earlier
  | op :: earlier => endsClaim op = false ∧ Started m earlier

/-- What `is_retry` reads: the registry names the hand-over of `m` to `n` with generation `g`. -/
def Names (n : NodeId) (m : MigrationId) (g : Nat) (s : TaskRuntimeState) : Prop :=
  s.lastMigrationId = some m ∧ s.ownerNodeId = n ∧ s.generation = g

/-- The registry of `n` names the hand-over, and no workload runs under it. -/
def Torn (n : NodeId) (m : MigrationId) (g : Nat) (w : World) : Prop :=
  Names n m g (w.nodes n).registry ∧ ¬ Started m (registryOps n w.log)

instance decidableClaimed (m : MigrationId) : (ops : List RegistryOp) → Decidable (Claimed m ops)
  | [] => .isFalse id
  | op :: earlier => by
      have := decidableClaimed m earlier
      cases op <;> (unfold Claimed; infer_instance)

instance decidableStarted (m : MigrationId) : (ops : List RegistryOp) → Decidable (Started m ops)
  | [] => .isFalse id
  | op :: earlier => by
      have := decidableStarted m earlier
      cases op <;> (unfold Started; infer_instance)

section

variable {m : MigrationId} {op : RegistryOp} {ops : List RegistryOp}

theorem Claimed.cons (h : Claimed m ops) (stands : endsClaim op = false) : Claimed m (op :: ops) := by
  cases op <;> first
    | exact ⟨stands, h⟩
    | cases stands

theorem Started.claimed (h : Started m ops) : Claimed m ops := by
  induction ops with
  | nil => exact h
  | cons op ops ih =>
      cases op <;> first
        | exact Claimed.cons h rfl
        | exact (ih h.2).cons h.1

end

theorem isRetry_iff {n : NodeId} {request : MigrationActivationRequest} {s : TaskRuntimeState} :
    isRetry n request s = true ↔ Names n request.migrationId request.generation s := by
  simp [isRetry, Names]

/-! ## What the operations change -/

/-- The part of the registry that a retry is answered from. -/
structure Claim where
  last : Option MigrationId
  owner : NodeId
  generation : Nat

def claimOf (s : TaskRuntimeState) : Claim :=
  ⟨s.lastMigrationId, s.ownerNodeId, s.generation⟩

theorem names_congr {n : NodeId} {m : MigrationId} {g : Nat} {s t : TaskRuntimeState}
    (same : claimOf s = claimOf t) : Names n m g s ↔ Names n m g t := by
  simp only [claimOf, Claim.mk.injEq] at same
  simp [Names, same]

def isRegistryOp : Op → Bool
  | .registry _ => true
  | _ => false

def isRespond : Op → Bool
  | .respond _ => true
  | _ => false

section

variable {n i : NodeId} {o : Op} {c : Choice} {w v : World} {r : Except Exn o.Ret}

theorem registryOps_putState (op : RegistryOp) (state : TaskRuntimeState) :
    registryOps i (w.putState n op state).log =
      if n = i then op :: registryOps i w.log else registryOps i w.log := by
  by_cases same : n = i <;> simp [registryOps, World.putState, World.logged, World.modify, same]

theorem exec_unclaimed (quiet : isRegistryOp o = false) (h : exec n o c w = some (r, v)) :
    claimOf (v.nodes n).registry = claimOf (w.nodes n).registry ∧
      (v.nodes n).registry.status = (w.nodes n).registry.status ∧
      ∀ i, registryOps i v.log = registryOps i w.log := by
  rcases exec_cases h with ⟨e, -, -, -, rfl⟩ | h
  · exact ⟨rfl, rfl, fun _ => rfl⟩
  unfold effect at h
  split at h <;> (try cases quiet) <;> (try simp only [reads, writes, raises, bidResult] at h) <;>
    (try split at h) <;> cases h <;> first
      | exact ⟨rfl, rfl, fun _ => rfl⟩
      | refine ⟨?_, ?_, fun _ => rfl⟩ <;> simp only [World.modify_self, World.putRecord_self] <;> first
          | rfl
          | (unfold Accounting.settleTask; split <;> rfl)

theorem exec_registryOps_ne (ne : n ≠ i) (h : exec n o c w = some (r, v)) :
    registryOps i v.log = registryOps i w.log := by
  by_cases quiet : isRegistryOp o = false
  · exact (exec_unclaimed quiet h).2.2 i
  · cases o with
    | registry op =>
        rcases exec_registry h with ⟨-, rfl⟩ | ⟨-, -, -, ⟨-, -, rfl⟩ | ⟨state, -, rfl⟩⟩
        · rfl
        · rfl
        · rw [registryOps_putState, if_neg ne]
    | _ => exact absurd rfl quiet

theorem exec_responses (quiet : isRespond o = false) (h : exec n o c w = some (r, v)) :
    v.responses = w.responses := by
  rcases exec_cases h with ⟨e, -, -, -, rfl⟩ | h
  · rfl
  unfold effect at h
  split at h <;> (try cases quiet) <;> (try simp only [reads, writes, raises, bidResult] at h) <;>
    (try split at h) <;> cases h <;> rfl

end

/-- The claim and its history are as they were, and nothing has been started. -/
structure Unmoved (n : NodeId) (w v : World) : Prop where
  claim : claimOf (v.nodes n).registry = claimOf (w.nodes n).registry
  running : (v.nodes n).registry.status = .running → (w.nodes n).registry.status = .running
  history : registryOps n v.log = registryOps n w.log

/-- What runs without the lock of the task, and at other nodes, leaves at `n`. -/
structure Tolerated (n : NodeId) (w v : World) : Prop extends Unmoved n w v where
  journal : (v.nodes n).journal = (w.nodes n).journal

theorem Tolerated.of_same {n : NodeId} {w v : World} (state : v.nodes n = w.nodes n)
    (history : registryOps n v.log = registryOps n w.log) : Tolerated n w v := by
  constructor
  · constructor
    · rw [state]
    · rw [state]
      exact id
    · exact history
  · rw [state]

theorem exec_tolerated {n i : NodeId} {o : Op} {c : Choice} {w v : World} {r : Except Exn o.Ret}
    (ne : i ≠ n) (h : exec n o c w = some (r, v)) : Tolerated i w v :=
  .of_same (exec_elsewhere ne h) (exec_registryOps_ne ne.symm h)

/-- An ownership update that reaches the registry of `n`. -/
def isGossipAt (n : NodeId) : Event → Bool
  | .mergeUpdate i _ | .postOwnership i _ => i = n
  | _ => false

theorem tolerated_modify {n i : NodeId} {w : World} {f : NodeState → NodeState}
    (claim : claimOf (f (w.nodes i)).registry = claimOf (w.nodes i).registry)
    (running : (f (w.nodes i)).registry.status = .running →
      (w.nodes i).registry.status = .running)
    (journal : (f (w.nodes i)).journal = (w.nodes i).journal) : Tolerated n w (w.modify i f) := by
  by_cases same : n = i
  · subst same
    have here : (w.modify n f).nodes n = f (w.nodes n) := World.modify_self ..
    constructor
    · constructor
      · rw [here, claim]
      · rw [here]
        exact running
      · rfl
    · rw [here, journal]
  · exact .of_same (World.modify_of_ne w f same) rfl

theorem reconcileRuntime_cases (n : NodeId) (verdict : RuntimeVerdict) (s : NodeState) :
    reconcileRuntime n verdict s = s ∨ ∃ state, reconcileRuntime n verdict s = { s with registry := state } ∧
      claimOf state = claimOf s.registry ∧ state.status ≠ .running := by
  simp only [reconcileRuntime]
  split
  · exact .inl rfl
  cases s.completionMarker with
  | none => exact .inr ⟨_, rfl, rfl, by simp [Registry.markFailed]⟩
  | some marker =>
      cases verdict.invalid with
      | some reason => exact .inr ⟨_, rfl, rfl, by simp [Registry.markFailed]⟩
      | none =>
          simp only [Registry.markCompleted]
          split
          · rename_i completed
            split at completed <;> cases completed
            exact .inr ⟨_, rfl, rfl, by simp⟩
          · exact .inl rfl

theorem event_tolerated {n : NodeId} {e : Event} {w v : World} (quiet : isGossipAt n e = false)
    (h : event e w = some v) : Tolerated n w v := by
  cases e with
  | answerQuery i m =>
      simp only [event] at h
      split at h <;> cases h
      exact .of_same rfl rfl
  | exportSnapshot i =>
      cases h
      exact .of_same rfl rfl
  | mergeUpdate i u =>
      have other : n ≠ i := fun same => by simp [isGossipAt, same] at quiet
      simp only [event] at h
      split at h <;> cases h
      exact .of_same (World.modify_of_ne w _ other) rfl
  | postOwnership i u =>
      have other : n ≠ i := fun same => by simp [isGossipAt, same] at quiet
      simp only [event] at h
      split at h <;> cases h
      exact .of_same (World.modify_of_ne w _ other) rfl
  | cancelReservation i b reason now =>
      simp only [event] at h
      split at h <;> cases h
      exact tolerated_modify rfl id rfl
  | bidStore i now e =>
      cases h
      exact tolerated_modify rfl id rfl
  | settle i input =>
      cases h
      refine tolerated_modify ?_ ?_ rfl <;>
        (unfold Accounting.settleTask; split) <;> first
          | rfl
          | exact id
  | reconcileRuntime i verdict =>
      cases h
      rcases reconcileRuntime_cases i verdict (w.nodes i) with same | ⟨state, changed, claim, ended⟩
      · refine tolerated_modify ?_ ?_ ?_ <;> rw [same]
        exact id
      · refine tolerated_modify ?_ ?_ ?_ <;> rw [changed]
        · exact claim
        · exact fun running => absurd running ended
  | exit i pid marker =>
      simp only [event] at h
      split at h <;> cases h
      exact tolerated_modify rfl id rfl
  | writeCheckpoint i d =>
      simp only [event] at h
      split at h <;> cases h
      exact tolerated_modify rfl id rfl
  | beginPass i =>
      cases h
      exact tolerated_modify rfl id rfl

theorem crash_tolerated (n i : NodeId) (w : World) : Tolerated n w (crash i w) :=
  tolerated_modify rfl id rfl

theorem accept_tolerated {n i : NodeId} {a : Call} {w v : World} (h : accept i a w = some v) :
    Tolerated n w v := by
  cases a with
  | reconcile record =>
      simp only [accept] at h
      split at h <;> cases h
      exact tolerated_modify rfl id rfl
  | _ =>
      simp only [accept] at h
      split at h <;> cases h
      exact .of_same rfl rfl

/-! ## The records of the migration -/

/-- The state that the record of `m` restores does not name the hand-over. -/
def Restores (n : NodeId) (m : MigrationId) (g : Nat) (record : MigrationRecord) : Prop :=
  record.migrationId = m → record.role = .destination ∧
    ∃ state, record.originalState = some state ∧ ¬ Names n m g state

/-- A hand-over that the registry names is in the journal, and its record can take it back. -/
structure Kept (n : NodeId) (m : MigrationId) (g : Nat) (w : World) : Prop where
  journal : ∀ record ∈ (w.nodes n).journal, Restores n m g record
  pass : ∀ record ∈ (w.nodes n).pass, Restores n m g record
  named : Names n m g (w.nodes n).registry → ((w.nodes n).journal.get m).isSome = true

/-- The operations of `n` in the history of `m`, but for the claim itself. -/
def Harmless (n : NodeId) (m : MigrationId) (g : Nat) : Op → Prop
  | .registry (.markRunning ..) | .registry (.markFailed ..) | .registry .markStopped => True
  | .registry (.setState state) => ¬ Names n m g state
  | .registry _ => False
  | .journalPut record => Restores n m g record
  | _ => True

section

variable {n : NodeId} {m : MigrationId} {g : Nat} {w v : World}

theorem mem_put {j : Journal} {record r : MigrationRecord} (h : r ∈ j.put record) :
    r = record ∨ r ∈ j := by
  induction j with
  | nil => exact .inl (List.mem_singleton.mp h)
  | cons x j ih =>
      simp only [Journal.put] at h
      split at h
      · rcases List.mem_cons.mp h with rfl | mem
        · exact .inl rfl
        · exact .inr (List.mem_cons_of_mem _ mem)
      · rcases List.mem_cons.mp h with rfl | mem
        · exact .inr (List.mem_cons_self ..)
        · exact (ih mem).imp_right (List.mem_cons_of_mem _)

theorem isSome_put {j : Journal} {record : MigrationRecord} (h : (j.get m).isSome = true) :
    ((j.put record).get m).isSome = true := by
  rw [Journal.get_put]
  split
  · rfl
  · exact h

theorem Kept.tolerated (h : Kept n m g w) (same : Tolerated n w v)
    (pass : ∀ record ∈ (v.nodes n).pass, Restores n m g record) : Kept n m g v := by
  refine ⟨?_, pass, fun named => ?_⟩
  · rw [same.journal]
    exact h.journal
  · rw [same.journal]
    exact h.named ((names_congr same.claim).mp named)

theorem Kept.putRecord (h : Kept n m g w) {record : MigrationRecord}
    (restores : Restores n m g record) : Kept n m g (w.putRecord n record) := by
  constructor
  · rw [World.putRecord_self]
    intro r mem
    rcases mem_put mem with rfl | mem
    · exact restores
    · exact h.journal r mem
  · rw [World.putRecord_self]
    exact h.pass
  · rw [World.putRecord_self]
    exact fun named => isSome_put (h.named named)

theorem Kept.putState (h : Kept n m g w) (op : RegistryOp) {state : TaskRuntimeState}
    (named : Names n m g state → ((w.nodes n).journal.get m).isSome = true) :
    Kept n m g (w.putState n op state) := by
  constructor
  · rw [World.putState_self]
    exact h.journal
  · rw [World.putState_self]
    exact h.pass
  · rw [World.putState_self]
    exact named

theorem exec_pass {o : Op} {c : Choice} {r : Except Exn o.Ret} (h : exec n o c w = some (r, v)) :
    (v.nodes n).pass = (w.nodes n).pass := by
  rcases exec_cases h with ⟨e, -, -, -, rfl⟩ | h
  · rfl
  unfold effect at h
  split at h <;> (try simp only [reads, writes, raises, bidResult] at h) <;>
    (try split at h) <;> cases h <;> first
      | rfl
      | simp only [World.modify_self, World.putRecord_self, World.putState_self]

theorem claim_apply {op : RegistryOp} {now : Timestamp} {s t : TaskRuntimeState}
    (applied : op.apply n now s = .ok t) (harmless : Harmless n m g (.registry op)) :
    claimOf t = claimOf s ∨ ¬ Names n m g t := by
  cases op with
  | markRunning pid adapter command resumed =>
      simp only [RegistryOp.apply, Registry.markRunning] at applied
      split at applied
      · cases applied
      · split at applied <;> cases applied
        exact .inl rfl
  | markStopped =>
      simp only [RegistryOp.apply, Registry.markStopped] at applied
      cases applied
      first
        | exact .inl rfl
        | exact .inl (by split <;> rfl)
  | markFailed error exitCode =>
      cases applied
      exact .inl rfl
  | setState state =>
      cases applied
      exact .inr harmless
  | _ => exact harmless.elim

theorem exec_kept {o : Op} {c : Choice} {r : Except Exn o.Ret} (h : Kept n m g w)
    (harmless : Harmless n m g o) (step : exec n o c w = some (r, v)) : Kept n m g v := by
  cases o with
  | registry op =>
      rcases exec_registry step with ⟨-, rfl⟩ | ⟨now, -, applied, ⟨e, -, rfl⟩ | ⟨state, rfl, rfl⟩⟩
      · exact h
      · exact h
      · refine h.putState op fun named => h.named ?_
        rcases claim_apply applied harmless with same | unnamed
        · exact (names_congr same).mp named
        · exact absurd named unnamed
  | journalPut record =>
      rcases exec_journalPut step with ⟨-, rfl⟩ | ⟨-, rfl⟩
      · exact h
      · exact h.putRecord harmless
  | setRecordStatus m' status pid error =>
      rcases exec_recordStatus step with ⟨-, rfl⟩ | ⟨-, ⟨-, rfl⟩ | ⟨record, found, rfl⟩⟩
      · exact h
      · exact h
      · exact h.putRecord (h.journal record (List.mem_of_find?_eq_some found))
  | _ =>
      have pass := exec_pass step
      have journal := exec_journal rfl step
      obtain ⟨claim, -, -⟩ := exec_unclaimed rfl step
      refine ⟨?_, ?_, fun named => ?_⟩
      · rw [journal]
        exact h.journal
      · rw [pass]
        exact h.pass
      · rw [journal]
        exact h.named ((names_congr claim).mp named)

end

/-! ## The contract -/

/-- The task runs under the claim of `m`, or did until its process ended. -/
def Live (n : NodeId) (m : MigrationId) (w : World) : Prop := Started m (registryOps n w.log)

/-- The response says that `m` is activated. -/
def Positive (m : MigrationId) (response : MigrationActivationResponse) : Prop :=
  response.migrationId = m ∧ response.activated = true

/-- What `i` has to put up with. -/
def Interference (n i : NodeId) (w v : World) : Prop := i = n → Tolerated n w v

/-- An operation of `i` is tolerated by `n`, and a positive answer of `n` is backed by a started
workload. -/
structure Backed (n : NodeId) (m : MigrationId) (i : NodeId) (w v : World) : Prop where
  others : i ≠ n → Tolerated n w v
  answer : i = n → ∀ response, v.responses = response :: w.responses → Positive m response →
    Live n m w

def contract (allowed : Op → Choice → World → Prop) (n : NodeId) (m : MigrationId) (g : Nat) :
    Contract Op Choice World :=
  ⟨allowed, Interference n n, Kept n m g, Backed n m n⟩

/-- `A` is about the claim and its history. -/
def Steady (n : NodeId) (A : World → Prop) : Prop := ∀ ⦃w v⦄, Unmoved n w v → A w → A v

section

variable {services : Services} {n : NodeId} {m : MigrationId} {g : Nat} {α : Type}
  {allowed : Op → Choice → World → Prop} {request : MigrationActivationRequest}
  {record : MigrationRecord} {A B : World → Prop}

theorem Steady.stable (h : Steady n A) : (contract allowed n m g).Stable A :=
  fun _ _ step a => h (step rfl).toUnmoved a

theorem backed_exec {i : NodeId} {o : Op} {c : Choice} {w v : World} {r : Except Exn o.Ret}
    (quiet : isRespond o = false ∨ i ≠ n) (h : exec i o c w = some (r, v)) : Backed n m i w v := by
  refine ⟨fun ne => exec_tolerated ne.symm h, fun same response answered _ => ?_⟩
  rcases quiet with quiet | ne
  · rw [exec_responses quiet h] at answered
    exact absurd answered.symm (List.cons_ne_self _ _)
  · exact absurd same ne

/-- No answer, and no write that the records could not take back. -/
def Silent (n : NodeId) (m : MigrationId) (g : Nat) (o : Op) : Prop :=
  isRespond o = false ∧ Harmless n m g o

/-- No registry operation either. -/
def Aside (n : NodeId) (m : MigrationId) (g : Nat) (o : Op) : Prop :=
  isRegistryOp o = false ∧ Silent n m g o

def isPlain : Op → Bool
  | .registry _ | .journalPut _ | .respond _ => false
  | _ => true

theorem Aside.of_plain {o : Op} (h : isPlain o = true) : Aside n m g o := by
  cases o <;> first
    | exact ⟨rfl, rfl, trivial⟩
    | cases h

theorem Silent.of_plain {o : Op} (h : isPlain o = true) : Silent n m g o := (Aside.of_plain h).2

theorem silent_op {o : Op} (quiet : Silent n m g o) {B : o.Ret → World → Prop}
    {E : Exn → World → Prop}
    (h : ∀ {c w r v}, A w → allowed o c w → exec n o c w = some (r, v) → endsWith B E r v) :
    OpTriple (exec n) (contract allowed n m g) A o B E :=
  fun _ _ _ _ a inv permitted step =>
    ⟨exec_kept inv quiet.2 step, backed_exec (.inl quiet.1) step, h a permitted step⟩

theorem silent {p : Async α} (quiet : p.Performs (Silent n m g)) :
    Triple (exec n) (contract allowed n m g) A p (fun _ _ => True) fun _ _ => True :=
  (Triple.of_performs .top quiet fun o ok => silent_op ok fun {c w r v} _ _ _ => by
    cases r <;> trivial).pre fun _ _ => trivial

theorem aside {p : Async α} (steady : Steady n A) (quiet : p.Performs (Aside n m g)) :
    Triple (exec n) (contract allowed n m g) A p (fun _ => A) fun _ => A :=
  .of_performs steady.stable quiet fun o ok => silent_op ok.2 fun {c w r v} a _ step => by
    obtain ⟨claim, status, history⟩ := exec_unclaimed ok.1 step
    have a' : A v := steady ⟨claim, fun running => status ▸ running, history n⟩ a
    cases r <;> exact a'

theorem aside_ok {p : Async α} (steady : Steady n A) (quiet : p.Performs (Aside n m g)) :
    Triple (exec n) (contract allowed n m g) A p (fun _ => A) fun _ _ => True :=
  (aside steady quiet).weaken (fun _ h => h) (fun _ _ h => h) fun _ _ _ => trivial

/-! ## The start -/

def Claims (n : NodeId) (m : MigrationId) (w : World) : Prop := Claimed m (registryOps n w.log)

/-- The claim stands and nothing has been started under it. -/
def Fresh (n : NodeId) (m : MigrationId) (w : World) : Prop :=
  Claims n m w ∧ (w.nodes n).registry.status ≠ .running

theorem steady_live : Steady n (Live n m) := fun _ _ same live => by
  unfold Live
  rw [same.history]
  exact live

theorem steady_claims : Steady n (Claims n m) := fun _ _ same claims => by
  unfold Claims
  rw [same.history]
  exact claims

theorem steady_fresh : Steady n (Fresh n m) := fun _ _ same fresh =>
  ⟨steady_claims same fresh.1, fun running => fresh.2 (same.running running)⟩

theorem silent_of_isStartOp {o : Op} (h : LocalProcess.isStartOp o = true) : Silent n m g o := by
  cases o with
  | registry op => cases op <;> first | exact ⟨rfl, trivial⟩ | cases h
  | _ => first | exact ⟨rfl, trivial⟩ | cases h

theorem registry_op {op : RegistryOp} (stable : (contract allowed n m g).Stable A)
    (stableB : (contract allowed n m g).Stable B)
    (h : ∀ {w state now}, A w → op.apply n now (w.nodes n).registry = .ok state →
      B (w.putState n op state) ∧ (Kept n m g w → Kept n m g (w.putState n op state))) :
    Triple (exec n) (contract allowed n m g) A (await (.registry op)) (fun _ => B)
      fun _ _ => True := by
  refine .op stable (fun _ => stableB) (fun _ => .top) fun w c r v a inv _ step => ?_
  have backed : Backed n m n w v := backed_exec (.inl rfl) step
  rcases exec_registry step with ⟨⟨e, -, rfl⟩, rfl⟩ |
    ⟨now, -, applied, ⟨e, rfl, rfl⟩ | ⟨state, rfl, rfl⟩⟩
  · exact ⟨inv, backed, trivial⟩
  · exact ⟨inv, backed, trivial⟩
  · obtain ⟨b, kept⟩ := h a applied
    exact ⟨kept inv, backed, b⟩

theorem track_live {plan : LaunchPlan} {pid : Pid} :
    Triple (exec n) (contract allowed n m g) (Claims n m) (LocalProcess.track plan pid)
      (fun _ => Live n m) fun _ _ => True := by
  refine .attempt (aside_ok steady_claims (.op (.of_plain rfl))) (fun _ => ?_) fun e => ?_
  · refine registry_op steady_claims.stable steady_live.stable fun {w state now} claims applied => ⟨?_, ?_⟩
    · unfold Live
      rw [registryOps_putState, if_pos rfl]
      exact claims
    · refine fun kept => kept.putState _ fun named => kept.named ?_
      rcases claim_apply (n := n) (m := m) (g := g) applied trivial with same | unnamed
      · exact (names_congr same).mp named
      · exact absurd named unnamed
  · refine .bind (silent (.op (.of_plain rfl))) fun _ => .bind (silent (.op (.of_plain rfl)))
      fun exitCode => .bind (silent (.op (silent_of_isStartOp rfl))) fun _ =>
        .raise .top fun _ _ => trivial

theorem launch_live :
    Triple (exec n) (contract allowed n m g) (Claims n m) LocalProcess.launch (fun _ => Live n m)
      fun _ _ => True :=
  .bind (aside_ok steady_claims (.op (.of_plain rfl))) fun _ =>
    .bind (aside_ok steady_claims (.op (.of_plain rfl))) fun _ =>
      .bind (aside_ok steady_claims (.op (.of_plain rfl))) fun _ =>
        .bind (aside_ok steady_claims (.op (.of_plain rfl))) fun _ => track_live

theorem start_live :
    Triple (exec n) (contract allowed n m g) (Fresh n m) (LocalProcess.start n) (fun _ => Live n m)
      fun _ _ => True := by
  refine .bind (aside_ok steady_fresh (.op (.of_plain rfl))) fun _ => .bind
    (B := fun state w => state.status ≠ .running ∧ Claims n m w) ?_ fun state => ?_
  · refine .op steady_fresh.stable (fun _ => (Contract.Stable.const _).and steady_claims.stable)
      (fun _ => .top) (silent_op (.of_plain rfl) fun {c w r v} fresh _ step => ?_)
    rcases exec_getState step with ⟨⟨e, -, rfl⟩, -⟩ | ⟨rfl, rfl⟩
    · trivial
    · exact ⟨fresh.2, fresh.1⟩
  · refine .given fun stopped => .bind (aside_ok steady_claims (.op (.of_plain rfl))) fun _ => ?_
    refine .ite (fun _ => .raise .top fun _ _ => trivial) fun _ => .ite
      (fun _ => .raise .top fun _ _ => trivial) fun _ => ?_
    refine .bind (B := fun _ => Claims n m) (aside_ok steady_claims ?_) fun alive => ?_
    · cases state.pid with
      | none => exact .pure _
      | some pid => exact .op (.of_plain rfl)
    · exact .ite (fun running => absurd running.1 stopped) fun _ => .ite
        (fun _ => .raise .top fun _ _ => trivial) fun _ => launch_live

/-! ## The transaction -/

/-- The journal has a record of the migration. -/
def Opened (n : NodeId) (m : MigrationId) (w : World) : Prop :=
  ((w.nodes n).journal.get m).isSome = true

theorem stable_opened : (contract allowed n m g).Stable (Opened n m) := fun _ _ step opened => by
  unfold Opened
  rw [(step rfl).journal]
  exact opened

theorem still {p : Async α} (stable : (contract allowed n m g).Stable A)
    (quiet : p.Performs fun o => isPlain o = true ∧ o.isJournalWrite = false) :
    Triple (exec n) (contract allowed n m g) A p (fun _ => A) fun _ => A := by
  refine .of_performs stable quiet fun o ok => silent_op (.of_plain ok.1) fun {c w r v} a _ step => ?_
  obtain ⟨claim, status, history⟩ := exec_unclaimed (Aside.of_plain (n := n) (m := m) (g := g) ok.1).1 step
  have tolerated : Tolerated n w v :=
    ⟨⟨claim, fun running => status ▸ running, history n⟩, exec_journal ok.2 step⟩
  have a' : A v := stable (fun _ => tolerated) a
  cases r <;> exact a'

theorem opened_kept {p : Async α}
    (quiet : p.Performs fun o => isPlain o = true ∧ o.isJournalWrite = false) :
    Triple (exec n) (contract allowed n m g) (Opened n m) p (fun _ => Opened n m)
      fun _ _ => True :=
  (still stable_opened quiet).weaken (fun _ h => h) (fun _ _ h => h) fun _ _ _ => trivial

theorem replaceCheckpoint_opened :
    Triple (exec n) (contract allowed n m g) (Opened n m) (replaceCheckpoint request)
      (fun _ => Opened n m) fun _ _ => True := by
  refine opened_kept ?_
  refine .bind (.op ⟨rfl, rfl⟩) fun _ => .bind (.op ⟨rfl, rfl⟩) fun _ =>
    .bind (.ite (.raise _) (.pure _)) fun _ => .bind (.op ⟨rfl, rfl⟩) fun _ => ?_
  exact .bind (.bind (.op ⟨rfl, rfl⟩) fun _ => .ite (.op ⟨rfl, rfl⟩) (.pure _)) fun _ =>
    .bind (.bind (.op ⟨rfl, rfl⟩) fun _ => .ite (.op ⟨rfl, rfl⟩) (.pure _)) fun _ => .op ⟨rfl, rfl⟩

theorem claimAndStart_live (named : request.migrationId = m) :
    Triple (exec n) (contract allowed n m g) (Opened n m) (claimAndStart n request)
      (fun _ => Live n m) fun _ _ => True := by
  subst named
  refine .bind (opened_kept (.op ⟨rfl, rfl⟩)) fun _ => .bind (opened_kept (.op ⟨rfl, rfl⟩)) fun _ =>
    .bind (B := fun _ => Fresh n request.migrationId) ?_ fun _ => start_live
  refine registry_op stable_opened steady_fresh.stable fun {w state now} opened applied => ?_
  simp only [RegistryOp.apply, Registry.claimLocal] at applied
  split at applied <;> cases applied
  refine ⟨⟨?_, ?_⟩, fun kept => kept.putState _ fun _ => opened⟩
  · unfold Claims
    rw [registryOps_putState, if_pos rfl]
    rfl
  · simp

theorem commitActivation_live {runtimeState : TaskRuntimeState} :
    Triple (exec n) (contract allowed n m g) (Live n m)
      (commitActivation services n request runtimeState) (fun _ => Live n m) fun _ _ => True := by
  refine aside_ok steady_live ?_
  refine .bind (mergeRequestPolicy_performs fun _ => .of_plain rfl) fun _ =>
    .bind (.op (.of_plain rfl)) fun _ => .bind (.op (.of_plain rfl)) fun _ => .bind ?_ fun _ =>
      .bind (.op (.of_plain rfl)) fun _ => .pure _
  exact .bind (.op (.of_plain rfl)) fun _ => .ite (.op (.of_plain rfl)) (.pure _)

/-- What an answer to a request for `m` is worth. -/
def Answer (n : NodeId) (m : MigrationId) (response : MigrationActivationResponse) (w : World) :
    Prop := Positive m response → Live n m w

theorem steady_answer {response : MigrationActivationResponse} : Steady n (Answer n m response) :=
  fun _ _ same answer positive => steady_live same (answer positive)

theorem answer_of_rejected {response : MigrationActivationResponse} {w : World}
    (rejected : response.activated = false) : Answer n m response w := fun positive => by
  cases rejected.symm.trans positive.2

theorem Steady.and (h : Steady n A) (h' : Steady n B) : Steady n fun w => A w ∧ B w :=
  fun _ _ same ab => ⟨h same ab.1, h' same ab.2⟩

/-- Every way in which the activation is rolled back ends with `D`. -/
def RollsBack (allowed : Op → Choice → World → Prop) (n : NodeId) (m : MigrationId) (g : Nat)
    (D : World → Prop) : Prop :=
  ∀ (request : MigrationActivationRequest) (originalState : TaskRuntimeState)
    (replaced started : Bool) (e : Exn), request.migrationId = m → ¬ Names n m g originalState →
    Triple (exec n) (contract allowed n m g) (fun _ => True)
      (rollbackActivation n request originalState replaced started e)
      (fun response w => Answer n m response w ∧ D w) fun _ => D

section

variable {D : World → Prop}

theorem activationTransaction_answer (live : ∀ w, Live n m w → D w)
    (undone : RollsBack allowed n m g D) (named : request.migrationId = m)
    {originalState : TaskRuntimeState} (other : ¬ Names n m g originalState) :
    Triple (exec n) (contract allowed n m g) (Opened n m)
      (activationTransaction services n request originalState)
      (fun response w => Answer n m response w ∧ D w) fun _ => D := by
  have undo : ∀ replaced started e, Triple (exec n) (contract allowed n m g) (fun _ => True)
      (rollbackActivation n request originalState replaced started e)
      (fun response w => Answer n m response w ∧ D w) fun _ => D :=
    fun replaced started e => undone request originalState replaced started e named other
  refine .attempt replaceCheckpoint_opened (fun _ => ?_) (undo _ _)
  refine .attempt (claimAndStart_live named) (fun runtimeState => ?_) (undo _ _)
  exact .tryExcept (commitActivation_live.weaken (fun _ h => h)
    (fun _ w run => ⟨fun _ => run, live w run⟩) fun _ _ h => h) (undo _ _)

theorem steady_whole : Steady n fun w => ¬ Torn n m g w := fun w v same whole torn => by
  refine whole ⟨(names_congr same.claim).mp torn.1, ?_⟩
  rw [← same.history]
  exact torn.2

/-- What the activation has read: the registry and the record are as it saw them. -/
structure Seen (n : NodeId) (m : MigrationId) (g : Nat) (state : TaskRuntimeState)
    (existing : Option MigrationRecord) (w : World) : Prop where
  claim : claimOf (w.nodes n).registry = claimOf state
  found : (w.nodes n).journal.get m = existing
  whole : ¬ Torn n m g w
  recorded : Names n m g state → existing.isSome = true

theorem stable_seen {state : TaskRuntimeState} {existing : Option MigrationRecord} :
    (contract allowed n m g).Stable (Seen n m g state existing) := fun _ _ step seen =>
  ⟨(step rfl).claim.trans seen.claim, (congrArg (Journal.get · m) (step rfl).journal).trans seen.found,
    steady_whole (step rfl).toUnmoved seen.whole, seen.recorded⟩

theorem read_seen {state : TaskRuntimeState} :
    Triple (exec n) (contract allowed n m g)
      (fun w => claimOf (w.nodes n).registry = claimOf state ∧ ¬ Torn n m g w)
      (await (.journalGet m)) (Seen n m g state) fun _ w => ¬ Torn n m g w := by
  have steady : Steady n fun w => claimOf (w.nodes n).registry = claimOf state :=
    fun _ _ same claim => same.claim.trans claim
  refine .op (steady.and steady_whole).stable (fun _ => stable_seen) (fun _ => steady_whole.stable)
    fun w c r v a inv _ step => ?_
  have backed : Backed n m n w v := backed_exec (.inl rfl) step
  rcases exec_journalGet step with ⟨⟨e, -, rfl⟩, rfl⟩ | ⟨rfl, rfl⟩
  · exact ⟨inv, backed, a.2⟩
  · exact ⟨inv, backed, a.1, rfl, a.2, fun named => inv.named ((names_congr a.1).mpr named)⟩

/-- A new or reopened record can take back the claim that follows. -/
theorem putRecord_opened {state : TaskRuntimeState} {existing : Option MigrationRecord}
    (named : request.migrationId = m) (other : ¬ Names n m g state) :
    Triple (exec n) (contract allowed n m g) (Seen n m g state existing)
      (putRecord existing (destinationRecord request .activating (some state) none))
      (fun _ => Opened n m) fun _ w => ¬ Torn n m g w := by
  subst named
  cases existing with
  | none =>
      have quiet : Silent n request.migrationId g
          (.journalPut (destinationRecord request .activating (some state) none)) :=
        ⟨rfl, fun _ => ⟨rfl, state, rfl, other⟩⟩
      refine .op stable_seen (fun _ => stable_opened) (fun _ => steady_whole.stable)
        (silent_op quiet fun {c w r v} seen _ step => ?_)
      rcases exec_journalPut step with ⟨⟨e, -, rfl⟩, rfl⟩ | ⟨rfl, rfl⟩
      · exact seen.whole
      · change Opened n _ _
        unfold Opened
        rw [World.putRecord_self, Journal.get_put]
        simp [destinationRecord]
  | some record =>
      refine .op stable_seen (fun _ => stable_opened) (fun _ => steady_whole.stable)
        (silent_op (.of_plain rfl) fun {c w r v} seen _ step => ?_)
      have found : (w.nodes n).journal.get request.migrationId = some record := seen.found
      rcases exec_recordStatus step with ⟨⟨e, -, rfl⟩, rfl⟩ | ⟨rfl, ⟨-, rfl⟩ | ⟨record', -, rfl⟩⟩
      · exact seen.whole
      · change Opened n _ _
        unfold Opened
        rw [found]
        rfl
      · change Opened n _ _
        unfold Opened
        rw [World.putRecord_self]
        exact isSome_put (by rw [found]; rfl)

theorem answerRetry_answer {state : TaskRuntimeState} {record : MigrationRecord} :
    Triple (exec n) (contract allowed n m g) (Live n m) (answerRetry n request state (some record))
      (fun response w => Answer n m response w ∧ Live n m w) fun _ => Live n m :=
  .bind (aside steady_live (.op (.of_plain rfl))) fun _ =>
    .pure (steady_answer.and steady_live).stable fun _ live => ⟨fun _ => live, live⟩

/-- A call that begins where the registry names no unstarted hand-over: a positive answer is backed
by a started workload. -/
theorem activateIncoming_answer (steady : Steady n D) (whole : ∀ w, ¬ Torn n m g w → D w)
    (undone : RollsBack allowed n m g D) (named : request.migrationId = m)
    (same : request.generation = g) :
    Triple (exec n) (contract allowed n m g) (fun w => ¬ Torn n m g w)
      (activateIncoming services n request) (fun response w => Answer n m response w ∧ D w)
      fun _ => D := by
  have live : ∀ w, Live n m w → D w := fun w live => whole w fun torn => torn.2 live
  have rejects : ∀ {response : MigrationActivationResponse}, response.activated = false →
      ∀ {B : World → Prop}, (∀ w, B w → D w) → Triple (exec n) (contract allowed n m g) B
        (pure response) (fun response w => Answer n m response w ∧ D w) fun _ => D :=
    fun rejected _ d => .pure (steady_answer.and steady).stable
      fun w b => ⟨answer_of_rejected rejected, d w b⟩
  have claimed : ∀ state : TaskRuntimeState,
      Steady n fun w => claimOf (w.nodes n).registry = claimOf state :=
    fun _ _ _ same claim => same.claim.trans claim
  refine .ite (fun _ => rejects rfl whole) fun _ => .bind (B := fun state w =>
    claimOf (w.nodes n).registry = claimOf state ∧ ¬ Torn n m g w) ?_ fun state => ?_
  · refine .op steady_whole.stable (fun state => ((claimed state).and steady_whole).stable)
      (fun _ => steady.stable) (silent_op (.of_plain rfl) fun {c w r v} whole' _ step => ?_)
    rcases exec_getState step with ⟨⟨e, -, rfl⟩, rfl⟩ | ⟨rfl, rfl⟩
    · exact whole _ whole'
    · exact ⟨rfl, whole'⟩
  subst named
  refine .bind (B := Seen n request.migrationId g state) (read_seen.weaken (fun _ h => h)
    (fun _ _ h => h) fun _ w h => whole w h) fun existing => ?_
  refine .bind (B := fun _ => Seen n request.migrationId g state existing) ((still stable_seen
    (mergeRequestPolicy_performs fun _ => ⟨rfl, rfl⟩)).weaken (fun _ h => h) (fun _ _ h => h)
      fun _ w seen => whole w seen.whole) fun _ => ?_
  refine .ite (fun retry => ?_) fun fresh => .ite (fun _ => rejects rfl fun w seen => whole w seen.whole)
    fun _ => ?_
  · have names : Names n request.migrationId g state := same ▸ isRetry_iff.mp retry
    cases existing with
    | none => exact .of_false fun w seen => by cases seen.recorded names
    | some record =>
        refine answerRetry_answer.weaken (fun w seen => ?_)
          (fun _ w ends => ⟨ends.1, live w ends.2⟩) fun _ w ran => live w ran
        by_contra dead
        exact seen.whole ⟨(names_congr seen.claim).mpr names, dead⟩
  · have other : ¬ Names n request.migrationId g state := fun names =>
      fresh (isRetry_iff.mpr (same.symm ▸ names))
    exact .bind ((putRecord_opened rfl other).weaken (fun _ h => h) (fun _ _ h => h)
      fun _ w h => whole w h) fun _ => activationTransaction_answer live undone rfl other

theorem serveActivation_answer (steady : Steady n D) (whole : ∀ w, ¬ Torn n m g w → D w)
    (undone : RollsBack allowed n m g D) (named : request.migrationId = m)
    (same : request.generation = g) :
    Triple (exec n) (contract allowed n m g) (fun w => ¬ Torn n m g w)
      (serveActivation services n request) (fun _ => D) fun _ => D := by
  refine .bind (activateIncoming_answer steady whole undone named same) fun response =>
    .op (steady_answer.and steady).stable (fun _ => steady.stable) (fun _ => steady.stable)
      fun w c r v answered inv _ step => ?_
  have harmless : Harmless n m g (.respond response) := trivial
  have kept : Kept n m g v := exec_kept inv harmless step
  rcases exec_cases step with ⟨e, -, may, -⟩ | step
  · cases may
  · cases c <;> cases step
    refine ⟨kept, ⟨fun ne => absurd rfl ne, fun _ response' sent positive => ?_⟩, ?_⟩
    · obtain ⟨rfl, -⟩ := List.cons.inj sent
      exact answered.1 positive
    · have unmoved : Unmoved n w { w with responses := response :: w.responses } :=
        ⟨rfl, id, rfl⟩
      exact steady unmoved answered.2

end

/-! ## The way back -/

/-- The registry names some other hand-over, or none. -/
def Unnamed (n : NodeId) (m : MigrationId) (g : Nat) (w : World) : Prop :=
  ¬ Names n m g (w.nodes n).registry

theorem steady_unnamed : Steady n (Unnamed n m g) := fun _ _ same unnamed named =>
  unnamed ((names_congr same.claim).mp named)

theorem Unnamed.whole {w : World} (h : Unnamed n m g w) : ¬ Torn n m g w := fun torn => h torn.1

/-- The steps that put the checkpoint and the registry back. -/
def isRestoring : Op → Bool
  | .renameFromBackup _ | .registry (.setState _) => true
  | _ => false

/-- No step of the way back raises while the registry names a hand-over that runs nothing. -/
def unbroken (n : NodeId) (m : MigrationId) (g : Nat) (i : NodeId) (o : Op) (c : Choice)
    (w : World) : Prop :=
  i = n → isRestoring o = true → Torn n m g w → ∀ e v, exec n o c w ≠ some (.error e, v)

theorem silent_of_isStopOp {o : Op} (h : LocalProcess.isStopOp o = true) : Silent n m g o := by
  cases o with
  | registry op => cases op <;> first | exact ⟨rfl, trivial⟩ | cases h
  | _ => first | exact ⟨rfl, trivial⟩ | cases h

theorem stopTask_silent : stopTask.Performs (Silent n m g) :=
  .bind (LocalProcess.stop_performs.mono fun _ => silent_of_isStopOp) fun _ => .pure _

theorem ignored {E : Exn → World → Prop} {p : Async Unit} (quiet : p.Performs (Silent n m g)) :
    Triple (exec n) (contract allowed n m g) A (ignoreErrors p) (fun _ _ => True) E :=
  .tryExcept (silent quiet) fun _ => .pure .top fun _ _ => trivial

theorem cancelBid_aside {b : BidId} {reason : String} :
    (ignoreErrors (cancelBid b reason)).Performs (Aside n m g) :=
  .tryExcept (.bind (.op (.of_plain rfl)) fun _ => .pure _) fun _ => .pure _

theorem unfailing {o : Op} {E : Exn → World → Prop} (stable : ∀ e, (contract allowed n m g).Stable (E e))
    (plain : isPlain o = true)
    (succeeds : ∀ {c w e v}, exec n o c w ≠ some (.error e, v)) :
    Triple (exec n) (contract allowed n m g) (fun _ => True) (await o) (fun _ _ => True) E :=
  .op .top (fun _ => .top) stable (silent_op (.of_plain plain) fun {c w r v} _ _ step => by
    cases r with
    | ok a => trivial
    | error e => exact absurd step succeeds)

theorem clearCheckpoint_unfailing {E : Exn → World → Prop}
    (stable : ∀ e, (contract allowed n m g).Stable (E e)) :
    Triple (exec n) (contract allowed n m g) (fun _ => True)
      (ifCheckpointExists (await .removeCheckpoint)) (fun _ _ => True) E := by
  refine .bind (unfailing stable rfl fun step => ?_) fun found => .ite
    (fun _ => unfailing stable rfl fun step => ?_) fun _ => .pure .top fun _ _ => trivial
  · cases (exec_checkpointExists step).1
  · cases (exec_removeCheckpoint step).1

theorem renameFromBackup_whole :
    Triple (exec n) (contract (unbroken n m g n) n m g) (fun _ => True)
      (await (.renameFromBackup m)) (fun _ _ => True) fun _ w => ¬ Torn n m g w := by
  refine .op .top (fun _ => .top) (fun _ => steady_whole.stable)
    (silent_op (.of_plain rfl) fun {c w r v} _ permitted step => ?_)
  cases r with
  | ok a => trivial
  | error e =>
      obtain ⟨claim, status, history⟩ := exec_unclaimed rfl step
      have whole : ¬ Torn n m g w := fun torn => permitted rfl rfl torn e v step
      exact steady_whole ⟨claim, fun running => status ▸ running, history n⟩ whole

theorem setState_unnamed {state : TaskRuntimeState} (other : ¬ Names n m g state) :
    Triple (exec n) (contract (unbroken n m g n) n m g) (fun _ => True)
      (await (.registry (.setState state))) (fun _ => Unnamed n m g) fun _ w => ¬ Torn n m g w := by
  have quiet : Silent n m g (.registry (.setState state)) := ⟨rfl, other⟩
  refine .op .top (fun _ => steady_unnamed.stable) (fun _ => steady_whole.stable)
    (silent_op quiet fun {c w r v} _ permitted step => ?_)
  cases r with
  | error e =>
      have whole : ¬ Torn n m g w := fun torn => permitted rfl rfl torn e v step
      rcases exec_registry step with ⟨-, rfl⟩ | ⟨-, -, -, ⟨-, -, rfl⟩ | ⟨_, eq, -⟩⟩
      · exact whole
      · exact whole
      · cases eq
  | ok state' =>
      rcases exec_registry step with ⟨⟨e, -, eq⟩, -⟩ | ⟨now, -, applied, ⟨_, eq, -⟩ | ⟨state'', eq, rfl⟩⟩
      · cases eq
      · cases eq
      · cases eq
        cases applied
        change Unnamed n m g _
        unfold Unnamed
        rw [World.putState_self]
        exact other

theorem rollsBack_whole :
    RollsBack (unbroken n m g n) n m g fun w => ¬ Torn n m g w := by
  intro request originalState replaced started e named other
  subst named
  have after : ∀ {p : Async Unit}, p.Performs (Aside n request.migrationId g) →
      Triple (exec n) (contract (unbroken n request.migrationId g n) n request.migrationId g)
        (Unnamed n request.migrationId g) p (fun _ => Unnamed n request.migrationId g)
        fun _ w => ¬ Torn n request.migrationId g w := fun quiet =>
    (aside steady_unnamed quiet).weaken (fun _ h => h) (fun _ _ h => h) fun _ _ h => h.whole
  refine .bind (B := fun _ _ => True) (.ite (fun _ => ignored stopTask_silent)
    fun _ => .pure .top fun _ _ => trivial) fun _ => ?_
  refine .bind (B := fun _ _ => True) (.ite (fun _ => clearCheckpoint_unfailing
    fun _ => steady_whole.stable) fun _ => .pure .top fun _ _ => trivial) fun _ => ?_
  refine .bind (B := fun _ _ => True) (.bind (unfailing (fun _ => steady_whole.stable) rfl
    fun step => ?_) fun found => .ite (fun _ => renameFromBackup_whole)
      fun _ => .pure .top fun _ _ => trivial) fun _ => ?_
  · cases (exec_backupExists step).1
  refine .bind (setState_unnamed other) fun _ => .bind (after (.op (.of_plain rfl))) fun _ =>
    .bind (after cancelBid_aside) fun _ => .bind (after (.op (.of_plain rfl))) fun _ => ?_
  exact .pure (steady_answer.and steady_whole).stable fun _ unnamed =>
    ⟨answer_of_rejected rfl, unnamed.whole⟩

theorem rollsBack_true : RollsBack allowed n m g fun _ => True := by
  intro request originalState replaced started e named other
  have quiet : Silent n m g (.registry (.setState originalState)) := ⟨rfl, other⟩
  have plain : ∀ {o : Op}, isPlain o = true → Triple (exec n) (contract allowed n m g)
      (fun _ => True) (await o) (fun _ _ => True) fun _ _ => True := fun h => silent (.op (.of_plain h))
  refine .bind (.ite (fun _ => silent (.tryExcept stopTask_silent fun _ => .pure _))
    fun _ => .pure .top fun _ _ => trivial) fun _ => ?_
  refine .bind (.ite (fun _ => .bind (plain rfl) fun _ => .ite (fun _ => plain rfl)
    fun _ => .pure .top fun _ _ => trivial) fun _ => .pure .top fun _ _ => trivial) fun _ => ?_
  refine .bind (.bind (plain rfl) fun _ => .ite (fun _ => plain rfl)
    fun _ => .pure .top fun _ _ => trivial) fun _ => ?_
  refine .bind (silent (.op quiet)) fun _ => .bind (plain rfl) fun _ =>
    .bind (silent (cancelBid_aside.mono fun _ h => h.2)) fun _ => .bind (plain rfl) fun _ => ?_
  exact .pure (steady_answer.and fun _ _ _ h => h).stable fun _ _ => ⟨answer_of_rejected rfl, trivial⟩

theorem settleReservation_aside :
    (settleReservation record).Performs (Aside n m g) := by
  refine .bind (.op (.of_plain rfl)) fun bid => .tryExcept (.bind ?_ fun bid => .ite
    (.bind (.op (.of_plain rfl)) fun _ => .pure _) (.pure _)) fun _ => .pure _
  exact .ite (.bind (.op (.of_plain rfl)) fun _ => .op (.of_plain rfl)) (.pure _)

theorem reconcileRecord_whole (restores : Restores n m g record) (named : record.migrationId = m) :
    Triple (exec n) (contract (unbroken n m g n) n m g) (fun w => ¬ Torn n m g w)
      (reconcileRecord services n record) (fun _ w => ¬ Torn n m g w) fun _ w => ¬ Torn n m g w := by
  obtain ⟨role, original, saved, other⟩ := restores named
  subst named
  have after : ∀ {p : Async Unit}, p.Performs (Aside n record.migrationId g) →
      Triple (exec n) (contract (unbroken n record.migrationId g n) n record.migrationId g)
        (Unnamed n record.migrationId g) p (fun _ => Unnamed n record.migrationId g)
        fun _ w => ¬ Torn n record.migrationId g w := fun quiet =>
    (aside steady_unnamed quiet).weaken (fun _ h => h) (fun _ _ h => h) fun _ _ h => h.whole
  unfold reconcileRecord
  rw [role]
  refine .bind (aside steady_whole (.op (.of_plain rfl))) fun state => .ite (fun _ => .bind
    (aside steady_whole settleReservation_aside) fun _ => aside steady_whole (.op (.of_plain rfl)))
      fun _ => ?_
  refine .bind (B := fun _ _ => True) (.ite (fun _ => ignored stopTask_silent)
    fun _ => .pure .top fun _ _ => trivial) fun _ => ?_
  refine .bind (B := fun _ _ => True) (.bind (unfailing (fun _ => steady_whole.stable) rfl
    fun step => ?_) fun found => .ite (fun _ => .bind (clearCheckpoint_unfailing fun _ =>
      steady_whole.stable) fun _ => renameFromBackup_whole) fun _ => .pure .top fun _ _ => trivial)
        fun _ => ?_
  · cases (exec_backupExists step).1
  refine .bind (B := fun _ => Unnamed n record.migrationId g) ?_ fun _ => ?_
  · rw [saved]
    exact .bind (setState_unnamed other) fun _ => .pure steady_unnamed.stable fun _ h => h
  · refine .bind (after cancelBid_aside) fun _ => .bind (after (.op (.of_plain rfl))) fun _ => ?_
    exact (after (.op (.of_plain rfl))).weaken (fun _ h => h) (fun _ _ h => h.whole) fun _ _ h => h

theorem reconcileRecord_silent (restores : Restores n m g record)
    (named : record.migrationId = m) :
    (reconcileRecord services n record).Performs (Silent n m g) := by
  obtain ⟨role, original, saved, other⟩ := restores named
  have quiet : Silent n m g (.registry (.setState original)) := ⟨rfl, other⟩
  unfold reconcileRecord
  rw [role]
  refine .bind (.op (.of_plain rfl)) fun state => .ite (.bind (settleReservation_aside.mono
    fun _ h => h.2) fun _ => .op (.of_plain rfl)) ?_
  refine .bind (.ite (.tryExcept stopTask_silent fun _ => .pure _) (.pure _)) fun _ => .bind
    (.bind (.op (.of_plain rfl)) fun _ => .ite (.bind ?_ fun _ => .op (.of_plain rfl)) (.pure _))
      fun _ => .bind ?_ fun _ => ?_
  · exact .bind (.op (.of_plain rfl)) fun _ => .ite (.op (.of_plain rfl)) (.pure _)
  · rw [saved]
    exact .bind (.op quiet) fun _ => .pure _
  · exact .bind (cancelBid_aside.mono fun _ h => h.2) fun _ => .bind (.op (.of_plain rfl))
      fun _ => .op (.of_plain rfl)

end

/-! ## The history of one migration -/

/-- The requests of one migration at `n`, the passes over its record, and everything else in the
cluster but the gossip that reaches the registry of `n`. -/
def retries (n : NodeId) (m : MigrationId) (g : Nat) : ClusterConditions where
  call i a _ := i = n → match a with
    | .migrate _ => False
    | .activate request => request.migrationId = m ∧ request.generation = g
    | .reconcile record => record.migrationId = m
  event e _ := isGossipAt n e = false

/-- No request is taken up while the registry names the hand-over and nothing runs under it. -/
def reconciledFirst (n : NodeId) (m : MigrationId) (g : Nat) : ClusterConditions where
  call i a w := (retries n m g).call i a w ∧
    (i = n → ∀ request, a = .activate request → ¬ Torn n m g w)
  event := (retries n m g).event

/-- No crash falls while the registry names the hand-over and nothing runs under it, and no step of
the way back raises there. -/
def uninterrupted (n : NodeId) (m : MigrationId) (g : Nat) : ClusterConditions where
  call := (retries n m g).call
  event := (retries n m g).event
  crash i w := i = n → ¬ Torn n m g w
  op := unbroken n m g

section

variable {services : Services} {n i : NodeId} {m : MigrationId} {g : Nat} {w v : World}

theorem kept_of_same (h : Kept n m g w) (state : v.nodes n = w.nodes n) : Kept n m g v := by
  constructor
  · rw [state]
    exact h.journal
  · rw [state]
    exact h.pass
  · rw [state]
    exact h.named

theorem accept_kept {a : Call} (h : Kept n m g v) (accepted : accept i a v = some w) :
    Kept n m g w := by
  refine h.tolerated (accept_tolerated accepted) fun record mem => h.pass record ?_
  cases a with
  | reconcile r =>
      simp only [accept] at accepted
      split at accepted <;> cases accepted
      rw [World.modify_nodes] at mem
      split at mem
      · exact List.mem_of_mem_erase mem
      · exact mem
  | _ =>
      simp only [accept] at accepted
      split at accepted <;> cases accepted
      exact mem

theorem crash_kept (h : Kept n m g v) : Kept n m g (crash i v) := by
  refine h.tolerated (crash_tolerated n i v) fun record mem => h.pass record ?_
  unfold crash at mem
  rw [World.modify_nodes] at mem
  split at mem
  · cases mem
  · exact mem

theorem pass_modify {f : NodeState → NodeState} (same : (f (v.nodes i)).pass = (v.nodes i).pass) :
    ((v.modify i f).nodes n).pass = (v.nodes n).pass := by
  rw [World.modify_nodes]
  split
  · rename_i here
    subst here
    exact same
  · rfl

theorem event_kept {e : Event} (h : Kept n m g v) (quiet : isGossipAt n e = false)
    (happened : event e v = some w) : Kept n m g w := by
  refine h.tolerated (event_tolerated quiet happened) ?_
  suffices same : (w.nodes n).pass = (v.nodes n).pass ∨
      ∀ record ∈ (w.nodes n).pass, record ∈ (v.nodes n).pass ∨ record ∈ (v.nodes n).journal by
    rcases same with same | within
    · rw [same]
      exact h.pass
    · exact fun record mem => (within record mem).elim (h.pass record) (h.journal record)
  cases e with
  | beginPass k =>
      cases happened
      refine .inr fun record mem => ?_
      rw [World.modify_nodes] at mem
      split at mem
      · rcases List.mem_append.mp mem with mem | mem
        · exact .inl mem
        · exact .inr (List.mem_filter.mp mem).1
      · exact .inl mem
  | mergeUpdate k u =>
      have other : n ≠ k := fun same => by simp [isGossipAt, same] at quiet
      simp only [event] at happened
      split at happened <;> cases happened
      exact .inl (congrArg NodeState.pass (World.modify_of_ne v _ other))
  | postOwnership k u =>
      have other : n ≠ k := fun same => by simp [isGossipAt, same] at quiet
      simp only [event] at happened
      split at happened <;> cases happened
      exact .inl (congrArg NodeState.pass (World.modify_of_ne v _ other))
  | reconcileRuntime k verdict =>
      cases happened
      refine .inl (pass_modify ?_)
      rcases reconcileRuntime_cases k verdict (v.nodes k) with same | ⟨state, changed, -⟩
      · rw [same]
      · rw [changed]
  | _ =>
      simp only [event] at happened
      first
        | split at happened <;> cases happened
        | cases happened
      first
        | exact .inl rfl
        | exact .inl (pass_modify rfl)

theorem backed_of_same (same : v.responses = w.responses) (tolerated : Tolerated n w v) :
    Backed n m i w v := by
  refine ⟨fun _ => tolerated, fun _ response sent _ => ?_⟩
  rw [same] at sent
  exact absurd sent.symm (List.cons_ne_self _ _)

theorem accept_responses {a : Call} (accepted : accept i a v = some w) :
    w.responses = v.responses := by
  cases a <;> (simp only [accept] at accepted; split at accepted) <;> cases accepted <;> rfl

theorem torn_accept {a : Call} (accepted : accept i a v = some w) : Torn n m g w ↔ Torn n m g v := by
  have same : Tolerated n v w := accept_tolerated accepted
  unfold Torn
  rw [names_congr same.claim, same.history]

theorem elsewhere_safe {allowed : Op → Choice → World → Prop} (ne : i ≠ n) (p : Async Unit) :
    Safe (exec i) ⟨allowed, Interference n i, Kept n m g, Backed n m i⟩ (fun _ _ => True) p w := by
  have keeps : Triple (exec i) ⟨allowed, Interference n i, Kept n m g, Backed n m i⟩
      (fun _ => True) p (fun _ _ => True) fun _ _ => True :=
    .of_performs .top (.of_forall (P := fun _ => True) (fun _ => trivial) p)
      fun o _ w c r v _ inv _ step =>
        ⟨kept_of_same inv (exec_elsewhere ne.symm step), backed_exec (.inr ne) step,
          by cases r <;> trivial⟩
  exact (keeps trivial).mono fun _ _ _ => trivial

theorem restores_of_reconcile {record : MigrationRecord} (h : Kept n m g v)
    (accepted : accept n (.reconcile record) v = some w) : Restores n m g record := by
  simp only [accept] at accepted
  split at accepted
  · exact h.pass record ‹_›
  · cases accepted

theorem answers_verified (services : Services) :
    (cluster services).Verified (reconciledFirst n m g) (Kept n m g) (Interference n) (Backed n m)
      fun _ _ => True where
  trans _ _ := trivial
  interference {i k v w} ne guar := fun here => guar.others (here ▸ ne.symm)
  within _ := trivial
  call {i a v w} inv meets accepted := by
    change accept i a v = some w at accepted
    refine ⟨accept_kept inv accepted, backed_of_same (accept_responses accepted)
      (accept_tolerated accepted), ?_⟩
    by_cases here : i = n
    · subst here
      have within := meets.1 rfl
      cases a with
      | migrate call => exact within.elim
      | activate request =>
          have whole : ¬ Torn i m g w := (torn_accept accepted).not.mpr (meets.2 rfl request rfl)
          exact (serveActivation_answer (fun _ _ _ h => h) (fun _ _ => trivial) rollsBack_true
            within.1 within.2 whole).mono fun _ _ _ => trivial
      | reconcile record =>
          exact (silent (A := fun _ => True) (reconcileRecord_silent
            (restores_of_reconcile inv accepted) within) trivial).mono fun _ _ _ => trivial
    · exact elsewhere_safe here _
  crash inv _ := ⟨crash_kept inv, backed_of_same rfl (crash_tolerated ..)⟩
  event inv quiet happened :=
    ⟨event_kept inv quiet happened, fun _ _ => event_tolerated quiet happened, trivial⟩

theorem uninterrupted_resting (services : Services) :
    (cluster services).Resting (uninterrupted n m g) (Kept n m g) (Interference n) (Backed n m)
      fun i w => i = n → ¬ Torn n m g w where
  interference {i k v w} ne guar := fun here => guar.others (here ▸ ne.symm)
  stable step whole := fun here => steady_whole (step here).toUnmoved (whole here)
  call {i a v w} inv whole meets accepted := by
    change accept i a v = some w at accepted
    refine ⟨accept_kept inv accepted, backed_of_same (accept_responses accepted)
      (accept_tolerated accepted), ?_⟩
    by_cases here : i = n
    · subst here
      have within := meets rfl
      have ready : ¬ Torn i m g w := (torn_accept accepted).not.mpr (whole rfl)
      have ended : ∀ {r : Except Exn Unit} {w : World},
          endsWith (fun _ w => ¬ Torn i m g w) (fun _ w => ¬ Torn i m g w) r w →
          i = i → ¬ Torn i m g w := fun {r w} h _ => by cases r <;> exact h
      cases a with
      | migrate call => exact within.elim
      | activate request =>
          exact (serveActivation_answer steady_whole (fun _ h => h) rollsBack_whole within.1 within.2
            ready).mono fun _ _ => ended
      | reconcile record =>
          exact (reconcileRecord_whole (restores_of_reconcile inv accepted) within ready).mono
            fun _ _ => ended
    · exact (elsewhere_safe here _).mono fun _ _ _ same => absurd same here
  crash {i v} inv whole :=
    ⟨crash_kept inv, backed_of_same rfl (crash_tolerated ..), fun here =>
      steady_whole (crash_tolerated n i v).toUnmoved (whole here)⟩
  event inv quiet happened := ⟨event_kept inv quiet happened, fun _ _ => event_tolerated quiet happened⟩

/-- The response that `n` sends next. -/
def nextAnswer (n : NodeId) (v : ClusterConfig) : Option MigrationActivationResponse :=
  match v.running n with
  | some (.perform (.respond response) _) => some response
  | _ => none

theorem running_of_nextAnswer {v : ClusterConfig} {response : MigrationActivationResponse}
    (h : nextAnswer n v = some response) :
    ∃ k, v.running n = some (.perform (.respond response) k) := by
  unfold nextAnswer at h
  split at h
  · rename_i k busy
    cases h
    exact ⟨k, busy⟩
  · cases h

/-- Node `n` has not heard of the migration. -/
def Unseen (n : NodeId) (m : MigrationId) (w : World) : Prop :=
  (w.nodes n).registry.lastMigrationId ≠ some m ∧
    ∀ record ∈ (w.nodes n).journal ++ (w.nodes n).pass, record.migrationId ≠ m

theorem Unseen.kept (h : Unseen n m w) : Kept n m g w :=
  ⟨fun record mem named => absurd named (h.2 record (List.mem_append_left _ mem)),
    fun record mem named => absurd named (h.2 record (List.mem_append_right _ mem)),
    fun named => absurd named.1 h.1⟩

theorem Unseen.whole (h : Unseen n m w) : ¬ Torn n m g w := fun torn => h.1 torn.1.1

/-- A positive answer means a started workload in every history in which no request is taken up
while the registry names a hand-over that runs nothing. Only a crash in the middle of the
transaction, or a step of its way back that raises, leaves the registry like that. -/
theorem activated_started (services : Services) (n : NodeId) (m : MigrationId) (g : Nat)
    (start : ClusterConfig) (idle : ∀ i, start.running i = none) (unseen : Unseen n m start.world) :
    (∀ v response, (cluster services).Reachable (reconciledFirst n m g) start v →
      nextAnswer n v = some response → response.migrationId = m → response.activated = true →
      Started m (registryOps n v.world.log)) ∧
    ∀ v, (cluster services).Reachable (uninterrupted n m g) start v → v.running n = none →
      ¬ Torn n m g v.world := by
  constructor
  · intro v response reach answer named activated
    have sound := (answers_verified services).reachable unseen.kept idle reach
    obtain ⟨k, busy⟩ := running_of_nextAnswer answer
    obtain ⟨-, backed, -⟩ := sound.safe n _ busy v.world .refl sound.holds (.ok 0) (.ok ())
      { v.world with responses := response :: v.world.responses } trivial rfl
    exact backed.answer rfl response rfl ⟨named, activated⟩
  · intro v reach rests
    have sound := (uninterrupted_resting services).reachable unseen.kept idle
      (fun i _ => unseen.whole) reach
    exact sound.idle n rests rfl

end

/-! ## A retry after a crash -/

/-- The daemon of `b` dies when it has claimed the task; it is up again, and the request is
repeated. -/
def retryScript : List ClusterLabel :=
  [.call "b" (.activate sampleRequest) (.ok 0)] ++ proceed "b" 11 ++
    [.crash "b", .call "b" (.activate sampleRequest) (.ok 0)] ++ proceed "b" 2

set_option maxRecDepth 100000 in
/-- Node `b` answers that the task is activated. It has started nothing, and nothing runs. -/
theorem retry_answersUnstarted : ∃ v u,
    (cluster bareServices).run requestScript sampleCluster = some v ∧
    (cluster bareServices).run retryScript v = some u ∧
    (nextAnswer "b" u).map (fun r => (r.migrationId, r.activated)) = some ("m", true) ∧
    ¬ Started "m" (registryOps "b" u.world.log) ∧ (u.world.nodes "b").processes = [] :=
  System.exists_runs (by decide)

theorem reachable_performs {services : Services} {n : NodeId} {m : MigrationId} {g : Nat}
    {start v v' : ClusterConfig} {labels : List ClusterLabel}
    (reach : (cluster services).Reachable (reconciledFirst n m g) start v)
    (performs : ∀ l ∈ labels, ∃ i c, l = .perform i c)
    (run : (cluster services).run labels v = some v') :
    (cluster services).Reachable (reconciledFirst n m g) start v' := by
  induction labels generalizing v with
  | nil =>
      cases run
      exact reach
  | cons l labels ih =>
      obtain ⟨⟨i, c, rfl⟩, rest⟩ := List.forall_mem_cons.mp performs
      simp only [System.run] at run
      split at run
      · cases run
      · rename_i next stepped
        have meets : System.Meets (cluster services) (reconciledFirst n m g) (.perform i c) v := by
          intro p _
          cases p <;> trivial
        exact ih (.step reach meets stepped) rest run

/-- The request and the checkpoint have reached `b`. -/
def arrived : ClusterConfig where
  world := { sampleCluster.world with
    requests := [sampleRequest]
    incoming := fun i m => if i = "b" ∧ m = "m" then some [("state", "1")] else none }

def activationScript : List ClusterLabel :=
  proceed "b" 11 ++ [.perform "b" (.bindings [])] ++ proceed "b" 3 ++
    [.perform "b" (.plan ⟨"python", [], true⟩)] ++ proceed "b" 1 ++ [.perform "b" (.spawned 7)] ++
    proceed "b" 6

set_option maxRecDepth 100000 in
/-- An activation that goes through is answered and started. -/
theorem activation_answersStarted : ∃ v response,
    nextAnswer "b" v = some response ∧ response.activated = true ∧
    Started "m" (registryOps "b" v.world.log) ∧ (v.world.nodes "b").processes = [7] := by
  have unseen : Unseen "b" "m" arrived.world := by
    constructor
    · decide
    · decide
  have script : ∃ u v, (cluster bareServices).run [.call "b" (.activate sampleRequest) (.ok 0)]
      arrived = some u ∧ (cluster bareServices).run activationScript u = some v ∧
      ((nextAnswer "b" v).any fun r => r.migrationId = "m" ∧ r.activated = true) = true ∧
      (v.world.nodes "b").processes = [7] := System.exists_runs (by decide)
  obtain ⟨u, v, called, run, answers, processes⟩ := script
  obtain ⟨response, answer, said⟩ := Option.any_eq_true _ _ |>.mp answers
  obtain ⟨named, activated⟩ : response.migrationId = "m" ∧ response.activated = true :=
    of_decide_eq_true said
  have meets : System.Meets (cluster bareServices) (reconciledFirst "b" "m" 1)
      (.call "b" (.activate sampleRequest) (.ok 0)) arrived :=
    ⟨⟨fun _ => ⟨rfl, rfl⟩, fun _ _ _ => unseen.whole⟩, fun _ _ => trivial⟩
  have taken : (cluster bareServices).step (.call "b" (.activate sampleRequest) (.ok 0)) arrived =
      some u := by
    simp only [System.run] at called
    split at called
    · cases called
    · cases called
      assumption
  have reach := reachable_performs (.step .refl meets taken) (by
    simp [activationScript, proceed]) run
  exact ⟨v, response, answer, activated, (activated_started bareServices "b" "m" 1 arrived
    (fun _ => rfl) unseen).1 v response reach answer named activated, processes⟩

end Magellan.Retry
