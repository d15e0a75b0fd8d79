import Magellan.Artifacts.Intact
import Magellan.Coroutine.System

/-!
# Prefetching the artifacts of a task

The source of a migration asks the destination which artifacts it lacks, copies each of them into
the destination's incoming directory and has it committed there. Other migrations do the same, and
the managers of all nodes import, validate and stage in between.
-/

namespace Magellan.Artifacts

open Coroutine

variable {Content FileHash Digest : Type}

/-! ## Peers -/

inductive PrefetchError (Digest : Type) where
  /-- The source cannot provide the artifacts of the task. -/
  | ensure (e : Failure Digest)
  | missingCache (digest : Digest)
  /-- A request, an answer or a copy is lost. -/
  | connection
  | notCommitted (e : Failure Digest)

/-- What a caller of `prefetch` gets. -/
structure Prefetch (Digest : Type) where
  migrationId : MigrationId
  taskId : TaskId
  source : NodeId
  destination : NodeId
  outcome : Except (PrefetchError Digest) (List (ArtifactBinding Digest))

structure Peers (Content FileHash Digest : Type) where
  stores : NodeId → Store Content FileHash Digest := fun _ => ⟨fun _ => none, fun _ _ => none,
    fun _ => [], fun _ => .empty, []⟩
  drawn : List MigrationId := []
  ended : List (Prefetch Digest) := []

def Peers.set (peers : Peers Content FileHash Digest) (n : NodeId)
    (s : Store Content FileHash Digest) : Peers Content FileHash Digest :=
  { peers with stores := Function.update peers.stores n s }

inductive PeerOp (Digest : Type) where
  | ensureTaskArtifacts (n : NodeId) (taskId : TaskId)
  | hasArtifact (n : NodeId) (digest : Digest)
  | send (digest : Digest) (source destination : NodeId) (migrationId : MigrationId)
  | takeIncoming (n : NodeId) (migrationId : MigrationId) (digest : Digest)
  | validateTaken (n : NodeId) (digest : Digest) (published : Bool)
  | ended (p : Prefetch Digest)

def PeerOp.Ret : PeerOp Digest → Type
  | .ensureTaskArtifacts _ _ => List (ArtifactBinding Digest)
  | .hasArtifact _ _ => Bool
  | .takeIncoming _ _ _ => Bool
  | _ => Unit

/-- What becomes of an operation. -/
inductive Weather (Content FileHash Digest : Type) where
  | runs (w : Surroundings Content Digest)
  /-- It does not get through; `left` is what a copy leaves behind. -/
  | fails (left : Option (Entry Content FileHash Digest))
  /-- It is done, and its answer is lost. -/
  | lost (w : Surroundings Content Digest)

def Weather.Steady (definition : TaskId → List StaticArtifactSpec) :
    Weather Content FileHash Digest → Prop
  | .runs w | .lost w => Artifacts.Steady definition w
  | .fails _ => True

section

variable [DecidableEq FileHash] [DecidableEq Digest]

/-! ## The commit of a copy

`commit_incoming` publishes the directory and then reads it; a status request is answered at any
time in between.
-/

def Store.takeIncoming (s : Store Content FileHash Digest) (migrationId : MigrationId)
    (digest : Digest) : Result Content FileHash Digest Bool :=
  match s.incoming migrationId digest with
  | none => (.error (.noIncoming migrationId digest), s)
  | some entry =>
      if (s.cache digest).isSome then (.ok false, s.receive migrationId digest none)
      else (.ok true, (s.receive migrationId digest none).publish digest (some entry))

def Store.validateTaken (h : Hashes Content FileHash Digest) (w : Surroundings Content Digest)
    (s : Store Content FileHash Digest) (digest : Digest) (published : Bool) :
    Result Content FileHash Digest Unit :=
  match s.validateCache h w digest with
  | (.ok _, s) => (.ok (), s)
  | (.error e, s) => (.error e, if published then s.publish digest none else s)

/-- With nothing in between the two steps are `commit_incoming`. -/
theorem Store.commitIncoming_steps (h : Hashes Content FileHash Digest)
    (w : Surroundings Content Digest) (s : Store Content FileHash Digest) (migrationId : MigrationId)
    (digest : Digest) : (s.commitIncoming h w migrationId digest).2 =
      match s.takeIncoming migrationId digest with
      | (.error _, s) => s
      | (.ok published, s) => (s.validateTaken h w digest published).2 := by
  unfold Store.commitIncoming Store.takeIncoming
  cases s.incoming migrationId digest with
  | none => rfl
  | some entry =>
      cases (s.cache digest).isSome with
      | true =>
          simp only [if_true, Store.validateTaken]
          split <;> simp_all
      | false =>
          simp only [Bool.false_eq_true, if_false, Store.validateTaken]
          split <;> simp_all

/-! ## Operations -/

def answer {α : Type} (n : NodeId) (error : Failure Digest → PrefetchError Digest)
    (peers : Peers Content FileHash Digest) (r : Result Content FileHash Digest α) :
    Except (PrefetchError Digest) α × Peers Content FileHash Digest :=
  (r.1.mapError error, peers.set n r.2)

def execPeer (h : Hashes Content FileHash Digest) :
    Semantics (PeerOp Digest) PeerOp.Ret (PrefetchError Digest) (Weather Content FileHash Digest)
      (Peers Content FileHash Digest)
  | .ensureTaskArtifacts n taskId, .runs w, peers =>
      some (answer n .ensure peers ((peers.stores n).ensureTaskArtifacts h w taskId))
  | .hasArtifact n digest, .runs w, peers =>
      some (((peers.stores n).hasArtifact h w digest).mapError fun _ => .connection, peers)
  | .send digest source destination migrationId, .runs _, peers =>
      match (peers.stores source).cache digest with
      | none => some (.error (.missingCache digest), peers)
      | some entry => some (.ok (),
          peers.set destination ((peers.stores destination).receive migrationId digest (some entry)))
  | .send digest source destination migrationId, .fails left, peers =>
      match (peers.stores source).cache digest with
      | none => some (.error (.missingCache digest), peers)
      | some _ => some (.error .connection,
          peers.set destination ((peers.stores destination).receive migrationId digest left))
  | .takeIncoming n migrationId digest, .runs _, peers =>
      some (answer n .notCommitted peers ((peers.stores n).takeIncoming migrationId digest))
  | .takeIncoming n migrationId digest, .lost _, peers =>
      some (.error .connection, peers.set n ((peers.stores n).takeIncoming migrationId digest).2)
  | .validateTaken n digest published, .runs w, peers =>
      some (answer n .notCommitted peers ((peers.stores n).validateTaken h w digest published))
  | .validateTaken n digest published, .lost w, peers =>
      some (.error .connection, peers.set n ((peers.stores n).validateTaken h w digest published).2)
  | .ended p, .runs _, peers => some (.ok (), { peers with ended := p :: peers.ended })
  | .hasArtifact _ _, .fails _, peers => some (.error .connection, peers)
  | .takeIncoming _ _ _, .fails _, peers => some (.error .connection, peers)
  | .validateTaken _ _ _, .fails _, peers => some (.error .connection, peers)
  | _, _, _ => none

/-! ## The protocol -/

abbrev PeerWork (Digest α : Type) := Coro (PeerOp Digest) PeerOp.Ret (PrefetchError Digest) α

abbrev ask (o : PeerOp Digest) : PeerWork Digest o.Ret := Coro.op o

/-- The missing digests among those of `bindings`. -/
def artifactStatus (destination : NodeId) :
    List (ArtifactBinding Digest) → PeerWork Digest (List Digest)
  | [] => pure []
  | binding :: bindings => do
      let present : Bool ← ask (.hasArtifact destination binding.digest)
      let missing ← artifactStatus destination bindings
      pure (if present then missing else binding.digest :: missing)

def sendArtifact (digest : Digest) (source destination : NodeId) (migrationId : MigrationId) :
    PeerWork Digest Unit := do
  let _ : Unit ← ask (.send digest source destination migrationId)
  let published : Bool ← ask (.takeIncoming destination migrationId digest)
  ask (.validateTaken destination digest published)

def sendMissing (source destination : NodeId) (migrationId : MigrationId) (missing : List Digest) :
    List (ArtifactBinding Digest) → PeerWork Digest Unit
  | [] => pure ()
  | binding :: bindings => do
      if binding.digest ∈ missing then
        sendArtifact binding.digest source destination migrationId
      sendMissing source destination migrationId missing bindings

def prefetch (taskId : TaskId) (source destination : NodeId) (migrationId : MigrationId) :
    PeerWork Digest (List (ArtifactBinding Digest)) := do
  let bindings : List (ArtifactBinding Digest) ← ask (.ensureTaskArtifacts source taskId)
  let missing ← artifactStatus destination bindings
  sendMissing source destination migrationId missing bindings
  pure bindings

structure PrefetchCall where
  taskId : TaskId
  source : NodeId
  destination : NodeId

/-- What is not part of a prefetch. -/
inductive PeerEvent (Content FileHash Digest : Type) where
  | manage (n : NodeId) (w : Surroundings Content Digest) (op : Operation Content FileHash Digest)
  /-- A commit goes on whose client is gone. -/
  | validateTaken (n : NodeId) (w : Surroundings Content Digest) (digest : Digest) (published : Bool)

/-- The operations of a manager without those that serve a prefetch. -/
def Operation.isLocal : Operation Content FileHash Digest → Bool
  | .commitIncoming _ _ | .receive _ _ _ => false
  | _ => true

def PeerEvent.apply (h : Hashes Content FileHash Digest) (peers : Peers Content FileHash Digest) :
    PeerEvent Content FileHash Digest → Option (Peers Content FileHash Digest)
  | .manage n w op => if op.isLocal then some (peers.set n ((peers.stores n).step h w op)) else none
  | .validateTaken n w digest published =>
      some (peers.set n ((peers.stores n).validateTaken h w digest published).2)

/-- Prefetches of any number of migrations, each with an id of its own. -/
def prefetches (h : Hashes Content FileHash Digest) :
    System (PeerOp Digest) PeerOp.Ret (PrefetchError Digest) (Weather Content FileHash Digest)
      (Peers Content FileHash Digest) MigrationId PrefetchCall (PeerEvent Content FileHash Digest) where
  exec := fun _ => execPeer h
  accept := fun m _ peers => if m ∈ peers.drawn then none else some { peers with drawn := m :: peers.drawn }
  body := fun m call =>
    (prefetch call.taskId call.source call.destination m).andThen fun outcome =>
      ask (.ended ⟨m, call.taskId, call.source, call.destination, outcome⟩)
  crash := fun _ peers => peers
  event := fun e peers => e.apply h peers

/-- Sources hold still while they are imported, and definitions do not change. -/
def sourcesRest (definition : TaskId → List StaticArtifactSpec) :
    Conditions (PeerOp Digest) (Weather Content FileHash Digest) (Peers Content FileHash Digest)
      MigrationId PrefetchCall (PeerEvent Content FileHash Digest) where
  op := fun _ _ c _ => c.Steady definition
  event := fun e _ => match e with
    | .manage _ w _ | .validateTaken _ w _ _ => Steady definition w

end

end Magellan.Artifacts
