import Magellan.Coroutine.System
import Magellan.Migration.Service

/-!
# The cluster

The services of every node as one system. A call is taken up when the lock of the task is free. The
events are the steps of everything that runs without the lock: messages, the ownership endpoints and
rounds, settlement, the bid store, the runtime's own reconciliation and the workload itself.
-/

namespace Magellan

open Coroutine MigrationService
open Registry (OwnershipUpdate)

inductive Call where
  | migrate (call : MigrateCall)
  | activate (request : MigrationActivationRequest)
  /-- The next record of a durable reconciliation pass. -/
  | reconcile (record : MigrationRecord)

/-- An operation of the bid store outside an activation. -/
inductive BidEvent where
  | submit (record : BidRecord)
  | decide (ttl : Nat) (bidId : BidId) (accept : Bool) (reason : String)
  | renew (ttl : Nat) (bidId : BidId)
  | expire

def BidEvent.apply (now : Timestamp) (b : Bids) : BidEvent → Bids
  | .submit record => b.submit record
  | .decide ttl bidId accept reason => b.decide ttl bidId accept reason now
  | .renew ttl bidId => b.renew ttl bidId now
  | .expire => b.expireLocked now

/-- What `LocalProcessRuntime.reconcile` learns about a process that is gone. -/
structure RuntimeVerdict where
  now : Timestamp
  exitCode : Option Int := none
  /-- Why the completion marker is not valid. -/
  invalid : Option String := none

inductive Event where
  | answerQuery (n : NodeId) (m : MigrationId)
  | exportSnapshot (n : NodeId)
  /-- One update of a snapshot in a round of the reconciliation service. -/
  | mergeUpdate (n : NodeId) (u : OwnershipUpdate)
  /-- A post to the ownership endpoint. -/
  | postOwnership (n : NodeId) (u : OwnershipUpdate)
  | cancelReservation (n : NodeId) (b : BidId) (reason : String) (now : Timestamp)
  | bidStore (n : NodeId) (now : Timestamp) (e : BidEvent)
  | settle (n : NodeId) (i : Accounting.SettleInput)
  | reconcileRuntime (n : NodeId) (verdict : RuntimeVerdict)
  | exit (n : NodeId) (pid : Pid) (marker : Option CompletionMarker)
  /-- A live process writes its checkpoint. -/
  | writeCheckpoint (n : NodeId) (d : Directory)
  /-- The snapshot of the journal that a durable reconciliation pass takes. -/
  | beginPass (n : NodeId)

/-- No migration has drawn this id yet. -/
def World.isFresh (w : World) (m : MigrationId) : Bool :=
  w.log.all fun
    | .journal _ record _ => record.migrationId ≠ m
    | .registry .. => true

def accept (n : NodeId) (a : Call) (w : World) : Option World :=
  match a with
  | .migrate call =>
      if w.isFresh call.migrationId ∧ call.destinationNodeId ≠ n then some w else none
  | .activate request =>
      if request ∈ w.requests ∧ request.destinationNodeId = n then some w else none
  | .reconcile record =>
      if record ∈ (w.nodes n).pass then
        some (w.modify n fun s => { s with pass := s.pass.erase record })
      else none

def body (services : Services) (n : NodeId) : Call → Async Unit
  | .migrate call => do let _ ← migrate services n call
  | .activate request => serveActivation services n request
  | .reconcile record => reconcileRecord services n record

/-- The daemon of `n` dies; what it held in memory is lost. -/
def crash (n : NodeId) (w : World) : World :=
  w.modify n fun s => { s with starting := none, pass := [] }

def mergeUpdate (n : NodeId) (u : OwnershipUpdate) (s : NodeState) : NodeState :=
  match Registry.applyOwnership n u s.registry with
  | none => s
  | some state =>
      { s with
        registry :=
          if u.artifactDigests = [] then state
          else Registry.setArtifactDigests u.artifactDigests state
        policy := match u.adaptivePolicy with
          | none => s.policy
          | some p => some (.merge s.policy p) }

/-- The endpoint installs the digests also of an update that was not applied. -/
def postOwnership (n : NodeId) (u : OwnershipUpdate) (s : NodeState) : NodeState :=
  match Registry.applyOwnership n u s.registry with
  | none =>
      if u.artifactDigests = [] then s
      else { s with registry := Registry.setArtifactDigests u.artifactDigests s.registry }
  | some _ => mergeUpdate n u s

/-- `LocalProcessRuntime.reconcile` on a task whose recorded process is gone. -/
def reconcileRuntime (n : NodeId) (verdict : RuntimeVerdict) (s : NodeState) : NodeState :=
  let state := s.registry
  if state.ownerNodeId ≠ n ∨ (state.status ≠ .running ∧ state.status ≠ .paused) ∨
      state.pid.any s.isAlive then s
  else match s.completionMarker, verdict.invalid with
    | some marker, none =>
        match Registry.markCompleted n marker.completedAtUtc marker.manifestRelativePath
            marker.manifestSha256 marker.outputBytes verdict.exitCode state with
        | .ok state => { s with registry := state }
        | .error _ => s
    | some _, some reason =>
        let error := s!"Completion validation failed: {reason}"
        { s with registry := Registry.markFailed error verdict.exitCode verdict.now state }
    | none, _ =>
        let error := "Persisted process is no longer running " ++
          "and no valid completion marker was written"
        { s with registry := Registry.markFailed error verdict.exitCode verdict.now state }

def event : Event → World → Option World
  | .answerQuery n m, w =>
      if (n, m) ∈ w.queries then
        some { w with answers := (n, m, (w.nodes n).journal.get m) :: w.answers }
      else none
  | .exportSnapshot n, w =>
      let s := w.nodes n
      some { w with updates :=
        { Registry.ownershipUpdate s.registry with adaptivePolicy := s.policy } :: w.updates }
  | .mergeUpdate n u, w => if u ∈ w.updates then some (w.modify n (mergeUpdate n u)) else none
  | .postOwnership n u, w =>
      if u ∈ w.updates then some (w.modify n (postOwnership n u)) else none
  | .cancelReservation n b reason now, w =>
      if (n, b) ∈ w.cancels then
        some (w.modify n fun s => { s with bids := (s.bids.cancel b reason now).2 })
      else none
  | .bidStore n now e, w => some (w.modify n fun s => { s with bids := e.apply now s.bids })
  | .settle n i, w =>
      some (w.modify n fun s =>
        { s with registry := Accounting.settleTask n s.isAlive i s.registry })
  | .reconcileRuntime n verdict, w => some (w.modify n (reconcileRuntime n verdict))
  | .exit n pid marker, w =>
      if pid ∈ (w.nodes n).processes then
        some (w.modify n fun s => { s with
          processes := s.processes.filter (· ≠ pid)
          completionMarker := marker <|> s.completionMarker })
      else none
  | .writeCheckpoint n d, w =>
      if (w.nodes n).processes ≠ [] then
        some (w.modify n fun s => { s with checkpoint := some d })
      else none
  | .beginPass n, w =>
      some (w.modify n fun s => { s with
        pass := s.pass ++ s.journal.filter fun r => !r.status.isTerminal })

abbrev Cluster := System Op Op.Ret Exn Choice World NodeId Call Event
abbrev ClusterConfig := Config Op Op.Ret Exn World NodeId
abbrev ClusterLabel := Label Choice NodeId Call Event
abbrev ClusterConditions := Conditions Op Choice World NodeId Call Event

def cluster (services : Services) : Cluster where
  exec := exec
  accept := accept
  body := body services
  crash := crash
  event := event

/-! ## A small cluster -/

/-- Node `a` runs the task, and `b` has accepted a bid for it. -/
def sampleNode (n : NodeId) : NodeState where
  registry := {
    taskId := "t"
    ownerNodeId := "a"
    status := if n = "a" then .running else .remote
    pid := if n = "a" then some 1 else none }
  bids b := if n = "b" ∧ b = "bid" then
    some {
      bidId := "bid"
      taskId := "t"
      sourceNodeId := "a"
      destinationNodeId := "b"
      status := .accepted
      receivedAtUtc := 0
      reservationExpiresAtUtc := some 100 }
  else none
  checkpoint := if n = "a" then some [("state", "1")] else none
  processes := if n = "a" then [1] else []

def sampleCluster : ClusterConfig where
  world := { nodes := sampleNode }

/-- The next steps of a coroutine of `n` go through. -/
def proceed (n : NodeId) (steps : Nat) : List ClusterLabel :=
  List.replicate steps (.perform n (.ok 0))

end Magellan
