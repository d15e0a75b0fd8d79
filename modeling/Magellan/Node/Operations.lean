import Magellan.Coroutine.Traces
import Magellan.Node.World

/-!
# The operations of the services

One step of a coroutine of a node: a registry, journal, bid store or file operation, a process
operation, a message, or a call into a component whose work is not modelled and that returns or
raises. A call that raises has changed nothing, except where a choice says otherwise.
-/

namespace Magellan

open Coroutine
open Registry (OwnershipUpdate)

/-- Calls into components that change nothing modelled here. -/
inductive External where
  | checkCompatibility
  | artifactStatus (destinationNodeId : NodeId)
  | prefetchArtifacts (destinationNodeId : NodeId) (migrationId : MigrationId)
  | validateCheckpoint
  | recordTransfer (destinationNodeId : NodeId)
  | recordMigrationCalibration (destinationNodeId : NodeId)
  | appendExperimentEvent (eventType : String)
  | makeDirectory

structure LaunchPlan where
  adapter : String
  command : List String
  resumedFromCheckpoint : Bool
  deriving DecidableEq

inductive Op where
  | getState
  | registry (op : RegistryOp)
  | journalGet (migrationId : MigrationId)
  | journalPut (record : MigrationRecord)
  | setRecordStatus (migrationId : MigrationId) (status : MigrationStatus)
      (pid : Option Pid) (error : Option String)
  | getPolicy
  | mergePolicy (policy : AdaptiveTaskPolicyState)
  | external (call : External)
  | ensureTaskArtifacts
  | stageBindings (bindings : List ArtifactBinding)
  | settleTask
  | recordMigration
  -- processes
  | makeTaskDirectories
  | buildLaunchPlan
  | pidIsAlive (pid : Pid)
  | unlinkCompletionMarker
  | spawn
  | waitForReadiness (pid : Pid)
  | pollExitCode (pid : Pid)
  | terminate (pid : Pid)
  -- directories
  | incomingExists (migrationId : MigrationId)
  | checkpointExists
  | backupExists (migrationId : MigrationId)
  | removeBackup (migrationId : MigrationId) (ignoreErrors : Bool)
  | renameToBackup (migrationId : MigrationId)
  | copyIncoming (migrationId : MigrationId)
  | removeCheckpoint
  | renameFromBackup (migrationId : MigrationId)
  | removeIncoming (migrationId : MigrationId)
  -- reservations of this node
  | getBid (bidId : BidId)
  | beginActivation (bidId : BidId) (taskId : TaskId) (sourceNodeId destinationNodeId : NodeId)
  | consumeBid (bidId : BidId)
  | cancelBid (bidId : BidId) (reason : String)
  -- messages
  | transferCheckpoint (destinationNodeId : NodeId) (migrationId : MigrationId)
  | sendActivation (request : MigrationActivationRequest)
  | awaitActivation (migrationId : MigrationId)
  | pollBudget
  | sendStatusQuery (destinationNodeId : NodeId) (migrationId : MigrationId)
  | awaitStatus (destinationNodeId : NodeId) (migrationId : MigrationId)
  | respond (response : MigrationActivationResponse)
  | broadcast (update : OwnershipUpdate)
  | cancelReservation (bidId : BidId) (destinationNodeId : NodeId) (reason : String)

namespace Op

@[reducible] def Ret : Op → Type
  | getState | registry _ => TaskRuntimeState
  | journalGet _ => Option MigrationRecord
  | getPolicy => Option AdaptiveTaskPolicyState
  | ensureTaskArtifacts => List ArtifactBinding
  | buildLaunchPlan => LaunchPlan
  | spawn => Pid
  | pollExitCode _ => Option Int
  | pidIsAlive _ | incomingExists _ | checkpointExists | backupExists _ => Bool
  | getBid _ => Option BidRecord
  | beginActivation .. | consumeBid _ | cancelBid .. => BidRecord
  | awaitActivation _ => MigrationActivationResponse
  | pollBudget => Nat
  | awaitStatus .. => Option MigrationRecord
  | journalPut _ | setRecordStatus .. | mergePolicy _ | external _ | stageBindings _ | settleTask
  | recordMigration | makeTaskDirectories | unlinkCompletionMarker | waitForReadiness _ | terminate _
  | removeBackup .. | renameToBackup _ | copyIncoming _ | removeCheckpoint | renameFromBackup _
  | removeIncoming _ | transferCheckpoint .. | sendActivation _ | sendStatusQuery .. | respond _
  | broadcast _ | cancelReservation .. => Unit

/-- Whether a call may raise `e` without having done anything. The clients turn the failures of
their requests into these classes; the tests and removals that ignore errors raise nothing. -/
def mayRaise : Op → Exn → Bool
  | pidIsAlive _, _ | pollExitCode _, _ => false
  | incomingExists _, _ | checkpointExists, _ | backupExists _, _ => false
  | removeBackup _ ignoreErrors, e => !ignoreErrors ∧ e.cls ≠ .activationOutcomeUnknownError
  | removeCheckpoint, _ | removeIncoming _, _ => false
  | sendActivation _, _ | sendStatusQuery .., _ | respond _, _ | pollBudget, _ => false
  | awaitActivation _, e =>
      e.cls = .httpError ∨ e.cls = .valueError ∨ e.cls = .activationOutcomeUnknownError
  | awaitStatus .., e => e.cls = .activationOutcomeUnknownError
  | _, e => e.cls ≠ .activationOutcomeUnknownError

/-- The operations that wait for an answer of another node. -/
def isAwait : Op → Bool
  | awaitActivation _ | awaitStatus .. => true
  | _ => false

theorem isAwait_of_mayRaise {o : Op} {e : Exn} (may : o.mayRaise e = true)
    (unknown : e.cls = .activationOutcomeUnknownError) : o.isAwait = true := by
  cases o <;> first | rfl | simp [mayRaise, unknown] at may

end Op

/-- How the environment resolves an operation. -/
inductive Choice where
  /-- It is done at this time. -/
  | ok (now : Timestamp)
  | fail (e : Exn)
  | spawned (pid : Pid)
  | exitCode (code : Option Int)
  | plan (plan : LaunchPlan)
  | bindings (bindings : List ArtifactBinding)
  | settled (input : Accounting.SettleInput)
  | charged (migrationSeconds transferCostUsd transferCarbonGrams : Rat) (now : Timestamp)
  /-- A directory was created and has this content when the copy raises. -/
  | copyFailed (part : Directory) (e : Exn)
  | polls (count : Nat)
  | response (response : MigrationActivationResponse)
  | answer (answer : Option MigrationRecord)

def Choice.isFail : Choice → Bool
  | .fail _ => true
  | _ => false

section

variable {α : Type}

/-- The result of an operation that only reads. -/
def reads (w : World) (a : α) : Option (Except Exn α × World) := some (.ok a, w)

/-- The result of an operation that changes node `n`. -/
def writes (w : World) (n : NodeId) (a : α) (f : NodeState → NodeState) :
    Option (Except Exn α × World) :=
  some (.ok a, w.modify n f)

def raises (w : World) (e : Exn) : Option (Except Exn α × World) := some (.error e, w)

end

def noSuchFile (what : String) : Exn := ⟨.fileNotFoundError, what⟩
def directoryNotEmpty : Exn := ⟨.osError, "Directory not empty"⟩
def fileExists : Exn := ⟨.fileExistsError, "File exists"⟩

namespace World

def logged (w : World) (e : LogEntry) : World := { w with log := e :: w.log }

/-- A journal write at `n`. -/
def putRecord (w : World) (n : NodeId) (r : MigrationRecord) : World :=
  (w.modify n fun s => { s with journal := s.journal.put r }).logged
    (.journal n r (w.nodes n).registry.ownership)

/-- A registry operation at `n` that wrote `state`. -/
def putState (w : World) (n : NodeId) (op : RegistryOp) (state : TaskRuntimeState) : World :=
  (w.modify n fun s => { s with
    registry := state
    starting := match op with
      | .markRunning .. => none
      | _ => s.starting }).logged (.registry n op)

def setIncoming (w : World) (n : NodeId) (m : MigrationId) (d : Option Directory) : World :=
  { w with incoming := fun i j => if i = n ∧ j = m then d else w.incoming i j }

end World

/-- A result of the bid store, which may have applied expiry before it raised. -/
def bidResult (w : World) (n : NodeId) (r : Except Exn BidRecord × Bids) :
    Option (Except Exn BidRecord × World) :=
  some (r.1, w.modify n fun s => { s with bids := r.2 })

/-- What an operation of node `n` does when it does not raise at once. -/
def effect (n : NodeId) (w : World) : (o : Op) → Choice → Option (Except Exn o.Ret × World)
  | .getState, .ok _ => reads w (w.nodes n).registry
  | .registry op, .ok now =>
      match op.apply n now (w.nodes n).registry with
      | .ok state => some (.ok state, w.putState n op state)
      | .error e => raises w e
  | .journalGet m, .ok _ => reads w ((w.nodes n).journal.get m)
  | .journalPut r, .ok _ => some (.ok (), w.putRecord n r)
  | .setRecordStatus m status pid error, .ok _ =>
      match (w.nodes n).journal.get m with
      | none => reads w ()
      | some r => some (.ok (), w.putRecord n { r with status, pid, error })
  | .getPolicy, .ok _ => reads w (w.nodes n).policy
  | .mergePolicy p, .ok _ =>
      writes w n () fun s => { s with policy := some (.merge s.policy p) }
  | .external _, .ok _ => reads w ()
  | .ensureTaskArtifacts, .bindings b =>
      writes w n b fun s => { s with
        registry := Registry.setArtifactDigests (bindingDigests b) s.registry }
  | .stageBindings b, .ok _ =>
      writes w n () fun s => { s with
        registry := Registry.setArtifactDigests (bindingDigests b) s.registry }
  | .settleTask, .settled i =>
      writes w n () fun s => { s with
        registry := Accounting.settleTask n s.isAlive i s.registry }
  | .recordMigration, .charged seconds cost carbon now =>
      writes w n () fun s => { s with
        registry := Accounting.recordMigration seconds cost carbon now s.registry }
  | .makeTaskDirectories, .ok _ =>
      writes w n () fun s => { s with checkpoint := some (s.checkpoint.getD []) }
  | .buildLaunchPlan, .plan p => reads w p
  | .pidIsAlive pid, .ok _ => reads w ((w.nodes n).isAlive pid)
  | .unlinkCompletionMarker, .ok _ => writes w n () fun s => { s with completionMarker := none }
  | .spawn, .spawned pid =>
      if 0 < pid ∧ pid ∉ (w.nodes n).processes then
        writes w n pid fun s => { s with processes := pid :: s.processes, starting := some pid }
      else none
  | .waitForReadiness _, .ok _ => reads w ()
  | .pollExitCode _, .exitCode code => reads w code
  | .terminate pid, .ok _ =>
      writes w n () fun s => { s with
        processes := s.processes.filter (· ≠ pid)
        starting := if s.starting = some pid then none else s.starting }
  | .incomingExists m, .ok _ => reads w (w.incoming n m).isSome
  | .checkpointExists, .ok _ => reads w (w.nodes n).checkpoint.isSome
  | .backupExists m, .ok _ => reads w ((w.nodes n).backups m).isSome
  | .removeBackup m _, .ok _ =>
      writes w n () fun s => { s with backups := fun i => if i = m then none else s.backups i }
  | .renameToBackup m, .ok _ =>
      match (w.nodes n).checkpoint, (w.nodes n).backups m with
      | none, _ => raises w (noSuchFile "checkpoint")
      | some _, some (_ :: _) => raises w directoryNotEmpty
      | some d, _ =>
          writes w n () fun s => { s with
            checkpoint := none
            backups := fun i => if i = m then some d else s.backups i }
  | .copyIncoming m, .ok _ =>
      match w.incoming n m, (w.nodes n).checkpoint with
      | none, _ => raises w (noSuchFile "incoming")
      | some _, some _ => raises w fileExists
      | some d, none => writes w n () fun s => { s with checkpoint := some d }
  | .copyIncoming _, .copyFailed part e =>
      match (w.nodes n).checkpoint with
      | some _ => none
      | none => some (.error e, w.modify n fun s => { s with checkpoint := some part })
  | .removeCheckpoint, .ok _ => writes w n () fun s => { s with checkpoint := none }
  | .renameFromBackup m, .ok _ =>
      match (w.nodes n).backups m, (w.nodes n).checkpoint with
      | none, _ => raises w (noSuchFile "backup")
      | some _, some (_ :: _) => raises w directoryNotEmpty
      | some d, _ =>
          writes w n () fun s => { s with
            checkpoint := some d
            backups := fun i => if i = m then none else s.backups i }
  | .removeIncoming m, .ok _ => some (.ok (), w.setIncoming n m none)
  | .getBid b, .ok now =>
      some (.ok ((w.nodes n).bids.expireLocked now b),
        w.modify n fun s => { s with bids := s.bids.expireLocked now })
  | .beginActivation b task source destination, .ok now =>
      bidResult w n ((w.nodes n).bids.beginActivation b task source destination now)
  | .consumeBid b, .ok now => bidResult w n ((w.nodes n).bids.consume b now)
  | .cancelBid b reason, .ok now => bidResult w n ((w.nodes n).bids.cancel b reason now)
  | .transferCheckpoint destination m, .ok _ =>
      match (w.nodes n).checkpoint with
      | none => raises w (noSuchFile "Checkpoint directory does not exist")
      | some d => some (.ok (), w.setIncoming destination m (some d))
  | .transferCheckpoint destination m, .copyFailed part e =>
      some (.error e, w.setIncoming destination m (some part))
  | .sendActivation request, .ok _ => some (.ok (), { w with requests := request :: w.requests })
  | .awaitActivation m, .response r =>
      if r ∈ w.responses ∧ r.migrationId = m then reads w r else none
  | .pollBudget, .polls count => reads w count
  | .sendStatusQuery destination m, .ok _ =>
      some (.ok (), { w with queries := (destination, m) :: w.queries })
  | .awaitStatus destination m, .answer a =>
      if (destination, m, a) ∈ w.answers then reads w a else none
  | .respond response, .ok _ => some (.ok (), { w with responses := response :: w.responses })
  | .broadcast update, .ok _ => some (.ok (), { w with updates := update :: w.updates })
  | .cancelReservation b destination _, .ok _ =>
      some (.ok (), { w with cancels := (destination, b) :: w.cancels })
  | _, _ => none

/-- One operation of a coroutine of node `n`. -/
def exec (n : NodeId) : Semantics Op Op.Ret Exn Choice World := fun o c w =>
  match c with
  | .fail e => if o.mayRaise e then raises w e else none
  | c => effect n w o c

theorem exec_cases {n : NodeId} {o : Op} {c : Choice} {w w' : World} {r : Except Exn o.Ret}
    (h : exec n o c w = some (r, w')) :
    (∃ e, c = .fail e ∧ o.mayRaise e = true ∧ r = .error e ∧ w' = w) ∨
      effect n w o c = some (r, w') := by
  cases c with
  | fail e =>
      simp only [exec, raises] at h
      split at h
      · rename_i may
        cases h
        exact .inl ⟨e, rfl, may, rfl, rfl⟩
      · cases h
  | _ => exact .inr h

theorem exec_fail {n : NodeId} {o : Op} {e : Exn} {w w' : World} {r : Except Exn o.Ret}
    (h : exec n o (.fail e) w = some (r, w')) : r = .error e ∧ w' = w ∧ o.mayRaise e = true := by
  simp only [exec, raises] at h
  split at h
  · rename_i may
    cases h
    exact ⟨rfl, rfl, may⟩
  · cases h

theorem isFail_of_returned {n : NodeId} {x : Op × Choice} (h : Reach.Returned (exec n) x) :
    x.2.isFail = false := by
  obtain ⟨o, c⟩ := x
  obtain ⟨u, a, v, h⟩ := h
  cases c with
  | fail e => cases (exec_fail h).1
  | _ => rfl

theorem exec_setRecordStatus {n : NodeId} {w : World} {m : MigrationId} {r : MigrationRecord}
    (found : (w.nodes n).journal.get m = some r) (status : MigrationStatus) (pid : Option Pid)
    (error : Option String) (now : Timestamp) :
    exec n (.setRecordStatus m status pid error) (.ok now) w =
      some (.ok (), w.putRecord n { r with status, pid, error }) := by
  simp only [exec, effect, found]

abbrev Async (α : Type) := Coro Op Op.Ret Exn α

/-- One operation as a coroutine. -/
abbrev await (o : Op) : Async o.Ret := Coro.op o

/-- `if c: p`. -/
def onlyIf (c : Prop) [Decidable c] (p : Async Unit) : Async Unit := if c then p else pure ()

/-- `try: p except Exception: pass`. -/
def ignoreErrors (p : Async Unit) : Async Unit := p.tryExcept fun _ => pure ()

end Magellan
