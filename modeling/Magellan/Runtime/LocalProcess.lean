import Magellan.Coroutine.Traces
import Magellan.Node.Operations

/-!
# Starting and stopping the workload

The workload is started in a session of its own, so it outlives the daemon. `stop` acts on the pid
that the registry records and on no other process.
-/

namespace Magellan.LocalProcess

open Coroutine Coro

/-- From the spawned process to the recorded pid. -/
def track (plan : LaunchPlan) (pid : Pid) : Async TaskRuntimeState :=
  (await (.waitForReadiness pid)).attempt
    (fun _ => await (.registry
      (.markRunning pid (some plan.adapter) (some plan.command) plan.resumedFromCheckpoint)))
    fun e => do
      await (.terminate pid)
      let exitCode ← await (.pollExitCode pid)
      let _ ← await (.registry (.markFailed e.describe exitCode))
      raise (runtimeError e.describe)

/-- From the launch plan to the recorded pid. -/
def launch : Async TaskRuntimeState := do
  await .makeTaskDirectories
  let plan ← await .buildLaunchPlan
  await .unlinkCompletionMarker
  let pid ← await .spawn
  track plan pid

/-- `state.pid is not None and pid_is_alive(state.pid)`. -/
def pidIsAlive : Option Pid → Async Bool
  | none => pure false
  | some pid => await (.pidIsAlive pid)

def start (n : NodeId) : Async TaskRuntimeState := do
  let _ ← await .ensureTaskArtifacts
  let state ← await .getState
  await (.external .checkCompatibility)
  if state.ownerNodeId ≠ n then
    raise (runtimeError s!"Cannot start {state.taskId}; owner is {state.ownerNodeId}")
  else if state.status = .completed then
    raise (runtimeError s!"Cannot start completed task {state.taskId}")
  else do
    let alive ← pidIsAlive state.pid
    if state.status = .running ∧ alive then pure state
    else if state.status = .paused ∧ alive then
      raise (runtimeError s!"Cannot start paused task {state.taskId}; resume it instead")
    else launch

def stop : Async TaskRuntimeState := do
  let state ← await .getState
  if state.status = .completed then pure state
  else match state.pid with
    | none => await (.registry .markStopped)
    | some pid => do
        await (.terminate pid)
        await (.registry .markStopped)

/-! ## Their operations -/

def isStartOp : Op → Bool
  | .ensureTaskArtifacts | .getState | .external .checkCompatibility | .pidIsAlive _
  | .makeTaskDirectories | .buildLaunchPlan | .unlinkCompletionMarker | .spawn
  | .waitForReadiness _ | .terminate _ | .pollExitCode _ => true
  | .registry (.markRunning ..) | .registry (.markFailed ..) => true
  | _ => false

def isStopOp : Op → Bool
  | .getState | .terminate _ => true
  | .registry .markStopped => true
  | _ => false

theorem launch_performs : launch.Performs (isStartOp ·) :=
  .bind (.op rfl) fun _ => .bind (.op rfl) fun _ => .bind (.op rfl) fun _ => .bind (.op rfl) fun _ =>
    .attempt (.op rfl) (fun _ => .op rfl) fun _ =>
      .bind (.op rfl) fun _ => .bind (.op rfl) fun _ => .bind (.op rfl) fun _ => .raise _

theorem start_performs (n : NodeId) : (start n).Performs (isStartOp ·) := by
  refine .bind (.op rfl) fun _ => .bind (.op rfl) fun state => .bind (.op rfl) fun _ => ?_
  refine .ite (.raise _) (.ite (.raise _) (.bind ?_ fun alive => ?_))
  · cases state.pid with
    | none => exact .pure _
    | some pid => exact .op rfl
  · exact .ite (.pure _) (.ite (.raise _) launch_performs)

theorem stop_performs : stop.Performs (isStopOp ·) := by
  refine .bind (.op rfl) fun state => .ite (.pure _) ?_
  cases state.pid with
  | none => exact .op rfl
  | some pid => exact .bind (.op rfl) fun _ => .op rfl

end Magellan.LocalProcess
