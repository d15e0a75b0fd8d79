import Magellan.Data.Dict
import Magellan.State.TaskModels
import Magellan.Telemetry.Store
import Mathlib.Data.String.Basic
import Mathlib.Data.List.Sort

/-!
# Power of the tasks

A round of the telemetry service samples each task that runs here, reads the energy counters of the
node and gives each sampled task its share of the power in between.
-/

namespace Magellan.Telemetry

/-! ## The counters -/

/-- An entry of the powercap directory, with what reading its files gives where they are there. -/
structure PowercapEntry where
  name : String
  isDirectory : Bool := true
  energyUj : Option (Except Exn Int)
  maxEnergyRangeUj : Option (Except Exn Int)

/-- `intel-rapl:\d+`. -/
def isTopLevel (name : String) : Bool :=
  name.toList.take 11 = "intel-rapl:".toList ∧ name.toList.drop 11 ≠ [] ∧
    (name.toList.drop 11).all Char.isDigit

/-- The zones, in the order of their paths. -/
def raplZones : Option (List PowercapEntry) → List PowercapEntry
  | none => []
  | some entries =>
      (entries.filter fun entry => entry.isDirectory ∧ isTopLevel entry.name ∧ entry.energyUj.isSome).insertionSort
        fun a b => a.name ≤ b.name

structure RaplPowerReader where
  previous : Option (Dict String Int × Rat) := none

def readZones : List PowercapEntry → Except Exn (List (PowercapEntry × Int))
  | [] => .ok []
  | zone :: rest =>
      match zone.energyUj with
      | none => readZones rest
      | some (.error e) => .error e
      | some (.ok value) => (readZones rest).map ((zone, value) :: ·)

/-- What the counters of the zones have moved on, from `deltaUj` on. -/
def movedUj (previousValues : Dict String Int) : Int → List (PowercapEntry × Int) → Except Exn Int
  | deltaUj, [] => .ok deltaUj
  | deltaUj, (zone, value) :: rest =>
      match previousValues.get? zone.name with
      | none => movedUj previousValues deltaUj rest
      | some old =>
          if old ≤ value then movedUj previousValues (deltaUj + (value - old)) rest
          else match zone.maxEnergyRangeUj with
          | none => movedUj previousValues deltaUj rest
          | some (.error e) => .error e
          | some (.ok maximum) => movedUj previousValues (deltaUj + max 0 (maximum - old + value)) rest

def samplePowerKw (root : Option (List PowercapEntry)) (now : Rat) (reader : RaplPowerReader) :
    Except Exn (Option Rat) × RaplPowerReader :=
  if raplZones root = [] then (.ok none, reader)
  else match readZones (raplZones root) with
  | .error e => (.error e, reader)
  | .ok current =>
      let next : RaplPowerReader :=
        { previous := some (.ofList (current.map fun (zone, value) => (zone.name, value)), now) }
      match reader.previous with
      | none => (.ok none, next)
      | some (previousValues, previousAt) =>
          if now - previousAt ≤ 0 then (.ok none, next)
          else match movedUj previousValues 0 current with
          | .error e => (.error e, next)
          | .ok deltaUj =>
              if deltaUj ≤ 0 then (.ok none, next)
              else (.ok (some ((deltaUj : Rat) / 1000000 / (now - previousAt) / 1000)), next)

/-! ## The tasks -/

structure ProcessMeasurement where
  pid : Pid
  processCount : Nat := 1
  processState : Option String := none
  cpuTimeSeconds : Rat
  memoryRssMb : Rat
  sampledAtUtc : Timestamp

structure TaskTelemetryRecord where
  taskId : TaskId
  nodeId : NodeId
  pid : Option Pid := none
  processCount : Nat := 0
  processState : Option String := none
  cpuUtilizationPercent : Option Rat := none
  memoryRssMb : Option Rat := none
  checkpointBytes : Option Nat := none
  measuredPowerKw : Option Rat := none
  powerSource : String := "configured_fallback"
  powerConfidence : Rat := 0
  progressRateUnitsPerSecond : Option Rat := none
  estimatedRemainingSeconds : Option Rat := none
  sampleCount : Nat := 0
  lastSampleAtUtc : Option Timestamp := none
  lastError : Option String := none

structure PowerPolicy where
  powerIdleFraction : Rat := 1 / 5
  cpuPowerConfidence : Rat := 3 / 4
  fallbackPowerConfidence : Rat := 1 / 4

/-- What `sample_task` finds for a task. -/
structure TaskSampling where
  state : TaskRuntimeState
  /-- Of the profile of its definition. -/
  powerKw : Rat
  cpuCores : Rat
  now : Timestamp
  measurement : Except Exn ProcessMeasurement
  checkpointBytes : Except Exn Nat

structure PowerTelemetry where
  records : Dict TaskId TaskTelemetryRecord := .empty
  previousCpu : Dict TaskId (Rat × Timestamp) := .empty
  reader : RaplPowerReader := {}

def isLive (status : TaskStatus) : Bool := status = .running ∨ status = .paused

namespace PowerTelemetry

variable (policy : PowerPolicy) (localNode : NodeId)

/-- `update_task` of the store. -/
def update (t : PowerTelemetry) (record : TaskTelemetryRecord) : PowerTelemetry :=
  { t with records := t.records.set record.taskId record }

/-- The CPU time since the last measurement, in percent of a core. -/
def cpuPercent (t : PowerTelemetry) (taskId : TaskId) (m : ProcessMeasurement) : Option Rat :=
  match t.previousCpu.get? taskId with
  | none => none
  | some (previousCpu, previousAt) =>
      let elapsed := max 0 (((m.sampledAtUtc : Rat) - previousAt) / 1000000)
      let cpuDelta := max 0 (m.cpuTimeSeconds - previousCpu)
      if 0 < elapsed then some (cpuDelta / elapsed * 100) else none

/-- The model of the power from the CPU time. -/
def modelledPowerKw (powerKw cpuCores : Rat) : Option Rat → Rat
  | none => powerKw
  | some cpuPercent =>
      let utilizationFraction := min 1 (cpuPercent / (max (1 / 10) cpuCores * 100))
      powerKw * (policy.powerIdleFraction + (1 - policy.powerIdleFraction) * utilizationFraction)

def sampleTask (taskId : TaskId) (sampling : TaskSampling) (t : PowerTelemetry) : PowerTelemetry :=
  let existing := (t.records.get? taskId).getD { taskId, nodeId := localNode }
  if sampling.state.pid = none ∨ ¬ isLive sampling.state.status then
    t.update { existing with
      pid := sampling.state.pid
      processCount := 0
      processState := none
      lastError := some "Task has no live local process" }
  else match sampling.measurement with
  | .error e => t.update { existing with pid := sampling.state.pid, lastError := some e.describe }
  | .ok m =>
      let cpu := t.cpuPercent taskId m
      let t := { t with previousCpu := t.previousCpu.set taskId (m.cpuTimeSeconds, m.sampledAtUtc) }
      match sampling.checkpointBytes with
      | .error e => t.update { existing with pid := sampling.state.pid, lastError := some e.describe }
      | .ok checkpointBytes =>
          t.update {
            taskId
            nodeId := localNode
            pid := sampling.state.pid
            processCount := m.processCount
            processState := m.processState
            cpuUtilizationPercent := cpu
            memoryRssMb := some m.memoryRssMb
            checkpointBytes := some checkpointBytes
            measuredPowerKw := some (modelledPowerKw policy sampling.powerKw sampling.cpuCores cpu)
            powerSource := if cpu.isSome then "procfs_cpu_utilization_model" else "configured_fallback"
            powerConfidence :=
              if cpu.isSome then policy.cpuPowerConfidence else policy.fallbackPowerConfidence
            progressRateUnitsPerSecond := sampling.state.accounting.progressRateUnitsPerSecond
            estimatedRemainingSeconds := sampling.state.accounting.estimatedRemainingSeconds
            sampleCount := existing.sampleCount + 1
            lastSampleAtUtc := some sampling.now
            lastError := none }

/-- The weights of records, and their total. -/
def weightsOf (records : List TaskTelemetryRecord) : List Rat × Rat :=
  let weights := records.map fun record => max 0 (record.cpuUtilizationPercent.getD 0)
  if weights.sum ≤ 0 then (records.map fun _ => 1, records.length) else (weights, weights.sum)

/-- The least power that a task is given. -/
def leastPowerKw : Rat := 1 / 1000000000

def withShare (nodePowerKw total : Rat) (record : TaskTelemetryRecord) (weight : Rat) : TaskTelemetryRecord :=
  { record with
    measuredPowerKw := some (max leastPowerKw (nodePowerKw * weight / total))
    powerSource := "rapl_cpu_share"
    powerConfidence := 9 / 10 }

def giveShares (nodePowerKw total : Rat) : List (TaskTelemetryRecord × Rat) → PowerTelemetry → PowerTelemetry
  | [], t => t
  | (record, weight) :: rest, t =>
      giveShares nodePowerKw total rest (t.update (withShare nodePowerKw total record weight))

def applyShares (nodePowerKw : Rat) (records : List TaskTelemetryRecord) (t : PowerTelemetry) : PowerTelemetry :=
  let (weights, total) := weightsOf records
  t.giveShares nodePowerKw total (records.zip weights)

def applyRaplPower (root : Option (List PowercapEntry)) (now : Rat) (taskIds : List TaskId)
    (t : PowerTelemetry) : Except Exn Unit × PowerTelemetry :=
  match samplePowerKw root now t.reader with
  | (.error e, reader) => (.error e, { t with reader })
  | (.ok none, reader) => (.ok (), { t with reader })
  | (.ok (some nodePowerKw), reader) =>
      let records := taskIds.filterMap t.records.get?
      (.ok (), ({ t with reader } : PowerTelemetry).applyShares nodePowerKw records)

/-- What `run_once` finds: the states of the registry, each with its sampling, and the counters. -/
structure Round where
  scans : List (TaskRuntimeState × TaskSampling)
  root : Option (List PowercapEntry)
  at_ : Rat

/-- The tasks that are sampled. -/
def Round.sampled (round : Round) : List (TaskId × TaskSampling) :=
  (round.scans.filter fun scan => scan.1.ownerNodeId = localNode ∧ isLive scan.1.status).map fun scan =>
    (scan.1.taskId, scan.2)

def sampleTasks : List (TaskId × TaskSampling) → PowerTelemetry → PowerTelemetry
  | [], t => t
  | (taskId, sampling) :: rest, t => sampleTasks rest (t.sampleTask policy localNode taskId sampling)

/-- The part of `run_once` that is about tasks. -/
def runOnce (round : Round) (t : PowerTelemetry) : Except Exn Unit × PowerTelemetry :=
  let sampled := round.sampled localNode
  let t := t.sampleTasks policy localNode sampled
  t.applyRaplPower round.root round.at_ (sampled.map Prod.fst)

end PowerTelemetry

end Magellan.Telemetry
