import Magellan.Bidding.Models
import Magellan.Deployment.Datasets

/-!
# Validation of a deployment

The check of a cluster, a policy and the datasets before they are used, and the carbon store that is
then loaded from them: a deployment without errors has data for the whole of its first horizon.
-/

namespace Magellan.Deployment

open Planning

structure NodeRuntimeCapabilities where
  cpuCores : Option Rat := none
  memoryMb : Option Nat := none
  gpuCount : Option Nat := none
  acceleratorTypes : List String := []
  commands : List String := []
  features : List String := []

structure DeployedNode extends NodeConfig where
  vmName : String
  datasetFile : String
  resources : Bidding.NodeResourceCapacity
  capabilities : NodeRuntimeCapabilities

inductive ClockMode where
  | wall
  | trace
  deriving DecidableEq

structure ClockPolicy where
  mode : ClockMode
  traceStartUtc : Option String := none

/-- The scoring policy, with the parts of it that only the validation reads. -/
structure DeploymentPolicy extends ScoringPolicy where
  clock : ClockPolicy
  forecastHorizonSeconds : Rat := 3600
  sampleIntervalSeconds : Rat := 900

/-- What is validated, and what the store is loaded from. -/
structure Inputs where
  settings : ClusterConfig
  nodes : List DeployedNode
  policy : DeploymentPolicy
  datasetsDirectory : String
  datasets : String → Option DatasetFile

structure DeploymentValidationReport where
  nodeIds : List NodeId
  datasetSummaries : List DatasetSummary
  errors : List String
  warnings : List String
  commonStartUtc : Option String
  commonEndUtc : Option String

def DeploymentValidationReport.valid (report : DeploymentValidationReport) : Bool := report.errors = []

/-! ## Resources -/

/-- `^[a-z](?:[-a-z0-9]{0,61}[a-z0-9])?$`. -/
def gceName (name : List Char) : Bool :=
  let lower (c : Char) : Bool := 'a' ≤ c ∧ c ≤ 'z'
  let digit (c : Char) : Bool := '0' ≤ c ∧ c ≤ '9'
  match name with
  | [] => false
  | first :: rest =>
    lower first && (rest.isEmpty || decide (rest.length ≤ 62) &&
      rest.all (fun c => c = '-' || lower c || digit c) && rest.getLast?.any fun c => lower c || digit c)

def sortedNames (names : List String) : List String := names.dedup.insertionSort (· ≤ ·)

/-- A configured value and a capability that is not the same. -/
def mismatch {α : Type} [DecidableEq α] [ToString α] (nodeId : NodeId) (name : String) :
    Option α → Option α → List String
  | some configured, some capability =>
    if configured ≠ capability then
      [s!"{nodeId}: resources.{name}={configured} does not match capabilities.{name}={capability}"]
    else []
  | _, _ => []

def requiredCommands : List String := ["bash", "python3", "rsync"]

def requiredFeatures : List String :=
  ["local-command", "python-module", "process-group", "application-checkpoint"]

def sameElements (xs ys : List String) : Bool := xs.all (· ∈ ys) && ys.all (· ∈ xs)

/-- What `_validate_resource_consistency` finds at one node. -/
def resourceErrors (node : DeployedNode) : List String :=
  let missingCommands := requiredCommands.filter (· ∉ node.capabilities.commands)
  let missingFeatures := requiredFeatures.filter (· ∉ node.capabilities.features)
  (if gceName node.vmName.toList then [] else
    [s!"{node.id}: vm_name='{node.vmName}' is not a valid GCE " ++
      "instance name; refresh cluster.gcp.json from live GCP metadata"]) ++
  mismatch node.id "cpu_cores" node.resources.cpuCores node.capabilities.cpuCores ++
  mismatch node.id "memory_mb" node.resources.memoryMb node.capabilities.memoryMb ++
  mismatch node.id "gpu_count" node.resources.gpuCount node.capabilities.gpuCount ++
  (if sameElements node.resources.acceleratorTypes node.capabilities.acceleratorTypes then [] else
    [s!"{node.id}: resource and capability accelerator types differ"]) ++
  (if missingCommands = [] then [] else
    [s!"{node.id}: configured capabilities are missing commands {listText (sortedNames missingCommands)}"]) ++
  (if missingFeatures = [] then [] else
    [s!"{node.id}: configured capabilities are missing features {listText (sortedNames missingFeatures)}"])

/-! ## The common range -/

/-- `a < b` of two timestamps. A missing one is not before nor after another. -/
def before : Option Instant → Option Instant → Bool
  | some a, some b => a < b
  | _, _ => false

def notAfter : Option Instant → Option Instant → Bool
  | some a, some b => a ≤ b
  | _, _ => false

/-- `max` of timestamps: the first that none of the later ones exceeds. -/
def latest : List (Option Instant) → Option Instant
  | [] => none
  | first :: rest => rest.foldl (fun best t => if before best t then t else best) first

def earliest : List (Option Instant) → Option Instant
  | [] => none
  | first :: rest => rest.foldl (fun best t => if before t best then t else best) first

structure RangeCheck where
  errors : List String := []
  warnings : List String := []
  commonStartUtc : Option String := none
  commonEndUtc : Option String := none

def DeploymentPolicy.requiredSeconds (policy : DeploymentPolicy) : Rat :=
  max (max policy.horizonSeconds policy.forecastHorizonSeconds) (maximum policy.pause.idleCandidates)

def DeploymentPolicy.historySeconds (policy : DeploymentPolicy) : Rat :=
  ((policy.carbonForecast.historyPoints : Rat) - 1) * policy.sampleIntervalSeconds

/-- The range that all datasets have, and what the clock needs of it. -/
structure CommonRange where
  start : Option Instant
  finish : Option Instant

namespace CommonRange

variable (pandas : Pandas) (policy : DeploymentPolicy) (range : CommonRange)

def text : String := s!"[{pandas.isoformat range.start}, {pandas.isoformat range.finish}]"

/-- What is wrong with the start of a trace. -/
def traceErrors (traceStart : Option Instant) : List String :=
  if notAfter range.start traceStart && notAfter traceStart range.finish then
    let requiredEnd := traceStart.map (· + policy.requiredSeconds)
    if before range.finish requiredEnd then
      ["Common dataset range is too short for the configured " ++
        s!"forecast/scoring horizon: need through {pandas.isoformat requiredEnd}"]
    else []
  else
    [s!"trace_start_utc={pandas.isoformat traceStart} is outside common dataset range {range.text pandas}"]

def traceWarnings (traceStart : Option Instant) : List String :=
  let historyStart := traceStart.map (· - policy.historySeconds)
  if (notAfter range.start traceStart && notAfter traceStart range.finish) && before historyStart range.start then
    ["Trace starts before a full linear-forecast history window is " ++
      "available; early forecasts will use persistence/fallback until " ++
      "enough causal history accumulates"]
  else []

def check : Except Exn RangeCheck := do
  let found : RangeCheck := {
    commonStartUtc := some (pandas.isoformat range.start)
    commonEndUtc := some (pandas.isoformat range.finish) }
  if before range.finish range.start then
    return { found with errors := ["Carbon datasets have no common timestamp overlap"] }
  else match policy.clock.mode, policy.clock.traceStartUtc with
    | .wall, _ => return found
    | .trace, none => return { found with errors := ["Trace clock requires trace_start_utc"] }
    | .trace, some text =>
      let traceStart ← (pandas.timestamp text).mapError valueError
      return { found with
        errors := range.traceErrors pandas policy traceStart
        warnings := range.traceWarnings policy traceStart }

end CommonRange

def commonRange (pandas : Pandas) (policy : DeploymentPolicy)
    (ranges : List (Option Instant × Option Instant)) : Except Exn RangeCheck :=
  if ranges = [] then .error (valueError "max() iterable argument is empty")
  else CommonRange.check pandas policy ⟨latest (ranges.map (·.1)), earliest (ranges.map (·.2))⟩

namespace Inputs

variable (pandas : Pandas) (deployment : Inputs)

def cluster : ClusterConfig := { deployment.settings with nodes := deployment.nodes.map (·.toNodeConfig) }

def path (datasetFile : String) : String := s!"{deployment.datasetsDirectory}/{datasetFile}"

def check (node : DeployedNode) : DatasetCheck :=
  loadDatasetSummary pandas node.id node.datasetFile (deployment.path node.datasetFile)
    (deployment.datasets node.datasetFile)

def nodeSetErrors (expectedNodeIds : Option (List NodeId)) : List String :=
  let actual := deployment.nodes.map (·.id)
  match expectedNodeIds with
  | none => []
  | some expected =>
    if sameElements actual expected then [] else
      ["Cluster node set differs from expected seven-node deployment: " ++
        s!"missing={listText (sortedNames (expected.filter (· ∉ actual)))}, " ++
        s!"unexpected={listText (sortedNames (actual.filter (· ∉ expected)))}"]

/-- The nodes of each dataset, in the order in which the files are first named. -/
def datasetToNodes : Dict String (List NodeId) :=
  deployment.nodes.foldl (fun nodes node =>
    nodes.set node.datasetFile (nodes.getD node.datasetFile [] ++ [node.id])) .empty

def sharingWarnings : List String :=
  deployment.datasetToNodes.entries.filterMap fun (datasetFile, mappedNodes) =>
    if 1 < mappedNodes.length then
      some s!"{datasetFile} is shared by nodes {listText (mappedNodes.insertionSort (· ≤ ·))}"
    else none

/-- The range of the datasets, once each has one. -/
def rangeCheck (ranges : List (Option Instant × Option Instant)) : Except Exn RangeCheck :=
  if ranges.length = deployment.nodes.length then commonRange pandas deployment.policy ranges else .ok {}

def validateDeployment (expectedNodeIds : Option (List NodeId)) : Except Exn DeploymentValidationReport := do
  let checks := deployment.nodes.map (deployment.check pandas)
  let range ← deployment.rangeCheck pandas (checks.filterMap (·.range))
  return {
    nodeIds := deployment.nodes.map (·.id)
    datasetSummaries := checks.filterMap (·.summary)
    errors := deployment.nodeSetErrors expectedNodeIds ++
      (if deployment.nodes.length < 2 then ["Deployment must contain at least two nodes"] else []) ++
      deployment.nodes.flatMap resourceErrors ++ checks.flatMap (·.errors) ++ range.errors
    warnings := checks.flatMap (·.warnings) ++ deployment.sharingWarnings ++ range.warnings
    commonStartUtc := range.commonStartUtc
    commonEndUtc := range.commonEndUtc }

/-- A file is loaded once. -/
def cachedSeries (metric : CarbonMetric) (fileCache : Dict String RawSeries) (datasetFile : String) :
    Except Exn RawSeries :=
  match fileCache.get? datasetFile with
  | some series => .ok series
  | none => loadSeries pandas (deployment.path datasetFile) metric.column (deployment.datasets datasetFile)

/-- The loop of `CarbonStore.__init__`. -/
def loadNodes (metric : CarbonMetric) : List DeployedNode → Dict String RawSeries → Dict NodeId RawSeries →
    Except Exn (Dict NodeId RawSeries)
  | [], _, seriesByNodeId => .ok seriesByNodeId
  | node :: rest, fileCache, seriesByNodeId => do
    let series ← deployment.cachedSeries pandas metric fileCache node.datasetFile
    loadNodes metric rest (fileCache.set node.datasetFile series) (seriesByNodeId.set node.id series)

def loadStore (metric : CarbonMetric) : Except Exn (Dict NodeId RawSeries) :=
  deployment.loadNodes pandas metric deployment.nodes .empty .empty

end Inputs

/-! ## What the common range says -/

theorem latest_some (times : List Instant) (some_ : times ≠ []) :
    ∃ t, latest (times.map some) = some t ∧ ∀ s ∈ times, s ≤ t := by
  cases times with
  | nil => contradiction
  | cons first rest =>
      simp only [List.map_cons, latest, List.mem_cons, forall_eq_or_imp]
      induction rest generalizing first with
      | nil => exact ⟨first, rfl, le_rfl, by simp⟩
      | cons next rest ih =>
          simp only [List.map_cons, List.foldl_cons, before, decide_eq_true_eq, List.mem_cons,
            forall_eq_or_imp]
          split_ifs with later
          · obtain ⟨t, found, above, all⟩ := ih next (by simp)
            exact ⟨t, found, later.le.trans above, above, all⟩
          · obtain ⟨t, found, above, all⟩ := ih first (by simp)
            exact ⟨t, found, above, (not_lt.mp later).trans above, all⟩

theorem earliest_some (times : List Instant) (some_ : times ≠ []) :
    ∃ t, earliest (times.map some) = some t ∧ ∀ s ∈ times, t ≤ s := by
  cases times with
  | nil => contradiction
  | cons first rest =>
      simp only [List.map_cons, earliest, List.mem_cons, forall_eq_or_imp]
      induction rest generalizing first with
      | nil => exact ⟨first, rfl, le_rfl, by simp⟩
      | cons next rest ih =>
          simp only [List.map_cons, List.foldl_cons, before, decide_eq_true_eq, List.mem_cons,
            forall_eq_or_imp]
          split_ifs with earlier
          · obtain ⟨t, found, below, all⟩ := ih next (by simp)
            exact ⟨t, found, below.trans earlier.le, below, all⟩
          · obtain ⟨t, found, below, all⟩ := ih first (by simp)
            exact ⟨t, found, below, below.trans (not_lt.mp earlier), all⟩

theorem CommonRange.window_of_check {pandas : Pandas} {policy : DeploymentPolicy} {start finish : Instant}
    {range : RangeCheck} (checked : CommonRange.check pandas policy ⟨some start, some finish⟩ = .ok range)
    (valid : range.errors = []) (trace : policy.clock.mode = .trace) :
    ∃ text traceStart, policy.clock.traceStartUtc = some text ∧
      pandas.timestamp text = .ok (some traceStart) ∧
      start ≤ traceStart ∧ traceStart + policy.requiredSeconds ≤ finish := by
  simp only [check, trace] at checked
  split_ifs at checked with apart
  · cases checked
    simp at valid
  · cases configured : policy.clock.traceStartUtc with
    | none =>
        rw [configured] at checked
        cases checked
        simp at valid
    | some text =>
        rw [configured] at checked
        obtain ⟨traceStart, parsed, checked⟩ := Except.bind_eq_ok.mp checked
        cases checked
        cases raw : pandas.timestamp text with
        | error e =>
            rw [raw] at parsed
            cases parsed
        | ok t =>
            rw [raw] at parsed
            cases parsed
            simp only [traceErrors] at valid
            split_ifs at valid with inside late
            cases traceStart with
            | none => simp [notAfter] at inside
            | some t =>
                simp only [notAfter, Bool.and_eq_true, decide_eq_true_eq] at inside
                simp only [Option.map_some, before, decide_eq_true_eq, not_lt] at late
                exact ⟨text, t, rfl, raw, inside.1, late⟩

/-- Without errors the ranges overlap, and under the trace clock each has the first horizon. -/
theorem window_of_commonRange {pandas : Pandas} {policy : DeploymentPolicy}
    (ranges : List (Instant × Instant)) {range : RangeCheck}
    (checked : commonRange pandas policy (ranges.map fun entry => (some entry.1, some entry.2)) = .ok range)
    (valid : range.errors = []) (trace : policy.clock.mode = .trace) :
    ∃ text traceStart, policy.clock.traceStartUtc = some text ∧
      pandas.timestamp text = .ok (some traceStart) ∧
      ∀ entry ∈ ranges, entry.1 ≤ traceStart ∧ traceStart + policy.requiredSeconds ≤ entry.2 := by
  unfold commonRange at checked
  split_ifs at checked with empty
  have some_ : ranges ≠ [] := by simpa using empty
  obtain ⟨start, isLatest, starts⟩ := latest_some (ranges.map (·.1)) (by simpa using some_)
  obtain ⟨finish, isEarliest, ends⟩ := earliest_some (ranges.map (·.2)) (by simpa using some_)
  simp only [List.map_map, Function.comp_def] at isLatest isEarliest checked
  rw [isLatest, isEarliest] at checked
  obtain ⟨text, traceStart, configured, parsed, early, late⟩ :=
    CommonRange.window_of_check checked valid trace
  refine ⟨text, traceStart, configured, parsed, ?_⟩
  intro entry member
  exact ⟨(starts _ (List.mem_map_of_mem member)).trans early, late.trans (ends _ (List.mem_map_of_mem member))⟩

/-! ## What the store loads -/

theorem get?_ofList_map {α β : Type} (f : α → β) (entries : List (String × α)) (key : String) :
    (Dict.ofList (entries.map fun entry => (entry.1, f entry.2))).get? key =
      ((Dict.ofList entries).get? key).map f := by
  have fold (d : Dict String α) (e : Dict String β) (same : e.get? key = (d.get? key).map f) :
      ((entries.map fun entry => (entry.1, f entry.2)).foldl (fun e entry => e.set entry.1 entry.2) e).get? key =
        ((entries.foldl (fun d entry => d.set entry.1 entry.2) d).get? key).map f := by
    induction entries generalizing d e with
    | nil => exact same
    | cons entry rest ih =>
        apply ih
        rw [Dict.get?_set, Dict.get?_set]
        split_ifs
        · rfl
        · exact same
  exact fold .empty .empty rfl

namespace Inputs

variable {pandas : Pandas} {deployment : Inputs}

theorem loadNodes_eq {metric : CarbonMetric} (raw : String → RawSeries) {nodes : List DeployedNode}
    (loaded : ∀ node ∈ nodes, loadSeries pandas (deployment.path node.datasetFile) metric.column
      (deployment.datasets node.datasetFile) = .ok (raw node.datasetFile))
    {fileCache : Dict String RawSeries}
    (cached : ∀ file series, fileCache.get? file = some series → series = raw file)
    (seriesByNodeId : Dict NodeId RawSeries) :
    deployment.loadNodes pandas metric nodes fileCache seriesByNodeId =
      .ok ((nodes.map fun node => (node.id, raw node.datasetFile)).foldl
        (fun d (nodeId, series) => d.set nodeId series) seriesByNodeId) := by
  induction nodes generalizing fileCache seriesByNodeId with
  | nil => rfl
  | cons node rest ih =>
      have here : deployment.cachedSeries pandas metric fileCache node.datasetFile =
          .ok (raw node.datasetFile) := by
        unfold cachedSeries
        split
        · rename_i series found
          rw [cached _ _ found]
        · exact loaded node List.mem_cons_self
      rw [loadNodes, here]
      apply ih (fun other member => loaded other (List.mem_cons_of_mem _ member))
      intro file series found
      rw [Dict.get?_set] at found
      split_ifs at found with same
      · cases found
        rw [same]
      · exact cached file series found

/-- The store is the one that is loaded, with a series for each node. -/
structure Loads (pandas : Pandas) (deployment : Inputs) (metric : CarbonMetric) (carbonStore : CarbonStore) :
    Prop where
  cluster : carbonStore.cluster = deployment.cluster
  series : ∃ raw, deployment.loadStore pandas metric = .ok raw ∧ ∀ nodeId, raw.get? nodeId =
    (carbonStore.seriesByNodeId.get? nodeId).map fun series => series.samples.map Sample.raw

theorem exists_store (metric : CarbonMetric) (read : String → Series)
    (loaded : ∀ node ∈ deployment.nodes, loadSeries pandas (deployment.path node.datasetFile) metric.column
      (deployment.datasets node.datasetFile) = .ok ((read node.datasetFile).samples.map Sample.raw)) :
    ∃ carbonStore, Loads pandas deployment metric carbonStore ∧
      (∀ node ∈ deployment.nodes, ∃ series, carbonStore.series node.id = .ok series) ∧
      ∀ nodeId series, carbonStore.series nodeId = .ok series →
        ∃ node ∈ deployment.nodes, series = read node.datasetFile := by
  let entries := deployment.nodes.map fun node => (node.id, read node.datasetFile)
  have raw : deployment.loadStore pandas metric =
      .ok (.ofList (entries.map fun entry => (entry.1, entry.2.samples.map Sample.raw))) := by
    unfold loadStore
    rw [loadNodes_eq (fun file => (read file).samples.map Sample.raw) loaded]
    · simp only [entries, List.map_map]
      rfl
    · intro file series found
      cases found
  refine ⟨⟨deployment.cluster, .ofList entries⟩, ⟨rfl, _, raw, ?_⟩, ?_, ?_⟩
  · intro nodeId
    exact get?_ofList_map (fun series : Series => series.samples.map Sample.raw) entries nodeId
  · intro node member
    have found := Dict.get?_ofList_isSome (List.mem_map_of_mem (f := fun node : DeployedNode =>
      (node.id, read node.datasetFile)) member)
    obtain ⟨series, found⟩ := Option.isSome_iff_exists.mp found
    refine ⟨series, ?_⟩
    unfold CarbonStore.series
    simp only [entries, found]
  · intro nodeId series found
    unfold CarbonStore.series at found
    split at found
    · rename_i own stored
      cases found
      obtain ⟨node, member, same⟩ := List.mem_map.mp (Dict.mem_of_get?_ofList stored)
      cases same
      exact ⟨node, member, rfl⟩
    · cases found

/-! ## A deployment without errors -/

/-- What a report without errors has found. -/
theorem checks_of_valid {expectedNodeIds : Option (List NodeId)} {report : DeploymentValidationReport}
    (checked : deployment.validateDeployment pandas expectedNodeIds = .ok report) (valid : report.valid = true) :
    deployment.nodeSetErrors expectedNodeIds = [] ∧ 2 ≤ deployment.nodes.length ∧
      (∀ node ∈ deployment.nodes, resourceErrors node = []) ∧
      (∀ node ∈ deployment.nodes, (deployment.check pandas node).errors = []) ∧
      ∀ ranges, deployment.nodes.map (fun node => (deployment.check pandas node).range) = ranges.map some →
        ∃ range, commonRange pandas deployment.policy ranges = .ok range ∧ range.errors = [] := by
  unfold validateDeployment at checked
  obtain ⟨range, found, made⟩ := Except.bind_eq_ok.mp checked
  cases made
  simp only [DeploymentValidationReport.valid, decide_eq_true_eq, List.append_eq_nil_iff, ite_eq_right_iff,
    List.cons_ne_nil, imp_false, not_lt, List.flatMap_eq_nil_iff, List.forall_mem_map] at valid
  obtain ⟨⟨⟨⟨nodeSet, two⟩, resources⟩, datasets⟩, clock⟩ := valid
  refine ⟨nodeSet, two, resources, datasets, ?_⟩
  intro ranges each
  have all : (deployment.nodes.map (deployment.check pandas)).filterMap (·.range) = ranges := by
    rw [List.filterMap_map]
    calc deployment.nodes.filterMap (fun node => (deployment.check pandas node).range)
        = (deployment.nodes.map fun node => (deployment.check pandas node).range).filterMap id := by
          rw [List.filterMap_map]
          rfl
      _ = ranges := by rw [each, List.filterMap_map, Function.id_comp, List.filterMap_some]
  have length : ranges.length = deployment.nodes.length := by
    simpa using (congrArg List.length each).symm
  rw [all, rangeCheck, if_pos length] at found
  exact ⟨range, found, clock⟩

theorem mismatch_eq_nil {α : Type} [DecidableEq α] [ToString α] {nodeId : NodeId} {name : String}
    {configured capability : Option α} : mismatch nodeId name configured capability = [] ↔
      ∀ a ∈ configured, ∀ b ∈ capability, a = b := by
  cases configured <;> cases capability <;> simp [mismatch]

theorem sameElements_iff {xs ys : List String} : sameElements xs ys = true ↔ ∀ x, x ∈ xs ↔ x ∈ ys := by
  simp only [sameElements, Bool.and_eq_true, List.all_eq_true, decide_eq_true_eq]
  constructor
  · intro same x
    exact ⟨same.1 x, same.2 x⟩
  · intro same
    exact ⟨fun x => (same x).mp, fun x => (same x).mpr⟩

/-- The resources of a node are the ones that it advertises, and it can run tasks. -/
structure Consistent (node : DeployedNode) : Prop where
  name : gceName node.vmName.toList = true
  cpuCores : ∀ a ∈ node.resources.cpuCores, ∀ b ∈ node.capabilities.cpuCores, a = b
  memoryMb : ∀ a ∈ node.resources.memoryMb, ∀ b ∈ node.capabilities.memoryMb, a = b
  gpuCount : ∀ a ∈ node.resources.gpuCount, ∀ b ∈ node.capabilities.gpuCount, a = b
  acceleratorTypes : ∀ type, type ∈ node.resources.acceleratorTypes ↔ type ∈ node.capabilities.acceleratorTypes
  commands : ∀ command ∈ requiredCommands, command ∈ node.capabilities.commands
  features : ∀ feature ∈ requiredFeatures, feature ∈ node.capabilities.features

theorem consistent_of_resourceErrors {node : DeployedNode} (none : resourceErrors node = []) :
    Consistent node := by
  simp only [resourceErrors, List.append_eq_nil_iff, mismatch_eq_nil, ite_eq_left_iff, List.cons_ne_nil,
    imp_false, not_not, sameElements_iff, List.filter_eq_nil_iff, decide_eq_true_eq] at none
  obtain ⟨⟨⟨⟨⟨⟨name, cpuCores⟩, memoryMb⟩, gpuCount⟩, accelerators⟩, commands⟩, features⟩ := none
  exact ⟨name, cpuCores, memoryMb, gpuCount, accelerators, commands, features⟩

/-- The samples of a window inside a series without negative samples are averaged. -/
theorem average_of_window {carbonStore : CarbonStore} (nonneg : carbonStore.Nonneg) {nodeId : NodeId}
    {series : Series} {start duration : Rat} (inside : carbonStore.Inside nodeId series start duration)
    (positive : 0 ≤ duration) : ∃ value, carbonStore.average nodeId start duration = .ok value ∧ 0 ≤ value := by
  have averaged : ∃ value, carbonStore.average nodeId start duration = .ok value := by
    rcases positive.eq_or_lt with rfl | longer
    · refine ⟨interpolate series.samples start, ?_⟩
      rw [CarbonStore.average, if_neg (lt_irrefl 0), if_pos rfl]
      exact CarbonStore.valueAt_of_inside inside le_rfl (by simp)
    · exact ⟨_, CarbonStore.average_of_inside inside longer⟩
  obtain ⟨value, found⟩ := averaged
  exact ⟨value, found, CarbonStore.average_nonneg nonneg found⟩

/-- After the first sample there is always a forecast. -/
theorem forecast_after_start (math : MathModule) {carbonStore : CarbonStore} (nonneg : carbonStore.Nonneg)
    {policy : CarbonForecastPolicy} (enabled : policy.enabled = true) {request : ForecastRequest}
    (duration : 0 ≤ request.durationSeconds) {node : NodeConfig}
    (known : carbonStore.cluster.getNode request.nodeId = .ok node) {series : Series}
    (found : carbonStore.series request.nodeId = .ok series) (late : series.firstAt ≤ request.observedAt) :
    ∃ estimate, forecastOrAverage math carbonStore policy request = .ok estimate ∧
      0 ≤ estimate.averageGPerKwh := by
  have samples : ∀ sample ∈ series.samples, 0 ≤ sample.value := by
    apply nonneg request.nodeId
    unfold CarbonStore.series at found
    split at found
    · cases found
      assumption
    · cases found
  have within : ∀ sample ∈ series.history request.observedAt policy.historyPoints, 0 ≤ sample.value := by
    intro sample member
    exact samples sample (List.mem_of_mem_filter (List.mem_of_mem_drop member))
  have some_ : series.history request.observedAt policy.historyPoints ≠ [] := by
    have first : series.samples.head series.nonempty ∈
        series.samples.filter (·.at_ ≤ request.observedAt) :=
      List.mem_filter.mpr ⟨List.head_mem _, decide_eq_true late⟩
    have length := List.length_pos_of_mem first
    have points := policy.minimumPoints_pos.trans_le policy.minimumPoints_le
    unfold Series.history
    rw [← List.length_pos_iff, List.length_drop]
    omega
  have exact_ : ({ request with durationSeconds := max 0 request.durationSeconds } : ForecastRequest) =
      request := by
    rw [max_eq_right duration]
  obtain ⟨estimate, ok, bounded⟩ : ∃ estimate, LinearTrendForecastProvider.ofHistory math
      (policy.withFallback node) request (series.history request.observedAt policy.historyPoints) = .ok estimate ∧
        LinearTrendForecastProvider.Bounded (policy.withFallback node)
          (series.history request.observedAt policy.historyPoints) estimate :=
    LinearTrendForecastProvider.ofHistory_bounded within (.inl some_)
  refine ⟨estimate, ?_, ?_⟩
  · rw [forecastOrAverage, if_pos enabled, CarbonStore.forecast, if_neg (not_lt.mpr duration), known,
      Except.ok_bind, found, Except.ok_bind, LinearTrendForecastProvider.forecast, exact_]
    exact ok
  · by_cases source : estimate.source = "linear_trend"
    · exact (le_max_left _ _).trans (bounded.trend source).1
    · rcases bounded.known source with configured | ⟨latest, last, average⟩
      · exact (policy.withFallback node).configuredFallback_nonneg _ configured
      · rw [average]
        exact within latest (List.mem_of_getLast? last)

end Inputs

/-! ## Two nodes with a trace of an hour and a half -/

/-- Half hours and numbers as the sample tables have them. -/
def sampleNumber (cell : String) : Except String (Option Rat) :=
  match cell with
  | "" => .ok none
  | "zero" => .ok (some 0)
  | "one" => .ok (some 1800)
  | "two" => .ok (some 3600)
  | "three" => .ok (some 5400)
  | cell => .error s!"Unable to parse string {cell}"

def sampleColumn (cells : List String) : Except String (List (Option Rat)) := cells.mapM sampleNumber

theorem length_sampleColumn {cells : List String} {values : List (Option Rat)}
    (parsed : sampleColumn cells = .ok values) : values.length = cells.length := by
  unfold sampleColumn at parsed
  induction cells generalizing values with
  | nil =>
      cases parsed
      rfl
  | cons cell rest ih =>
      obtain ⟨value, others, -, later, rfl⟩ := Except.mapM_cons_eq_ok.mp parsed
      rw [List.length_cons, List.length_cons, ih later]

def samplePandas : Pandas where
  toDatetime := sampleColumn
  toNumeric := sampleColumn
  timestamp := sampleNumber
  isoformat := fun _ => "1970-01-01"
  length_toDatetime := length_sampleColumn
  length_toNumeric := length_sampleColumn

/-- Rows of an instant and an intensity, the second instant twice. -/
def sampleFrame : Frame where
  columns := [timeColumn, carbonColumn]
  rows := [("two", "one"), ("zero", "two"), ("one", "zero"), ("one", "two"), ("three", "one")].map
    fun (at_, intensity) name => if name = timeColumn then at_ else intensity

def sampleNode (id vmName : String) : DeployedNode where
  toNodeConfig := .plain id
  vmName
  datasetFile := "trace.csv"
  resources := { cpuCores := some 4 }
  capabilities := {
    cpuCores := some 4
    commands := ["rsync", "bash", "python3"]
    features := ["local-command", "python-module", "process-group", "application-checkpoint"] }

def sampleInputs : Inputs where
  settings := .plain []
  nodes := [sampleNode "boston" "node-1", sampleNode "nepal" "node-2"]
  policy := {
    horizonSeconds := 1800
    weights := { time := 1, carbon := 1, cost := 1 }
    pause := {
      pauseSeconds := 1
      idleSeconds := 600
      resumeSeconds := 1
      maxPauseWindowSeconds := 3600
      pause_nonneg := one_nonneg
      resume_nonneg := one_nonneg
      minPauseGap_nonneg := zero_nonneg
      candidates_range := idle_range }
    migration := {
      minMigrationGapSeconds := 0
      requiredImprovementFraction := 0
      networkEnergyBase_nonneg := zero_nonneg
      minMigrationGap_nonneg := zero_nonneg
      requiredImprovement_range := no_fraction
      networkEnergyKm_nonneg := zero_nonneg }
    clock := { mode := .trace, traceStartUtc := some "one" }
    forecastHorizonSeconds := 3600 }
  datasetsDirectory := "datasets"
  datasets := fun file => if file = "trace.csv" then some ⟨"", .ok sampleFrame⟩ else none

end Magellan.Deployment
