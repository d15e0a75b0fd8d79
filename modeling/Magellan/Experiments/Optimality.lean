import Magellan.Data.ShortestPath
import Magellan.Experiments.Oracle

/-!
# The oracle is optimal

The schedules that the oracle could have chosen are the walks along `moves`, which read the charges
from the trace itself. The search is an instance of the best-first search over them; its caches hold
what the trace gives.
-/

namespace Magellan.Planning

open BestFirst (Walk total total_nil total_snoc)

namespace OracleArguments

variable (a : OracleArguments)

/-! ## Schedules -/

/-- The charges of computing on a node. -/
def computeAt (elapsedSteps : Nat) (nodeId : NodeId) (seconds : Rat) : Except Exn SegmentMetrics := do
  let source ← a.cluster.getNode nodeId
  computeSegment a.carbonStore (a.at_ elapsedSteps) source seconds a.workload.powerKw

/-- The charges of a migration to the first peer of a name. -/
def migrationAt (elapsedSteps : Nat) (sourceNodeId destinationNodeId : NodeId) :
    Except Exn SegmentMetrics := do
  let source ← a.cluster.getNode sourceNodeId
  let destination ←
    match (a.graph.peers sourceNodeId).find? (·.id = destinationNodeId) with
    | some destination => .ok destination
    | none => .error (keyError destinationNodeId)
  let edge ← a.graph.edge a.math sourceNodeId destinationNodeId
  a.migration elapsedSteps source destination edge

def continues (state : OracleState) : Option (OracleState × OracleEdge) :=
  (a.computeAt state.elapsedSteps state.nodeId (a.computeSeconds state)).toOption.map
    (a.continueCandidate state)

def migrates (state : OracleState) (destination : NodeConfig) : Option (OracleState × OracleEdge) :=
  (a.migrationAt state.elapsedSteps state.nodeId destination.id).toOption.map
    (a.migrateCandidate state destination.id)

/-- All that can be done in a state inside the horizon. -/
def moves (state : OracleState) : List (OracleState × OracleEdge) :=
  ((a.continues state).toList ++ a.waitCandidate state ::
    (a.graph.peers state.nodeId).filterMap (a.migrates state)).filter
      (·.1.elapsedSteps ≤ a.maxElapsedSteps)

/-- A schedule from the start node, and the state that it ends in. -/
abbrev Schedule (edges : List OracleEdge) (state : OracleState) : Prop :=
  Walk a.moves a.initial edges state

def objective (edges : List OracleEdge) : Rat :=
  total (incrementalObjective a.policy a.reference) edges

/-! ## Data that cannot be had -/

/-- The windows of the trace that are read in a state. -/
inductive Reads (state : OracleState) : NodeId → Instant → Rat → Prop
  | compute : Reads state state.nodeId (a.at_ state.elapsedSteps) (a.computeSeconds state)
  | checkpoint {destination : NodeConfig} {edge : EdgeMetrics} :
      destination ∈ a.graph.peers state.nodeId →
      a.graph.edge a.math state.nodeId destination.id = .ok edge →
      Reads state state.nodeId (a.at_ state.elapsedSteps)
        (edge.checkpointSeconds.getD a.policy.pause.pauseSeconds)
  | restore {destination : NodeConfig} {edge : EdgeMetrics} {transfer : Rat} :
      destination ∈ a.graph.peers state.nodeId →
      a.graph.edge a.math state.nodeId destination.id = .ok edge →
      transferSeconds (a.workload.checkpointBytes +
        if a.assumeStaticPrestaged then 0 else a.workload.staticDataBytes)
          edge.bandwidthMbps edge.latencyMs = .ok transfer →
      Reads state destination.id
        (a.at_ state.elapsedSteps +
          (edge.checkpointSeconds.getD a.policy.pause.pauseSeconds + transfer))
        (edge.restoreSeconds.getD a.policy.pause.resumeSeconds)

/-- The errors of a node that is not in the configuration, and of a window that the trace does not
cover and that is read in a state that a schedule leads to with work left. -/
inductive Fails : Exn → Prop
  | unknownNode {nodeId : NodeId} {e : Exn} : a.cluster.getNode nodeId = .error e → Fails e
  | unknownPeer {nodeId : NodeId} {e : Exn} : a.graph.cluster.getNode nodeId = .error e → Fails e
  | uncovered {edges : List OracleEdge} {state : OracleState} {nodeId : NodeId} {t : Instant}
      {seconds : Rat} {e : Exn} : a.Schedule edges state → state.completedWorkSteps < a.workSteps →
      a.Reads state nodeId t seconds → a.carbonStore.average nodeId t seconds = .error e → Fails e

/-! ## What is reported -/

structure StepReports (step : ReplayStep Unit) (edge : OracleEdge) : Prop where
  action : step.action = edge.action.stepAction
  source : step.sourceNodeId = edge.sourceNodeId
  destination : step.destinationNodeId = edge.action.destinationNodeId
  elapsed : step.elapsedSeconds = edge.elapsedSeconds
  compute : step.computeSeconds = edge.computeSeconds
  idle : step.idleSeconds = edge.idleSeconds
  migration : step.migrationSeconds = edge.migrationSeconds
  carbon : step.carbonGrams = edge.carbonGrams
  cost : step.costUsd = edge.costUsd

/-- The outcome is that of a schedule which finishes the work. -/
structure Reports (outcome : PolicyOutcome Unit) (edges : List OracleEdge) (terminal : OracleState) :
    Prop where
  schedule : a.Schedule edges terminal
  finished : a.workSteps ≤ terminal.completedWorkSteps
  objective : outcome.objectiveValue = some (a.objective edges)
  makespan : outcome.makespanSeconds = total (·.elapsedSeconds) edges
  carbon : outcome.carbonGrams = total (·.carbonGrams) edges
  cost : outcome.costUsd = total (·.costUsd) edges
  compute : outcome.computeSeconds = total (·.computeSeconds) edges
  work : outcome.computeSeconds = a.workload.durationSeconds
  idle : outcome.pausedIdleSeconds = total (·.idleSeconds) edges
  migration : outcome.migrationSeconds = total (·.migrationSeconds) edges
  owners : outcome.ownerPath =
    a.workload.startNodeId :: edges.filterMap (·.action.destinationNodeId)
  final : outcome.finalNodeId = terminal.nodeId
  steps : List.Forall₂ StepReports outcome.steps edges

/-- The outcome is that of a schedule, and no schedule has an objective that is less by more than the
tolerance for each of its edges. -/
def Optimal (outcome : PolicyOutcome Unit) : Prop :=
  (∃ edges terminal, a.Reports outcome edges terminal) ∧
    ∃ value, outcome.objectiveValue = some value ∧
      ∀ edges terminal, a.Schedule edges terminal → a.workSteps ≤ terminal.completedWorkSteps →
        value ≤ a.objective edges + edges.length * tiny

end OracleArguments

/-! ## The caches -/

theorem cached_cases {κ α : Type} [DecidableEq κ] (cache : Dict κ α) (key : κ)
    (compute : Except Exn α) :
    (∃ value, cache.get? key = some value ∧ cached cache key compute = .ok (value, cache)) ∨
      (∃ value, cache.get? key = none ∧ compute = .ok value ∧
        cached cache key compute = .ok (value, cache.set key value)) ∨
      ∃ e, cache.get? key = none ∧ compute = .error e ∧ cached cache key compute = .error e := by
  unfold cached
  cases cache.get? key with
  | some value => exact .inl ⟨value, rfl, rfl⟩
  | none =>
      cases compute with
      | ok value => exact .inr (.inl ⟨value, rfl, rfl, rfl⟩)
      | error e => exact .inr (.inr ⟨e, rfl, rfl, rfl⟩)

theorem cached_valid {κ α : Type} [DecidableEq κ] {cache : Dict κ α} (spec : κ → Except Exn α)
    (valid : ∀ key value, cache.get? key = some value → spec key = .ok value) (key : κ)
    {compute : Except Exn α} (same : cache.get? key = none → compute = spec key) :
    (∃ value cache', cached cache key compute = .ok (value, cache') ∧ spec key = .ok value ∧
        (∀ key value, cache'.get? key = some value → spec key = .ok value) ∧
          (cache'.get? key).isSome ∧ ∀ key', (cache.get? key').isSome → (cache'.get? key').isSome) ∨
      ∃ e, cached cache key compute = .error e ∧ spec key = .error e := by
  rcases cached_cases cache key compute with ⟨value, found, result⟩ | ⟨value, fresh, ok, result⟩ |
    ⟨e, fresh, error, result⟩
  · exact .inl ⟨value, cache, result, valid key value found, valid, by rw [found]; rfl,
      fun _ present => present⟩
  · have computed : spec key = .ok value := (same fresh).symm.trans ok
    refine .inl ⟨value, _, result, computed, ?_, by rw [Dict.get?_set, if_pos rfl]; rfl, ?_⟩
    · intro key' value' found
      rw [Dict.get?_set] at found
      split_ifs at found with here
      · cases found
        rw [here, computed]
      · exact valid key' value' found
    · intro key' present
      rw [Dict.get?_set]
      split_ifs
      · rfl
      · exact present
  · exact .inr ⟨e, result, (same fresh).symm.trans error⟩

/-! ## Errors of the data -/

theorem ClusterGraph.edge_error {math : MathModule} {graph : ClusterGraph}
    {sourceNodeId destinationNodeId : NodeId} {e : Exn}
    (failed : graph.edge math sourceNodeId destinationNodeId = .error e) :
    ∃ nodeId, graph.cluster.getNode nodeId = .error e := by
  unfold ClusterGraph.edge at failed
  cases source : graph.cluster.getNode sourceNodeId with
  | error e' =>
      simp only [source, bind, Except.bind] at failed
      cases failed
      exact ⟨_, source⟩
  | ok sourceNode =>
      cases destination : graph.cluster.getNode destinationNodeId with
      | error e' =>
          simp only [source, destination, bind, Except.bind] at failed
          cases failed
          exact ⟨_, destination⟩
      | ok destinationNode =>
          simp only [source, destination, bind, Except.bind, pure, Except.pure] at failed
          split at failed <;> cases failed

theorem transferSeconds_ok (sizeBytes : Nat) {bandwidthMbps : Rat} (bandwidth : 0 < bandwidthMbps)
    (latencyMs : Rat) :
    ∃ seconds, transferSeconds sizeBytes bandwidthMbps latencyMs = .ok seconds := by
  rw [transferSeconds, if_neg (not_le.mpr bandwidth)]
  exact ⟨_, rfl⟩

theorem computeSegment_error {carbonStore : CarbonStore} {start : Instant} {node : NodeConfig}
    {seconds powerKw : Rat} {e : Exn}
    (failed : computeSegment carbonStore start node seconds powerKw = .error e) :
    carbonStore.average node.id start seconds = .error e := by
  unfold computeSegment activeSegment at failed
  split_ifs at failed
  cases read : carbonStore.average node.id start seconds with
  | error e' =>
      simp only [read, bind, Except.bind] at failed
      cases failed
      rfl
  | ok intensity =>
      simp only [read, bind, Except.bind, pure, Except.pure] at failed
      cases failed

theorem realizedMigration_error {carbonStore : CarbonStore} {start : Instant}
    {source destination : NodeConfig} {edge : EdgeMetrics} (inRange : edge.InRange)
    {policy : ScoringPolicy} {powerKw : Rat} {checkpointBytes staticDataBytes : Nat} {e : Exn}
    (failed : realizedMigration carbonStore start source destination edge policy powerKw
      checkpointBytes staticDataBytes = .error e) :
    carbonStore.average source.id start
        (edge.checkpointSeconds.getD policy.pause.pauseSeconds) = .error e ∨
      ∃ transfer, transferSeconds (checkpointBytes + staticDataBytes) edge.bandwidthMbps
          edge.latencyMs = .ok transfer ∧
        carbonStore.average destination.id
          (start + (edge.checkpointSeconds.getD policy.pause.pauseSeconds + transfer))
            (edge.restoreSeconds.getD policy.pause.resumeSeconds) = .error e := by
  unfold realizedMigration at failed
  obtain ⟨transfer, transferred⟩ := transferSeconds_ok (checkpointBytes + staticDataBytes)
    inRange.bandwidth_pos edge.latencyMs
  set checkpointSeconds := edge.checkpointSeconds.getD policy.pause.pauseSeconds
  set restoreSeconds := edge.restoreSeconds.getD policy.pause.resumeSeconds
  cases read : carbonStore.average source.id start checkpointSeconds with
  | error e' =>
      simp only [transferred, read, bind, Except.bind] at failed
      cases failed
      exact .inl rfl
  | ok checkpointIntensity =>
      refine .inr ⟨transfer, transferred, ?_⟩
      cases read' : carbonStore.average destination.id (start + (checkpointSeconds + transfer))
          restoreSeconds with
      | error e' =>
          simp only [transferred, read, read', bind, Except.bind] at failed
          cases failed
          rfl
      | ok restoreIntensity =>
          simp only [transferred, read, read', bind, Except.bind, pure, Except.pure] at failed
          cases failed

namespace OracleArguments

variable {a : OracleArguments} {state : OracleState}

/-- A state that a schedule leads to with work left. -/
def Open (a : OracleArguments) (state : OracleState) : Prop :=
  (∃ edges, a.Schedule edges state) ∧ state.completedWorkSteps < a.workSteps

theorem computeAt_error (reached : a.Open state) {e : Exn}
    (failed : a.computeAt state.elapsedSteps state.nodeId (a.computeSeconds state) = .error e) :
    a.Fails e := by
  obtain ⟨⟨edges, schedule⟩, left⟩ := reached
  unfold computeAt at failed
  cases source : a.cluster.getNode state.nodeId with
  | error e' =>
      simp only [source, bind, Except.bind] at failed
      cases failed
      exact .unknownNode source
  | ok node =>
      simp only [source, bind, Except.bind] at failed
      have uncovered := computeSegment_error failed
      rw [(ClusterConfig.id_of_getNode source).1] at uncovered
      exact .uncovered schedule left .compute uncovered

theorem migrationAt_error (reached : a.Open state) {destination : NodeConfig}
    (peer : destination ∈ a.graph.peers state.nodeId) {e : Exn}
    (failed : a.migrationAt state.elapsedSteps state.nodeId destination.id = .error e) :
    a.Fails e := by
  obtain ⟨⟨edges, schedule⟩, left⟩ := reached
  unfold migrationAt at failed
  cases source : a.cluster.getNode state.nodeId with
  | error e' =>
      simp only [source, bind, Except.bind] at failed
      cases failed
      exact .unknownNode source
  | ok node =>
  cases first : (a.graph.peers state.nodeId).find? (·.id = destination.id) with
  | none => simpa using List.find?_eq_none.mp first destination peer
  | some first' =>
  have sameId : first'.id = destination.id := by simpa using List.find?_some first
  have member := List.mem_of_find?_eq_some first
  cases edge : a.graph.edge a.math state.nodeId destination.id with
  | error e' =>
      simp only [source, first, edge, bind, Except.bind] at failed
      cases failed
      obtain ⟨nodeId, unknown⟩ := ClusterGraph.edge_error edge
      exact .unknownPeer unknown
  | ok metrics =>
      simp only [source, first, edge, bind, Except.bind] at failed
      rw [← sameId] at edge
      rcases realizedMigration_error (ClusterGraph.edge_inRange edge) failed with
        uncovered | ⟨transfer, transferred, uncovered⟩
      · rw [(ClusterConfig.id_of_getNode source).1] at uncovered
        exact .uncovered schedule left (.checkpoint member edge) uncovered
      · exact .uncovered schedule left (.restore member edge transferred) uncovered

/-! ## The search unfolds the schedules -/

structure CachesValid (a : OracleArguments) (caches : OracleCaches) : Prop where
  compute : ∀ key value, caches.compute.get? key = some value →
    a.computeAt key.1 key.2.1 key.2.2 = .ok value
  migration : ∀ key value, caches.migration.get? key = some value →
    a.migrationAt key.1 key.2.1 key.2.2 = .ok value

theorem find?_first {before rest : List NodeConfig} {destination : NodeConfig}
    (new : ∀ other ∈ before, other.id ≠ destination.id) :
    (before ++ destination :: rest).find? (·.id = destination.id) = some destination := by
  rw [List.find?_append]
  have none : before.find? (·.id = destination.id) = none := by
    rw [List.find?_eq_none]
    intro other member
    simpa using new other member
  rw [none]
  simp

theorem migrateCandidates_spec (reached : a.Open state) {source : NodeConfig}
    (known : a.cluster.getNode state.nodeId = .ok source) (before rest : List NodeConfig)
    (peers : a.graph.peers state.nodeId = before ++ rest) (caches : OracleCaches)
    (met : ∀ other ∈ before,
      (caches.migration.get? (state.elapsedSteps, state.nodeId, other.id)).isSome)
    (valid : a.CachesValid caches) :
    (∃ caches', a.migrateCandidates state source rest caches =
        .ok (rest.filterMap (a.migrates state), caches') ∧ a.CachesValid caches') ∨
      ∃ e, a.migrateCandidates state source rest caches = .error e ∧ a.Fails e := by
  induction rest generalizing before caches with
  | nil => exact .inl ⟨caches, rfl, valid⟩
  | cons destination rest ih =>
      have peer : destination ∈ a.graph.peers state.nodeId := by
        rw [peers]
        exact List.mem_append_right _ List.mem_cons_self
      unfold migrateCandidates
      cases edge : a.graph.edge a.math state.nodeId destination.id with
      | error e =>
          obtain ⟨nodeId, unknown⟩ := ClusterGraph.edge_error edge
          exact .inr ⟨e, rfl, .unknownPeer unknown⟩
      | ok metrics =>
          have same : caches.migration.get? (state.elapsedSteps, state.nodeId, destination.id) = none →
              a.migration state.elapsedSteps source destination metrics =
                a.migrationAt state.elapsedSteps state.nodeId destination.id := by
            intro fresh
            have new : ∀ other ∈ before, other.id ≠ destination.id := by
              intro other member sameId
              have present := met other member
              rw [sameId, fresh] at present
              cases present
            unfold migrationAt
            simp only [known, edge, peers, find?_first new, bind, Except.bind]
          rcases cached_valid (fun key => a.migrationAt key.1 key.2.1 key.2.2) valid.migration
            (state.elapsedSteps, state.nodeId, destination.id) same with
            ⟨value, cache, result, computed, valid', present, kept⟩ | ⟨e, result, failed⟩
          · have met' : ∀ other ∈ before ++ [destination],
                (cache.get? (state.elapsedSteps, state.nodeId, other.id)).isSome := by
              intro other member
              rcases List.mem_append.mp member with old | new
              · exact kept _ (met other old)
              · rw [List.mem_singleton] at new
                rw [new]
                exact present
            have here : a.migrates state destination =
                some (a.migrateCandidate state destination.id value) := by
              unfold migrates
              rw [computed]
              rfl
            have peers' : a.graph.peers state.nodeId = (before ++ [destination]) ++ rest := by
              rw [peers, List.append_assoc]
              rfl
            rcases ih (before ++ [destination]) peers' { caches with migration := cache } met'
              ⟨valid.compute, valid'⟩ with
              ⟨caches', rest', valid''⟩ | ⟨e, failed, fails⟩
            · refine .inl ⟨caches', ?_, valid''⟩
              simp only [bind, Except.bind, result, rest', pure, Except.pure]
              rw [List.filterMap_cons_some here]
            · refine .inr ⟨e, ?_, fails⟩
              simp only [bind, Except.bind, result, failed]
          · refine .inr ⟨e, ?_, migrationAt_error reached peer failed⟩
            simp only [bind, Except.bind, result]

theorem mem_moves {next : OracleState × OracleEdge} (move : next ∈ a.moves state) :
    next.1.elapsedSteps ≤ a.maxElapsedSteps ∧
      ((∃ metrics, a.computeAt state.elapsedSteps state.nodeId (a.computeSeconds state) = .ok metrics ∧
          next = a.continueCandidate state metrics) ∨
        next = a.waitCandidate state ∨
        ∃ destination ∈ a.graph.peers state.nodeId, ∃ migration,
          a.migrationAt state.elapsedSteps state.nodeId destination.id = .ok migration ∧
            next = a.migrateCandidate state destination.id migration) := by
  obtain ⟨candidate, inside⟩ := List.mem_filter.mp move
  refine ⟨by simpa using inside, ?_⟩
  rcases List.mem_append.mp candidate with continued | other
  · unfold continues at continued
    cases charged : a.computeAt state.elapsedSteps state.nodeId (a.computeSeconds state) with
    | error e => simp [charged, Except.toOption] at continued
    | ok metrics =>
        refine .inl ⟨metrics, rfl, ?_⟩
        simpa [charged, Except.toOption] using continued
  · rcases List.mem_cons.mp other with waits | migrated
    · exact .inr (.inl waits)
    · obtain ⟨destination, peer, found⟩ := List.mem_filterMap.mp migrated
      unfold migrates at found
      cases charged : a.migrationAt state.elapsedSteps state.nodeId destination.id with
      | error e => simp [charged, Except.toOption] at found
      | ok migration =>
          refine .inr (.inr ⟨destination, peer, migration, charged, ?_⟩)
          simpa [charged, Except.toOption, eq_comm] using found

theorem elapsed_of_move {next : OracleState × OracleEdge} (move : next ∈ a.moves state) :
    state.elapsedSteps < next.1.elapsedSteps := by
  rcases (mem_moves move).2 with ⟨metrics, -, rfl⟩ | rfl | ⟨destination, -, migration, -, rfl⟩
  · exact Nat.lt_succ_self _
  · exact Nat.lt_succ_self _
  · exact Nat.lt_add_of_pos_right (ceilSteps_pos _ _)

theorem expand_spec (reached : a.Open state) {caches : OracleCaches} (valid : a.CachesValid caches) :
    (∃ caches', a.expand state caches = .ok (a.moves state, caches') ∧ a.CachesValid caches') ∨
      ∃ e, a.expand state caches = .error e ∧ a.Fails e := by
  unfold expand
  split_ifs with beyond
  · have none : a.moves state = [] := by
      apply List.eq_nil_iff_forall_not_mem.mpr
      intro next move
      have later := elapsed_of_move move
      have inside := (mem_moves move).1
      omega
    rw [none]
    exact .inl ⟨caches, rfl, valid⟩
  · cases known : a.cluster.getNode state.nodeId with
    | error e => exact .inr ⟨e, rfl, .unknownNode known⟩
    | ok source =>
        have same : caches.compute.get? (state.elapsedSteps, state.nodeId, a.computeSeconds state) =
            none → computeSegment a.carbonStore (a.at_ state.elapsedSteps) source
              (a.computeSeconds state) a.workload.powerKw =
                a.computeAt state.elapsedSteps state.nodeId (a.computeSeconds state) := by
          intro _
          unfold computeAt
          simp only [known, bind, Except.bind]
        rcases cached_valid (fun key => a.computeAt key.1 key.2.1 key.2.2) valid.compute
          (state.elapsedSteps, state.nodeId, a.computeSeconds state) same with
          ⟨metrics, cache, result, computed, valid', -, -⟩ | ⟨e, result, failed⟩
        · have here : a.continues state = some (a.continueCandidate state metrics) := by
            unfold continues
            rw [computed]
            rfl
          rcases migrateCandidates_spec reached known [] (a.graph.peers state.nodeId) rfl
            { caches with compute := cache } (fun _ member => by cases member)
              ⟨valid', valid.migration⟩ with ⟨caches', migrations, valid''⟩ | ⟨e, failed, fails⟩
          · refine .inl ⟨caches', ?_, valid''⟩
            simp only [bind, Except.bind, result, migrations, pure, Except.pure]
            rw [moves, here]
            rfl
          · refine .inr ⟨e, ?_, fails⟩
            simp only [bind, Except.bind, result, failed]
        · refine .inr ⟨e, ?_, computeAt_error reached failed⟩
          simp only [bind, Except.bind, result]

/-- A state in which the task cannot go on has no expansion. -/
theorem expand_error (inside : state.elapsedSteps < a.maxElapsedSteps) {e : Exn}
    (failed : a.computeAt state.elapsedSteps state.nodeId (a.computeSeconds state) = .error e)
    {caches : OracleCaches} (valid : a.CachesValid caches) :
    ∃ e', a.expand state caches = .error e' := by
  rw [expand, if_neg (not_le.mpr inside)]
  cases known : a.cluster.getNode state.nodeId with
  | error e' => exact ⟨e', rfl⟩
  | ok source =>
      have same : caches.compute.get? (state.elapsedSteps, state.nodeId, a.computeSeconds state) =
          none → computeSegment a.carbonStore (a.at_ state.elapsedSteps) source
            (a.computeSeconds state) a.workload.powerKw =
              a.computeAt state.elapsedSteps state.nodeId (a.computeSeconds state) := by
        intro _
        unfold computeAt
        simp only [known, bind, Except.bind]
      rcases cached_valid (fun key => a.computeAt key.1 key.2.1 key.2.2) valid.compute
        (state.elapsedSteps, state.nodeId, a.computeSeconds state) same with
        ⟨metrics, cache, -, computed, -⟩ | ⟨e', result, -⟩
      · rw [failed] at computed
        cases computed
      · refine ⟨e', ?_⟩
        simp only [bind, Except.bind, result]

/-! ## Edges are non-negative -/

structure EdgeNonneg (edge : OracleEdge) : Prop where
  elapsed : 0 ≤ edge.elapsedSeconds
  compute : 0 ≤ edge.computeSeconds
  idle : 0 ≤ edge.idleSeconds
  migration : 0 ≤ edge.migrationSeconds
  carbon : 0 ≤ edge.carbonGrams
  cost : 0 ≤ edge.costUsd

/-- What the results below rely on. -/
structure Proper (a : OracleArguments) : Prop where
  quantum : 0 < a.quantumSeconds
  multiplier : 1 ≤ a.maxElapsedMultiplier
  intensities : a.carbonStore.Nonneg

theorem computeAt_nonneg (proper : a.Proper) {elapsedSteps : Nat} {nodeId : NodeId} {seconds : Rat}
    {metrics : SegmentMetrics} (found : a.computeAt elapsedSteps nodeId seconds = .ok metrics) :
    metrics.Nonneg := by
  unfold computeAt at found
  cases source : a.cluster.getNode nodeId with
  | error e => simp [source, bind, Except.bind] at found
  | ok node =>
      simp only [source, bind, Except.bind] at found
      exact computeSegment_nonneg proper.intensities a.workload.power_pos.le found

theorem migrationAt_nonneg (proper : a.Proper) {elapsedSteps : Nat}
    {sourceNodeId destinationNodeId : NodeId} {metrics : SegmentMetrics}
    (found : a.migrationAt elapsedSteps sourceNodeId destinationNodeId = .ok metrics) :
    metrics.Nonneg := by
  unfold migrationAt at found
  cases source : a.cluster.getNode sourceNodeId with
  | error e => simp [source, bind, Except.bind] at found
  | ok node =>
  cases first : (a.graph.peers sourceNodeId).find? (·.id = destinationNodeId) with
  | none => simp [source, first, bind, Except.bind] at found
  | some destination =>
  cases edge : a.graph.edge a.math sourceNodeId destinationNodeId with
  | error e => simp [source, first, edge, bind, Except.bind] at found
  | ok metrics =>
      simp only [source, first, edge, bind, Except.bind] at found
      exact realizedMigration_nonneg proper.intensities (ClusterGraph.edge_inRange edge)
        a.workload.power_pos.le found

theorem computeSeconds_nonneg (proper : a.Proper) (state : OracleState) :
    0 ≤ a.computeSeconds state :=
  le_min proper.quantum.le (le_max_left _ _)

theorem edge_nonneg (proper : a.Proper) {next : OracleState × OracleEdge}
    (move : next ∈ a.moves state) : EdgeNonneg next.2 := by
  rcases (mem_moves move).2 with ⟨metrics, charged, rfl⟩ | rfl | ⟨destination, -, migration, charged, rfl⟩
  · have nonneg := computeAt_nonneg proper charged
    have seconds := computeSeconds_nonneg proper state
    exact ⟨seconds, seconds, le_rfl, le_rfl, nonneg.carbon, nonneg.cost⟩
  · exact ⟨proper.quantum.le, le_rfl, proper.quantum.le, le_rfl, le_rfl, le_rfl⟩
  · have nonneg := migrationAt_nonneg proper charged
    exact ⟨mul_nonneg (Nat.cast_nonneg _) proper.quantum.le, le_rfl, le_rfl, nonneg.elapsed,
      nonneg.carbon, nonneg.cost⟩

theorem incrementalObjective_nonneg {policy : ScoringPolicy} {reference : ReferenceScales}
    {edge : OracleEdge} (nonneg : EdgeNonneg edge) : 0 ≤ incrementalObjective policy reference edge := by
  obtain ⟨alpha, beta, gamma⟩ := policy.weights.normalized_nonneg
  have scale : ∀ reference : Rat, 0 ≤ max reference tiny := fun reference =>
    tiny_pos.le.trans (le_max_right _ _)
  exact add_nonneg (add_nonneg (div_nonneg (mul_nonneg alpha nonneg.elapsed) (scale _))
    (div_nonneg (mul_nonneg beta nonneg.carbon) (scale _)))
      (div_nonneg (mul_nonneg gamma nonneg.cost) (scale _))

/-- The states inside the horizon. -/
def states (a : OracleArguments) : Finset OracleState :=
  (((Finset.range (a.maxElapsedSteps + 1)) ×ˢ (Finset.range (a.maxElapsedSteps + 1)) ×ˢ
    (a.workload.startNodeId :: a.graph.cluster.nodes.map (·.id)).toFinset).image fun state =>
      OracleState.mk state.1 state.2.1 state.2.2).filter
        fun state => state.completedWorkSteps ≤ state.elapsedSteps

theorem mem_states : state ∈ a.states ↔ state.elapsedSteps ≤ a.maxElapsedSteps ∧
    state.completedWorkSteps ≤ state.elapsedSteps ∧
      state.nodeId ∈ a.workload.startNodeId :: a.graph.cluster.nodes.map (·.id) := by
  simp only [states, Finset.mem_filter, Finset.mem_image, Finset.mem_product, Finset.mem_range,
    List.mem_toFinset, Prod.exists]
  constructor
  · rintro ⟨⟨elapsed, completed, nodeId, ⟨inside, -, known⟩, rfl⟩, le⟩
    exact ⟨Nat.lt_succ_iff.mp inside, le, known⟩
  · rintro ⟨inside, le, known⟩
    exact ⟨⟨_, _, _, ⟨Nat.lt_succ_iff.mpr inside, Nat.lt_succ_iff.mpr (le.trans inside), known⟩, rfl⟩,
      le⟩

theorem states_closed {next : OracleState × OracleEdge} (member : state ∈ a.states)
    (move : next ∈ a.moves state) : next.1 ∈ a.states := by
  obtain ⟨-, completed, known⟩ := mem_states.mp member
  obtain ⟨inside, kind⟩ := mem_moves move
  rw [mem_states]
  refine ⟨inside, ?_⟩
  rcases kind with ⟨metrics, -, rfl⟩ | rfl | ⟨destination, peer, migration, -, rfl⟩
  · exact ⟨Nat.succ_le_succ completed, known⟩
  · exact ⟨completed.trans (Nat.le_succ _), known⟩
  · refine ⟨completed.trans (Nat.le_add_right _ _), List.mem_cons_of_mem _ ?_⟩
    exact List.mem_map.mpr ⟨destination, (List.mem_filter.mp peer).1, rfl⟩

theorem problem_unfolds (proper : a.Proper) :
    a.problem.Unfolds a.moves a.states a.CachesValid a.Fails where
  start_mem := mem_states.mpr ⟨Nat.zero_le _, le_rfl, List.mem_cons_self⟩
  closed := fun _ member _ move => states_closed member move
  weight_nonneg := fun _ _ move => incrementalObjective_nonneg (edge_nonneg proper move)
  tolerance_nonneg := tiny_pos.le
  expands := by
    intro edges state schedule notGoal caches valid
    have left : state.completedWorkSteps < a.workSteps := by
      simpa [problem] using notGoal
    exact expand_spec ⟨⟨edges, schedule⟩, left⟩ valid

theorem workSteps_le (proper : a.Proper) : a.workSteps ≤ a.maxElapsedSteps := by
  apply Int.toNat_le_toNat
  apply Int.ceil_le_ceil
  apply div_le_div_of_nonneg_right _ proper.quantum.le
  exact le_mul_of_one_le_right a.workload.duration_pos.le proper.multiplier

/-- Going on all the time leads to the end of the work, or to a window that cannot be had. -/
theorem stops (proper : a.Proper) :
    ∃ edges state, a.Schedule edges state ∧ BestFirst.Stops a.problem a.CachesValid state := by
  have steps : ∀ n ≤ a.workSteps,
      (∃ edges, a.Schedule edges ⟨n, n, a.workload.startNodeId⟩) ∨
        ∃ edges state, a.Schedule edges state ∧ BestFirst.Stops a.problem a.CachesValid state := by
    intro n
    induction n with
    | zero => exact fun _ => .inl ⟨[], .nil⟩
    | succ n ih =>
        intro le
        rcases ih (by omega) with ⟨edges, schedule⟩ | stopped
        · have left : n < a.workSteps := by omega
          have inside := workSteps_le proper
          cases charged : a.computeAt n a.workload.startNodeId
              (a.computeSeconds ⟨n, n, a.workload.startNodeId⟩) with
          | ok metrics =>
              refine .inl ⟨_, schedule.snoc (e := (a.continueCandidate
                ⟨n, n, a.workload.startNodeId⟩ metrics).2) ?_⟩
              refine List.mem_filter.mpr ⟨List.mem_append_left _ ?_, by simp; omega⟩
              rw [continues, charged]
              exact List.mem_singleton_self _
          | error e =>
              refine .inr ⟨edges, _, schedule, .inr ?_⟩
              intro caches valid
              exact expand_error (by show n < _; omega) charged valid
        · exact .inr stopped
  rcases steps a.workSteps le_rfl with ⟨edges, schedule⟩ | stopped
  · exact ⟨edges, _, schedule, .inl (by simp [problem])⟩
  · exact stopped

/-! ## The reconstruction -/

/-- What has been added up along a schedule. -/
structure Follows (a : OracleArguments) (totals : PathTotals) (edges : List OracleEdge)
    (state : OracleState) : Prop where
  compute : totals.computeSecondsTotal = total (·.computeSeconds) edges
  completed : totals.completedWork = total (·.computeSeconds) edges
  idle : totals.idleSecondsTotal = total (·.idleSeconds) edges
  migration : totals.migrationSecondsTotal = total (·.migrationSeconds) edges
  carbon : totals.carbonTotal = total (·.carbonGrams) edges
  cost : totals.costTotal = total (·.costUsd) edges
  current : totals.currentNodeId = state.nodeId
  owners : totals.ownerPath =
    a.workload.startNodeId :: edges.filterMap (·.action.destinationNodeId)
  steps : List.Forall₂ StepReports totals.steps edges

theorem reportedStep_validated {totals : PathTotals} {edge : OracleEdge} (nonneg : EdgeNonneg edge) :
    (a.reportedStep totals edge).validated = .ok (a.reportedStep totals edge) := by
  unfold ReplayStep.validated
  rw [requireNonneg_ok]
  · rfl
  · intro field member
    simp only [List.mem_cons, List.not_mem_nil, or_false] at member
    rcases member with rfl | rfl | rfl | rfl | rfl | rfl | rfl
    · exact nonneg.elapsed
    · exact nonneg.compute
    · exact nonneg.idle
    · exact nonneg.migration
    · exact nonneg.carbon
    · exact nonneg.cost
    · exact le_max_left _ _

theorem nodeId_of_move {next : OracleState × OracleEdge} (move : next ∈ a.moves state) :
    next.1.nodeId = next.2.action.destinationNodeId.getD state.nodeId := by
  rcases (mem_moves move).2 with ⟨metrics, -, rfl⟩ | rfl | ⟨destination, -, migration, -, rfl⟩ <;> rfl

theorem Follows.step (proper : a.Proper) {totals : PathTotals} {edges : List OracleEdge}
    (follows : a.Follows totals edges state) {next : OracleState × OracleEdge}
    (move : next ∈ a.moves state) :
    ∃ totals', a.follow totals next.2 = .ok totals' ∧ a.Follows totals' (edges ++ [next.2]) next.1 := by
  have step : (a.reportedStep totals next.2).validated = .ok (a.reportedStep totals next.2) :=
    reportedStep_validated (edge_nonneg proper move)
  unfold follow
  simp only [step, bind, Except.bind, pure, Except.pure]
  refine ⟨_, rfl, ?_⟩
  constructor
  case compute => simp only [total_snoc, follows.compute]
  case completed => simp only [total_snoc, follows.completed]
  case idle => simp only [total_snoc, follows.idle]
  case migration => simp only [total_snoc, follows.migration]
  case carbon => simp only [total_snoc, follows.carbon]
  case cost => simp only [total_snoc, follows.cost]
  case current => rw [nodeId_of_move move, follows.current]
  case owners =>
    simp only [follows.owners, List.filterMap_append, List.filterMap_cons, List.filterMap_nil]
    cases next.2.action.destinationNodeId <;> simp
  case steps => exact List.rel_append follows.steps (.cons ⟨rfl, rfl, rfl, rfl, rfl, rfl, rfl, rfl, rfl⟩ .nil)

theorem follows (proper : a.Proper) {edges : List OracleEdge} {state : OracleState}
    (schedule : a.Schedule edges state) :
    ∃ totals, edges.foldlM a.follow a.noTotals = .ok totals ∧ a.Follows totals edges state := by
  induction schedule with
  | nil => exact ⟨a.noTotals, rfl, rfl, rfl, rfl, rfl, rfl, rfl, rfl, rfl, .nil⟩
  | snoc _ move ih =>
      obtain ⟨totals, before, follows⟩ := ih
      obtain ⟨totals', here, follows'⟩ := follows.step proper move
      refine ⟨totals', ?_, follows'⟩
      rw [List.foldlM_append, before]
      simp only [bind, Except.bind, List.foldlM_cons, List.foldlM_nil, here, pure, Except.pure]

theorem min_add_min {work done quantum : Rat} (nonneg : 0 ≤ quantum) :
    min work done + min quantum (max 0 (work - done)) = min work (done + quantum) := by
  rcases le_total work done with finished | left
  · rw [min_eq_left finished, max_eq_left (sub_nonpos.mpr finished), min_eq_right nonneg, add_zero,
      min_eq_left (finished.trans (le_add_of_nonneg_right nonneg))]
  · rw [min_eq_right left, max_eq_right (sub_nonneg.mpr left), ← min_add_add_left]
    rw [add_sub_cancel, min_comm]

theorem work_done (proper : a.Proper) {edges : List OracleEdge} {state : OracleState}
    (schedule : a.Schedule edges state) :
    total (·.computeSeconds) edges =
      min a.workload.durationSeconds (state.completedWorkSteps * a.quantumSeconds) := by
  induction schedule with
  | nil =>
      rw [total_nil]
      simp [initial, a.workload.duration_pos.le]
  | @snoc edges state next edge _ move ih =>
      rw [total_snoc, ih]
      rcases (mem_moves move).2 with ⟨metrics, -, same⟩ | same | ⟨destination, -, migration, -, same⟩ <;>
        obtain ⟨rfl, rfl⟩ := Prod.mk.inj same
      · show _ + a.computeSeconds state = min _ (((state.completedWorkSteps + 1 : Nat) : Rat) * _)
        rw [computeSeconds, min_add_min proper.quantum.le]
        congr 1
        push_cast
        ring
      · exact add_zero _
      · exact add_zero _

theorem work_finished (proper : a.Proper) {edges : List OracleEdge} {state : OracleState}
    (schedule : a.Schedule edges state) (finished : a.workSteps ≤ state.completedWorkSteps) :
    total (·.computeSeconds) edges = a.workload.durationSeconds := by
  rw [work_done proper schedule]
  apply min_eq_left
  have steps : ⌈a.workload.durationSeconds / a.quantumSeconds⌉ ≤ (state.completedWorkSteps : Int) :=
    Int.toNat_le.mp finished
  have enough := Int.ceil_le.mp steps
  rw [div_le_iff₀ proper.quantum] at enough
  exact_mod_cast enough

theorem schedule_nonneg (proper : a.Proper) {edges : List OracleEdge} {state : OracleState}
    (schedule : a.Schedule edges state) : ∀ edge ∈ edges, EdgeNonneg edge := by
  induction schedule with
  | nil =>
      intro edge member
      cases member
  | snoc _ move ih =>
      intro edge member
      rcases List.mem_append.mp member with old | new
      · exact ih edge old
      · rw [List.mem_singleton] at new
        rw [new]
        exact edge_nonneg proper move

theorem total_nonneg {edges : List OracleEdge} {f : OracleEdge → Rat}
    (nonneg : ∀ edge ∈ edges, 0 ≤ f edge) : 0 ≤ total f edges := by
  apply List.sum_nonneg
  intro value member
  obtain ⟨edge, among, rfl⟩ := List.mem_map.mp member
  exact nonneg edge among

theorem total_time (edges : List OracleEdge) :
    (total a.problem.measure edges).1 = total (·.elapsedSeconds) edges := by
  induction edges using List.reverseRecOn with
  | nil => rfl
  | append_singleton edges edge ih =>
      rw [total_snoc, total_snoc, Prod.fst_add, ih]
      rfl

theorem outcome_reports (proper : a.Proper) {terminal : OracleState} {edges : List OracleEdge}
    {f : BestFirst.Frontier OracleState OracleEdge Rat (Rat × Rat × Rat) OracleCaches}
    (found : BestFirst.Found a.problem a.moves terminal edges f) :
    ∃ outcome, a.outcome terminal f edges = .ok outcome ∧ a.Reports outcome edges terminal := by
  have schedule : a.Schedule edges terminal := found.walk
  have finished : a.workSteps ≤ terminal.completedWorkSteps := by simpa [problem] using found.goal
  obtain ⟨totals, folded, follows⟩ := follows proper schedule
  have nonneg := schedule_nonneg proper schedule
  have time : (f.metrics.getD terminal 0).1 = total (·.elapsedSeconds) edges := by
    rw [Dict.getD, found.metrics, Option.getD_some, total_time]
  unfold outcome
  simp only [folded, bind, Except.bind]
  rw [PolicyOutcome.validated, requireNonneg_ok]
  · refine ⟨_, rfl, ?_⟩
    exact {
      schedule
      finished
      objective := found.distance
      makespan := time
      carbon := follows.carbon
      cost := follows.cost
      compute := follows.compute
      work := follows.compute.trans (work_finished proper schedule finished)
      idle := follows.idle
      migration := follows.migration
      owners := follows.owners
      final := follows.current
      steps := follows.steps }
  · intro field member
    simp only [List.mem_cons, List.not_mem_nil, or_false] at member
    rcases member with rfl | rfl | rfl | rfl | rfl | rfl | rfl
    · exact time ▸ total_nonneg fun edge among => (nonneg edge among).elapsed
    · exact follows.compute ▸ total_nonneg fun edge among => (nonneg edge among).compute
    · exact follows.idle ▸ total_nonneg fun edge among => (nonneg edge among).idle
    · exact le_rfl
    · exact follows.migration ▸ total_nonneg fun edge among => (nonneg edge among).migration
    · exact follows.carbon ▸ total_nonneg fun edge among => (nonneg edge among).carbon
    · exact follows.cost ▸ total_nonneg fun edge among => (nonneg edge among).cost

/-! ## The horizon error is none of the data -/

theorem getNode_error {cluster : ClusterConfig} {nodeId : NodeId} {e : Exn}
    (failed : cluster.getNode nodeId = .error e) : e.cls = .keyError := by
  unfold ClusterConfig.getNode at failed
  split at failed <;> cases failed
  rfl

theorem series_error {carbonStore : CarbonStore} {nodeId : NodeId} {e : Exn}
    (failed : carbonStore.series nodeId = .error e) : e.cls = .keyError := by
  unfold CarbonStore.series at failed
  split at failed <;> cases failed
  rfl

theorem valueAt_error {carbonStore : CarbonStore} {nodeId : NodeId} {t : Instant} {e : Exn}
    (failed : carbonStore.valueAt nodeId t = .error e) : e.cls = .keyError ∨ e.cls = .valueError := by
  unfold CarbonStore.valueAt at failed
  cases stored : carbonStore.series nodeId with
  | error e' =>
      simp only [stored, bind, Except.bind] at failed
      cases failed
      exact .inl (series_error stored)
  | ok series =>
      simp only [stored, bind, Except.bind] at failed
      split_ifs at failed
      cases failed
      exact .inr rfl

theorem average_error {carbonStore : CarbonStore} {nodeId : NodeId} {start : Instant}
    {durationSeconds : Rat} {e : Exn}
    (failed : carbonStore.average nodeId start durationSeconds = .error e) :
    e.cls = .keyError ∨ e.cls = .valueError := by
  unfold CarbonStore.average at failed
  split_ifs at failed
  · cases failed
    exact .inr rfl
  · exact valueAt_error failed
  · cases stored : carbonStore.series nodeId with
    | error e' =>
        simp only [stored, bind, Except.bind] at failed
        cases failed
        exact .inl (series_error stored)
    | ok series =>
        simp only [stored, bind, Except.bind] at failed
        split_ifs at failed
        · cases failed
          exact .inr rfl
        · exact valueAt_error failed

theorem fails_ne_horizonError {e : Exn} (fails : a.Fails e) : e ≠ horizonError := by
  have cls : e.cls = .keyError ∨ e.cls = .valueError := by
    cases fails with
    | unknownNode unknown => exact .inl (getNode_error unknown)
    | unknownPeer unknown => exact .inl (getNode_error unknown)
    | uncovered _ _ _ failed => exact average_error failed
  rintro rfl
  rcases cls with cls | cls <;> cases cls

end OracleArguments

/-! ## The oracle -/

/-- With non-negative intensities the oracle always comes back, never with its horizon error: with the
error of data that cannot be had, or with an outcome that is optimal. -/
theorem oracle_optimal (a : OracleArguments) (quantum : 0 < a.quantumSeconds)
    (multiplier : 1 ≤ a.maxElapsedMultiplier) (intensities : a.carbonStore.Nonneg) :
    ∃ result enough, (∀ fuel, enough ≤ fuel → clairvoyantOracle a fuel = some result) ∧
      match result with
      | .error e => a.Fails e ∧ e ≠ horizonError
      | .ok outcome => a.Optimal outcome := by
  have proper : a.Proper := ⟨quantum, multiplier, intensities⟩
  unfold clairvoyantOracle
  simp only [if_neg (not_le.mpr quantum), if_neg (not_lt.mpr multiplier)]
  cases start : a.cluster.getNode a.workload.startNodeId with
  | error e =>
      have fails : a.Fails e := .unknownNode start
      exact ⟨.error e, 0, fun _ _ => rfl, fails, OracleArguments.fails_ne_horizonError fails⟩
  | ok node =>
      have empty : a.CachesValid {} := by
        constructor <;>
        · intro key value found
          cases found
      obtain ⟨enough, result, answer, runs⟩ := BestFirst.run_answers
        (OracleArguments.problem_unfolds proper) (OracleArguments.stops proper) empty
      cases answer with
      | @failed e fails =>
          refine ⟨.error e, enough, ?_, fails, OracleArguments.fails_ne_horizonError fails⟩
          intro fuel le
          rw [runs fuel le]
      | @found terminal edges f found =>
          obtain ⟨outcome, reported, reports⟩ := OracleArguments.outcome_reports proper found
          refine ⟨.ok outcome, max enough edges.length, ?_, ⟨edges, terminal, reports⟩, _,
            reports.objective, ?_⟩
          · intro fuel le
            rw [runs fuel (le_of_max_le_left le)]
            simp only [found.trace fuel (le_of_max_le_right le), Option.map_some, reported]
          · intro edges' terminal' schedule finished
            exact found.least edges' terminal' schedule (by simpa [OracleArguments.problem] using finished)

def sampleSeries (value : Rat) : Series where
  samples := [⟨0, value⟩, ⟨360000, value⟩]
  increasing := by simp

/-- Two nodes and a task of one step that starts at the first one. Leaving it costs money. -/
def sampleArguments (boston france : Rat) : OracleArguments :=
  let cluster : ClusterConfig := .plain [
    { NodeConfig.plain "boston" with
      egressPriceUsdPerGb := 1
      egressPrice_nonneg := one_nonneg },
    .plain "france"]
  { math := sampleMath
    cluster
    policy := {
      horizonSeconds := 600
      weights := {
        time := 0, carbon := 1, cost := 1
        time_nonneg := zero_nonneg
        carbon_nonneg := one_nonneg
        cost_nonneg := one_nonneg }
      pause := {
        pauseSeconds := 1, idleSeconds := 600, resumeSeconds := 1, maxPauseWindowSeconds := 3600
        pause_nonneg := one_nonneg
        resume_nonneg := one_nonneg
        minPauseGap_nonneg := zero_nonneg
        candidates_range := idle_range }
      migration := {
        minMigrationGapSeconds := 0, requiredImprovementFraction := 0
        networkEnergyBase_nonneg := zero_nonneg
        minMigrationGap_nonneg := zero_nonneg
        requiredImprovement_range := no_fraction
        networkEnergyKm_nonneg := zero_nonneg } }
    workload := {
      durationSeconds := 900, powerKw := 1, checkpointBytes := 1000000000
      duration_pos := quarterHour_pos
      power_pos := one_positive
      costCap_pos := uncapped_pos }
    carbonStore := {
      cluster
      seriesByNodeId := .ofList [("boston", sampleSeries boston), ("france", sampleSeries france)] }
    graph := { cluster }
    start := 0
    reference := ⟨1, 1, 1⟩ }

def objectiveOf (result : Option (Except Exn (PolicyOutcome Unit))) : Option Rat :=
  (result.bind Except.toOption).bind (·.objectiveValue)

theorem oracle_optimal_sample :
    objectiveOf (clairvoyantOracle (sampleArguments 0 1000) 4) = some 0 ∧
      ∃ result enough,
        (∀ fuel, enough ≤ fuel → clairvoyantOracle (sampleArguments 0 1000) fuel = some result) ∧
          match result with
          | .error e => (sampleArguments 0 1000).Fails e ∧ e ≠ horizonError
          | .ok outcome => (sampleArguments 0 1000).Optimal outcome := by
  refine ⟨by decide +kernel, oracle_optimal _ (by decide +kernel) (by decide +kernel) ?_⟩
  intro nodeId series stored sample member
  have among := Dict.mem_of_get?_ofList stored
  simp only [List.mem_cons, Prod.mk.injEq, List.not_mem_nil, or_false] at among
  rcases among with ⟨-, rfl⟩ | ⟨-, rfl⟩ <;>
  · simp only [sampleSeries, List.mem_cons, List.not_mem_nil, or_false] at member
    rcases member with rfl | rfl <;> norm_num

/-- Where the trace is negative the search stops before the schedule that gains by it. -/
theorem negative_intensity_missed :
    ∃ outcome, clairvoyantOracle (sampleArguments 0 (-1000)) 4 = some (.ok outcome) ∧
      ¬ (sampleArguments 0 (-1000)).Optimal outcome := by
  have value : objectiveOf (clairvoyantOracle (sampleArguments 0 (-1000)) 4) = some 0 := by
    decide +kernel
  obtain ⟨outcome, returned, objective⟩ := Option.bind_eq_some_iff.mp value
  obtain ⟨result, run, ok⟩ := Option.bind_eq_some_iff.mp returned
  have isOk : result = .ok outcome := by
    cases result with
    | error e => cases ok
    | ok other =>
        cases ok
        rfl
  refine ⟨outcome, by rw [run, isOk], ?_⟩
  rintro ⟨-, least, reported, optimal⟩
  rw [objective] at reported
  cases reported
  have start : (sampleArguments 0 (-1000)).Schedule [] ⟨0, 0, "boston"⟩ := .nil
  have migrated := start.snoc (e := ⟨.migrate "france", "boston", 1, 900, 0, 0, 1641 / 20, -1 / 3, 1⟩)
    (show (⟨1, 0, "france"⟩, _) ∈ (sampleArguments 0 (-1000)).moves ⟨0, 0, "boston"⟩ by decide +kernel)
  have finished := migrated.snoc (e := ⟨.continue_, "france", 1, 900, 900, 0, 0, -300, 0⟩)
    (show (⟨2, 1, "france"⟩, _) ∈ (sampleArguments 0 (-1000)).moves ⟨1, 0, "france"⟩ by decide +kernel)
  have bound := optimal _ _ finished (by decide +kernel)
  revert bound
  decide +kernel

end Magellan.Planning
