import Magellan.Carbon.Trends
import Magellan.Experiments.Conservation

/-!
# The causal replay does not look ahead

What a step is charged comes from the trace after it, but no decision reads it: two replays along
traces that are the same up to an instant decide the same up to it.
-/

namespace Magellan.Planning

/-! ## Decisions -/

section Congr

variable {math : MathModule} {carbonStore carbonStore' : CarbonStore} {until_ now : Instant}
  {policy : ScoringPolicy}

theorem pauseEstimates_congr (agree : carbonStore.AgreeUpTo until_ carbonStore')
    (enabled : policy.carbonForecast.enabled = true) (before : now ≤ until_) (task : TaskProfile)
    (source : NodeConfig) (candidates : List Rat) :
    pauseEstimates math carbonStore' policy task source now candidates =
      pauseEstimates math carbonStore policy task source now candidates := by
  induction candidates with
  | nil => rfl
  | cons idleSeconds rest ih =>
      rw [pauseEstimates, pauseEstimates, estimatePause_congr agree enabled before, ih]

theorem migrationEstimates_congr (agree : carbonStore.AgreeUpTo until_ carbonStore')
    (enabled : policy.carbonForecast.enabled = true) (before : now ≤ until_) (graph : ClusterGraph)
    (task : TaskProfile) (source : NodeConfig) (staticData : Option (NodeId → Option Nat))
    (compatible : Option (List NodeId)) (destinations : List NodeConfig) :
    migrationEstimates math carbonStore' graph policy task source now staticData compatible
        destinations =
      migrationEstimates math carbonStore graph policy task source now staticData compatible
        destinations := by
  induction destinations with
  | nil => rfl
  | cons destination rest ih =>
      rw [migrationEstimates, migrationEstimates, ih]
      simp only [estimateMigrate_congr agree enabled before]

theorem buildRawActions_congr (agree : carbonStore.AgreeUpTo until_ carbonStore')
    (enabled : policy.carbonForecast.enabled = true) (before : now ≤ until_) (task : TaskProfile)
    (cluster : ClusterConfig) (graph : ClusterGraph) (staticData : Option (NodeId → Option Nat))
    (compatible : Option (List NodeId)) :
    buildRawActions math task cluster policy graph carbonStore' now staticData compatible =
      buildRawActions math task cluster policy graph carbonStore now staticData compatible := by
  unfold buildRawActions
  simp only [estimateContinue_congr agree enabled before, pauseEstimates_congr agree enabled before,
    migrationEstimates_congr agree enabled before]

end Congr

/-! ## Charges -/

section Charges

variable {carbonStore carbonStore' : CarbonStore} {start : Instant} {metrics metrics' : SegmentMetrics}

theorem activeSegment_known {node : NodeConfig} {pricePerHour seconds powerKw : Rat}
    (h : activeSegment carbonStore start node pricePerHour seconds powerKw = .ok metrics)
    (h' : activeSegment carbonStore' start node pricePerHour seconds powerKw = .ok metrics') :
    metrics'.elapsedSeconds = metrics.elapsedSeconds ∧ metrics'.costUsd = metrics.costUsd := by
  unfold activeSegment at h h'
  split_ifs at h h'
  · cases h
    cases h'
    exact ⟨rfl, rfl⟩
  · obtain ⟨intensity, -, h⟩ := Except.bind_eq_ok.mp h
    obtain ⟨intensity', -, h'⟩ := Except.bind_eq_ok.mp h'
    cases h
    cases h'
    exact ⟨rfl, rfl⟩

theorem realizedMigration_known {source destination : NodeConfig} {edge : EdgeMetrics}
    {policy : ScoringPolicy} {powerKw : Rat} {checkpointBytes staticDataBytes : Nat}
    (h : realizedMigration carbonStore start source destination edge policy powerKw checkpointBytes
      staticDataBytes = .ok metrics)
    (h' : realizedMigration carbonStore' start source destination edge policy powerKw checkpointBytes
      staticDataBytes = .ok metrics') :
    metrics'.elapsedSeconds = metrics.elapsedSeconds ∧ metrics'.costUsd = metrics.costUsd := by
  unfold realizedMigration at h h'
  obtain ⟨transfer, transferred, h⟩ := Except.bind_eq_ok.mp h
  obtain ⟨transfer', transferred', h'⟩ := Except.bind_eq_ok.mp h'
  rw [transferred] at transferred'
  cases transferred'
  obtain ⟨checkpointIntensity, -, h⟩ := Except.bind_eq_ok.mp h
  obtain ⟨checkpointIntensity', -, h'⟩ := Except.bind_eq_ok.mp h'
  obtain ⟨restoreIntensity, -, h⟩ := Except.bind_eq_ok.mp h
  obtain ⟨restoreIntensity', -, h'⟩ := Except.bind_eq_ok.mp h'
  cases h
  cases h'
  exact ⟨rfl, rfl⟩

end Charges

/-! ## Replays along two traces -/

namespace ReplayState

/-- What the next decision reads of a state. -/
def known (s : ReplayState) : ReplayState where
  currentTime := s.currentTime
  currentNodeId := s.currentNodeId
  remaining := s.remaining
  accumulatedCost := s.accumulatedCost
  lastMigrationAt := s.lastMigrationAt
  lastPauseAt := s.lastPauseAt
  ownerPath := []
  prestaged := s.prestaged
  policyStore := s.policyStore

/-- Two states that are the same to the next decision. -/
structure Alike (s s' : ReplayState) : Prop where
  time : s'.currentTime = s.currentTime
  owner : s'.currentNodeId = s.currentNodeId
  remaining : s'.remaining = s.remaining
  cost : s'.accumulatedCost = s.accumulatedCost
  migrated : s'.lastMigrationAt = s.lastMigrationAt
  paused : s'.lastPauseAt = s.lastPauseAt
  prestaged : s'.prestaged = s.prestaged
  policyStore : s'.policyStore = s.policyStore

theorem Alike.known {s s' : ReplayState} (alike : Alike s s') : s'.known = s.known := by
  unfold ReplayState.known
  rw [alike.time, alike.owner, alike.remaining, alike.cost, alike.migrated, alike.paused,
    alike.prestaged, alike.policyStore]

end ReplayState

namespace ReplayArguments

open ReplayState (Alike)

/-- The same replay along another trace. -/
def onTrace (a : ReplayArguments) (carbonStore : CarbonStore) : ReplayArguments := { a with carbonStore }

variable {a : ReplayArguments} {carbonStore' : CarbonStore} {until_ : Instant} {index : Nat}
  {s s' t t' : ReplayState} {node : NodeConfig} {decision : DecisionResult}

theorem evaluate_known : a.evaluate s.known = a.evaluate s := rfl

theorem evaluate_congr (enabled : a.policy.carbonForecast.enabled = true)
    (agree : a.carbonStore.AgreeUpTo until_ carbonStore') (before : s.currentTime ≤ until_) :
    (a.onTrace carbonStore').evaluate s = a.evaluate s := by
  have same (task : TaskProfile) := @buildRawActions_congr a.math _ _ _ _ a.policy agree enabled before
    task a.cluster a.graph (some (a.staticData s)) (some (a.compatible s))
  show (do
    let task ← (a.taskProfile s).validated
    evaluateTask a.math (some a.service) s.policyStore a.policy task s.currentTime 0 a.cluster a.graph
      carbonStore' (some (a.staticData s)) (some (a.compatible s))) = a.evaluate s
  unfold evaluate evaluateTask
  simp only [same]

theorem evaluate_alike (enabled : a.policy.carbonForecast.enabled = true)
    (agree : a.carbonStore.AgreeUpTo until_ carbonStore') (before : s.currentTime ≤ until_)
    (alike : Alike s s') : (a.onTrace carbonStore').evaluate s' = a.evaluate s := by
  rw [← evaluate_known, alike.known, evaluate_known, evaluate_congr enabled agree before]

theorem goOn_alike (alike : Alike s s') (h : a.goOn index s node decision = .ok t)
    (h' : (a.onTrace carbonStore').goOn index s' node decision = .ok t') : Alike t t' := by
  unfold goOn at h h'
  obtain ⟨metrics, charged, h⟩ := Except.bind_eq_ok.mp h
  obtain ⟨metrics', charged', h'⟩ := Except.bind_eq_ok.mp h'
  obtain ⟨step, -, h⟩ := Except.bind_eq_ok.mp h
  obtain ⟨step', -, h'⟩ := Except.bind_eq_ok.mp h'
  rw [alike.time, alike.remaining] at charged'
  have cost := (activeSegment_known charged charged').2
  cases h
  cases h'
  exact { alike with
    time := congrArg₂ (fun at_ left => at_ + min _ left) alike.time alike.remaining
    remaining := congrArg (fun left => max 0 (left - min _ left)) alike.remaining
    cost := congrArg₂ (· + ·) alike.cost cost }

theorem pauseFirst_alike (alike : Alike s s') (h : a.pauseFirst index s node decision = .ok t)
    (h' : (a.onTrace carbonStore').pauseFirst index s' node decision = .ok t') : Alike t t' := by
  unfold pauseFirst pauseMetrics at h h'
  obtain ⟨paused, measured, h⟩ := Except.bind_eq_ok.mp h
  obtain ⟨paused', measured', h'⟩ := Except.bind_eq_ok.mp h'
  obtain ⟨pause, -, measured⟩ := Except.bind_eq_ok.mp measured
  obtain ⟨pause', -, measured'⟩ := Except.bind_eq_ok.mp measured'
  obtain ⟨resume, -, measured⟩ := Except.bind_eq_ok.mp measured
  obtain ⟨resume', -, measured'⟩ := Except.bind_eq_ok.mp measured'
  cases measured
  cases measured'
  obtain ⟨step, -, h⟩ := Except.bind_eq_ok.mp h
  obtain ⟨step', -, h'⟩ := Except.bind_eq_ok.mp h'
  cases h
  cases h'
  exact { alike with
    time := congrArg (· + _) alike.time
    paused := congrArg some alike.time }

theorem migrateTo_alike {destinationId : NodeId} (alike : Alike s s')
    (h : a.migrateTo index s node decision destinationId = .ok t)
    (h' : (a.onTrace carbonStore').migrateTo index s' node decision destinationId = .ok t') :
    Alike t t' := by
  have bytes : (a.onTrace carbonStore').staticBytes s' destinationId = a.staticBytes s destinationId := by
    show (if destinationId ∈ s'.prestaged then 0 else a.workload.staticDataBytes) = _
    rw [alike.prestaged]
    rfl
  unfold migrateTo at h h'
  obtain ⟨destination, named, h⟩ := Except.bind_eq_ok.mp h
  obtain ⟨destination', named', h'⟩ := Except.bind_eq_ok.mp h'
  cases named.symm.trans named'
  obtain ⟨edge, connected, h⟩ := Except.bind_eq_ok.mp h
  obtain ⟨edge', connected', h'⟩ := Except.bind_eq_ok.mp h'
  rw [alike.owner] at connected'
  cases connected.symm.trans connected'
  obtain ⟨metrics, charged, h⟩ := Except.bind_eq_ok.mp h
  obtain ⟨metrics', charged', h'⟩ := Except.bind_eq_ok.mp h'
  rw [alike.time, bytes] at charged'
  obtain ⟨elapsed, cost⟩ := realizedMigration_known charged charged'
  obtain ⟨step, -, h⟩ := Except.bind_eq_ok.mp h
  obtain ⟨step', -, h'⟩ := Except.bind_eq_ok.mp h'
  cases h
  cases h'
  exact { alike with
    time := congrArg₂ (· + ·) alike.time elapsed
    owner := rfl
    cost := congrArg₂ (· + ·) alike.cost cost
    migrated := congrArg some alike.time
    prestaged := congrArg (destinationId :: ·) alike.prestaged }

theorem step_alike (enabled : a.policy.carbonForecast.enabled = true)
    (agree : a.carbonStore.AgreeUpTo until_ carbonStore') (before : s.currentTime ≤ until_)
    (alike : Alike s s') (h : a.step index s = .ok t)
    (h' : (a.onTrace carbonStore').step index s' = .ok t') : Alike t t' := by
  unfold step at h h'
  obtain ⟨⟨decision, policyStore⟩, decided, h⟩ := Except.bind_eq_ok.mp h
  obtain ⟨⟨decision', policyStore'⟩, decided', h'⟩ := Except.bind_eq_ok.mp h'
  rw [evaluate_alike enabled agree before alike, decided] at decided'
  cases decided'
  obtain ⟨node, found, h⟩ := Except.bind_eq_ok.mp h
  obtain ⟨node', found', h'⟩ := Except.bind_eq_ok.mp h'
  have named : a.cluster.getNode s'.currentNodeId = .ok node' := found'
  rw [alike.owner] at named
  cases found.symm.trans named
  have recorded : Alike { s with policyStore } { s' with policyStore } := { alike with policyStore := rfl }
  cases action : decision.selected.action with
  | continue_ =>
      simp only [action] at h h'
      exact goOn_alike recorded h h'
  | pause =>
      simp only [action] at h h'
      exact pauseFirst_alike recorded h h'
  | migrate =>
      simp only [action] at h h'
      cases destination : decision.selected.destinationNodeId with
      | none => simp [destination] at h
      | some destinationId =>
          simp only [destination] at h h'
          exact migrateTo_alike recorded h h'

/-! ## Runs -/

theorem time_of_rounds {rounds : Nat} (run : Budget.Rounds isDone a.step rounds index s t) :
    s.currentTime ≤ t.currentTime := by
  induction run with
  | nil => exact le_rfl
  | cons _ here _ ih =>
      obtain ⟨decision, policyStore, step, -, advances⟩ := step_advances here
      have later := advances.nonneg.elapsed
      rw [advances.time] at ih
      linarith

theorem rounds_alike {rounds : Nat} (enabled : a.policy.carbonForecast.enabled = true)
    (agree : a.carbonStore.AgreeUpTo until_ carbonStore')
    (run : Budget.Rounds isDone a.step rounds index s t)
    (run' : Budget.Rounds isDone (a.onTrace carbonStore').step rounds index s' t')
    (alike : Alike s s') (before : t.currentTime ≤ until_) : Alike t t' := by
  induction run generalizing s' with
  | nil =>
      cases run'
      exact alike
  | cons _ here rest ih =>
      cases run' with
      | cons _ here' rest' =>
          have start := time_of_rounds (.cons ‹_› here rest)
          exact ih rest' (step_alike enabled agree (start.trans before) alike here here') before

theorem steps_of_rounds {rounds : Nat} (run : Budget.Rounds isDone a.step rounds index s t) :
    ∃ steps, t.steps = s.steps ++ steps ∧ ∀ step ∈ steps, s.currentTime ≤ step.startedAt := by
  induction run with
  | nil => exact ⟨[], (List.append_nil _).symm, by simp⟩
  | cons _ here _ ih =>
      obtain ⟨decision, policyStore, step, -, advances⟩ := step_advances here
      obtain ⟨steps, appended, later⟩ := ih
      refine ⟨step :: steps, by rw [appended, advances.steps, List.append_assoc, List.singleton_append],
        List.forall_mem_cons.mpr ⟨advances.started.ge, fun other member => ?_⟩⟩
      have elapsed := advances.nonneg.elapsed
      have start := later other member
      rw [advances.time] at start
      linarith

/-- Each step that starts so early has its like. -/
def DecidedAlike (until_ : Instant) (steps steps' : List PolicyStep) : Prop :=
  ∀ (i : Nat) (step : PolicyStep), steps[i]? = some step → step.startedAt ≤ until_ →
    ∃ step' : PolicyStep, steps'[i]? = some step' ∧ step'.startedAt = step.startedAt ∧
      step'.details.decision = step.details.decision

theorem finished_alike {rounds rounds' : Nat} (enabled : a.policy.carbonForecast.enabled = true)
    (agree : a.carbonStore.AgreeUpTo until_ carbonStore')
    (run : Budget.Rounds isDone a.step rounds index s t)
    (run' : Budget.Rounds isDone (a.onTrace carbonStore').step rounds' index s' t')
    (finished : isDone t = true) (finished' : isDone t' = true) (alike : Alike s s') :
    ∃ steps steps', t.steps = s.steps ++ steps ∧ t'.steps = s'.steps ++ steps' ∧
      DecidedAlike until_ steps steps' := by
  have doneAlike {u u' : ReplayState} (alike : Alike u u') : isDone u' = isDone u := by
    unfold isDone
    rw [alike.remaining]
  induction run generalizing s' rounds' with
  | nil =>
      cases run' with
      | nil => exact ⟨[], [], (List.append_nil _).symm, (List.append_nil _).symm, by simp [DecidedAlike]⟩
      | cons open_ _ _ =>
          rw [doneAlike alike, finished] at open_
          cases open_
  | @cons rounds index s u t open_ here rest ih =>
      cases run' with
      | nil =>
          rw [doneAlike alike, open_] at finished'
          cases finished'
      | @cons _ _ _ u' _ _ here' rest' =>
          obtain ⟨decision, policyStore, step, decided, advances⟩ := step_advances here
          obtain ⟨decision', policyStore', step', decided', advances'⟩ := step_advances here'
          by_cases before : s.currentTime ≤ until_
          · obtain ⟨steps, steps', appended, appended', same⟩ :=
              ih rest' finished (step_alike enabled agree before alike here here')
            refine ⟨step :: steps, step' :: steps', ?_, ?_, ?_⟩
            · rw [appended, advances.steps, List.append_assoc, List.singleton_append]
            · rw [appended', advances'.steps, List.append_assoc, List.singleton_append]
            · intro i other at_ early
              cases i with
              | zero =>
                  cases at_
                  rw [evaluate_alike enabled agree before alike, decided] at decided'
                  cases decided'
                  exact ⟨step', rfl, by rw [advances.started, advances'.started, alike.time],
                    by rw [advances.decided, advances'.decided]⟩
              | succ i => exact same i other at_ early
          · obtain ⟨steps, appended, later⟩ := steps_of_rounds (.cons open_ here rest)
            obtain ⟨steps', appended', -⟩ := steps_of_rounds (.cons ‹_› here' rest')
            refine ⟨steps, steps', appended, appended', fun i other at_ early => ?_⟩
            have start := later other (List.mem_of_getElem? at_)
            exact absurd (start.trans early) before

end ReplayArguments

open ReplayArguments

/-- Along two traces that are the same up to an instant, a replay makes the same decisions up to it:
each evaluation that either of them has reached, and each step of what they return. -/
theorem replay_does_not_look_ahead {a : ReplayArguments} {carbonStore' : CarbonStore}
    {until_ : Instant} (enabled : a.policy.carbonForecast.enabled = true)
    (agree : a.carbonStore.AgreeUpTo until_ carbonStore') :
    (∀ decisions s s', Budget.Rounds isDone a.step decisions 1 a.initial s →
      Budget.Rounds isDone (a.onTrace carbonStore').step decisions 1 a.initial s' →
        s.currentTime ≤ until_ →
          s'.currentTime = s.currentTime ∧ isDone s' = isDone s ∧
            (a.onTrace carbonStore').evaluate s' = a.evaluate s) ∧
      ∀ outcome outcome', a.replayCausalPolicy = .ok outcome →
        (a.onTrace carbonStore').replayCausalPolicy = .ok outcome' →
          DecidedAlike until_ outcome.steps outcome'.steps := by
  have start : ReplayState.Alike a.initial a.initial := ⟨rfl, rfl, rfl, rfl, rfl, rfl, rfl, rfl⟩
  constructor
  · intro decisions s s' run run' before
    have alike := rounds_alike enabled agree run run' start before
    exact ⟨alike.time, by rw [isDone, isDone, alike.remaining],
      evaluate_alike enabled agree before alike⟩
  · intro outcome outcome' replayed replayed'
    obtain ⟨-, decisions, -, s, run, done, rfl⟩ := replay_ok_iff.mp replayed
    obtain ⟨-, decisions', -, s', run', done', rfl⟩ := replay_ok_iff.mp replayed'
    obtain ⟨steps, steps', appended, appended', same⟩ :=
      finished_alike enabled agree run run' done done' start
    have all : s.steps = steps := appended
    have all' : s'.steps = steps' := appended'
    show DecidedAlike until_ s.steps s'.steps
    rwa [all, all']

/-- Boston's intensity falls, and after three hours it stays at a last value. -/
def lastingSeries (last : Rat) : Series where
  samples := [⟨0, 1000⟩, ⟨3600, 900⟩, ⟨7200, 800⟩, ⟨10800, last⟩, ⟨360000, last⟩]
  increasing := by
    simp only [List.pairwise_cons, List.mem_cons, List.not_mem_nil, or_false, forall_eq_or_imp, forall_eq]
    norm_num

def lastingStore (last : Rat) : CarbonStore where
  cluster := pairCluster
  seriesByNodeId := .ofList [("boston", lastingSeries last), ("france", cleanSeries)]

/-- A workload of an hour that starts in Boston after two hours and more. -/
def hour (last : Rat) : ReplayArguments where
  math := sampleMath
  label := .magellanCausal
  cluster := pairCluster
  policy := { carbonPolicy with carbonForecast := LinearTrendForecastProvider.trendPolicy }
  workload := {
    durationSeconds := 3600, powerKw := 1, checkpointBytes := 1000
    duration_pos := hour_pos
    power_pos := one_positive
    costCap_pos := uncapped_pos }
  carbonStore := lastingStore last
  graph := { cluster := pairCluster }
  start := 8000

theorem lastingStore_agree (last last' : Rat) :
    (lastingStore last).AgreeUpTo 10000 (lastingStore last') where
  cluster := rfl
  series := by
    intro nodeId
    have samples (value : Rat) : (lastingSeries value).samples.filter (·.at_ ≤ 10000) =
        [⟨0, 1000⟩, ⟨3600, 900⟩, ⟨7200, 800⟩] := by
      simp only [lastingSeries]
      norm_num
    simp only [lastingStore, Dict.ofList, List.foldl_cons, List.foldl_nil, Dict.get?_set, Dict.get?_empty]
    split_ifs
    · rfl
    · rw [Option.map_some, Option.map_some, samples, samples]
    · rfl

theorem replay_does_not_look_ahead_sample :
    ∃ outcome outcome', (hour 0).replayCausalPolicy = .ok outcome ∧
      ((hour 0).onTrace (lastingStore 5000)).replayCausalPolicy = .ok outcome' ∧
        DecidedAlike 10000 outcome.steps outcome'.steps := by
  have returns : (hour 0).replayCausalPolicy.isOk = true := by decide +kernel
  have returns' : ((hour 0).onTrace (lastingStore 5000)).replayCausalPolicy.isOk = true := by
    decide +kernel
  cases replayed : (hour 0).replayCausalPolicy with
  | error e =>
      rw [replayed] at returns
      cases returns
  | ok outcome =>
      cases replayed' : ((hour 0).onTrace (lastingStore 5000)).replayCausalPolicy with
      | error e =>
          rw [replayed'] at returns'
          cases returns'
      | ok outcome' =>
          have alike := (replay_does_not_look_ahead rfl (lastingStore_agree 0 5000)).2 outcome outcome'
            replayed replayed'
          exact ⟨outcome, outcome', rfl, rfl, alike⟩

end Magellan.Planning
