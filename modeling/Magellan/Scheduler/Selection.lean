import Magellan.Scheduler.Scores

/-!
# The gates of the selection

A pause waits for a gap after the last one, a migration for a gap and an improvement. Where the gate of
a migration is shut the best local action is selected, and its own gate is not asked.
-/

namespace Magellan.Planning

section Gates

variable (task : TaskProfile) (policy : ScoringPolicy) (now : Instant)

def PauseGapElapsed : Prop :=
  ∀ last ∈ task.lastPauseAt, policy.pause.minPauseGapSeconds ≤ now - last

def MigrationGapElapsed : Prop :=
  ∀ last ∈ task.lastMigrationAt, policy.migration.minMigrationGapSeconds ≤ now - last

/-- The action passes its own gates. -/
def PassesGates (ranked : List ScoredAction) (action : ScoredAction) : Prop :=
  match action.action with
  | .continue_ => True
  | .pause => PauseGapElapsed task policy now
  | .migrate => MigrationGapElapsed task policy now ∧ ∀ best ∈ bestLocal ranked,
      policy.migration.requiredImprovementFraction ≤ relativeImprovement best action

structure GatesRespected (ranked : List ScoredAction) (result : DecisionResult) : Prop where
  pause : result.selected.action = .pause → PauseGapElapsed task policy now
  migration : result.selected.action = .migrate → MigrationGapElapsed task policy now
  improvement : result.selected.action = .migrate → ∀ best ∈ bestLocal ranked,
    1 / 1000000000000 ≤ best.score →
      result.selected.score ≤ (1 - policy.migration.requiredImprovementFraction) * best.score
  lowest : ∀ first ∈ ranked.head?, PassesGates task policy now ranked first → result.selected = first

/-- A migration that its gates stop comes before a pause that is too early. -/
def EarlyPauseNext (ranked : List ScoredAction) : Prop :=
  ∃ first ∈ ranked.head?, ∃ best ∈ bestLocal ranked, first.action = .migrate ∧
    ¬ PassesGates task policy now ranked first ∧ best.action = .pause ∧
      ¬ PauseGapElapsed task policy now

end Gates

/-! ## The actions of a list -/

theorem estimateContinue_action {math : MathModule} {carbonStore : CarbonStore}
    {forecastPolicy : CarbonForecastPolicy} {task : TaskProfile} {node : NodeConfig} {at_ : Instant}
    {horizonSeconds : Rat} {estimate : RawActionEstimate}
    (h : estimateContinue math carbonStore forecastPolicy task node at_ horizonSeconds = .ok estimate) :
    estimate.action = .continue_ := by
  unfold estimateContinue RawActionEstimate.validated at h
  obtain ⟨forecast, -, h⟩ := Except.bind_eq_ok.mp h
  obtain ⟨u, -, h⟩ := Except.bind_eq_ok.mp h
  cases h
  rfl

theorem buildRawActions_continue {math : MathModule} {task : TaskProfile} {cluster : ClusterConfig}
    {policy : ScoringPolicy} {graph : ClusterGraph} {carbonStore : CarbonStore} {now : Instant}
    {staticData : Option (NodeId → Option Nat)} {compatible : Option (List NodeId)}
    {estimates : List RawActionEstimate}
    (h : buildRawActions math task cluster policy graph carbonStore now staticData compatible =
      .ok estimates) : ∃ estimate ∈ estimates, estimate.action = .continue_ := by
  unfold buildRawActions at h
  obtain ⟨source, -, h⟩ := Except.bind_eq_ok.mp h
  obtain ⟨continueEstimate, continued, h⟩ := Except.bind_eq_ok.mp h
  obtain ⟨pauses, -, h⟩ := Except.bind_eq_ok.mp h
  obtain ⟨migrations, -, h⟩ := Except.bind_eq_ok.mp h
  cases h
  exact ⟨continueEstimate, List.mem_cons_self, estimateContinue_action continued⟩

theorem scoreActions_continue {estimates : List RawActionEstimate} {policy : ScoringPolicy}
    {context : Option AdaptiveDecisionContext} {ranked : List ScoredAction}
    (scored : scoreActions estimates policy context = .ok ranked)
    (going : ∃ estimate ∈ estimates, estimate.action = .continue_) :
    ∃ action ∈ ranked, action.action = .continue_ := by
  obtain ⟨-, rfl⟩ := scoreActions_ok scored
  obtain ⟨estimate, member, continues⟩ := going
  exact ⟨_, RankBy.mem_iff.mpr (List.mem_map_of_mem member), continues⟩

/-! ## The selection of a ranking -/

section Selection

variable {task : TaskProfile} {policy : ScoringPolicy} {now : Instant} {ranked : List ScoredAction}

theorem withinGap_eq_false_iff {last : Option Instant} {gapSeconds : Rat} :
    withinGap now last gapSeconds = false ↔ ∀ at_ ∈ last, gapSeconds ≤ now - at_ := by
  cases last with
  | none => simp [withinGap]
  | some at_ => simp [withinGap]

theorem passesGates_continue {action : ScoredAction} (kind : action.action = .continue_) :
    PassesGates task policy now ranked action := by
  simp only [PassesGates, kind]

theorem passesGates_pause {action : ScoredAction} (kind : action.action = .pause) :
    PassesGates task policy now ranked action ↔
      withinGap now task.lastPauseAt policy.pause.minPauseGapSeconds = false := by
  simp only [PassesGates, kind, PauseGapElapsed, withinGap_eq_false_iff]

theorem passesGates_migrate {action best : ScoredAction} (kind : action.action = .migrate)
    (local_ : bestLocal ranked = some best) :
    PassesGates task policy now ranked action ↔
      withinGap now task.lastMigrationAt policy.migration.minMigrationGapSeconds = false ∧
        policy.migration.requiredImprovementFraction ≤ relativeImprovement best action := by
  simp only [PassesGates, kind, MigrationGapElapsed, withinGap_eq_false_iff, local_, Option.mem_some_iff,
    forall_eq']

theorem bestLocal_isLocal {best : ScoredAction} (h : best ∈ bestLocal ranked) :
    best.action = .continue_ ∨ best.action = .pause := by
  have member := List.argmin_mem h
  have isLocal := (List.mem_filter.mp member).2
  cases kind : best.action with
  | continue_ => exact .inl rfl
  | pause => exact .inr rfl
  | migrate => simp [kind, ActionType.isLocal] at isLocal

theorem bestLocal_of_continue (going : ∃ action ∈ ranked, action.action = .continue_) :
    ∃ best, bestLocal ranked = some best := by
  obtain ⟨action, member, continues⟩ := going
  cases found : bestLocal ranked with
  | some best => exact ⟨best, rfl⟩
  | none =>
      have none := List.argmin_eq_none.mp found
      have inside : action ∈ ranked.filter (·.action.isLocal) :=
        List.mem_filter.mpr ⟨member, by simp [continues, ActionType.isLocal]⟩
      rw [none] at inside
      cases inside

theorem le_of_relativeImprovement {best first : ScoredAction} {fraction : Rat}
    (improved : fraction ≤ relativeImprovement best first) (score : 1 / 1000000000000 ≤ best.score) :
    first.score ≤ (1 - fraction) * best.score := by
  have positive : 0 < best.score := lt_of_lt_of_le (by norm_num) score
  rw [relativeImprovement, max_eq_left score, le_div_iff₀ positive] at improved
  linarith

/-- What is selected: the first of the ranking where its gates are open, else going on for a pause and
the best local action for a migration. -/
theorem chooseAction_cases (task : TaskProfile) (policy : ScoringPolicy) (now : Instant)
    (going : ∃ action ∈ ranked, action.action = .continue_) :
    ∃ first best result, ranked.head? = some first ∧ bestLocal ranked = some best ∧
      chooseAction task ranked policy now = .ok result ∧
      (PassesGates task policy now ranked first ∧ result.selected = first ∨
        ¬ PassesGates task policy now ranked first ∧
          (first.action = .pause ∧ result.selected.action = .continue_ ∨
            first.action = .migrate ∧ result.selected = best)) := by
  obtain ⟨best, local_⟩ := bestLocal_of_continue going
  cases ranked with
  | nil =>
      obtain ⟨_, member, _⟩ := going
      cases member
  | cons first rest =>
      unfold chooseAction
      simp only [local_]
      cases kind : first.action with
      | continue_ => exact ⟨first, best, _, rfl, rfl, rfl, .inl ⟨passesGates_continue kind, rfl⟩⟩
      | pause =>
          have gate : PassesGates task policy now (first :: rest) first ↔
              withinGap now task.lastPauseAt policy.pause.minPauseGapSeconds = false :=
            passesGates_pause kind
          obtain ⟨action, member, continues⟩ := going
          cases found : (first :: rest).find? (·.action = .continue_) with
          | none => exact absurd continues (by simpa using List.find?_eq_none.mp found action member)
          | some continueAction =>
              have continues : continueAction.action = .continue_ := by
                simpa using List.find?_some found
              cases early : withinGap now task.lastPauseAt policy.pause.minPauseGapSeconds with
              | true =>
                  have shut : ¬ PassesGates task policy now (first :: rest) first := by
                    rw [gate, early]
                    exact Bool.true_eq_false_eq_False
                  exact ⟨first, best, _, rfl, rfl, rfl, .inr ⟨shut, .inl ⟨kind, continues⟩⟩⟩
              | false => exact ⟨first, best, _, rfl, rfl, rfl, .inl ⟨gate.mpr early, rfl⟩⟩
      | migrate =>
          have gate : PassesGates task policy now (first :: rest) first ↔
              withinGap now task.lastMigrationAt policy.migration.minMigrationGapSeconds = false ∧
                policy.migration.requiredImprovementFraction ≤ relativeImprovement best first :=
            passesGates_migrate kind local_
          cases early : withinGap now task.lastMigrationAt policy.migration.minMigrationGapSeconds with
          | true =>
              have shut : ¬ PassesGates task policy now (first :: rest) first := by
                rw [gate, early]
                exact fun passes => Bool.true_eq_false_eq_False passes.1
              exact ⟨first, best, _, rfl, rfl, rfl, .inr ⟨shut, .inr ⟨kind, rfl⟩⟩⟩
          | false =>
              by_cases small : relativeImprovement best first <
                  policy.migration.requiredImprovementFraction
              · have shut : ¬ PassesGates task policy now (first :: rest) first := by
                  rw [gate]
                  exact fun passes => absurd passes.2 (not_le.mpr small)
                simp only [if_pos small]
                exact ⟨first, best, _, rfl, rfl, rfl, .inr ⟨shut, .inr ⟨kind, rfl⟩⟩⟩
              · simp only [if_neg small]
                exact ⟨first, best, _, rfl, rfl, rfl, .inl ⟨gate.mpr ⟨early, not_lt.mp small⟩, rfl⟩⟩

theorem gatesRespected_iff (going : ∃ action ∈ ranked, action.action = .continue_) :
    (∃ result, chooseAction task ranked policy now = .ok result ∧
        GatesRespected task policy now ranked result) ↔ ¬ EarlyPauseNext task policy now ranked := by
  obtain ⟨first, best, result, head, local_, chosen, selection⟩ :=
    chooseAction_cases task policy now going
  have bestIsLocal := bestLocal_isLocal local_
  constructor
  · rintro ⟨result', chosen', respected⟩ ⟨first', head', best', local', migrates, stopped, pauses, early⟩
    rw [chosen] at chosen'
    cases chosen'
    rw [head] at head'
    rw [local_] at local'
    cases head'
    cases local'
    rcases selection with ⟨passes, -⟩ | ⟨-, ⟨pausing, -⟩ | ⟨-, selected⟩⟩
    · exact stopped passes
    · rw [migrates] at pausing
      cases pausing
    · rw [← selected] at pauses
      exact early (respected.pause pauses)
  · intro allowed
    refine ⟨result, chosen, ?_⟩
    rcases selection with ⟨passes, selected⟩ | ⟨stopped, fallback⟩
    · unfold PassesGates at passes
      refine ⟨?_, ?_, ?_, ?_⟩ <;> rw [selected]
      · intro pauses
        rwa [pauses] at passes
      · intro migrates
        rw [migrates] at passes
        exact passes.1
      · intro migrates best' local' score
        rw [migrates] at passes
        exact le_of_relativeImprovement (passes.2 best' local') score
      · intro first' head' _
        rw [head] at head'
        exact Option.some.inj head'
    · have noMigration : result.selected.action ≠ .migrate := by
        rcases fallback with ⟨-, continues⟩ | ⟨-, selected⟩
        · simp [continues]
        · rw [selected]
          rcases bestIsLocal with kind | kind <;> simp [kind]
      refine ⟨?_, fun migrates => absurd migrates noMigration,
        fun migrates => absurd migrates noMigration, ?_⟩
      · intro pauses
        rcases fallback with ⟨-, continues⟩ | ⟨migrates, selected⟩
        · rw [continues] at pauses
          cases pauses
        · by_contra early
          rw [selected] at pauses
          exact allowed ⟨first, head, best, local_, migrates, stopped, pauses, early⟩
      · intro first' head' passes
        rw [head] at head'
        cases head'
        exact absurd passes stopped

end Selection

/-- Every gate holds of what is selected, save where a migration that is stopped comes before a pause
that is too early. -/
theorem selection_respects_gates_iff {math : MathModule} {task : TaskProfile} {cluster : ClusterConfig}
    {policy : ScoringPolicy} {graph : ClusterGraph} {carbonStore : CarbonStore} {now : Instant}
    {staticData : Option (NodeId → Option Nat)} {compatible : Option (List NodeId)}
    {estimates : List RawActionEstimate} {context : Option AdaptiveDecisionContext}
    {ranked : List ScoredAction}
    (built : buildRawActions math task cluster policy graph carbonStore now staticData compatible =
      .ok estimates)
    (scored : scoreActions estimates policy context = .ok ranked) :
    (∃ result, chooseAction task ranked policy now = .ok result ∧
        GatesRespected task policy now ranked result) ↔ ¬ EarlyPauseNext task policy now ranked :=
  gatesRespected_iff (scoreActions_continue scored (buildRawActions_continue built))

/-! ## A pause that is too early -/

/-- Boston's intensity falls within the hour; in France there is next to none. -/
def fallingSeries : Series where
  samples := [⟨0, 1000⟩, ⟨3600, 0⟩, ⟨360000, 0⟩]
  increasing := by decide +kernel

def cleanSeries : Series where
  samples := [⟨0, 0⟩, ⟨360000, 0⟩]
  increasing := by decide +kernel

def pairCluster : ClusterConfig := .plain [.plain "boston", .plain "france"]

def pairStore : CarbonStore where
  cluster := pairCluster
  seriesByNodeId := .ofList [("boston", fallingSeries), ("france", cleanSeries)]

/-- Only carbon counts, and estimates read the trace. -/
def carbonPolicy : ScoringPolicy := { samplePolicy with
  weights := {
    time := 0, carbon := 1, cost := 0
    time_nonneg := zero_nonneg
    carbon_nonneg := one_nonneg
    cost_nonneg := zero_nonneg }
  pause := {
    pauseSeconds := 0, idleSeconds := 1800, resumeSeconds := 0, maxPauseWindowSeconds := 3600
    minPauseGapSeconds := 900
    pause_nonneg := zero_nonneg
    resume_nonneg := zero_nonneg
    minPauseGap_nonneg := samplePolicy.migration.minMigrationGap_nonneg
    candidates_range := by decide +kernel }
  carbonForecast := { CarbonForecastPolicy.standard with enabled := false } }

/-- A task in Boston that was migrated there and paused since. -/
def restlessTask (lastPauseAt : Instant) : TaskProfile where
  taskId := "task"
  currentNodeId := "boston"
  powerKw := 1
  checkpointBytes := 1000
  lastMigrationAt := some 0
  lastPauseAt := some lastPauseAt

def restlessRanking (lastPauseAt : Instant) : Except Exn (List ScoredAction) := do
  let estimates ← buildRawActions sampleMath (restlessTask lastPauseAt) pairCluster carbonPolicy
    { cluster := pairCluster } pairStore 600 none none
  scoreActions estimates carbonPolicy none

theorem selection_respects_gates_sample :
    ∃ ranked, restlessRanking (-1000) = .ok ranked ∧
      ∃ result, chooseAction (restlessTask (-1000)) ranked carbonPolicy 600 = .ok result ∧
        GatesRespected (restlessTask (-1000)) carbonPolicy 600 ranked result := by
  have isOk : (restlessRanking (-1000)).isOk = true := by decide +kernel
  cases ranking : restlessRanking (-1000) with
  | error e => simp [ranking, Except.isOk, Except.toBool] at isOk
  | ok ranked =>
      obtain ⟨estimates, built, scored⟩ := Except.bind_eq_ok.mp ranking
      refine ⟨ranked, rfl, (selection_respects_gates_iff built scored).mpr ?_⟩
      rintro ⟨_, _, _, _, _, _, _, early⟩
      apply early
      intro last same
      cases same
      decide +kernel

/-- The last pause was 300 seconds ago, the gap is 900 seconds, and a pause is selected. -/
theorem early_pause_selected :
    ∃ ranked result, restlessRanking 300 = .ok ranked ∧
      chooseAction (restlessTask 300) ranked carbonPolicy 600 = .ok result ∧
        result.selected.action = .pause ∧ ¬ PauseGapElapsed (restlessTask 300) carbonPolicy 600 := by
  have pauses : ((restlessRanking 300).bind fun ranked =>
      (chooseAction (restlessTask 300) ranked carbonPolicy 600).map (·.selected.action)).toOption =
        some .pause := by decide +kernel
  cases ranking : restlessRanking 300 with
  | error e => simp [ranking, Except.bind, Except.toOption] at pauses
  | ok ranked =>
      cases chosen : chooseAction (restlessTask 300) ranked carbonPolicy 600 with
      | error e => simp [ranking, chosen, Except.bind, Except.map, Except.toOption] at pauses
      | ok result =>
          rw [ranking, Except.bind, chosen] at pauses
          refine ⟨ranked, result, rfl, chosen, Option.some.inj pauses, fun elapsed => ?_⟩
          have early := elapsed 300 rfl
          revert early
          decide +kernel

end Magellan.Planning
