import Magellan.Policy.Adaptive

/-!
# The evaluation of a task

Its actions are estimated, scored by the adaptive policy where there is one, and one is selected.
-/

namespace Magellan.Planning

/-- The least confidence of the estimates that have one. -/
def forecastConfidence (estimates : List RawActionEstimate) (telemetryConfidence : Rat) : Rat :=
  let forecastConfidences := (estimates.map (·.carbonConfidence)).filter (0 < ·)
  if forecastConfidences = [] then telemetryConfidence else minimum forecastConfidences

section

variable (math : MathModule) (adaptiveService : Option AdaptivePolicyService)
  (store : AdaptivePolicyStore) (policy : ScoringPolicy) (task : TaskProfile) (now : Instant)
  (telemetryConfidence : Rat)

/-- The selection from the estimates, and what the policy store holds afterwards. -/
def evaluateEstimates (estimates : List RawActionEstimate) :
    Except Exn (DecisionResult × AdaptivePolicyStore) :=
  match adaptiveService with
  | none => do
    let ranked ← scoreActions estimates policy none
    let decision ← chooseAction task ranked policy now
    return (decision, store)
  | some service => do
    let (context, store) ← service.prepare math store task estimates now telemetryConfidence
      (forecastConfidence estimates telemetryConfidence)
    let ranked ← scoreActions estimates policy (some context)
    let decision ← chooseAction task ranked policy now
    return (decision, service.recordDecision store decision context now)

def evaluateTask (cluster : ClusterConfig) (graph : ClusterGraph) (carbonStore : CarbonStore)
    (staticDataBytesByDestination : Option (NodeId → Option Nat))
    (compatibleDestinationIds : Option (List NodeId)) :
    Except Exn (DecisionResult × AdaptivePolicyStore) := do
  let estimates ← buildRawActions math task cluster policy graph carbonStore now
    staticDataBytesByDestination compatibleDestinationIds
  evaluateEstimates math adaptiveService store policy task now telemetryConfidence estimates

end

end Magellan.Planning
