import Magellan.Data.Fallible
import Magellan.Scheduler.Evaluation
import Magellan.Scheduler.Scores
import Magellan.State.PersistentRegistry
import Mathlib.Logic.Function.Basic

/-!
# Resets of the adaptive policy

A task's policy state travels with the ownership updates, and of two states the one with more
decisions is kept. A reset deletes the state of its node and leaves nothing behind.
-/

namespace Magellan.PolicyReset

open Planning (AdaptivePolicyStore AdaptivePolicyService MathModule ScoringPolicy TaskProfile
  RawActionEstimate Instant scoreActions chooseAction)
open Registry (OwnershipUpdate applyOwnership ownershipUpdate setArtifactDigests)

/-- A stored policy state. Its `epoch`, the resets before its first decision, is nowhere stored. -/
structure PolicyCopy where
  state : Planning.AdaptiveTaskPolicyState
  updatedAtUtc : Timestamp
  epoch : Nat

/-- What a merge reads. -/
def PolicyCopy.summary (copy : PolicyCopy) : AdaptiveTaskPolicyState :=
  ⟨copy.state.taskId, copy.state.decisionCount, copy.updatedAtUtc⟩

/-- The incoming copy is the older one to a merge. -/
def Superseded (current incoming : PolicyCopy) : Prop :=
  incoming.state.decisionCount < current.state.decisionCount ∨
    incoming.state.decisionCount = current.state.decisionCount ∧
      incoming.updatedAtUtc ≤ current.updatedAtUtc

instance (current incoming : PolicyCopy) : Decidable (Superseded current incoming) :=
  inferInstanceAs (Decidable (_ ∨ _ ∧ _))

/-- `AdaptivePolicyStore.merge` returns true. -/
def installs (current : Option PolicyCopy) (incoming : PolicyCopy) : Bool :=
  current.all fun current => ¬ Superseded current incoming

def merge (current : Option PolicyCopy) (incoming : PolicyCopy) : Option PolicyCopy :=
  if installs current incoming then some incoming else current

theorem summary_merge (current : Option PolicyCopy) (incoming : PolicyCopy) :
    (merge current incoming).map (·.summary) =
      some (AdaptiveTaskPolicyState.merge (current.map (·.summary)) incoming.summary) := by
  cases current with
  | none => rfl
  | some current =>
      by_cases superseded : Superseded current incoming
      · simp only [merge, installs, Option.all_some, superseded, not_true, decide_false,
          Bool.false_eq_true, if_false, Option.map_some]
        exact congrArg some (if_pos superseded).symm
      · simp only [merge, installs, Option.all_some, superseded, not_false_eq_true, decide_true,
          if_true, Option.map_some]
        exact congrArg some (if_neg superseded).symm

/-! ## Evaluations -/

/-- What a task is evaluated with. -/
structure Evaluation where
  math : MathModule
  service : AdaptivePolicyService
  policy : ScoringPolicy
  task : TaskProfile
  estimates : List RawActionEstimate
  now : Instant
  telemetryConfidence : Rat
  clock : Timestamp

/-- What the store holds afterwards. What has been put stays where a later part fails. -/
def Evaluation.store (e : Evaluation) (store : AdaptivePolicyStore) : Except Exn AdaptivePolicyStore := do
  let (context, prepared) ← e.service.prepare e.math store e.task e.estimates e.now
    e.telemetryConfidence (Planning.forecastConfidence e.estimates e.telemetryConfidence)
  match (do
    let ranked ← scoreActions e.estimates e.policy (some context)
    chooseAction e.task ranked e.policy e.now) with
  | .error _ => return prepared
  | .ok decision => return e.service.recordDecision prepared decision context e.now

theorem Evaluation.store_of_evaluated {e : Evaluation} {store store' : AdaptivePolicyStore}
    {decision : Planning.DecisionResult}
    (h : Planning.evaluateEstimates e.math (some e.service) store e.policy e.task e.now
      e.telemetryConfidence e.estimates = .ok (decision, store')) : e.store store = .ok store' := by
  obtain ⟨⟨context, prepared⟩, ready, h⟩ := Except.bind_eq_ok.mp h
  obtain ⟨ranked, scored, h⟩ := Except.bind_eq_ok.mp h
  obtain ⟨decision, chosen, h⟩ := Except.bind_eq_ok.mp h
  cases h
  unfold Evaluation.store
  rw [ready, Except.ok_bind]
  simp only [scored, Except.ok_bind, chosen]
  rfl

def storeOf (taskId : TaskId) : Option PolicyCopy → AdaptivePolicyStore
  | none => .empty
  | some copy => Dict.empty.set taskId copy.state

/-- The copy of a node after an evaluation; where there was none its decisions begin now. -/
def Evaluation.copy (e : Evaluation) (resets : Nat) (current : Option PolicyCopy) : Option PolicyCopy :=
  match e.store (storeOf e.task.taskId current) with
  | .error _ => current
  | .ok store =>
    (store.get? e.task.taskId).map fun state =>
      { state, updatedAtUtc := e.clock, epoch := (current.map (·.epoch)).getD resets }

/-! ## The network -/

structure Node where
  registry : TaskRuntimeState
  policy : Option PolicyCopy := none

structure Message where
  update : OwnershipUpdate
  policy : Option PolicyCopy

/-- The nodes that hold a task, what they have sent, and how often its owner has reset it. -/
structure Network where
  taskId : TaskId
  node : NodeId → Node
  messages : List Message := []
  resets : Nat := 0

inductive Event where
  | evaluate (n : NodeId) (evaluation : Evaluation)
  | reset (n : NodeId)
  /-- A snapshot is fetched from the node, or it broadcasts an update. -/
  | send (n : NodeId)
  /-- In a round of the reconciliation service. -/
  | reconcile (i : Nat) (n : NodeId)
  /-- `POST /ownership`. -/
  | post (i : Nat) (n : NodeId)
  | lose (i : Nat)

namespace Network

variable (net : Network)

def setNode (n : NodeId) (node : Node) : Network := { net with node := Function.update net.node n node }

@[simp] theorem node_setNode (n m : NodeId) (node : Node) :
    (net.setNode n node).node m = if m = n then node else net.node m := Function.update_apply ..

def owns (n : NodeId) : Bool := (net.node n).registry.ownerNodeId = n

def installDigests (u : OwnershipUpdate) (registry : TaskRuntimeState) : TaskRuntimeState :=
  if u.artifactDigests = [] then registry else setArtifactDigests u.artifactDigests registry

/-- What a node makes of a message. -/
def receive (posted : Bool) (n : NodeId) (message : Message) (node : Node) : Node :=
  match applyOwnership n message.update node.registry with
  | none =>
    { node with registry := if posted then installDigests message.update node.registry else node.registry }
  | some registry =>
    { registry := installDigests message.update registry
      policy := match message.policy with
        | none => node.policy
        | some incoming => merge node.policy incoming }

def deliver (posted : Bool) (i : Nat) (n : NodeId) : Option Network :=
  net.messages[i]?.map fun message =>
    { net.setNode n (receive posted n message (net.node n)) with messages := net.messages.eraseIdx i }

/-- `AdaptivePolicyService.reset` returns true at the owner. -/
def resetsAtOwner : Event → Bool
  | .reset n => net.owns n && (net.node n).policy.isSome
  | _ => false

def step : Event → Option Network
  | .evaluate n e =>
    if net.owns n ∧ e.task.taskId = net.taskId then
      some (net.setNode n { net.node n with policy := e.copy net.resets (net.node n).policy })
    else none
  | .reset n =>
    some { net.setNode n { net.node n with policy := none } with
      resets := net.resets + if net.resetsAtOwner (.reset n) then 1 else 0 }
  | .send n =>
    let message : Message := ⟨ownershipUpdate (net.node n).registry, (net.node n).policy⟩
    some { net with messages := message :: net.messages }
  | .reconcile i n => net.deliver false i n
  | .post i n => net.deliver true i n
  | .lose i => if i < net.messages.length then some { net with messages := net.messages.eraseIdx i } else none

def run (net : Network) (events : List Event) : Option Network := events.foldlM step net

/-! ## What a merge undoes -/

/-- The merge of a copy brings back decisions from before a reset, or discards later ones for them. -/
def MergeUndoes (resets : Nat) (current : Option PolicyCopy) (incoming : PolicyCopy) : Prop :=
  incoming.epoch < resets ∧ installs current incoming = true ∨
    ∃ kept ∈ current, kept.epoch < resets ∧ incoming.epoch = resets ∧
      0 < incoming.state.decisionCount ∧ installs current incoming = false

instance (resets : Nat) (current : Option PolicyCopy) (incoming : PolicyCopy) :
    Decidable (MergeUndoes resets current incoming) :=
  inferInstanceAs (Decidable (_ ∧ _ ∨ ∃ kept ∈ current, _))

def DeliveryUndoes (i : Nat) (n : NodeId) : Prop :=
  ∃ message ∈ net.messages[i]?, ∃ incoming ∈ message.policy,
    (applyOwnership n message.update (net.node n).registry).isSome ∧
      MergeUndoes net.resets (net.node n).policy incoming

instance (i : Nat) (n : NodeId) : Decidable (net.DeliveryUndoes i n) :=
  inferInstanceAs (Decidable (∃ message ∈ net.messages[i]?, ∃ incoming ∈ message.policy, _))

def Undoes : Event → Prop
  | .reconcile i n | .post i n => net.DeliveryUndoes i n
  | _ => False

/-- Nobody else has a copy, and none is under way. -/
def Alone (n : NodeId) : Prop :=
  (∀ m, m ≠ n → (net.node m).policy = none) ∧ ∀ message ∈ net.messages, message.policy = none

def AloneAtReset : Event → Prop
  | .reset n => net.resetsAtOwner (.reset n) = true → net.Alone n
  | _ => True

/-- No copy is from before a reset. -/
structure Clean : Prop where
  nodes : ∀ n, ∀ copy ∈ (net.node n).policy, net.resets ≤ copy.epoch
  messages : ∀ message ∈ net.messages, ∀ copy ∈ message.policy, net.resets ≤ copy.epoch

variable {net} {net' : Network}

/-- A merge keeps one of the two copies. -/
theorem mem_merge {current : Option PolicyCopy} {incoming copy : PolicyCopy}
    (h : copy ∈ merge current incoming) : copy = incoming ∨ copy ∈ current := by
  unfold merge at h
  split_ifs at h
  · exact .inl (Option.some.inj h).symm
  · exact .inr h

theorem mem_receive {posted : Bool} {n : NodeId} {message : Message} {node : Node} {copy : PolicyCopy}
    (h : copy ∈ (receive posted n message node).policy) :
    copy ∈ node.policy ∨ copy ∈ message.policy := by
  unfold receive at h
  split at h
  · exact .inl h
  · cases sent : message.policy with
    | none =>
        simp only [sent] at h
        exact .inl h
    | some incoming =>
        simp only [sent] at h
        rcases mem_merge h with rfl | kept
        · exact .inr rfl
        · exact .inl kept

theorem mem_setNode {n m : NodeId} {node : Node} {copy : PolicyCopy}
    (h : copy ∈ ((net.setNode n node).node m).policy) :
    copy ∈ node.policy ∨ copy ∈ (net.node m).policy := by
  rw [node_setNode] at h
  split_ifs at h
  · exact .inl h
  · exact .inr h

theorem Clean.deliver {posted : Bool} {i : Nat} {n : NodeId} (clean : net.Clean)
    (h : net.deliver posted i n = some net') : net'.Clean := by
  obtain ⟨message, listed, rfl⟩ := Option.map_eq_some_iff.mp h
  constructor
  · intro m copy present
    rcases mem_setNode present with received | old
    · rcases mem_receive received with own | sent
      · exact clean.nodes n copy own
      · exact clean.messages message (List.mem_of_getElem? listed) copy sent
    · exact clean.nodes m copy old
  · intro other left copy present
    exact clean.messages other (List.mem_of_mem_eraseIdx left) copy present

theorem epoch_of_copy {e : Evaluation} {resets : Nat} {current : Option PolicyCopy}
    (old : ∀ copy ∈ current, resets ≤ copy.epoch) :
    ∀ copy ∈ e.copy resets current, resets ≤ copy.epoch := by
  intro copy h
  unfold Evaluation.copy at h
  split at h
  · exact old copy h
  · obtain ⟨state, -, rfl⟩ := Option.map_eq_some_iff.mp h
    cases current with
    | none => exact le_rfl
    | some kept => exact old kept rfl

theorem Clean.step {event : Event} (clean : net.Clean) (alone : net.AloneAtReset event)
    (h : net.step event = some net') : net'.Clean := by
  cases event with
  | evaluate n e =>
      rw [Network.step] at h
      split_ifs at h
      cases h
      refine ⟨fun m copy present => ?_, clean.messages⟩
      rcases mem_setNode present with new | old
      · exact epoch_of_copy (clean.nodes n) copy new
      · exact clean.nodes m copy old
  | reset n =>
      cases h
      cases counted : net.resetsAtOwner (.reset n) with
      | true =>
          -- No copy is left.
          obtain ⟨nodes, messages⟩ := alone counted
          constructor
          · intro m copy present
            simp only [node_setNode] at present
            split_ifs at present with here
            · cases present
            · rw [nodes m here] at present
              cases present
          · intro message sent copy present
            rw [messages message sent] at present
            cases present
      | false =>
          refine ⟨fun m copy present => ?_, clean.messages⟩
          rcases mem_setNode present with none | old
          · cases none
          · exact clean.nodes m copy old
  | send n =>
      cases h
      refine ⟨clean.nodes, List.forall_mem_cons.mpr ⟨clean.nodes n, clean.messages⟩⟩
  | reconcile i n => exact clean.deliver h
  | post i n => exact clean.deliver h
  | lose i =>
      rw [Network.step] at h
      split_ifs at h
      cases h
      exact ⟨clean.nodes, fun message left => clean.messages message (List.mem_of_mem_eraseIdx left)⟩

theorem Clean.run {events : List Event} (clean : net.Clean)
    (alone : ∀ before event after net', events = before ++ event :: after →
      net.run before = some net' → net'.AloneAtReset event)
    (h : net.run events = some net') : net'.Clean := by
  induction events using List.reverseRecOn generalizing net' with
  | nil =>
      cases h
      exact clean
  | append_singleton events event ih =>
      unfold Network.run at h
      rw [List.foldlM_append] at h
      obtain ⟨before, ran, last⟩ := Option.bind_eq_some_iff.mp h
      have earlier : before.Clean := by
        apply ih _ ran
        intro first event' rest net' same
        apply alone first event' (rest ++ [event]) net'
        rw [same, List.append_assoc, List.cons_append]
      apply earlier.step (alone events event [] before rfl ran)
      simpa using last

theorem Clean.not_undoes (clean : net.Clean) (event : Event) : ¬ net.Undoes event := by
  have delivery (i : Nat) (n : NodeId) : ¬ net.DeliveryUndoes i n := by
    rintro ⟨message, listed, incoming, sent, -, undone⟩
    have recent := clean.messages message (List.mem_of_getElem? listed) incoming sent
    rcases undone with ⟨old, -⟩ | ⟨kept, held, old, -⟩
    · exact absurd old (not_lt.mpr recent)
    · exact absurd old (not_lt.mpr (clean.nodes n kept held))
  cases event with
  | reconcile i n | post i n => exact delivery i n
  | _ => exact id

end Network

/-- Where another node has kept a copy that the owner takes up, the reset can be undone. -/
theorem reset_can_be_undone {net : Network} {n m : NodeId} {copy : PolicyCopy}
    (owner : net.resetsAtOwner (.reset n) = true) (other : m ≠ n)
    (kept : (net.node m).policy = some copy) (old : copy.epoch ≤ net.resets)
    (taken : (applyOwnership n (ownershipUpdate (net.node m).registry) (net.node n).registry).isSome) :
    ∃ net', net.run [.reset n, .send m] = some net' ∧ net'.Undoes (.reconcile 0 n) := by
  refine ⟨_, rfl, _, rfl, copy, ?_, ?_, ?_⟩
  · simp only [Network.node_setNode, if_neg other]
    exact kept
  · simp only [Network.node_setNode, if_neg other, if_true]
    exact taken
  · simp only [Network.node_setNode, if_true, owner]
    exact .inl ⟨Nat.lt_succ_of_le old, rfl⟩

/-! ## A reset that is undone -/

section Sample

open Planning (samplePolicy sampleEstimate sampleMath weightsFromConfig)

/-- Boston runs the task and decides to go on with it. -/
def sampleEvaluation : Evaluation where
  math := sampleMath
  service := ⟨samplePolicy.adaptive, weightsFromConfig samplePolicy.weights⟩
  policy := samplePolicy
  task := { taskId := "task", currentNodeId := "boston", powerKw := 1, checkpointBytes := 1000 }
  estimates := [sampleEstimate .continue_ 900 100 1]
  now := 0
  telemetryConfidence := 0
  clock := 1

def sampleNode (n : NodeId) : Node where
  registry := {
    taskId := "task", ownerNodeId := "boston"
    status := if n = "boston" then .running else .remote }

def sampleNetwork : Network where
  taskId := "task"
  node := sampleNode

def sampleEvents : List Event :=
  [.evaluate "boston" sampleEvaluation, .reset "boston", .evaluate "boston" sampleEvaluation,
    .send "boston", .reconcile 0 "france"]

theorem sampleEvents_alone :
    ∀ before event after net', sampleEvents = before ++ event :: after →
      sampleNetwork.run before = some net' → net'.AloneAtReset event := by
  intro before event after net' same ran
  rcases before with _ | ⟨first, _ | ⟨second, before⟩⟩
  · cases same
    trivial
  · cases same
    rintro -
    have evaluated := ran
    simp only [Network.run, List.foldlM_cons, List.foldlM_nil, Network.step] at evaluated
    split_ifs at evaluated
    · cases evaluated
      refine ⟨fun m other => ?_, fun message sent => absurd sent List.not_mem_nil⟩
      rw [Network.node_setNode, if_neg other]
      rfl
    · cases evaluated
  · -- No later event is a reset.
    have rest : [.evaluate "boston" sampleEvaluation, .send "boston", .reconcile 0 "france"] =
        before ++ event :: after := (List.cons.inj (List.cons.inj same).2).2
    have member : event ∈ [.evaluate "boston" sampleEvaluation, .send "boston", .reconcile 0 "france"] := by
      rw [rest]
      exact List.mem_append_right _ List.mem_cons_self
    simp only [List.mem_cons, List.not_mem_nil, or_false] at member
    rcases member with rfl | rfl | rfl <;> trivial

end Sample

end Magellan.PolicyReset
