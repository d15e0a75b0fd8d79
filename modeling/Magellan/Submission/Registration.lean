import Magellan.Submission.Atomicity
import Magellan.Submission.Identity
import Magellan.Submission.Round

/-!
# Registration of the catalogued runs

The runs that a merge reports are registered. Where every merge is atomic, nothing that is in the
catalog stays unregistered.
-/

namespace Magellan.Submission

open TaskCatalogStore

variable {Payload : Type}

namespace Catalog

variable {c c' : Catalog Payload} {run : TaskRunRecord} {d : TaskDefinition Payload}

theorem materializeRun_of_coherent (h : Coherent c.content) (member : .run run ∈ c.content) :
    ∃ d, c.materializeRun run = .ok d := by
  obtain ⟨r, found, digest⟩ := h.closed member
  unfold materializeRun
  rw [getDefinition_some.mpr found]
  exact ⟨_, if_neg (not_not.mpr digest)⟩

theorem materializeRun_ok (h : c.materializeRun run = .ok d) :
    d.taskId = run.runId ∧ ∃ r, c.getDefinition run.definitionId (some run.revision) = .ok r ∧
      r.digest = run.definitionDigest ∧ d = r.materialize run.runId run.initialOwnerNodeId := by
  unfold materializeRun at h
  split at h
  · cases h
  rename_i r found
  split_ifs at h with differs
  cases h
  exact ⟨rfl, r, found, not_not.mp differs, rfl⟩

theorem materializeRun_within (within : Within c c') (h : c.materializeRun run = .ok d) :
    c'.materializeRun run = .ok d := by
  obtain ⟨-, r, found, digest, rfl⟩ := materializeRun_ok h
  have later : c'.getDefinition run.definitionId (some run.revision) = .ok r :=
    getDefinition_some.mpr (within.definitions (getDefinition_some.mp found))
  unfold materializeRun
  rw [later]
  exact if_neg (not_not.mpr digest)

end Catalog

/-! ## One definition -/

namespace TaskRegistry

/-- Every registered task has its state file. -/
def Total (g : TaskRegistry Payload) : Prop :=
  ∀ k, (g.definitions.get? k).isSome → (g.states.get? k).isSome

variable [DecidableEq Payload]

theorem registerDefinition_ok {g : TaskRegistry Payload} {d : TaskDefinition Payload}
    (same : ∀ existing, g.definitions.get? d.taskId = some existing → existing = d) :
    (∃ added, (g.registerDefinition d none).1 = .ok added) ∧
      (∀ k, (g.registerDefinition d none).2.definitions.get? k =
        if k = d.taskId then some d else g.definitions.get? k) ∧
      (g.Total → (g.registerDefinition d none).2.Total) := by
  unfold registerDefinition
  cases found : g.definitions.get? d.taskId with
  | some existing =>
      cases same existing found
      simp only [ne_eq, not_true_eq_false, if_false]
      refine ⟨⟨false, rfl⟩, fun k => ?_, id⟩
      split_ifs with here
      · rw [here, found]
      · rfl
  | none =>
      simp only [initializeStateIfMissing]
      split_ifs with present
      · refine ⟨⟨true, rfl⟩, fun k => Dict.get?_set .., fun total k registered => ?_⟩
        by_cases here : k = d.taskId
        · rw [here]
          exact present
        · simp only [Dict.get?_set, here, if_false] at registered
          exact total k registered
      · refine ⟨⟨true, rfl⟩, fun k => Dict.get?_set .., fun total k registered => ?_⟩
        by_cases here : k = d.taskId
        · simp [here]
        · simp only [Dict.get?_set, here, if_false] at registered ⊢
          exact total k registered

end TaskRegistry

/-! ## The runs of a merge -/

namespace Node

variable {n m : Node Payload} {run : TaskRunRecord} {snapshot : TaskCatalogSnapshot Payload}

abbrev catalog (n : Node Payload) : Catalog Payload := n.store.memory

/-- What is registered under the id of a run was made of the run. -/
def Faithful (n : Node Payload) : Prop :=
  ∀ run ∈ n.catalog.runs.values, ∀ d, n.registry.definitions.get? run.runId = some d →
    n.catalog.materializeRun run = .ok d

/-- Every run of the catalog is registered. -/
def Registered (n : Node Payload) : Prop :=
  ∀ run ∈ n.catalog.runs.values, ∃ d, n.registry.definitions.get? run.runId = some d ∧
    n.catalog.materializeRun run = .ok d

theorem Registered.faithful (h : Registered n) : Faithful n := by
  intro run member d found
  obtain ⟨d', found', made⟩ := h run member
  cases found.symm.trans found'
  exact made

/-- `m` is `n` with the runs registered, and nothing else. -/
structure Registers (runs : List TaskRunRecord) (n m : Node Payload) : Prop where
  store : m.store = n.store
  policies : m.adaptivePolicies = n.adaptivePolicies
  registered : ∀ run ∈ runs, (m.registry.definitions.get? run.runId).isSome
  kept : ∀ k d, n.registry.definitions.get? k = some d → m.registry.definitions.get? k = some d
  new : ∀ k, (m.registry.definitions.get? k).isSome →
    (n.registry.definitions.get? k).isSome ∨ ∃ run ∈ runs, run.runId = k
  faithful : Faithful m
  total : n.registry.Total → m.registry.Total

variable [DecidableEq Payload]

theorem registerRuns_ok (coherent : Coherent n.catalog.content) (faithful : Faithful n)
    {disk : Disk} (writes : ∀ k, disk.state k = none) {runs : List TaskRunRecord}
    (known : ∀ run ∈ runs, run ∈ n.catalog.runs.values) :
    (∃ count, (registerRuns disk runs n).1 = .ok count) ∧
      Registers runs n (registerRuns disk runs n).2 := by
  induction runs generalizing n with
  | nil =>
      exact ⟨⟨0, rfl⟩, rfl, rfl, by simp, fun _ _ => id, fun _ => .inl, faithful, id⟩
  | cons run runs ih =>
      obtain ⟨member, rest⟩ := List.forall_mem_cons.mp known
      obtain ⟨d, made⟩ :=
        Catalog.materializeRun_of_coherent coherent (Catalog.mem_runs_values.mp member)
      have id_eq := (Catalog.materializeRun_ok made).1
      have same : ∀ existing, n.registry.definitions.get? d.taskId = some existing →
          existing = d := by
        intro existing found
        rw [id_eq] at found
        exact Except.ok.inj ((faithful run member existing found).symm.trans made)
      obtain ⟨⟨added, ran⟩, defined, total⟩ := TaskRegistry.registerDefinition_ok same
      cases result : n.registry.registerDefinition d none with
      | mk outcome g =>
          simp only [result] at ran defined total
          have faithful' : Faithful { n with registry := g } := by
            intro run' member' d' found
            simp only [defined] at found
            split_ifs at found with here
            · cases found
              have one : run'.runId = run.runId := here.trans id_eq
              have both : run' = run := coherent.run (Catalog.mem_runs_values.mp member')
                (Catalog.mem_runs_values.mp member) one
              rw [both]
              exact made
            · exact faithful run' member' d' found
          obtain ⟨⟨count, later⟩, step⟩ := ih (n := { n with registry := g }) coherent faithful' rest
          have next : registerRuns disk (run :: runs) n =
              ((registerRuns disk runs { n with registry := g }).1.map (· + 1),
                (registerRuns disk runs { n with registry := g }).2) := by
            conv_lhs => rw [registerRuns]
            simp only [made, writes, result, ran]
          rw [next]
          have self : g.definitions.get? run.runId = some d := by
            rw [defined, if_pos id_eq.symm]
          refine ⟨⟨count + 1, by rw [later]; rfl⟩, step.store, step.policies, ?_, ?_, ?_,
            step.faithful, fun t => step.total (total t)⟩
          · refine List.forall_mem_cons.mpr ⟨?_, step.registered⟩
            rw [step.kept _ _ self]
            rfl
          · intro k d' found
            apply step.kept
            show g.definitions.get? k = some d'
            rw [defined]
            split_ifs with here
            · rw [here] at found
              rw [same d' found]
            · exact found
          · intro k present
            rcases step.new k present with old | ⟨run', inside, rfl⟩
            · simp only [defined] at old
              split_ifs at old with here
              · exact .inr ⟨run, List.mem_cons_self, id_eq.symm.trans here.symm⟩
              · exact .inl old
            · exact .inr ⟨run', List.mem_cons_of_mem _ inside, rfl⟩

/-! ## The turn of one catalog -/

/-- No other task has the id of a run that is new: `uuid4` draws it. -/
def Unclaimed (snapshot : TaskCatalogSnapshot Payload) (n : Node Payload) : Prop :=
  ∀ run ∈ snapshot.runs, n.catalog.runs.get? run.runId = none →
    n.registry.definitions.get? run.runId = none

omit [DecidableEq Payload] in
/-- The registry is faithful to the catalog that a merge leaves. -/
theorem faithful_merge (faithful : Faithful n)
    (unclaimed : Unclaimed snapshot n) {io : Option Exn}
    {added : List (TaskDefinitionRecord Payload) × List TaskRunRecord}
    {s : TaskCatalogStore Payload} (ran : n.store.mergeSnapshot snapshot io = (.ok added, s)) :
    Faithful { n with store := s } := by
  have merged := merge_of_mergeSnapshot ran
  have within : Catalog.Within n.catalog s.memory := by
    have grown := Catalog.Within.merge (c := n.catalog) snapshot
    rw [merged] at grown
    exact grown
  intro run member d found
  rcases reported_or_old merged member with new | old
  · obtain ⟨inside, absent⟩ := reported_run merged new
    have none_ := unclaimed run inside absent
    cases none_.symm.trans found
  · exact Catalog.materializeRun_within within (faithful run old d found)

theorem absorb_ok (coherent : Coherent n.catalog.content) (faithful : Faithful n)
    (unclaimed : Unclaimed snapshot n) (disk : Disk) (writes : ∀ k, disk.state k = none)
    {added : List (TaskDefinitionRecord Payload) × List TaskRunRecord}
    {s : TaskCatalogStore Payload}
    (ran : n.store.mergeSnapshot snapshot disk.catalog = (.ok added, s)) :
    (∃ counts, (n.absorb disk snapshot).1 = .ok counts) ∧
      Registers added.2 { n with store := s } (n.absorb disk snapshot).2 := by
  have merged := merge_of_mergeSnapshot ran
  have later : Coherent s.memory.content := by
    have kept : Coherent (n.catalog.merge snapshot).2.content := Catalog.merge_coherent coherent
    rw [merged] at kept
    exact kept
  have known : ∀ run ∈ added.2, run ∈ s.memory.runs.values := by
    intro run member
    have union := Catalog.content_merge (congrArg Prod.fst merged)
    rw [merged] at union
    rw [Catalog.mem_runs_values, union]
    exact .inr (.inr ⟨run, (reported_run merged member).1, rfl⟩)
  obtain ⟨⟨count, done⟩, registers⟩ :=
    registerRuns_ok later (faithful_merge faithful unclaimed ran) writes known
  unfold absorb
  rw [ran]
  dsimp only
  rw [done]
  exact ⟨⟨(added.1.length, count), rfl⟩, registers⟩

theorem absorb_error (disk : Disk) {e : Exn} {s : TaskCatalogStore Payload}
    (ran : n.store.mergeSnapshot snapshot disk.catalog = (.error e, s)) :
    n.absorb disk snapshot = (.error e, { n with store := s }) := by
  unfold absorb
  rw [ran]

theorem Registered.absorb (h : Registered n) (coherent : Coherent n.catalog.content) {disk : Disk}
    (writes : ∀ k, disk.state k = none) (unclaimed : Unclaimed snapshot n)
    (atomic : Atomic n.store snapshot disk.catalog) : Registered (n.absorb disk snapshot).2 := by
  unfold Atomic at atomic
  cases ran : n.store.mergeSnapshot snapshot disk.catalog with
  | mk result s =>
      rw [ran] at atomic
      cases result with
      | error e =>
          rw [absorb_error disk ran]
          intro run member
          rw [show catalog { n with store := s } = n.catalog from atomic.1] at member ⊢
          exact h run member
      | ok added =>
          obtain ⟨-, registers⟩ := absorb_ok coherent h.faithful unclaimed disk writes ran
          intro run member
          have member' : run ∈ s.memory.runs.values := by
            rw [catalog, registers.store] at member
            exact member
          have present : ((n.absorb disk snapshot).2.registry.definitions.get? run.runId).isSome := by
            rcases atomic.2 run member' with new | old
            · exact registers.registered run new
            · obtain ⟨d, found, -⟩ := h run old
              rw [registers.kept _ d found]
              rfl
          obtain ⟨d, found⟩ := Option.isSome_iff_exists.mp present
          exact ⟨d, found, registers.faithful run member d found⟩

/-! ## Rounds -/

theorem registerRuns_store (disk : Disk) (runs : List TaskRunRecord) (n : Node Payload) :
    (registerRuns disk runs n).2.store = n.store := by
  induction runs generalizing n with
  | nil => rfl
  | cons run runs ih =>
      unfold registerRuns
      split
      · rfl
      split
      · rfl
      · exact ih _

theorem absorb_store (disk : Disk) (snapshot : TaskCatalogSnapshot Payload) (n : Node Payload) :
    (n.absorb disk snapshot).2.store = (n.store.mergeSnapshot snapshot disk.catalog).2 := by
  unfold absorb
  split
  · rename_i ran
    rw [ran]
  · rename_i ran
    rw [ran]
    exact registerRuns_store _ _ _

/-- Each turn of a round finds what an atomic merge needs, and the state files can be written. -/
def Steady : List (Disk × TaskCatalogSnapshot Payload) → Node Payload → Prop
  | [], _ => True
  | (disk, snapshot) :: later, n =>
      Undivided n.store snapshot disk.catalog ∧ (∀ k, disk.state k = none) ∧
        Unclaimed snapshot n ∧
        ((∃ counts, (n.absorb disk snapshot).1 = .ok counts) →
          Steady later (n.absorb disk snapshot).2)

def reconcileRounds (rounds : List (List (Disk × TaskCatalogSnapshot Payload)))
    (n : Node Payload) : Node Payload :=
  rounds.foldl (fun n round => (n.reconcileCatalog round).2) n

def SteadyRounds : List (List (Disk × TaskCatalogSnapshot Payload)) → Node Payload → Prop
  | [], _ => True
  | round :: later, n => Steady round n ∧ SteadyRounds later (n.reconcileCatalog round).2

theorem Registered.reconcileCatalog {round : List (Disk × TaskCatalogSnapshot Payload)}
    (h : Registered n) (sound : Sound n.store) (steady : Steady round n) :
    Registered (n.reconcileCatalog round).2 ∧ Sound (n.reconcileCatalog round).2.store := by
  induction round generalizing n with
  | nil => exact ⟨h, sound⟩
  | cons turn later ih =>
      obtain ⟨disk, snapshot⟩ := turn
      obtain ⟨undivided, writes, unclaimed, rest⟩ := steady
      have atomic := (atomic_iff_undivided sound.memory snapshot disk.catalog).mpr undivided
      have registered := h.absorb sound.memory writes unclaimed atomic
      have sound' : Sound (n.absorb disk snapshot).2.store := by
        rw [absorb_store]
        exact sound.mergeSnapshot snapshot disk.catalog
      unfold Node.reconcileCatalog
      split
      · rename_i ran
        rw [ran] at registered sound'
        exact ⟨registered, sound'⟩
      · rename_i ran
        rw [ran] at registered sound' rest
        exact ih registered sound' (rest ⟨_, rfl⟩)

theorem Registered.reconcileRounds {rounds : List (List (Disk × TaskCatalogSnapshot Payload))}
    (h : Registered n) (sound : Sound n.store) (steady : SteadyRounds rounds n) :
    Registered (reconcileRounds rounds n) := by
  induction rounds generalizing n with
  | nil => exact h
  | cons round later ih =>
      obtain ⟨registered, sound'⟩ := h.reconcileCatalog sound steady.1
      exact ih registered sound' steady.2

def sampleRequest : Operation String :=
  .createRun { definitionId := "d", idempotencyKey := "k" } "a" none "q" 0 none

/-- A node with the definition `d` and a run of it under the key `k`. -/
def sampleNode : Node String where
  store := sampleRequest.apply sampleDigests ((sampleSubmit "d" "x").apply sampleDigests (new "a"))
  registry := { localNodeId := "a" }

/-- A run of `d` that a peer has under `key`. -/
def samplePeerRun (runId key : String) : TaskRunRecord where
  runId := runId
  definitionId := "d"
  revision := 1
  definitionDigest := "x"
  originNodeId := "b"
  initialOwnerNodeId := "b"
  idempotencyKey := key
  requestDigest := key
  createdAtUtc := 0

def samplePeerRuns (runs : List TaskRunRecord) : TaskCatalogSnapshot String where
  reportingNodeId := "b"
  runs := runs

theorem sampleNode_reached : Reached sampleDigests sampleNode.store :=
  ⟨"a", .step sampleRequest (.step (sampleSubmit "d" "x") .refl trivial trivial) rfl trivial⟩

end Node

end Magellan.Submission
