import Magellan.Submission.Registration

/-!
# One bad peer

A round takes the catalogs first and stops at the first that contradicts the local one. What comes
after it in the round is not looked at.
-/

namespace Magellan.Submission

open TaskCatalogStore

namespace Node

variable {Payload : Type} {n m : Node Payload}
  {snapshot : TaskCatalogSnapshot Payload} {u : Update} {updates : List Update}
  {catalogs : List (TaskCatalogSnapshot Payload)}

/-- The update is about a registered task, and the fencing rules accept it. -/
def accepts (u : Update) (n : Node Payload) : Bool :=
  match n.registry.getState u.1 with
  | .error _ => false
  | .ok s => (Registry.applyOwnership n.registry.localNodeId u.2 s).isSome

/-- The updates that are accepted where each is offered in its turn. -/
def accepted : List Update → Node Payload → List Update
  | [], _ => []
  | u :: us, n => if accepts u n then u :: accepted us (n.offer u).2 else accepted us n

/-- The entries of the snapshot are in the catalog, and its runs are registered. -/
structure Absorbed (snapshot : TaskCatalogSnapshot Payload) (n : Node Payload) : Prop where
  entries : snapshot.entries ⊆ n.catalog.content
  runs : ∀ run ∈ snapshot.runs, (n.registry.definitions.get? run.runId).isSome

/-- The snapshot does not contradict the catalog. -/
def Peaceful (snapshot : TaskCatalogSnapshot Payload) (n : Node Payload) : Prop :=
  Coherent (n.catalog.content ∪ snapshot.entries)

/-! ## The updates -/

theorem accepted_eq_nil : accepted updates n = [] ↔ ∀ u ∈ updates, ¬accepts u n := by
  induction updates with
  | nil => simp [accepted]
  | cons u us ih =>
      rw [List.forall_mem_cons, ← ih, accepted]
      by_cases taken : accepts u n
      · simp [taken]
      · simp [taken]

/-- What an offer does to the registry. -/
structure Offered (n m : Node Payload) : Prop where
  store : m.store = n.store
  definitions : m.registry.definitions = n.registry.definitions
  total : m.registry.Total

theorem Offered.write {g : TaskRegistry Payload} (total : g.Total)
    (definitions : g.definitions = n.registry.definitions)
    (policy : Option AdaptiveTaskPolicyState) :
    Offered n (mergePolicy policy { n with registry := g }) := by
  cases policy with
  | none => exact ⟨rfl, definitions, total⟩
  | some incoming => exact ⟨rfl, definitions, total⟩

theorem getState_error {g : TaskRegistry Payload} (total : g.Total) {k : TaskId} {e : Exn}
    (h : g.getState k = .error e) : e.cls = .keyError := by
  unfold TaskRegistry.getState at h
  split at h
  · cases h
    rfl
  rename_i d registered
  split at h
  · rename_i lost
    have present := total k (by rw [registered]; rfl)
    rw [lost] at present
    cases present
  · cases h

theorem setState_total {g : TaskRegistry Payload} (total : g.Total) (k : TaskId)
    (s : TaskRuntimeState) : (g.setState k s).Total := by
  intro k' registered
  have old := total k' registered
  by_cases here : k' = k
  · simp [TaskRegistry.setState, here]
  · simpa [TaskRegistry.setState, here] using old

theorem getState_setState {g : TaskRegistry Payload} {k : TaskId} {s : TaskRuntimeState}
    (h : g.getState k = .ok s) (t : TaskRuntimeState) : (g.setState k t).getState k = .ok t := by
  unfold TaskRegistry.getState at h ⊢
  cases registered : g.definitions.get? k with
  | none =>
      rw [registered] at h
      cases h
  | some d => simp [TaskRegistry.setState, registered]

theorem offer_ok (total : n.registry.Total) :
    (n.offer u).1 = .ok (accepts u n) ∧ Offered n (n.offer u).2 ∧
      (¬accepts u n → (n.offer u).2 = n) := by
  unfold offer apply TaskRegistry.applyOwnership accepts
  cases read : n.registry.getState u.1 with
  | error e =>
      have unknown := getState_error total read
      simp only [Except.map, unknown, if_true]
      exact ⟨trivial, ⟨rfl, rfl, total⟩, fun _ => trivial⟩
  | ok s =>
      cases fenced : Registry.applyOwnership n.registry.localNodeId u.2 s with
      | none =>
          simp only [Except.map, fenced, Option.map_none]
          exact ⟨rfl, ⟨rfl, rfl, total⟩, fun _ => trivial⟩
      | some t =>
          have total' := setState_total total u.1 t
          simp only [Except.map, fenced, Option.map_some, Option.isSome_some, not_true_eq_false,
            false_implies, and_true]
          by_cases none_ : u.2.artifactDigests.isEmpty
          · rw [if_pos none_]
            exact ⟨rfl, .write total' rfl _⟩
          · rw [if_neg none_]
            simp only [TaskRegistry.setArtifactDigests, getState_setState read, Except.map]
            exact ⟨trivial, .write (setState_total total' _ _) rfl _⟩

theorem repair_ok (total : n.registry.Total) (us : List Update) :
    (n.repair us).outcome = .ok () ∧ (n.repair us).applied = accepted us n ∧
      Offered n (n.repair us).node := by
  induction us generalizing n with
  | nil => exact ⟨rfl, rfl, rfl, rfl, total⟩
  | cons u us ih =>
      obtain ⟨ran, offered, refused⟩ := offer_ok (u := u) total
      cases result : n.offer u with
      | mk outcome m =>
          rw [result] at ran offered refused
          obtain ⟨fine, applied, later⟩ := ih offered.total
          have chain : Offered n (m.repair us).node :=
            ⟨later.store.trans offered.store, later.definitions.trans offered.definitions,
              later.total⟩
          unfold repair accepted
          simp only [result, show outcome = .ok (accepts u n) from ran]
          by_cases taken : accepts u n
          · rw [if_pos taken, if_pos taken]
            exact ⟨fine, by rw [applied], chain⟩
          · rw [if_neg taken, if_neg taken]
            have same : m = n := refused taken
            exact ⟨fine, by rw [applied, same], chain⟩

/-! ## The catalogs -/

variable [DecidableEq Payload]

/-- Every catalog that does not contradict the local one is merged and its runs are registered, and
every update that is accepted in its turn is applied. -/
structure Repaired (catalogs : List (TaskCatalogSnapshot Payload)) (updates : List Update)
    (n : Node Payload) : Prop where
  absorbed : ∀ x ∈ catalogs, Peaceful x (n.runOnce catalogs updates).node →
    Absorbed x (n.runOnce catalogs updates).node
  applied : (n.runOnce catalogs updates).applied =
    accepted updates (n.reconcileCatalog (catalogs.map ({}, ·))).2

/-- Up to the first catalog that contradicts the local one the runs that were known are registered;
and where there is such a catalog, those after it bring nothing and no update is accepted. -/
def Undisturbed (updates : List Update) : List (TaskCatalogSnapshot Payload) → Node Payload → Prop
  | [], _ => True
  | x :: later, n =>
      (Peaceful x n →
        (∀ run ∈ x.runs, .run run ∈ n.catalog.content →
          (n.registry.definitions.get? run.runId).isSome) ∧
        Undisturbed updates later (n.absorb {} x).2) ∧
      (¬Peaceful x n →
        (∀ y ∈ later, Peaceful y (n.absorb {} x).2 → Absorbed y (n.absorb {} x).2) ∧
        ∀ u ∈ updates, ¬accepts u (n.absorb {} x).2)

/-- What the steps of a round rely on. -/
structure Ready (n : Node Payload) : Prop where
  sound : Sound n.store
  faithful : Faithful n
  total : n.registry.Total

/-- `m` comes after `n` in a round: nothing is lost, and what was registered is a new run. -/
structure Later (n m : Node Payload) : Prop where
  within : Catalog.Within n.catalog m.catalog
  kept : ∀ k, (n.registry.definitions.get? k).isSome → (m.registry.definitions.get? k).isSome
  new : ∀ k, (m.registry.definitions.get? k).isSome →
    (n.registry.definitions.get? k).isSome ∨
      n.catalog.runs.get? k = none ∧ (m.catalog.runs.get? k).isSome

omit [DecidableEq Payload] in
omit [DecidableEq Payload] in
theorem Later.trans {o : Node Payload} (h : Later n m) (h' : Later m o) : Later n o where
  within := h.within.trans h'.within
  kept := fun k present => h'.kept k (h.kept k present)
  new := by
    intro k present
    rcases h'.new k present with old | ⟨absent, taken⟩
    · rcases h.new k old with old | ⟨absent, taken⟩
      · exact .inl old
      · obtain ⟨run, found⟩ := Option.isSome_iff_exists.mp taken
        exact .inr ⟨absent, by rw [h'.within.runs found]; rfl⟩
    · exact .inr ⟨h.within.absent absent, taken⟩

omit [DecidableEq Payload] in
theorem Later.of_offered (h : Offered n m) : Later n m where
  within := by
    rw [catalog, catalog, h.store]
    exact .refl _
  kept := by
    rw [h.definitions]
    exact fun _ => id
  new := by
    rw [h.definitions]
    exact fun _ => .inl

theorem absorb_peaceful (ready : Ready n) (unclaimed : Unclaimed snapshot n)
    (peaceful : Peaceful snapshot n) :
    (∃ counts, (n.absorb {} snapshot).1 = .ok counts) ∧ Ready (n.absorb {} snapshot).2 ∧
      Later n (n.absorb {} snapshot).2 ∧
      snapshot.entries ⊆ (n.absorb {} snapshot).2.catalog.content ∧
      ∀ run ∈ snapshot.runs, .run run ∉ n.catalog.content →
        ((n.absorb {} snapshot).2.registry.definitions.get? run.runId).isSome := by
  obtain ⟨added, returned⟩ := mergeSnapshot_ok peaceful
  cases ran : n.store.mergeSnapshot snapshot none with
  | mk result s =>
      rw [ran] at returned
      cases returned
      have merged := merge_of_mergeSnapshot ran
      have store : (n.absorb {} snapshot).2.store = s := by
        rw [absorb_store, ran]
      obtain ⟨fine, registers⟩ :=
        absorb_ok ready.sound.memory ready.faithful unclaimed {} (fun _ => rfl) ran
      have within : Catalog.Within n.catalog s.memory := by
        have grown := Catalog.Within.merge (c := n.catalog) snapshot
        rw [merged] at grown
        exact grown
      have union : s.memory.content = n.catalog.content ∪ snapshot.entries := by
        have grown := Catalog.content_merge (congrArg Prod.fst merged)
        rw [merged] at grown
        exact grown
      have sound := ready.sound.mergeSnapshot snapshot none
      rw [ran] at sound
      refine ⟨fine, ⟨store ▸ sound, registers.faithful, registers.total ready.total⟩,
        ⟨?_, ?_, ?_⟩, ?_, ?_⟩
      · rw [catalog, catalog, store]
        exact within
      · intro k present
        obtain ⟨d, found⟩ := Option.isSome_iff_exists.mp present
        rw [registers.kept k d found]
        rfl
      · intro k present
        rcases registers.new k present with old | ⟨run, member, rfl⟩
        · exact .inl old
        · have found : s.memory.runs.get? run.runId = some run := by
            rw [← Catalog.mem_run, union]
            exact .inr (.inr ⟨run, (reported_run merged member).1, rfl⟩)
          refine .inr ⟨(reported_run merged member).2, ?_⟩
          rw [catalog, store, found]
          rfl
      · rw [catalog, store, union]
        exact Set.subset_union_right
      · intro run member absent
        have there : run ∈ s.memory.runs.values := by
          rw [Catalog.mem_runs_values, union]
          exact .inr (.inr ⟨run, member, rfl⟩)
        rcases reported_or_old merged there with new | old
        · exact registers.registered run new
        · exact absurd (Catalog.mem_runs_values.mp old) absent

/-- One that does is refused; the registry is as before, and the catalog may hold a part of it. -/
theorem absorb_hostile (ready : Ready n) (hostile : ¬Peaceful snapshot n) :
    (∃ e, (n.absorb {} snapshot).1 = .error e) ∧
      ¬Peaceful snapshot (n.absorb {} snapshot).2 ∧ Later n (n.absorb {} snapshot).2 := by
  cases merged : n.catalog.merge snapshot with
  | mk result c =>
      cases result with
      | ok added =>
          have peaceful := (Catalog.merge_ok_iff ready.sound.memory).mp
            ⟨added, congrArg Prod.fst merged⟩
          exact absurd peaceful hostile
      | error e =>
          have ran : n.store.mergeSnapshot snapshot none = _ := mergeSnapshot_error merged
          have within := Catalog.Within.merge (c := n.catalog) snapshot
          have above := n.catalog.merge_bounded snapshot
          rw [merged] at within above
          rw [absorb_error {} ran]
          refine ⟨⟨e, rfl⟩, fun peaceful => hostile ?_, within, fun _ => id, fun _ => .inl⟩
          -- what the merge has left lies between the catalog and the union
          have same : c.content ∪ snapshot.entries = n.catalog.content ∪ snapshot.entries := by
            apply Set.Subset.antisymm
            · exact Set.union_subset above Set.subset_union_right
            · exact Set.union_subset_union_left _ within.content
          have joint : Coherent (c.content ∪ snapshot.entries) := peaceful
          rw [same] at joint
          exact joint

/-! ## A round -/

theorem reconcileCatalog_cons {disk : Disk} {x : TaskCatalogSnapshot Payload}
    {later : List (Disk × TaskCatalogSnapshot Payload)} {counts : Nat × Nat}
    (ran : (n.absorb disk x).1 = .ok counts) :
    n.reconcileCatalog ((disk, x) :: later) =
      (((n.absorb disk x).2.reconcileCatalog later).1.map fun c =>
          (counts.1 + c.1, counts.2 + c.2),
        ((n.absorb disk x).2.reconcileCatalog later).2) := by
  conv_lhs => rw [reconcileCatalog]
  split
  · rename_i failed
    rw [failed] at ran
    cases ran
  · rename_i done
    rw [done] at ran ⊢
    cases ran
    rfl

theorem runOnce_cons {x : TaskCatalogSnapshot Payload} {counts : Nat × Nat}
    (ran : (n.absorb {} x).1 = .ok counts) (catalogs : List (TaskCatalogSnapshot Payload))
    (updates : List Update) :
    (n.runOnce (x :: catalogs) updates).node = ((n.absorb {} x).2.runOnce catalogs updates).node ∧
      (n.runOnce (x :: catalogs) updates).applied =
        ((n.absorb {} x).2.runOnce catalogs updates).applied := by
  unfold runOnce
  rw [List.map_cons, reconcileCatalog_cons ran]
  cases (n.absorb {} x).2.reconcileCatalog (catalogs.map ({}, ·)) with
  | mk result m => cases result <;> exact ⟨rfl, rfl⟩

theorem runOnce_stopped {x : TaskCatalogSnapshot Payload} {e : Exn}
    (ran : (n.absorb {} x).1 = .error e) (catalogs : List (TaskCatalogSnapshot Payload))
    (updates : List Update) :
    n.runOnce (x :: catalogs) updates = ⟨.error e, [], (n.absorb {} x).2⟩ ∧
      (n.reconcileCatalog ((x :: catalogs).map ({}, ·))).2 = (n.absorb {} x).2 := by
  have stopped : n.reconcileCatalog ((x :: catalogs).map ({}, ·)) =
      (.error e, (n.absorb {} x).2) := by
    rw [List.map_cons, reconcileCatalog]
    cases failed : n.absorb {} x with
    | mk result m =>
        rw [failed] at ran
        cases ran
        rfl
  unfold runOnce
  rw [stopped]
  exact ⟨rfl, rfl⟩

omit [DecidableEq Payload] in
theorem Later.unclaimed (later : Later n m) {x : TaskCatalogSnapshot Payload}
    (h : Unclaimed x n) : Unclaimed x m := by
  intro run member absent
  by_contra claimed
  rcases later.new _ (Option.isSome_iff_ne_none.mpr claimed) with old | ⟨-, taken⟩
  · rw [h run member (later.within.absent absent)] at old
    cases old
  · rw [absent] at taken
    cases taken

theorem Ready.absorb_sound (ready : Ready n) (x : TaskCatalogSnapshot Payload) :
    Sound (n.absorb {} x).2.store := by
  rw [absorb_store]
  exact ready.sound.mergeSnapshot x none

theorem later_runOnce (ready : Ready n) (unclaimed : ∀ x ∈ catalogs, Unclaimed x n)
    (updates : List Update) :
    Later n (n.runOnce catalogs updates).node ∧ Sound (n.runOnce catalogs updates).node.store := by
  induction catalogs generalizing n with
  | nil =>
      obtain ⟨-, -, offered⟩ := repair_ok ready.total updates
      refine ⟨.of_offered offered, ?_⟩
      show Sound (n.repair updates).node.store
      rw [offered.store]
      exact ready.sound
  | cons x catalogs ih =>
      obtain ⟨head, rest⟩ := List.forall_mem_cons.mp unclaimed
      by_cases peaceful : Peaceful x n
      · obtain ⟨⟨counts, ran⟩, ready', later, -⟩ := absorb_peaceful ready head peaceful
        obtain ⟨after, sound⟩ := ih ready' fun y member => later.unclaimed (rest y member)
        rw [(runOnce_cons ran catalogs updates).1]
        exact ⟨later.trans after, sound⟩
      · obtain ⟨⟨e, ran⟩, -, later⟩ := absorb_hostile ready peaceful
        rw [(runOnce_stopped ran catalogs updates).1]
        exact ⟨later, ready.absorb_sound x⟩

theorem Ready.repaired_iff (ready : Ready n) (unclaimed : ∀ x ∈ catalogs, Unclaimed x n) :
    Repaired catalogs updates n ↔ Undisturbed updates catalogs n := by
  induction catalogs generalizing n with
  | nil =>
      obtain ⟨-, applied, -⟩ := repair_ok ready.total updates
      simp only [Undisturbed, iff_true]
      exact ⟨by simp, applied⟩
  | cons x catalogs ih =>
      obtain ⟨head, rest⟩ := List.forall_mem_cons.mp unclaimed
      by_cases peaceful : Peaceful x n
      · obtain ⟨⟨counts, ran⟩, ready', later, entries, runs⟩ := absorb_peaceful ready head peaceful
        have step := ih ready' fun y member => later.unclaimed (rest y member)
        obtain ⟨after, sound⟩ :=
          later_runOnce ready' (fun y member => later.unclaimed (rest y member)) updates
        obtain ⟨node, applied_⟩ := runOnce_cons ran catalogs updates
        have left : (n.reconcileCatalog ((x :: catalogs).map ({}, ·))).2 =
            ((n.absorb {} x).2.reconcileCatalog (catalogs.map ({}, ·))).2 := by
          rw [List.map_cons, reconcileCatalog_cons ran]
        have inside := entries.trans after.within.content
        have still : Peaceful x ((n.absorb {} x).2.runOnce catalogs updates).node := by
          unfold Peaceful
          rw [Set.union_eq_self_of_subset_right inside]
          exact sound.memory
        simp only [Undisturbed, peaceful, true_implies, not_true_eq_false, false_implies, and_true]
        rw [← step]
        constructor
        · rintro ⟨absorbed, applied⟩
          rw [node] at absorbed
          rw [applied_, left] at applied
          obtain ⟨first, others⟩ := List.forall_mem_cons.mp absorbed
          refine ⟨fun run member known => ?_, others, applied⟩
          rcases (later.trans after).new _ ((first still).runs run member) with old | ⟨absent, -⟩
          · exact old
          · rw [Catalog.mem_run, absent] at known
            cases known
        · rintro ⟨known, absorbed, applied⟩
          constructor
          · rw [node]
            refine List.forall_mem_cons.mpr ⟨fun _ => ⟨inside, fun run member => ?_⟩, absorbed⟩
            by_cases old : .run run ∈ n.catalog.content
            · exact (later.trans after).kept _ (known run member old)
            · exact after.kept _ (runs run member old)
          · rw [applied_, left]
            exact applied
      · obtain ⟨⟨e, ran⟩, hostile, later⟩ := absorb_hostile ready peaceful
        obtain ⟨stopped, left⟩ := runOnce_stopped ran catalogs updates
        simp only [Undisturbed, peaceful, false_implies, not_false_eq_true, true_implies, true_and]
        rw [← accepted_eq_nil]
        constructor
        · rintro ⟨absorbed, applied⟩
          rw [stopped] at absorbed applied
          rw [left] at applied
          exact ⟨fun y member => absorbed y (List.mem_cons_of_mem _ member), applied.symm⟩
        · rintro ⟨absorbed, applied⟩
          constructor
          · rw [stopped]
            refine List.forall_mem_cons.mpr ⟨fun h => absurd h hostile, absorbed⟩
          · rw [stopped, left]
            exact applied.symm

def samplePeerDefinition (definitionId digest : String) : TaskCatalogSnapshot String where
  reportingNodeId := "b"
  definitions := [
    { definitionId, payload := digest, revision := 1, digest, originNodeId := "b",
      createdAtUtc := 0 }]

/-- The run of the node is now somewhere else. -/
def sampleUpdate : Update := ("q", { ownerNodeId := "b", generation := 1 })

/-- The node with its run registered. -/
def sampleRegistered : Node String := (registerRuns {} sampleNode.catalog.listRuns sampleNode).2

theorem sampleRegistered_ready :
    Faithful sampleRegistered ∧ sampleRegistered.registry.Total := by
  have empty : Faithful sampleNode := by
    intro run member d found
    cases found
  have known : ∀ run ∈ sampleNode.catalog.listRuns, run ∈ sampleNode.catalog.runs.values := by
    decide +kernel
  have writes : ∀ k, ({} : Disk).state k = none := fun _ => rfl
  obtain ⟨-, registers⟩ := registerRuns_ok sampleNode_reached.sound.memory empty writes known
  refine ⟨registers.faithful, registers.total fun k registered => ?_⟩
  cases registered

end Node

end Magellan.Submission
