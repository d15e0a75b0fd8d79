import Magellan.Submission.Catalog

/-!
# What a catalog says

A catalog stands for the set of its entries: which digest a revision has, and which runs there are.
A merge adds the entries of the snapshot, and it goes through exactly when the entries together are
coherent.
-/

namespace Magellan.Submission

variable {Payload : Type}

inductive Entry where
  | definition (definitionId : DefinitionId) (revision : Nat) (digest : Digest)
  | run (record : TaskRunRecord)

/-- No two definitions share a revision, no two runs an id or an idempotency key, and every run
refers to a definition that is there with its digest. -/
structure Coherent (u : Set Entry) : Prop where
  definition : ∀ {i v d d'}, .definition i v d ∈ u → .definition i v d' ∈ u → d = d'
  run : ∀ {r r' : TaskRunRecord}, .run r ∈ u → .run r' ∈ u → r.runId = r'.runId → r = r'
  key : ∀ {r r' : TaskRunRecord}, .run r ∈ u → .run r' ∈ u →
    r.idempotencyKey = r'.idempotencyKey → r.runId = r'.runId
  closed : ∀ {r : TaskRunRecord}, .run r ∈ u →
    .definition r.definitionId r.revision r.definitionDigest ∈ u

theorem Coherent.insert_definition {u : Set Entry} (h : Coherent u) {i : DefinitionId} {v : Nat}
    {d : Digest} (agree : ∀ d', .definition i v d' ∈ u → d = d') :
    Coherent (insert (.definition i v d) u) where
  definition := by
    rintro i' v' d₁ d₂ (one | one) (two | two)
    · cases one
      cases two
      rfl
    · cases one
      exact agree _ two
    · cases two
      exact (agree _ one).symm
    · exact h.definition one two
  run := fun one two => h.run (one.resolve_left (by simp)) (two.resolve_left (by simp))
  key := fun one two => h.key (one.resolve_left (by simp)) (two.resolve_left (by simp))
  closed := fun one => .inr (h.closed (one.resolve_left (by simp)))

theorem Coherent.insert_run {u : Set Entry} (h : Coherent u) {r : TaskRunRecord}
    (id : ∀ r', .run r' ∈ u → r'.runId = r.runId → r' = r)
    (key : ∀ r', .run r' ∈ u → r'.idempotencyKey = r.idempotencyKey → r'.runId = r.runId)
    (reference : .definition r.definitionId r.revision r.definitionDigest ∈ u) :
    Coherent (insert (.run r) u) where
  definition := fun one two =>
    h.definition (one.resolve_left (by simp)) (two.resolve_left (by simp))
  run := by
    rintro r₁ r₂ (one | one) (two | two) same
    · cases one
      cases two
      rfl
    · cases one
      exact (id r₂ two same.symm).symm
    · cases two
      exact id r₁ one same
    · exact h.run one two same
  key := by
    rintro r₁ r₂ (one | one) (two | two) same
    · cases one
      cases two
      rfl
    · cases one
      exact (key r₂ two same.symm).symm
    · cases two
      exact key r₁ one same
    · exact h.key one two same
  closed := by
    rintro r' (one | one)
    · cases one
      exact .inr reference
    · exact .inr (h.closed one)

def TaskDefinitionRecord.entry (r : TaskDefinitionRecord Payload) : Entry :=
  .definition r.definitionId r.revision r.digest

def TaskCatalogSnapshot.entries (snapshot : TaskCatalogSnapshot Payload) : Set Entry :=
  {e | (∃ r ∈ snapshot.definitions, r.entry = e) ∨ ∃ r ∈ snapshot.runs, .run r = e}

namespace Catalog

variable {c : Catalog Payload}

def content (c : Catalog Payload) : Set Entry
  | .definition definitionId revision digest =>
      ∃ r, c.definitions.get? (definitionId, revision) = some r ∧ r.digest = digest
  | .run r => c.runs.get? r.runId = some r

theorem mem_definition {i : DefinitionId} {v : Nat} {d : Digest} :
    .definition i v d ∈ c.content ↔
      ∃ r, c.definitions.get? (i, v) = some r ∧ r.digest = d :=
  Iff.rfl

theorem mem_run {r : TaskRunRecord} : .run r ∈ c.content ↔ c.runs.get? r.runId = some r := Iff.rfl

theorem key_eq {k : DefinitionId × Nat} {r : TaskDefinitionRecord Payload}
    (h : c.definitions.get? k = some r) : r.key = k :=
  c.definitionKeys (k, r) (Dict.mem_entries_iff.mpr h)

theorem runId_eq {k : RunId} {r : TaskRunRecord} (h : c.runs.get? k = some r) : r.runId = k :=
  c.runKeys (k, r) (Dict.mem_entries_iff.mpr h)

theorem mem_runs_values {r : TaskRunRecord} : r ∈ c.runs.values ↔ .run r ∈ c.content := by
  rw [Dict.mem_values_iff, mem_run]
  constructor
  · rintro ⟨k, found⟩
    rw [runId_eq found]
    exact found
  · intro found
    exact ⟨r.runId, found⟩

theorem mem_definitions_values {r : TaskDefinitionRecord Payload} :
    r ∈ c.definitions.values ↔ c.definitions.get? r.key = some r := by
  rw [Dict.mem_values_iff]
  constructor
  · rintro ⟨k, found⟩
    rw [key_eq found]
    exact found
  · intro found
    exact ⟨r.key, found⟩

theorem latest_eq_none {l : List (TaskDefinitionRecord Payload)} : latest l = none ↔ l = [] := by
  cases l with
  | nil => exact ⟨fun _ => rfl, fun _ => rfl⟩
  | cons r rs => exact ⟨fun h => by simp [latest] at h, fun h => by cases h⟩

theorem getDefinition_some {i : DefinitionId} {v : Nat} {r : TaskDefinitionRecord Payload} :
    c.getDefinition i (some v) = .ok r ↔ c.definitions.get? (i, v) = some r := by
  cases newest : latest (c.candidates i) with
  | none =>
      have absent : c.definitions.get? (i, v) ≠ some r := by
        intro found
        have name : r.definitionId = i := congrArg Prod.fst (key_eq found)
        have value : r ∈ c.definitions.values := Dict.mem_values_iff.mpr ⟨_, found⟩
        have candidate : r ∈ c.candidates i :=
          List.mem_filter.mpr ⟨value, decide_eq_true name⟩
        rw [latest_eq_none.mp newest] at candidate
        cases candidate
      simp [getDefinition, newest, absent]
  | some last =>
      cases found : c.definitions.get? (i, v) with
      | none => simp [getDefinition, newest, found]
      | some r' => simp [getDefinition, newest, found]

/-! ## One entry -/

theorem content_addDefinition {r : TaskDefinitionRecord Payload}
    (new : c.definitions.get? r.key = none) :
    (c.addDefinition r).content = insert r.entry c.content := by
  ext e
  cases e with
  | definition i v d =>
      rw [Set.mem_insert_iff, mem_definition, mem_definition]
      simp only [addDefinition, Dict.get?_set, TaskDefinitionRecord.entry, Entry.definition.injEq]
      by_cases same : (i, v) = r.key
      · obtain ⟨rfl, rfl⟩ := Prod.mk.inj same
        rw [if_pos same, same, new]
        simp [eq_comm]
      · rw [if_neg same]
        have other : ¬(i = r.definitionId ∧ v = r.revision ∧ d = r.digest) := by
          rintro ⟨rfl, rfl, -⟩
          exact same rfl
        simp [other]
  | run r' =>
      rw [Set.mem_insert_iff]
      exact ⟨.inr, fun h => h.resolve_left (by simp [TaskDefinitionRecord.entry])⟩

theorem content_addRun {r : TaskRunRecord} (new : c.runs.get? r.runId = none) :
    (c.addRun r).content = insert (.run r) c.content := by
  ext e
  cases e with
  | definition i v d =>
      rw [Set.mem_insert_iff]
      exact ⟨.inr, fun h => h.resolve_left (by simp)⟩
  | run r' =>
      rw [Set.mem_insert_iff, mem_run, mem_run]
      simp only [addRun, Dict.get?_set, Entry.run.injEq]
      by_cases same : r'.runId = r.runId
      · rw [if_pos same, same, new]
        simp [eq_comm]
      · have other : r' ≠ r := fun h => same (congrArg _ h)
        simp [same, other]

theorem mergeDefinition_taken {r : TaskDefinitionRecord Payload} {t : Catalog Payload}
    (h : c.mergeDefinition r = .ok (some t)) :
    c.definitions.get? r.key = none ∧ t = c.addDefinition r := by
  unfold mergeDefinition at h
  split at h
  · split_ifs at h
    cases h
  · rename_i absent
    cases h
    exact ⟨absent, rfl⟩

theorem mergeRun_taken {r : TaskRunRecord} {t : Catalog Payload}
    (h : c.mergeRun r = .ok (some t)) : c.runs.get? r.runId = none ∧ t = c.addRun r := by
  unfold mergeRun at h
  split_ifs at h
  split at h
  · split_ifs at h
    cases h
  · rename_i absent
    split at h
    · cases h
    split_ifs at h
    cases h
    exact ⟨absent, rfl⟩

theorem mergeDefinition_ok {r : TaskDefinitionRecord Payload} {new : Option (Catalog Payload)}
    (h : c.mergeDefinition r = .ok new) : (new.getD c).content = insert r.entry c.content := by
  unfold mergeDefinition at h
  split at h
  · rename_i held found
    split_ifs at h with differs
    cases h
    have old : r.entry ∈ c.content := ⟨held, found, not_not.mp differs⟩
    exact (Set.insert_eq_of_mem old).symm
  · cases h
    exact content_addDefinition ‹_›

theorem mergeRun_ok {r : TaskRunRecord} {new : Option (Catalog Payload)}
    (h : c.mergeRun r = .ok new) :
    (new.getD c).content = insert (.run r) c.content ∧
      (∀ r', .run r' ∈ c.content → r'.idempotencyKey = r.idempotencyKey → r'.runId = r.runId) ∧
      (new ≠ none → c.runs.get? r.runId = none ∧
        .definition r.definitionId r.revision r.definitionDigest ∈ c.content) := by
  unfold mergeRun at h
  split_ifs at h with clash
  have keys (r' : TaskRunRecord) (member : .run r' ∈ c.content)
      (same : r'.idempotencyKey = r.idempotencyKey) : r'.runId = r.runId := by
    by_contra other
    refine clash (List.any_eq_true.mpr ⟨r', mem_runs_values.mpr member, ?_⟩)
    simp [same, other]
  refine ⟨?_, keys, ?_⟩
  · split at h
    · rename_i held found
      split_ifs at h with differs
      cases h
      rw [not_not] at differs
      subst differs
      have old : Entry.run held ∈ c.content := found
      exact (Set.insert_eq_of_mem old).symm
    · split at h
      · cases h
      split_ifs at h
      cases h
      exact content_addRun ‹_›
  · intro added
    split at h
    · split_ifs at h
      cases h
      exact absurd rfl added
    · rename_i absent
      refine ⟨absent, ?_⟩
      split at h
      · cases h
      rename_i definition found
      split_ifs at h with differs
      exact ⟨definition, getDefinition_some.mp found, not_not.mp differs⟩

/-! ## Coherence -/

theorem coherent_addDefinition (h : Coherent c.content) {r : TaskDefinitionRecord Payload}
    (new : c.definitions.get? r.key = none) : Coherent (c.addDefinition r).content := by
  rw [content_addDefinition new]
  apply h.insert_definition
  rintro d ⟨held, found, -⟩
  have absent := new.symm.trans found
  cases absent

theorem mergeDefinition_coherent (h : Coherent c.content) {r : TaskDefinitionRecord Payload}
    {t : Catalog Payload} (merged : c.mergeDefinition r = .ok (some t)) : Coherent t.content := by
  obtain ⟨absent, rfl⟩ := mergeDefinition_taken merged
  exact coherent_addDefinition h absent

theorem mergeRun_coherent (h : Coherent c.content) {r : TaskRunRecord} {t : Catalog Payload}
    (merged : c.mergeRun r = .ok (some t)) : Coherent t.content := by
  obtain ⟨grown, keys, fresh⟩ := mergeRun_ok merged
  obtain ⟨absent, reference⟩ := fresh (by simp)
  have same : t.content = insert (.run r) c.content := grown
  rw [same]
  apply h.insert_run _ keys reference
  intro r' member id
  rw [mem_run, id, absent] at member
  cases member

theorem mergeDefinition_of_coherent {u : Set Entry} (h : Coherent u) (sub : c.content ⊆ u)
    {r : TaskDefinitionRecord Payload} (member : r.entry ∈ u) :
    ∃ new, c.mergeDefinition r = .ok new := by
  unfold mergeDefinition
  split
  · rename_i held found
    have old : .definition r.definitionId r.revision held.digest ∈ c.content := ⟨held, found, rfl⟩
    have same : held.digest = r.digest := h.definition (sub old) member
    exact ⟨none, if_neg (not_not.mpr same)⟩
  · exact ⟨_, rfl⟩

theorem mergeRun_of_coherent {u : Set Entry} (h : Coherent u) (sub : c.content ⊆ u)
    {r : TaskRunRecord} (member : .run r ∈ u)
    (reference : .definition r.definitionId r.revision r.definitionDigest ∈ c.content) :
    ∃ new, c.mergeRun r = .ok new := by
  have free : ¬(c.runs.values.any fun existing =>
      existing.idempotencyKey = r.idempotencyKey ∧ existing.runId ≠ r.runId) := by
    intro clash
    obtain ⟨r', value, found⟩ := List.any_eq_true.mp clash
    obtain ⟨same, other⟩ := of_decide_eq_true found
    exact other (h.key (sub (mem_runs_values.mp value)) member same)
  obtain ⟨definition, found, digest⟩ := reference
  unfold mergeRun
  rw [if_neg free]
  split
  · rename_i held present
    have old : .run held ∈ c.content := by
      rw [mem_run, runId_eq present]
      exact present
    have same : held = r := h.run (sub old) member (runId_eq present)
    exact ⟨none, if_neg (not_not.mpr same)⟩
  · rw [getDefinition_some.mpr found]
    exact ⟨_, if_neg (not_not.mpr digest)⟩

/-! ## A snapshot -/

variable {snapshot : TaskCatalogSnapshot Payload}

theorem mergeDefinitions_coherent (h : Coherent c.content)
    (l : List (TaskDefinitionRecord Payload)) : Coherent (c.mergeDefinitions l).2.content := by
  unfold mergeDefinitions
  apply Insertion.keeps fun c : Catalog Payload => Coherent c.content
  · intro r c t coherent merged
    exact mergeDefinition_coherent coherent merged
  · exact h

theorem mergeRuns_coherent (h : Coherent c.content) (l : List TaskRunRecord) :
    Coherent (c.mergeRuns l).2.content := by
  unfold mergeRuns
  apply Insertion.keeps fun c : Catalog Payload => Coherent c.content
  · intro r c t coherent merged
    exact mergeRun_coherent coherent merged
  · exact h

theorem content_mergeDefinitions {l added : List (TaskDefinitionRecord Payload)}
    (ran : (c.mergeDefinitions l).1 = .ok added) (e : Entry) :
    e ∈ (c.mergeDefinitions l).2.content ↔ e ∈ c.content ∨ ∃ r ∈ l, r.entry = e := by
  unfold mergeDefinitions at ran ⊢
  apply Insertion.adds content TaskDefinitionRecord.entry _ ran
  intro r c new merged
  exact mergeDefinition_ok merged

theorem content_mergeRuns {l added : List TaskRunRecord} (ran : (c.mergeRuns l).1 = .ok added)
    (e : Entry) : e ∈ (c.mergeRuns l).2.content ↔ e ∈ c.content ∨ ∃ r ∈ l, .run r = e := by
  unfold mergeRuns at ran ⊢
  apply Insertion.adds content Entry.run _ ran
  intro r c new merged
  exact (mergeRun_ok merged).1

theorem merge_definitions_error {e : Exn} (h : (c.mergeDefinitions snapshot.definitions).1 = .error e) :
    c.merge snapshot = (.error e, (c.mergeDefinitions snapshot.definitions).2) := by
  unfold merge
  split
  · rename_i e' d ran
    rw [ran] at h ⊢
    cases h
    rfl
  · rename_i definitions d ran
    rw [ran] at h
    cases h

theorem merge_definitions_ok {definitions : List (TaskDefinitionRecord Payload)}
    (h : (c.mergeDefinitions snapshot.definitions).1 = .ok definitions) :
    c.merge snapshot =
      (((c.mergeDefinitions snapshot.definitions).2.mergeRuns snapshot.runs).1.map
          (definitions, ·),
        ((c.mergeDefinitions snapshot.definitions).2.mergeRuns snapshot.runs).2) := by
  unfold merge
  split
  · rename_i e d ran
    rw [ran] at h
    cases h
  · rename_i definitions' d ran
    rw [ran] at h ⊢
    cases h
    cases second : d.mergeRuns snapshot.runs with
    | mk result d' => cases result <;> rfl

theorem merge_coherent (h : Coherent c.content) : Coherent (c.merge snapshot).2.content := by
  have first := mergeDefinitions_coherent h snapshot.definitions
  cases ran : (c.mergeDefinitions snapshot.definitions).1 with
  | error e =>
      rw [merge_definitions_error ran]
      exact first
  | ok definitions =>
      rw [merge_definitions_ok ran]
      exact mergeRuns_coherent first snapshot.runs

/-- A merge that goes through adds the entries of the snapshot. -/
theorem content_merge {added : List (TaskDefinitionRecord Payload) × List TaskRunRecord}
    (ran : (c.merge snapshot).1 = .ok added) :
    (c.merge snapshot).2.content = c.content ∪ snapshot.entries := by
  cases first : (c.mergeDefinitions snapshot.definitions).1 with
  | error e =>
      rw [merge_definitions_error first] at ran
      cases ran
  | ok definitions =>
      rw [merge_definitions_ok first] at ran ⊢
      cases second : ((c.mergeDefinitions snapshot.definitions).2.mergeRuns snapshot.runs).1 with
      | error e =>
          rw [second] at ran
          cases ran
      | ok runs =>
          ext e
          rw [content_mergeRuns second, content_mergeDefinitions first, or_assoc]
          rfl

/-- A merge goes through where the entries together are coherent. -/
theorem merge_of_coherent (h : Coherent (c.content ∪ snapshot.entries)) :
    ∃ added, (c.merge snapshot).1 = .ok added := by
  have first : ∃ definitions, (c.mergeDefinitions snapshot.definitions).1 = .ok definitions := by
    unfold mergeDefinitions
    apply Insertion.succeeds fun r c' => c'.content ⊆ c.content ∪ snapshot.entries ∧
      r.entry ∈ c.content ∪ snapshot.entries
    · intro r c' fits
      exact mergeDefinition_of_coherent h fits.1 fits.2
    · intro r r' c' t fits other merged
      have grown : t.content = insert r.entry c'.content := mergeDefinition_ok merged
      rw [grown]
      exact ⟨Set.insert_subset fits.2 fits.1, other.2⟩
    · intro r member
      exact ⟨Set.subset_union_left, .inr (.inl ⟨r, member, rfl⟩)⟩
  obtain ⟨definitions, ran⟩ := first
  have middle := content_mergeDefinitions ran
  rw [merge_definitions_ok ran]
  suffices second : ∃ runs,
      ((c.mergeDefinitions snapshot.definitions).2.mergeRuns snapshot.runs).1 = .ok runs by
    obtain ⟨runs, ran'⟩ := second
    exact ⟨(definitions, runs), by rw [ran']; rfl⟩
  unfold mergeRuns
  apply Insertion.succeeds fun r c' => c'.content ⊆ c.content ∪ snapshot.entries ∧
    .run r ∈ c.content ∪ snapshot.entries ∧
    .definition r.definitionId r.revision r.definitionDigest ∈ c'.content
  · intro r c' fits
    exact mergeRun_of_coherent h fits.1 fits.2.1 fits.2.2
  · intro r r' c' t fits other merged
    have grown : t.content = insert (.run r) c'.content := (mergeRun_ok merged).1
    rw [grown]
    exact ⟨Set.insert_subset fits.2.1 fits.1, other.2.1, .inr other.2.2⟩
  · intro r member
    refine ⟨?_, .inr (.inr ⟨r, member, rfl⟩), ?_⟩
    · intro e inside
      rcases (middle e).mp inside with old | new
      · exact .inl old
      · exact .inr (.inl new)
    · -- a run refers to an entry of the union, and the runs of the snapshot define nothing
      apply (middle _).mpr
      have run : Entry.run r ∈ c.content ∪ snapshot.entries := .inr (.inr ⟨r, member, rfl⟩)
      rcases h.closed run with old | new | ⟨r', -, other⟩
      · exact .inl old
      · exact .inr new
      · cases other

/-- A merge into a coherent catalog goes through exactly where the entries together are
coherent. -/
theorem merge_ok_iff (h : Coherent c.content) :
    (∃ added, (c.merge snapshot).1 = .ok added) ↔ Coherent (c.content ∪ snapshot.entries) := by
  constructor
  · rintro ⟨added, ran⟩
    rw [← content_merge ran]
    exact merge_coherent h
  · exact merge_of_coherent

end Catalog

end Magellan.Submission
