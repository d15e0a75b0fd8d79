import Magellan.Submission.Operations

/-!
# Identities of the catalog

Records are never changed and never lost while the store runs. A restart loses what a failed merge
or a failed write left in memory only, and with it the revisions that could be read there.
-/

namespace Magellan.Submission

open TaskCatalogStore

variable {Payload : Type} {digests : Digests Payload}

/-- A restart takes place only where the file holds what the memory holds. -/
def Settled (s : TaskCatalogStore Payload) : Operation Payload → Prop
  | .restart => Agrees (load s.file) s.memory
  | _ => True

namespace Catalog

/-- Every record of `c` is in `d`. -/
structure Within (c d : Catalog Payload) : Prop where
  definitions : ∀ {k r}, c.definitions.get? k = some r → d.definitions.get? k = some r
  runs : ∀ {k r}, c.runs.get? k = some r → d.runs.get? k = some r

namespace Within

variable {c d e : Catalog Payload}

theorem refl (c : Catalog Payload) : Within c c := ⟨id, id⟩

theorem trans (h : Within c d) (h' : Within d e) : Within c e :=
  ⟨fun found => h'.definitions (h.definitions found), fun found => h'.runs (h.runs found)⟩

theorem of_agrees (h : Agrees d c) : Within c d :=
  ⟨fun found => (h.1 _).trans found, fun found => (h.2 _).trans found⟩

theorem content (h : Within c d) : c.content ⊆ d.content := by
  intro e member
  cases e with
  | definition i v digest =>
      obtain ⟨r, found, same⟩ := member
      exact ⟨r, h.definitions found, same⟩
  | run r => exact h.runs member

theorem absent (h : Within c d) {k : RunId} (none_ : d.runs.get? k = none) :
    c.runs.get? k = none := by
  rw [Option.eq_none_iff_forall_ne_some]
  intro run found
  have still := h.runs found
  rw [none_] at still
  cases still

theorem addDefinition {r : TaskDefinitionRecord Payload} (new : c.definitions.get? r.key = none) :
    Within c (c.addDefinition r) where
  definitions := by
    intro k r' found
    have other : k ≠ r.key := by
      rintro rfl
      have absent := new.symm.trans found
      cases absent
    simpa [Catalog.addDefinition, other] using found
  runs := id

theorem addRun {r : TaskRunRecord} (new : c.runs.get? r.runId = none) : Within c (c.addRun r) where
  definitions := id
  runs := by
    intro k r' found
    have other : k ≠ r.runId := by
      rintro rfl
      have absent := new.symm.trans found
      cases absent
    simpa [Catalog.addRun, other] using found

theorem mergeDefinition {r : TaskDefinitionRecord Payload}
    (merged : c.mergeDefinition r = .ok (some d)) : Within c d := by
  obtain ⟨absent, rfl⟩ := mergeDefinition_taken merged
  exact addDefinition absent

theorem mergeRun {r : TaskRunRecord} (merged : c.mergeRun r = .ok (some d)) : Within c d := by
  obtain ⟨absent, rfl⟩ := mergeRun_taken merged
  exact addRun absent

theorem merge (snapshot : TaskCatalogSnapshot Payload) : Within c (c.merge snapshot).2 := by
  have first : Within c (c.mergeDefinitions snapshot.definitions).2 :=
    Insertion.relates Within refl trans fun _ _ _ merged => mergeDefinition merged
  cases ran : (c.mergeDefinitions snapshot.definitions).1 with
  | error e =>
      rw [merge_definitions_error ran]
      exact first
  | ok definitions =>
      rw [merge_definitions_ok ran]
      have second : Within (c.mergeDefinitions snapshot.definitions).2
          ((c.mergeDefinitions snapshot.definitions).2.mergeRuns snapshot.runs).2 :=
        Insertion.relates Within refl trans fun _ _ _ merged => mergeRun merged
      exact first.trans second

end Within

end Catalog

/-! ## One operation -/

theorem Operation.within {s : TaskCatalogStore Payload} (op : Operation Payload) (fresh : op.Fresh s)
    (settled : Settled s op) : Catalog.Within s.memory (op.apply digests s).memory := by
  cases op with
  | registerDefinition submission originNodeId now io =>
      show Catalog.Within s.memory (s.registerDefinition digests submission originNodeId now io).2.memory
      unfold TaskCatalogStore.registerDefinition
      split
      · exact .refl _
      dsimp only
      split
      · exact .refl _
      · rw [persist_memory]
        exact .addDefinition (Catalog.next_revision _)
  | createRun submission ownerNodeId originNodeId runId now io =>
      show Catalog.Within s.memory
        (s.createRun digests submission ownerNodeId originNodeId runId now io).2.memory
      unfold TaskCatalogStore.createRun
      dsimp only
      split
      · split_ifs
        · exact .refl _
        · exact .refl _
      split
      · exact .refl _
      · rw [persist_memory]
        exact .addRun fresh
  | mergeSnapshot snapshot io =>
      show Catalog.Within s.memory (s.mergeSnapshot snapshot io).2.memory
      rw [mergeSnapshot_memory]
      exact .merge snapshot
  | restart => exact .of_agrees settled

theorem Reaches.within {s t : TaskCatalogStore Payload} (run : Reaches digests Settled s t) :
    Catalog.Within s.memory t.memory := by
  induction run with
  | refl => exact .refl _
  | step op before fresh allowed ih => exact ih.trans (op.within fresh allowed)

/-! ## Repeated requests -/

/-- The run that a call returns is in the catalog, under the key and the digest of the request. -/
theorem createRun_ok {s : TaskCatalogStore Payload} {submission : TaskRunSubmission}
    {ownerNodeId : NodeId} {originNodeId : Option NodeId} {runId : RunId} {now : Timestamp}
    {io : Option Exn} {run : TaskRunRecord} {created : Bool}
    (h : (s.createRun digests submission ownerNodeId originNodeId runId now io).1 =
      .ok (run, created)) :
    .run run ∈
        (s.createRun digests submission ownerNodeId originNodeId runId now io).2.memory.content ∧
      run.idempotencyKey = submission.idempotencyKey ∧
      run.requestDigest = digests.run submission := by
  unfold TaskCatalogStore.createRun at h ⊢
  dsimp only at h ⊢
  split at h
  · rename_i item found
    split_ifs at h with differs
    cases h
    rw [if_neg differs]
    have key : run.idempotencyKey = submission.idempotencyKey :=
      of_decide_eq_true (List.find?_some (p := fun r : TaskRunRecord =>
        decide (r.idempotencyKey = submission.idempotencyKey)) found)
    exact ⟨Catalog.mem_runs_values.mp (List.mem_of_find?_eq_some found), key, not_not.mp differs⟩
  · split at h
    · cases h
    have same := congrArg Prod.fst (persist_ok h)
    subst same
    refine ⟨?_, rfl, rfl⟩
    rw [persist_memory]
    simp [Catalog.mem_run, Catalog.addRun]

/-- A key that is in use decides the call: the same request returns the run there is, any other
one raises, and nothing changes. -/
theorem createRun_known {t : TaskCatalogStore Payload} (coherent : Coherent t.memory.content)
    {run : TaskRunRecord} (member : .run run ∈ t.memory.content) {again : TaskRunSubmission}
    (key : run.idempotencyKey = again.idempotencyKey) (ownerNodeId : NodeId)
    (originNodeId : Option NodeId) (runId : RunId) (now : Timestamp) (io : Option Exn) :
    t.createRun digests again ownerNodeId originNodeId runId now io =
      if run.requestDigest ≠ digests.run again then
        (.error (valueError "Idempotency key was already used with a different request"), t)
      else (.ok (run, false), t) := by
  unfold TaskCatalogStore.createRun
  dsimp only
  split
  · rename_i item found
    have same : item.idempotencyKey = again.idempotencyKey :=
      of_decide_eq_true (List.find?_some (p := fun r : TaskRunRecord =>
        decide (r.idempotencyKey = again.idempotencyKey)) found)
    have present : .run item ∈ t.memory.content :=
      Catalog.mem_runs_values.mp (List.mem_of_find?_eq_some found)
    have id : item.runId = run.runId := coherent.key present member (same.trans key.symm)
    rw [coherent.run present member id]
  · rename_i unused
    have absent := List.find?_eq_none.mp unused run (Catalog.mem_runs_values.mpr member)
    exact absurd (decide_eq_true key) absent

theorem registerDefinition_ok {s : TaskCatalogStore Payload}
    {submission : TaskDefinitionSubmission Payload} {originNodeId : Option NodeId}
    {now : Timestamp} {io : Option Exn} {r : TaskDefinitionRecord Payload} {created : Bool}
    (h : (s.registerDefinition digests submission originNodeId now io).1 = .ok (r, created)) :
    (s.registerDefinition digests submission originNodeId now io).2.memory.definitions.get? r.key =
        some r ∧
      r.definitionId = submission.definitionId ∧ digests.definition submission = .ok r.digest := by
  unfold TaskCatalogStore.registerDefinition at h ⊢
  split at h
  · cases h
  rename_i digest canonical
  dsimp only at h ⊢
  split at h
  · rename_i item found
    cases h
    have same : r.digest = digest :=
      of_decide_eq_true (List.find?_some (p := fun r : TaskDefinitionRecord Payload =>
        decide (r.digest = digest)) found)
    obtain ⟨value, name⟩ := List.mem_filter.mp (List.mem_of_find?_eq_some found)
    exact ⟨Catalog.mem_definitions_values.mp value, of_decide_eq_true name, same ▸ canonical⟩
  · have same := congrArg Prod.fst (persist_ok h)
    subst same
    refine ⟨?_, rfl, canonical⟩
    rw [persist_memory]
    simp [Catalog.addDefinition]

/-- Content that has a revision gets no second one. -/
theorem registerDefinition_known {t : TaskCatalogStore Payload} {r : TaskDefinitionRecord Payload}
    (present : t.memory.definitions.get? r.key = some r)
    {submission : TaskDefinitionSubmission Payload} (name : r.definitionId = submission.definitionId)
    (canonical : digests.definition submission = .ok r.digest) (originNodeId : Option NodeId)
    (now : Timestamp) (io : Option Exn) :
    ∃ held, t.registerDefinition digests submission originNodeId now io = (.ok (held, false), t) ∧
      held.definitionId = submission.definitionId ∧ held.digest = r.digest := by
  unfold TaskCatalogStore.registerDefinition
  rw [canonical]
  dsimp only
  split
  · rename_i held found
    have same : held.digest = r.digest :=
      of_decide_eq_true (List.find?_some (p := fun item : TaskDefinitionRecord Payload =>
        decide (item.digest = r.digest)) found)
    obtain ⟨-, name'⟩ := List.mem_filter.mp (List.mem_of_find?_eq_some found)
    exact ⟨held, rfl, of_decide_eq_true name', same⟩
  · rename_i unused
    have candidate : r ∈ t.memory.candidates submission.definitionId :=
      List.mem_filter.mpr ⟨Catalog.mem_definitions_values.mpr present, decide_eq_true name⟩
    exact absurd (decide_eq_true rfl) (List.find?_eq_none.mp unused r candidate)

/-! ## Identities over a run -/

/-- Every run refers to a definition that is there with its digest, and no two runs share a key. -/
structure Referenced (c : Catalog Payload) : Prop where
  definition : ∀ run ∈ c.runs.values, ∃ r,
    c.getDefinition run.definitionId (some run.revision) = .ok r ∧ r.digest = run.definitionDigest
  key : ∀ run ∈ c.runs.values, ∀ run' ∈ c.runs.values,
    run.idempotencyKey = run'.idempotencyKey → run = run'

/-- What holds from `s` on: a revision that can be read keeps its content, a request that returned
a run returns it again, one with the same key and another digest raises without a change, and
content that was registered gets no second revision. -/
structure Permanent (digests : Digests Payload) (s : TaskCatalogStore Payload) : Prop where
  content : ∀ i v r, s.memory.getDefinition i (some v) = .ok r →
    ∀ t, Reaches digests Settled s t → t.memory.getDefinition i (some v) = .ok r
  run : ∀ submission ownerNodeId originNodeId runId now io run created,
    s.memory.runs.get? runId = none →
    (s.createRun digests submission ownerNodeId originNodeId runId now io).1 = .ok (run, created) →
    ∀ t, Reaches digests Settled
        (s.createRun digests submission ownerNodeId originNodeId runId now io).2 t →
      ∀ again ownerNodeId originNodeId runId now io,
        again.idempotencyKey = submission.idempotencyKey →
        (again = submission →
          t.createRun digests again ownerNodeId originNodeId runId now io =
            (.ok (run, false), t)) ∧
        (digests.run again ≠ digests.run submission →
          ∃ e, t.createRun digests again ownerNodeId originNodeId runId now io = (.error e, t))
  definition : ∀ submission originNodeId now io r created,
    (s.registerDefinition digests submission originNodeId now io).1 = .ok (r, created) →
    ∀ t, Reaches digests Settled
        (s.registerDefinition digests submission originNodeId now io).2 t →
      ∀ originNodeId now io, ∃ held,
        t.registerDefinition digests submission originNodeId now io = (.ok (held, false), t) ∧
          held.definitionId = submission.definitionId ∧ held.digest = r.digest

theorem Sound.referenced {s : TaskCatalogStore Payload} (h : Sound s) : Referenced s.memory where
  definition := by
    intro run member
    obtain ⟨r, found, digest⟩ := h.memory.closed (Catalog.mem_runs_values.mp member)
    exact ⟨r, Catalog.getDefinition_some.mpr found, digest⟩
  key := by
    intro run member run' member' same
    have one := Catalog.mem_runs_values.mp member
    have two := Catalog.mem_runs_values.mp member'
    exact h.memory.run one two (h.memory.key one two same)

theorem Sound.permanent {s : TaskCatalogStore Payload} (h : Sound s) : Permanent digests s where
  content := by
    intro i v r found t later
    rw [Catalog.getDefinition_some] at found ⊢
    exact later.within.definitions found
  run := by
    intro submission ownerNodeId originNodeId runId now io run created fresh called t later
      again ownerNodeId' originNodeId' runId' now' io' key
    obtain ⟨member, name, digest⟩ := createRun_ok called
    have sound : Sound t :=
      (h.createRun submission ownerNodeId originNodeId runId now io fresh).reaches later
    have still : .run run ∈ t.memory.content := later.within.runs member
    rw [createRun_known sound.memory still (name.trans key.symm), digest]
    constructor
    · rintro rfl
      exact if_neg (not_not.mpr rfl)
    · intro differs
      exact ⟨_, if_pos differs.symm⟩
  definition := by
    intro submission originNodeId now io r created called t later originNodeId' now' io'
    obtain ⟨present, name, canonical⟩ := registerDefinition_ok called
    exact registerDefinition_known (later.within.definitions present) name canonical _ _ _

/-- References and keys hold in every state that is reached, and identities are permanent in every
run whose restarts find on disk what was in memory. -/
theorem identities_kept (digests : Digests Payload) (localNodeId : NodeId) :
    (∀ s, Reached digests s → Referenced s.memory) ∧
      ∀ s, Reaches digests Settled (new localNodeId) s → Permanent digests s := by
  constructor
  · intro s reached
    exact reached.sound.referenced
  · intro s run
    exact ((Sound.new localNodeId).reaches run).permanent

/-! A failed merge, a restart, and other content at the revision that could be read. -/

def sampleDigests : Digests String := ⟨fun submission => .ok submission.payload, (·.idempotencyKey)⟩

/-- A peer's catalog: a new definition `d`, and an `e` that is not the local one. -/
def sampleRival : TaskCatalogSnapshot String where
  reportingNodeId := "b"
  definitions := [
    { definitionId := "d", payload := "x", revision := 1, digest := "x", originNodeId := "b",
      createdAtUtc := 0 },
    { definitionId := "e", payload := "y", revision := 1, digest := "y", originNodeId := "b",
      createdAtUtc := 0 }]

def sampleSubmit (definitionId payload : String) : Operation String :=
  .registerDefinition { definitionId, payload } none 0 none

/-- Where the merge has failed. -/
def sampleMerged : TaskCatalogStore String :=
  (Operation.mergeSnapshot sampleRival none).apply sampleDigests
    ((sampleSubmit "e" "z").apply sampleDigests (new "a"))

/-- After the restart and another submission of `d`. -/
def sampleRestarted : TaskCatalogStore String :=
  (sampleSubmit "d" "w").apply sampleDigests (Operation.restart.apply sampleDigests sampleMerged)

theorem content_changed :
    Reaches sampleDigests (fun _ _ => True) (new "a") sampleMerged ∧
      Reaches sampleDigests (fun _ _ => True) sampleMerged sampleRestarted ∧
      (sampleMerged.memory.getDefinition "d" (some 1)).map (·.digest) = .ok "x" ∧
      (sampleRestarted.memory.getDefinition "d" (some 1)).map (·.digest) = .ok "w" := by
  refine ⟨?_, ?_, by decide +kernel, by decide +kernel⟩
  · refine .step (.mergeSnapshot sampleRival none) ?_ trivial trivial
    exact .step (sampleSubmit "e" "z") .refl trivial trivial
  · refine .step (sampleSubmit "d" "w") ?_ trivial trivial
    exact .step .restart .refl trivial trivial

end Magellan.Submission
