import Magellan.Submission.Operations

/-!
# Merging the catalogs of the peers

Catalogs that do not contradict each other are merged to their union, in any order and any number
of times. A merge that does meet a contradiction leaves what it had inserted before.
-/

namespace Magellan.Submission

open TaskCatalogStore

variable {Payload : Type}

/-- No entry of `u` contradicts one of `v`. -/
structure ConflictFree (u v : Set Entry) : Prop where
  definition : ∀ {i n d d'}, .definition i n d ∈ u → .definition i n d' ∈ v → d = d'
  run : ∀ {r r' : TaskRunRecord}, .run r ∈ u → .run r' ∈ v → r.runId = r'.runId → r = r'
  key : ∀ {r r' : TaskRunRecord}, .run r ∈ u → .run r' ∈ v →
    r.idempotencyKey = r'.idempotencyKey → r.runId = r'.runId

/-- The runs refer to definitions that are there with their digests. -/
def Closed (u : Set Entry) : Prop :=
  ∀ r : TaskRunRecord, .run r ∈ u → .definition r.definitionId r.revision r.definitionDigest ∈ u

theorem ConflictFree.union {u v w : Set Entry} (h : ConflictFree u w) (h' : ConflictFree v w) :
    ConflictFree (u ∪ v) w where
  definition := by
    rintro i n d d' (one | one) two
    · exact h.definition one two
    · exact h'.definition one two
  run := by
    rintro r r' (one | one) two
    · exact h.run one two
    · exact h'.run one two
  key := by
    rintro r r' (one | one) two
    · exact h.key one two
    · exact h'.key one two

theorem Coherent.union {u v : Set Entry} (h : Coherent u) (cross : ConflictFree u v)
    (self : ConflictFree v v) (closed : Closed v) : Coherent (u ∪ v) where
  definition := by
    rintro i n d d' (one | one) (two | two)
    · exact h.definition one two
    · exact cross.definition one two
    · exact (cross.definition two one).symm
    · exact self.definition one two
  run := by
    rintro r r' (one | one) (two | two) same
    · exact h.run one two same
    · exact cross.run one two same
    · exact (cross.run two one same.symm).symm
    · exact self.run one two same
  key := by
    rintro r r' (one | one) (two | two) same
    · exact h.key one two same
    · exact cross.key one two same
    · exact (cross.key two one same.symm).symm
    · exact self.key one two same
  closed := by
    rintro r (one | one)
    · exact .inl (h.closed one)
    · exact .inr (closed r one)

/-- The snapshots one after another, up to the first that fails. -/
def mergeEach : List (TaskCatalogSnapshot Payload) → TaskCatalogStore Payload →
    Except Exn Unit × TaskCatalogStore Payload
  | [], s => (.ok (), s)
  | snapshot :: later, s =>
      match s.mergeSnapshot snapshot none with
      | (.error e, s) => (.error e, s)
      | (.ok _, s) => mergeEach later s

variable {s : TaskCatalogStore Payload} {snapshot : TaskCatalogSnapshot Payload}

theorem mergeSnapshot_ok (h : Coherent (s.memory.content ∪ snapshot.entries)) :
    ∃ added, (s.mergeSnapshot snapshot none).1 = .ok added := by
  obtain ⟨added, ran⟩ := Catalog.merge_of_coherent h
  unfold TaskCatalogStore.mergeSnapshot
  split
  · rename_i e c failed
    rw [failed] at ran
    cases ran
  · exact ⟨_, rfl⟩
  · exact ⟨_, rfl⟩

theorem content_mergeSnapshot (h : Coherent (s.memory.content ∪ snapshot.entries))
    (io : Option Exn) :
    (s.mergeSnapshot snapshot io).2.memory.content = s.memory.content ∪ snapshot.entries := by
  obtain ⟨added, ran⟩ := Catalog.merge_of_coherent h
  rw [mergeSnapshot_memory, Catalog.content_merge ran]

/-- The catalog before and the snapshots do not contradict each other. -/
structure Compatible (s : TaskCatalogStore Payload) (snapshots : List (TaskCatalogSnapshot Payload)) :
    Prop where
  closed : ∀ x ∈ snapshots, Closed x.entries
  held : ∀ x ∈ snapshots, ConflictFree s.memory.content x.entries
  pairs : ∀ x ∈ snapshots, ∀ y ∈ snapshots, ConflictFree x.entries y.entries

theorem Compatible.merge {snapshots : List (TaskCatalogSnapshot Payload)}
    (h : Compatible s snapshots) (member : snapshot ∈ snapshots)
    (coherent : Coherent (s.memory.content ∪ snapshot.entries)) :
    Compatible (s.mergeSnapshot snapshot none).2 snapshots where
  closed := h.closed
  held := by
    intro x other
    rw [content_mergeSnapshot coherent]
    exact (h.held x other).union (h.pairs _ member x other)
  pairs := h.pairs

theorem mergeEach_union {snapshots : List (TaskCatalogSnapshot Payload)}
    (coherent : Coherent s.memory.content) (h : Compatible s snapshots)
    {order : List (TaskCatalogSnapshot Payload)} (known : ∀ x ∈ order, x ∈ snapshots) :
    (mergeEach order s).1 = .ok () ∧
      ∀ e, e ∈ (mergeEach order s).2.memory.content ↔
        e ∈ s.memory.content ∨ ∃ x ∈ order, e ∈ x.entries := by
  induction order generalizing s with
  | nil => exact ⟨rfl, by simp [mergeEach]⟩
  | cons x order ih =>
      obtain ⟨member, rest⟩ := List.forall_mem_cons.mp known
      have joint : Coherent (s.memory.content ∪ x.entries) :=
        coherent.union (h.held x member) (h.pairs x member x member) (h.closed x member)
      obtain ⟨added, ran⟩ := mergeSnapshot_ok joint
      have grown := content_mergeSnapshot joint none
      have next : mergeEach (x :: order) s = mergeEach order (s.mergeSnapshot x none).2 := by
        conv_lhs => rw [mergeEach]
        split
        · rename_i e t failed
          rw [failed] at ran
          cases ran
        · rename_i merged
          rw [merged]
      obtain ⟨fine, covered⟩ := ih (grown ▸ joint) (h.merge member joint) rest
      rw [next]
      refine ⟨fine, fun e => ?_⟩
      simp only [covered, grown, List.mem_cons, exists_eq_or_imp, ← or_assoc]
      rfl

/-- Merging compatible snapshots, in any order and any number of times, ends with their union. -/
theorem replication_converges (digests : Digests Payload) (reached : Reached digests s)
    {snapshots : List (TaskCatalogSnapshot Payload)} (compatible : Compatible s snapshots)
    {order : List (TaskCatalogSnapshot Payload)} (every : ∀ x, x ∈ order ↔ x ∈ snapshots) :
    (mergeEach order s).1 = .ok () ∧
      (mergeEach order s).2.memory.content =
        s.memory.content ∪ {e | ∃ x ∈ snapshots, e ∈ x.entries} := by
  obtain ⟨fine, covered⟩ :=
    mergeEach_union reached.sound.memory compatible fun x member => (every x).mp member
  refine ⟨fine, ?_⟩
  ext e
  rw [covered]
  simp only [every]
  rfl

def sampleRun (name : String) : TaskRunRecord where
  runId := name
  definitionId := name
  revision := 1
  definitionDigest := "x"
  originNodeId := name
  initialOwnerNodeId := name
  idempotencyKey := name
  requestDigest := "x"
  createdAtUtc := 0

/-- A peer with one definition and one run of it. -/
def samplePeer (name : String) : TaskCatalogSnapshot String where
  reportingNodeId := name
  definitions := [
    { definitionId := name, payload := "x", revision := 1, digest := "x", originNodeId := name,
      createdAtUtc := 0 }]
  runs := [sampleRun name]

theorem samplePeer_definition {name i : String} {n : Nat} {d : Digest} :
    .definition i n d ∈ (samplePeer name).entries ↔ i = name ∧ n = 1 ∧ d = "x" := by
  simp [TaskCatalogSnapshot.entries, samplePeer, TaskDefinitionRecord.entry, eq_comm]

theorem samplePeer_run {name : String} {r : TaskRunRecord} :
    .run r ∈ (samplePeer name).entries ↔ r = sampleRun name := by
  simp [TaskCatalogSnapshot.entries, samplePeer, TaskDefinitionRecord.entry, eq_comm]

theorem samplePeer_conflictFree (one two : String) :
    ConflictFree (samplePeer one).entries (samplePeer two).entries where
  definition := by
    intro i n d d' h h'
    rw [samplePeer_definition] at h h'
    rw [h.2.2, h'.2.2]
  run := by
    intro r r' h h' same
    rw [samplePeer_run] at h h'
    subst h h'
    exact congrArg sampleRun same
  key := by
    intro r r' h h' same
    rw [samplePeer_run] at h h'
    subst h h'
    exact same

theorem samplePeers_compatible :
    Compatible (new "a" : TaskCatalogStore String) (["b", "c"].map samplePeer) where
  closed := by
    intro x member r run
    obtain ⟨name, -, rfl⟩ := List.mem_map.mp member
    rw [samplePeer_run] at run
    subst run
    exact samplePeer_definition.mpr ⟨rfl, rfl, rfl⟩
  held := by
    intro x member
    constructor
    · rintro i n d d' ⟨r, found, -⟩
      cases found
    · intro r r' held
      cases held
    · intro r r' held
      cases held
  pairs := by
    intro x member y member'
    obtain ⟨one, -, rfl⟩ := List.mem_map.mp member
    obtain ⟨two, -, rfl⟩ := List.mem_map.mp member'
    exact samplePeer_conflictFree one two

theorem replication_converges_sample :
    (mergeEach (["c", "b", "c"].map samplePeer) (new "a" : TaskCatalogStore String)).1 = .ok () ∧
      (mergeEach (["c", "b", "c"].map samplePeer) (new "a")).2.memory.content =
        (new "a" : TaskCatalogStore String).memory.content ∪
          {e | ∃ x ∈ ["b", "c"].map samplePeer, e ∈ x.entries} :=
  replication_converges ⟨fun submission => .ok submission.payload, (·.idempotencyKey)⟩
    ⟨"a", .refl⟩ samplePeers_compatible (by simp [or_comm])

end Magellan.Submission
