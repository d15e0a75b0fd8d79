import Magellan.Submission.Identity
import Magellan.Submission.Schema

/-!
# Equal requests

A definition that is registered again gets no revision, and a run that is requested again no second
run, exactly where the request is the same payload.
-/

namespace Magellan.Submission

open TaskCatalogStore

variable {F K D Payload : Type}

/-- `model_dump`. -/
def TaskRunSubmission.modelDump (s : TaskRunSubmission) : PyValue F K D :=
  .model [
    ("definition_id", .str s.definitionId),
    ("revision", s.revision.elim .none fun revision => .int revision),
    ("initial_owner_node_id", s.initialOwnerNodeId.elim .none .str),
    ("idempotency_key", .str s.idempotencyKey),
    ("auto_start", .bool s.autoStart),
    ("labels", .dict (s.labels.map fun e => (.str e.1, .str e.2)))]

/-- What is hashed for the requests of the catalog; `dump` is `model_dump` of a definition. -/
def catalogDigests (py : Python F K D) (dump : TaskDefinitionSubmission Payload → PyValue F K D) :
    Digests Payload where
  definition s := canonicalDigest py (dump s)
  run s := py.sha256 (py.dumps (canonicalJsonValue py s.modelDump))

/-- The dump has the fields of the model. -/
structure Dumps (dump : TaskDefinitionSubmission Payload → PyValue F K D) : Prop where
  typed : ∀ s, HasType taskDefinitionSubmission (dump s)
  definitionId : ∀ s, ∃ fields, dump s = .model (("definition_id", .str s.definitionId) :: fields)

variable {py : Python F K D} {dump : TaskDefinitionSubmission Payload → PyValue F K D}

theorem hasType_run {s : TaskRunSubmission} (distinct : (s.labels.map Prod.fst).Nodup) :
    HasType taskRunSubmission (s.modelDump : PyValue F K D) := by
  have labels : HasType (.dict .str)
      (.dict (s.labels.map fun e => (.str e.1, .str e.2)) : PyValue F K D) := by
    have items := @HasType.dict F K D .str (s.labels.map fun e => (e.1, .str e.2))
    rw [List.map_map, List.map_map] at items
    refine items distinct fun e mem => ?_
    obtain ⟨label, -, rfl⟩ := List.mem_map.mp mem
    exact .str
  refine .model (by decide) rfl fun p mem => ?_
  simp only [List.zip_cons_cons, List.zip_nil_right, List.mem_cons, List.not_mem_nil, or_false] at mem
  rcases mem with rfl | rfl | rfl | rfl | rfl | rfl
  · exact .str
  · cases s.revision with
    | none => exact .absent
    | some revision => exact .present .int
  · cases s.initialOwnerNodeId with
    | none => exact .absent
    | some node => exact .present .str
  · exact .str
  · exact .bool
  · exact labels

theorem allNumbers_comprehension {p : Number F → Bool} {items : List (String × Json (Number F))}
    (h : ∀ e ∈ items, e.2.allNumbers p = true) :
    (Json.object (comprehension items)).allNumbers p = true := by
  rw [Json.allNumbers, List.all_map]
  exact List.all_eq_true.mpr (Dict.forall_ofList h)

/-- The numbers of a run are ints, so its digest is never refused. -/
theorem canonicalDigest_run (dump : TaskDefinitionSubmission Payload → PyValue F K D)
    (s : TaskRunSubmission) :
    canonicalDigest py s.modelDump = .ok ((catalogDigests py dump).run s) := by
  have labels : (canonicalJsonValue py (.dict (s.labels.map fun e => (.str e.1, .str e.2)) :
      PyValue F K D)).allNumbers py.finite = true := by
    rw [canonicalJsonValue]
    apply allNumbers_comprehension
    intro e mem
    rw [List.map_map] at mem
    obtain ⟨label, -, rfl⟩ := List.mem_map.mp mem
    simp [canonicalJsonValue, Json.allNumbers]
  have finite : (canonicalJsonValue py (s.modelDump : PyValue F K D)).allNumbers py.finite = true := by
    rw [TaskRunSubmission.modelDump, canonicalJsonValue]
    apply allNumbers_comprehension
    intro e mem
    simp only [List.map_cons, List.map_nil, List.mem_cons, List.not_mem_nil, or_false] at mem
    rcases mem with rfl | rfl | rfl | rfl | rfl | rfl
    · simp [canonicalJsonValue, Json.allNumbers]
    · cases s.revision <;> simp [canonicalJsonValue, Json.allNumbers, Python.finite]
    · cases s.initialOwnerNodeId <;> simp [canonicalJsonValue, Json.allNumbers]
    · simp [canonicalJsonValue, Json.allNumbers]
    · simp [canonicalJsonValue, Json.allNumbers]
    · exact labels
  exact if_pos finite

/-! ## Fields that are strings -/

/-- The value of a field that is a string. -/
def plain : String × PyValue F K D → Option String
  | (_, .str s) => some s
  | _ => none

theorem Similar.plain {fields : List (String × PyValue F K D)} {v : PyValue F K D}
    (h : Similar py (.model fields) v) :
    ∃ fields', v = .model fields' ∧ fields.map plain = fields'.map plain := by
  induction h with
  | refl => exact ⟨fields, rfl, rfl⟩
  | tail _ step ih =>
      obtain ⟨fields', rfl, same⟩ := ih
      cases step with
      | @inModel before name v v' after one =>
          refine ⟨_, rfl, same.trans ?_⟩
          rw [List.map_append, List.map_append, List.map_cons, List.map_cons]
          cases one <;> rfl

theorem Dumps.similar (dumps : Dumps dump) {a b : TaskDefinitionSubmission Payload}
    (h : Similar py (dump a) (dump b)) : a.definitionId = b.definitionId := by
  obtain ⟨fields, shape⟩ := dumps.definitionId a
  obtain ⟨fields', shape'⟩ := dumps.definitionId b
  rw [shape, shape'] at h
  obtain ⟨fields'', same, plains⟩ := h.plain
  cases same
  exact Option.some.inj (List.cons.inj plains).1

theorem idempotencyKey_of_similar {a b : TaskRunSubmission}
    (h : Similar py a.modelDump (b.modelDump : PyValue F K D)) :
    a.idempotencyKey = b.idempotencyKey := by
  obtain ⟨fields, same, plains⟩ := h.plain
  cases same
  simp only [List.map_cons, List.cons.injEq] at plains
  exact Option.some.inj plains.2.2.2.1

/-! ## The catalog -/

variable (py dump) in
/-- From `s` on, a request is answered with what an earlier one made exactly where the payloads are
the same; another payload under the key of a run is refused. -/
structure SameRequests (s : TaskCatalogStore Payload) : Prop where
  definition : ∀ a originNodeId now io r created,
    (s.registerDefinition (catalogDigests py dump) a originNodeId now io).1 = .ok (r, created) →
    ∀ t, Reaches (catalogDigests py dump) Settled
        (s.registerDefinition (catalogDigests py dump) a originNodeId now io).2 t →
      ∀ b originNodeId now io,
        (∃ held, t.registerDefinition (catalogDigests py dump) b originNodeId now io =
            (.ok (held, false), t) ∧
          held.definitionId = a.definitionId ∧ held.digest = r.digest) ↔
        Similar py (dump a) (dump b)
  run : ∀ a : TaskRunSubmission, (a.labels.map Prod.fst).Nodup →
    ∀ ownerNodeId originNodeId runId now io run created, s.memory.runs.get? runId = none →
    (s.createRun (catalogDigests py dump) a ownerNodeId originNodeId runId now io).1 =
      .ok (run, created) →
    ∀ t, Reaches (catalogDigests py dump) Settled
        (s.createRun (catalogDigests py dump) a ownerNodeId originNodeId runId now io).2 t →
      ∀ b : TaskRunSubmission, (b.labels.map Prod.fst).Nodup →
      ∀ ownerNodeId originNodeId runId now io,
        (t.createRun (catalogDigests py dump) b ownerNodeId originNodeId runId now io =
            (.ok (run, false), t) ↔
          Similar py a.modelDump b.modelDump) ∧
        (b.idempotencyKey = a.idempotencyKey → ¬ Similar py a.modelDump b.modelDump →
          t.createRun (catalogDigests py dump) b ownerNodeId originNodeId runId now io =
            (.error (valueError "Idempotency key was already used with a different request"), t))

theorem Sound.sameRequests (lawful : py.Lawful) (dumps : Dumps dump) {s : TaskCatalogStore Payload}
    (sound : Sound s) : SameRequests py dump s where
  definition := by
    intro a originNodeId now io r created called t later b originNodeId' now' io'
    obtain ⟨present, name, digest⟩ := registerDefinition_ok called
    constructor
    · rintro ⟨held, answer, -, same⟩
      have again := (registerDefinition_ok (congrArg Prod.fst answer)).2.2
      rw [same] at again
      exact similar_of_digest lawful (dumps.typed a) (dumps.typed b) digest again
    · intro similar
      have again : (catalogDigests py dump).definition b = .ok r.digest :=
        (similar.digest lawful).symm.trans digest
      have names := name.trans (dumps.similar similar)
      obtain ⟨held, answer, name', same⟩ := registerDefinition_known
        (later.within.definitions present) names again originNodeId' now' io'
      exact ⟨held, answer, name'.trans (dumps.similar similar).symm, same⟩
  run := by
    intro a labels ownerNodeId originNodeId runId now io run created fresh called t later b labels'
      ownerNodeId' originNodeId' runId' now' io'
    obtain ⟨member, key, digest⟩ := createRun_ok called
    have there : Sound t :=
      (sound.createRun a ownerNodeId originNodeId runId now io fresh).reaches later
    have still : .run run ∈ t.memory.content := later.within.runs member
    have similar_of : (catalogDigests py dump).run a = (catalogDigests py dump).run b →
        Similar py a.modelDump (b.modelDump : PyValue F K D) := fun same =>
      similar_of_digest lawful (hasType_run labels) (hasType_run labels')
        (canonicalDigest_run dump a) (same ▸ canonicalDigest_run dump b)
    have of_similar : Similar py a.modelDump (b.modelDump : PyValue F K D) →
        (catalogDigests py dump).run a = (catalogDigests py dump).run b := by
      intro similar
      have same := similar.digest lawful
      rw [canonicalDigest_run dump, canonicalDigest_run dump] at same
      exact Except.ok.inj same
    refine ⟨⟨fun answer => ?_, fun similar => ?_⟩, fun keys other => ?_⟩
    · have again := (createRun_ok (congrArg Prod.fst answer)).2.2
      exact similar_of (digest.symm.trans again)
    · have keys := key.trans (idempotencyKey_of_similar similar)
      rw [createRun_known there.memory still keys, digest]
      exact if_neg (not_not.mpr (of_similar similar))
    · rw [createRun_known there.memory still (key.trans keys.symm), digest]
      exact if_pos fun same => other (similar_of same)

section

/-- Two floats that Python calls equal. -/
inductive Zero where
  | positive
  | negative

def Zero.value : Zero → Rat
  | .positive => 0
  | .negative => -0

/-- `sha256` at one text, and the text itself elsewhere. -/
def sampleHash (text : List Char) : Digest :=
  if text = "\x7b\"nodes\":[\"boston\",\"virginia\"]\x7d".toList then
    "ac3f82ba23e08eae30426109821c2d8c058f915cce5d043c7e34ee3bdc1dc344"
  else String.ofList ('#' :: text)

def samplePython : Python Zero Int Unit where
  floatRepr
    | .positive => ['0', '.', '0']
    | .negative => ['-', '0', '.', '0']
  isFinite _ := true
  strKey := toString
  isoformat _ := "2025-01-01T00:00:00+00:00"
  sha256 := sampleHash

theorem sampleHash_injective : Function.Injective sampleHash := by
  have other : ∀ text, "ac3f82ba23e08eae30426109821c2d8c058f915cce5d043c7e34ee3bdc1dc344" ≠
      String.ofList ('#' :: text) := by
    intro text same
    have first := congrArg (fun s : String => s.toList.head?) same
    simp only [String.toList_ofList] at first
    cases first
  intro a b h
  unfold sampleHash at h
  split_ifs at h with left right right
  · rw [left, right]
  · exact absurd h (other b)
  · exact absurd h.symm (other a)
  · exact (List.cons.inj (String.ofList_injective h)).2

theorem samplePython_lawful : samplePython.Lawful where
  floats := by
    intro x y h
    cases x <;> cases y <;> cases h <;> rfl
  noInt x i h := by
    have point : '.' ∈ samplePython.floatRepr x := by cases x <;> decide
    rw [h] at point
    rcases Json.mem_intText point with minus | digit
    · cases minus
    · cases digit
  floatChars x c mem := by
    rintro (rfl | rfl | rfl)
    · cases x <;> simp [samplePython] at mem
    · cases x <;> simp [samplePython] at mem
    · cases x <;> simp [samplePython] at mem
  floatBegins x := by
    cases x with
    | positive => exact ⟨'0', _, rfl, by decide⟩
    | negative => exact ⟨'-', _, rfl, by decide⟩
  collisionFree := sampleHash_injective

theorem normal_clash {key key' : PyKey Int} (one : samplePython.str key = "1")
    (one' : samplePython.str key' = "1") (a b : String) :
    normal samplePython (.dict [(key, .str a), (key', .str b)]) = .object [("1", .string b)] := by
  have leaf : ∀ s, normal samplePython (.str s) = .string s := by
    simp [normal, canonicalJsonValue, Json.sortKeys]
  simp only [normal_dict, List.map_cons, List.map_nil, one, one', leaf]
  rfl

theorem digest_ne {a b : PyValue Zero Int Unit} (other : normal samplePython a ≠ normal samplePython b)
    (finite : (normal samplePython a).allNumbers samplePython.finite = true) :
    canonicalDigest samplePython a ≠ canonicalDigest samplePython b := by
  intro h
  have first : canonicalDigest samplePython a = _ := canonicalDigest_eq a
  rw [if_pos finite] at first
  exact other (normal_of_digest samplePython_lawful first (h ▸ first))

end

end Magellan.Submission
