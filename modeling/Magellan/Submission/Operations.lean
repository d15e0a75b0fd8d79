import Magellan.Submission.Content

/-!
# The operations of the catalog store

Whatever is submitted, merged and restarted, and wherever a call fails, the catalog stays coherent,
in memory and on disk.
-/

namespace Magellan.Submission

open TaskCatalogStore

variable {Payload : Type}

inductive Operation (Payload : Type) where
  | registerDefinition (submission : TaskDefinitionSubmission Payload)
      (originNodeId : Option NodeId) (now : Timestamp) (io : Option Exn)
  | createRun (submission : TaskRunSubmission) (ownerNodeId : NodeId)
      (originNodeId : Option NodeId) (runId : RunId) (now : Timestamp) (io : Option Exn)
  | mergeSnapshot (snapshot : TaskCatalogSnapshot Payload) (io : Option Exn)
  | restart

def Operation.apply (digests : Digests Payload) (s : TaskCatalogStore Payload) :
    Operation Payload → TaskCatalogStore Payload
  | .registerDefinition submission originNodeId now io =>
      (s.registerDefinition digests submission originNodeId now io).2
  | .createRun submission ownerNodeId originNodeId runId now io =>
      (s.createRun digests submission ownerNodeId originNodeId runId now io).2
  | .mergeSnapshot snapshot io => (s.mergeSnapshot snapshot io).2
  | .restart => s.restart

/-- `uuid4` draws an id that no run has. -/
def Operation.Fresh (s : TaskCatalogStore Payload) : Operation Payload → Prop
  | .createRun _ _ _ runId _ _ => s.memory.runs.get? runId = none
  | _ => True

/-- `t` is reached from `s` by operations that are all allowed where they take place. -/
inductive Reaches (digests : Digests Payload)
    (Allowed : TaskCatalogStore Payload → Operation Payload → Prop)
    (s : TaskCatalogStore Payload) : TaskCatalogStore Payload → Prop
  | refl : Reaches digests Allowed s s
  | step {t : TaskCatalogStore Payload} (op : Operation Payload)
      (before : Reaches digests Allowed s t) (fresh : op.Fresh t) (allowed : Allowed t op) :
      Reaches digests Allowed s (op.apply digests t)

/-- A state of the store of some node. -/
def Reached (digests : Digests Payload) (s : TaskCatalogStore Payload) : Prop :=
  ∃ localNodeId, Reaches digests (fun _ _ => True) (new localNodeId) s

/-! ## The file -/

/-- Two catalogs hold the same records. -/
def Agrees (c d : Catalog Payload) : Prop :=
  (∀ k, c.definitions.get? k = d.definitions.get? k) ∧ ∀ k, c.runs.get? k = d.runs.get? k

theorem Agrees.content {c d : Catalog Payload} (h : Agrees c d) : c.content = d.content := by
  ext e
  cases e with
  | definition i v digest =>
      rw [Catalog.mem_definition, Catalog.mem_definition, h.1]
  | run r => rw [Catalog.mem_run, Catalog.mem_run, h.2]

theorem get?_ofList_values {κ α : Type} [DecidableEq κ] {d : Dict κ α} {key : α → κ}
    (keys : ∀ e ∈ d.entries, key e.2 = e.1) {sorted : List (κ × α)}
    (perm : sorted.Perm d.entries) (k : κ) :
    (Dict.ofList ((sorted.map Prod.snd).map fun r => (key r, r))).get? k = d.get? k := by
  have back : (sorted.map Prod.snd).map (fun r => (key r, r)) = sorted := by
    rw [List.map_map]
    conv_rhs => rw [← List.map_id sorted]
    apply List.map_congr_left
    intro e member
    exact Prod.ext (keys e (perm.mem_iff.mp member)) rfl
  rw [back]
  apply Dict.get?_eq_of_perm
  rw [Dict.entries_ofList]
  · exact perm
  · exact (perm.map Prod.fst).nodup_iff.mpr d.nodup

theorem load_dump (c : Catalog Payload) : Agrees (load (some (dump c))) c :=
  ⟨get?_ofList_values c.definitionKeys (List.perm_insertionSort _ _),
    get?_ofList_values c.runKeys (List.perm_insertionSort _ _)⟩

@[simp] theorem persist_memory (io : Option Exn) (s : TaskCatalogStore Payload) :
    (persist io s).2.memory = s.memory := by
  cases io <;> rfl

theorem persist_ok {α : Type} {io : Option Exn} {s : TaskCatalogStore Payload} {a b : α}
    (h : (persist io s).1.map (fun _ => a) = .ok b) : a = b := by
  cases io with
  | some e => cases h
  | none =>
      cases h
      rfl

theorem mergeSnapshot_memory (s : TaskCatalogStore Payload) (snapshot : TaskCatalogSnapshot Payload)
    (io : Option Exn) : (s.mergeSnapshot snapshot io).2.memory = (s.memory.merge snapshot).2 := by
  unfold TaskCatalogStore.mergeSnapshot
  split
  · rename_i ran
    rw [ran]
  · rename_i ran
    rw [ran]
  · rename_i ran
    rw [ran]
    exact persist_memory _ _

/-! ## Coherence -/

namespace Catalog

variable {c : Catalog Payload}

theorem newer_mem (first : TaskDefinitionRecord Payload) (l : List (TaskDefinitionRecord Payload)) :
    l.foldl (fun best r => if best.revision < r.revision then r else best) first ∈ first :: l := by
  induction l generalizing first with
  | nil => exact List.mem_singleton.mpr rfl
  | cons r l ih =>
      rw [List.foldl_cons]
      rcases List.mem_cons.mp (ih _) with chosen | later
      · rw [chosen]
        split <;> simp
      · exact List.mem_cons_of_mem _ (List.mem_cons_of_mem _ later)

theorem latest_mem {l : List (TaskDefinitionRecord Payload)} {r : TaskDefinitionRecord Payload}
    (h : latest l = some r) : r ∈ l := by
  cases l with
  | nil => cases h
  | cons first rest =>
      cases h
      exact newer_mem first rest

theorem getDefinition_mem {i : DefinitionId} {v : Option Nat} {r : TaskDefinitionRecord Payload}
    (h : c.getDefinition i v = .ok r) : c.definitions.get? r.key = some r := by
  cases v with
  | some v =>
      have found := getDefinition_some.mp h
      rw [key_eq found]
      exact found
  | none =>
      cases newest : latest (c.candidates i) with
      | none =>
          simp only [getDefinition, newest] at h
          cases h
      | some last =>
          simp only [getDefinition, newest] at h
          cases h
          exact mem_definitions_values.mp (List.mem_filter.mp (latest_mem newest)).1

theorem next_revision (i : DefinitionId) :
    c.definitions.get? (i, ((c.candidates i).map (·.revision)).foldl max 0 + 1) = none := by
  rw [Option.eq_none_iff_forall_ne_some]
  intro r found
  have key := key_eq found
  have candidate : r ∈ c.candidates i :=
    List.mem_filter.mpr ⟨Dict.mem_values_iff.mpr ⟨_, found⟩, decide_eq_true (congrArg Prod.fst key)⟩
  have bound : r.revision ≤ ((c.candidates i).map (·.revision)).foldl max 0 := by
    obtain ⟨m, top⟩ := Option.isSome_iff_exists.mp
      (List.isSome_max?_of_mem (List.mem_map_of_mem (f := (·.revision)) candidate))
    have below := (List.max?_eq_some_iff.mp top).2 _ (List.mem_map_of_mem candidate)
    rw [List.foldl_max, top]
    exact le_max_of_le_right below
  have next : r.revision = _ + 1 := congrArg Prod.snd key
  omega

end Catalog

/-- Memory and disk are coherent. -/
structure Sound (s : TaskCatalogStore Payload) : Prop where
  memory : Coherent s.memory.content
  file : Coherent (load s.file).content

namespace Sound

variable {s : TaskCatalogStore Payload} {digests : Digests Payload}

theorem persist (h : Sound s) (io : Option Exn) : Sound (persist io s).2 := by
  cases io with
  | some e => exact h
  | none =>
      refine ⟨h.memory, ?_⟩
      have same : (load (some (dump s.memory))).content = s.memory.content :=
        (load_dump s.memory).content
      exact same ▸ h.memory

theorem new (localNodeId : NodeId) : Sound (new localNodeId : TaskCatalogStore Payload) := by
  have nothing : ∀ e, e ∉ (Catalog.empty : Catalog Payload).content := by
    intro e member
    cases e with
    | definition i v d =>
        obtain ⟨r, found, -⟩ := member
        cases found
    | run r => cases member
  have empty : Coherent (Catalog.empty : Catalog Payload).content := {
    definition := fun member => absurd member (nothing _)
    run := fun member => absurd member (nothing _)
    key := fun member => absurd member (nothing _)
    closed := fun member => absurd member (nothing _) }
  exact ⟨empty, empty⟩

theorem registerDefinition (h : Sound s) (submission : TaskDefinitionSubmission Payload)
    (originNodeId : Option NodeId) (now : Timestamp) (io : Option Exn) :
    Sound (s.registerDefinition digests submission originNodeId now io).2 := by
  unfold TaskCatalogStore.registerDefinition
  split
  · exact h
  dsimp only
  split
  · exact h
  · apply Sound.persist
    exact ⟨Catalog.coherent_addDefinition h.memory (Catalog.next_revision _), h.file⟩

theorem createRun (h : Sound s) (submission : TaskRunSubmission) (ownerNodeId : NodeId)
    (originNodeId : Option NodeId) (runId : RunId) (now : Timestamp) (io : Option Exn)
    (fresh : s.memory.runs.get? runId = none) :
    Sound (s.createRun digests submission ownerNodeId originNodeId runId now io).2 := by
  unfold TaskCatalogStore.createRun
  dsimp only
  split
  · split_ifs
    · exact h
    · exact h
  rename_i unused
  split
  · exact h
  rename_i definition found
  apply Sound.persist
  refine ⟨?_, h.file⟩
  dsimp only
  rw [Catalog.content_addRun fresh]
  apply h.memory.insert_run
  · intro r member same
    rw [Catalog.mem_run, show r.runId = runId from same, fresh] at member
    cases member
  · intro r member same
    have none_ := List.find?_eq_none.mp unused r (Catalog.mem_runs_values.mpr member)
    exact absurd (decide_eq_true same) none_
  · exact ⟨definition, Catalog.getDefinition_mem found, rfl⟩

theorem mergeSnapshot (h : Sound s) (snapshot : TaskCatalogSnapshot Payload) (io : Option Exn) :
    Sound (s.mergeSnapshot snapshot io).2 := by
  have merged : Coherent (s.memory.merge snapshot).2.content := Catalog.merge_coherent h.memory
  unfold TaskCatalogStore.mergeSnapshot
  split
  · rename_i e c ran
    rw [ran] at merged
    exact ⟨merged, h.file⟩
  · rename_i c ran
    rw [ran] at merged
    exact ⟨merged, h.file⟩
  · rename_i added c other ran
    rw [ran] at merged
    apply Sound.persist
    exact ⟨merged, h.file⟩

theorem apply (h : Sound s) (op : Operation Payload) (fresh : op.Fresh s) :
    Sound (op.apply digests s) := by
  cases op with
  | registerDefinition submission originNodeId now io =>
      exact h.registerDefinition submission originNodeId now io
  | createRun submission ownerNodeId originNodeId runId now io =>
      exact h.createRun submission ownerNodeId originNodeId runId now io fresh
  | mergeSnapshot snapshot io => exact h.mergeSnapshot snapshot io
  | restart => exact ⟨h.file, h.file⟩

theorem reaches {Allowed : TaskCatalogStore Payload → Operation Payload → Prop}
    {t : TaskCatalogStore Payload} (h : Sound s) (run : Reaches digests Allowed s t) : Sound t := by
  induction run with
  | refl => exact h
  | step op before fresh allowed ih => exact ih.apply op fresh

end Sound

theorem Reached.sound {digests : Digests Payload} {s : TaskCatalogStore Payload}
    (h : Reached digests s) : Sound s := by
  obtain ⟨localNodeId, run⟩ := h
  exact (Sound.new localNodeId).reaches run

end Magellan.Submission
