import Magellan.Submission.Merge

/-!
# When a merge is atomic

A merge is one insertion after another. It takes place as a whole or not at all exactly when a
contradiction is met before anything new, or when there is none and the file follows the memory.
-/

namespace Magellan.Submission

open TaskCatalogStore

variable {Payload : Type}

abbrev Item (Payload : Type) := TaskDefinitionRecord Payload ⊕ TaskRunRecord

def Item.entry : Item Payload → Entry
  | .inl r => r.entry
  | .inr r => .run r

/-- What an item is found by. -/
def Item.name : Item Payload → (DefinitionId × Nat) ⊕ RunId
  | .inl r => .inl r.key
  | .inr r => .inr r.runId

namespace TaskCatalogSnapshot

/-- The items in the order in which they are merged. -/
def items (snapshot : TaskCatalogSnapshot Payload) : List (Item Payload) :=
  snapshot.definitions.map .inl ++ snapshot.runs.map .inr

theorem mem_entries {snapshot : TaskCatalogSnapshot Payload} {e : Entry} :
    e ∈ snapshot.entries ↔ ∃ x ∈ snapshot.items, Item.entry x = e := by
  simp only [items, List.mem_append, List.mem_map]
  constructor
  · rintro (⟨r, member, rfl⟩ | ⟨r, member, rfl⟩)
    · exact ⟨.inl r, .inl ⟨r, member, rfl⟩, rfl⟩
    · exact ⟨.inr r, .inr ⟨r, member, rfl⟩, rfl⟩
  · rintro ⟨x, ⟨r, member, rfl⟩ | ⟨r, member, rfl⟩, rfl⟩
    · exact .inl ⟨r, member, rfl⟩
    · exact .inr ⟨r, member, rfl⟩

end TaskCatalogSnapshot

namespace Catalog

variable {c t : Catalog Payload} {x : Item Payload}

def mergeItem (x : Item Payload) (c : Catalog Payload) : Except Exn (Option (Catalog Payload)) :=
  match x with
  | .inl r => c.mergeDefinition r
  | .inr r => c.mergeRun r

def reported (added : List (TaskDefinitionRecord Payload) × List TaskRunRecord) :
    List (Item Payload) :=
  added.1.map .inl ++ added.2.map .inr

theorem merge_items (c : Catalog Payload) (snapshot : TaskCatalogSnapshot Payload) :
    Insertion.insertAll mergeItem snapshot.items c =
      ((c.merge snapshot).1.map reported, (c.merge snapshot).2) := by
  have loop (l : List (TaskDefinitionRecord Payload)) (c : Catalog Payload) :
      Insertion.insertAll mergeItem (l.map .inl) c =
        ((c.mergeDefinitions l).1.map (List.map .inl), (c.mergeDefinitions l).2) :=
    Insertion.insertAll_map Sum.inl (fun r c => rfl) l c
  have loop' (l : List TaskRunRecord) (c : Catalog Payload) :
      Insertion.insertAll mergeItem (l.map .inr) c =
        ((c.mergeRuns l).1.map (List.map .inr), (c.mergeRuns l).2) :=
    Insertion.insertAll_map Sum.inr (fun r c => rfl) l c
  have first := loop snapshot.definitions c
  unfold TaskCatalogSnapshot.items
  cases ran : (c.mergeDefinitions snapshot.definitions).1 with
  | error e =>
      rw [ran] at first
      rw [merge_definitions_error ran]
      exact Insertion.insertAll_append_error first
  | ok definitions =>
      rw [ran] at first
      rw [merge_definitions_ok ran, Insertion.insertAll_append_ok first, loop']
      cases ((c.mergeDefinitions snapshot.definitions).2.mergeRuns snapshot.runs).1 <;> rfl

theorem mergeItem_ok {new : Option (Catalog Payload)} (h : mergeItem x c = .ok new) :
    (new.getD c).content = insert x.entry c.content := by
  cases x with
  | inl r => exact mergeDefinition_ok h
  | inr r => exact (mergeRun_ok h).1

theorem mergeItem_coherent (h : Coherent c.content) (merged : mergeItem x c = .ok (some t)) :
    Coherent t.content := by
  cases x with
  | inl r => exact mergeDefinition_coherent h merged
  | inr r => exact mergeRun_coherent h merged

/-- The keys that are in use. -/
def names (c : Catalog Payload) : Set ((DefinitionId × Nat) ⊕ RunId)
  | .inl k => (c.definitions.get? k).isSome
  | .inr k => (c.runs.get? k).isSome

@[simp] theorem mem_names_definition {k : DefinitionId × Nat} :
    .inl k ∈ c.names ↔ (c.definitions.get? k).isSome :=
  Iff.rfl

@[simp] theorem mem_names_run {k : RunId} : .inr k ∈ c.names ↔ (c.runs.get? k).isSome := Iff.rfl

theorem names_mergeItem (merged : mergeItem x c = .ok (some t)) :
    x.name ∉ c.names ∧ t.names = insert x.name c.names := by
  cases x with
  | inl r =>
      obtain ⟨absent, rfl⟩ := mergeDefinition_taken merged
      refine ⟨by simp [Item.name, absent], ?_⟩
      ext k
      cases k with
      | inl k => by_cases here : k = r.key <;> simp [Item.name, addDefinition, here]
      | inr k => simp [Item.name, addDefinition]
  | inr r =>
      obtain ⟨absent, rfl⟩ := mergeRun_taken merged
      refine ⟨by simp [Item.name, absent], ?_⟩
      ext k
      cases k with
      | inl k => simp [Item.name, addRun]
      | inr k => by_cases here : k = r.runId <;> simp [Item.name, addRun, here]

/-- The number of records. -/
def size (c : Catalog Payload) : Nat := c.definitions.entries.length + c.runs.entries.length

theorem size_lt (merged : mergeItem x c = .ok (some t)) : c.size < t.size := by
  cases x with
  | inl r =>
      obtain ⟨absent, rfl⟩ := mergeDefinition_taken merged
      have new : r.key ∉ c.definitions.keys := Dict.get?_eq_none_iff.mp absent
      simp only [size, addDefinition, Dict.entries_set_of_not_mem new, List.length_append,
        List.length_singleton]
      omega
  | inr r =>
      obtain ⟨absent, rfl⟩ := mergeRun_taken merged
      have new : r.runId ∉ c.runs.keys := Dict.get?_eq_none_iff.mp absent
      simp only [size, addRun, Dict.entries_set_of_not_mem new, List.length_append,
        List.length_singleton]
      omega

theorem new_of_taken (merged : mergeItem x c = .ok (some t)) : x.entry ∉ c.content := by
  intro member
  refine (names_mergeItem merged).1 ?_
  cases x with
  | inl r =>
      obtain ⟨held, found, -⟩ := member
      exact Option.isSome_iff_exists.mpr ⟨held, found⟩
  | inr r => exact Option.isSome_iff_exists.mpr ⟨r, member⟩

theorem merge_bounded (c : Catalog Payload) (snapshot : TaskCatalogSnapshot Payload) :
    (c.merge snapshot).2.content ⊆ c.content ∪ snapshot.entries := by
  intro e member
  have items := congrArg Prod.snd (merge_items c snapshot)
  have inside : e ∈ (Insertion.insertAll mergeItem snapshot.items c).2.content := by
    rw [items]
    exact member
  rcases Insertion.bounded content Item.entry (fun _ _ _ taken => mergeItem_ok taken) inside with old | ⟨x, listed, same⟩
  · exact .inl old
  · exact .inr (TaskCatalogSnapshot.mem_entries.mpr ⟨x, listed, same⟩)

theorem known_iff (h : Coherent c.content) :
    Insertion.Known mergeItem c x ↔ x.entry ∈ c.content := by
  unfold Insertion.Known
  constructor
  · intro known
    have same : c.content = insert x.entry c.content := mergeItem_ok known
    rw [same]
    exact Set.mem_insert _ _
  · intro member
    have taken : ∃ new, mergeItem x c = .ok new := by
      cases x with
      | inl r => exact mergeDefinition_of_coherent h subset_rfl member
      | inr r => exact mergeRun_of_coherent h subset_rfl member (h.closed member)
    obtain ⟨new, merged⟩ := taken
    cases new with
    | none => exact merged
    | some t => exact absurd member (new_of_taken merged)

theorem refused_iff (h : Coherent c.content) :
    (∃ e, mergeItem x c = .error e) ↔ ¬Coherent (insert x.entry c.content) := by
  constructor
  · rintro ⟨e, refused⟩ coherent
    have taken : ∃ new, mergeItem x c = .ok new := by
      cases x with
      | inl r =>
          exact mergeDefinition_of_coherent coherent (Set.subset_insert _ _) (Set.mem_insert _ _)
      | inr r =>
          have reference := coherent.closed (Set.mem_insert _ _)
          exact mergeRun_of_coherent coherent (Set.subset_insert _ _) (Set.mem_insert _ _)
            (reference.resolve_left (by simp [Item.entry]))
    obtain ⟨new, merged⟩ := taken
    rw [merged] at refused
    cases refused
  · intro incoherent
    cases merged : mergeItem x c with
    | error e => exact ⟨e, rfl⟩
    | ok new =>
        refine absurd ?_ incoherent
        rw [← mergeItem_ok merged]
        cases new with
        | none => exact h
        | some t => exact mergeItem_coherent h merged

end Catalog

/-- The first entry that is not there contradicts those that are. -/
def StopsAtOnce (u : Set Entry) (l : List Entry) : Prop :=
  ∃ before e after, l = before ++ e :: after ∧ (∀ x ∈ before, x ∈ u) ∧ ¬Coherent (insert e u)

theorem stopsAtOnce_iff {c : Catalog Payload} (h : Coherent c.content) {l : List (Item Payload)} :
    StopsAtOnce c.content (l.map Item.entry) ↔ Insertion.StopsClean Catalog.mergeItem l c := by
  constructor
  · rintro ⟨before, e, after, split_, known, stops⟩
    obtain ⟨first, rest, rfl, rfl, tail⟩ := List.map_eq_append_iff.mp split_
    obtain ⟨x, last, rfl, rfl, rfl⟩ := List.map_eq_cons_iff.mp tail
    obtain ⟨e, refused⟩ := (Catalog.refused_iff h).mpr stops
    refine ⟨first, x, last, e, rfl, fun y member => ?_, refused⟩
    exact (Catalog.known_iff h).mpr (known _ (List.mem_map_of_mem member))
  · rintro ⟨before, x, after, e, rfl, known, refused⟩
    refine ⟨before.map Item.entry, x.entry, after.map Item.entry, by simp, ?_, ?_⟩
    · intro e' member
      obtain ⟨y, inside, rfl⟩ := List.mem_map.mp member
      exact (Catalog.known_iff h).mp (known y inside)
    · exact (Catalog.refused_iff h).mp ⟨e, refused⟩

/-- A merge that raises changes nothing, and after one that returns the file holds what the memory
holds and each new run is reported. -/
def Atomic (s : TaskCatalogStore Payload) (snapshot : TaskCatalogSnapshot Payload)
    (io : Option Exn) : Prop :=
  match s.mergeSnapshot snapshot io with
  | (.error _, t) => t.memory = s.memory ∧ t.file = s.file
  | (.ok added, t) =>
      Agrees (load t.file) t.memory ∧
        ∀ run ∈ t.memory.runs.values, run ∈ added.2 ∨ run ∈ s.memory.runs.values

/-- Either a contradiction comes before anything new; or there is none, and what is new can be
written, and the file was up to date where nothing is. -/
def Undivided (s : TaskCatalogStore Payload) (snapshot : TaskCatalogSnapshot Payload)
    (io : Option Exn) : Prop :=
  StopsAtOnce s.memory.content (snapshot.items.map Item.entry) ∨
    Coherent (s.memory.content ∪ snapshot.entries) ∧
      (snapshot.entries ⊆ s.memory.content → Agrees (load s.file) s.memory) ∧
      (¬snapshot.entries ⊆ s.memory.content → io = none)

theorem reported_or_old {c d : Catalog Payload} {snapshot : TaskCatalogSnapshot Payload}
    {added : List (TaskDefinitionRecord Payload) × List TaskRunRecord}
    (ran : c.merge snapshot = (.ok added, d)) {run : TaskRunRecord}
    (member : run ∈ d.runs.values) : run ∈ added.2 ∨ run ∈ c.runs.values := by
  have items := Catalog.merge_items c snapshot
  rw [ran] at items
  have inside : .run run ∈ (Insertion.insertAll Catalog.mergeItem snapshot.items c).2.content := by
    rw [items]
    exact Catalog.mem_runs_values.mp member
  have found := Insertion.reports Catalog.content Item.entry (fun _ _ _ => Catalog.mergeItem_ok)
    (congrArg Prod.fst items) inside
  rcases found with old | ⟨x, new, same⟩
  · exact .inr (Catalog.mem_runs_values.mpr old)
  · rcases List.mem_append.mp new with definition | listed
    · obtain ⟨r, -, rfl⟩ := List.mem_map.mp definition
      cases same
    · obtain ⟨r, inside, rfl⟩ := List.mem_map.mp listed
      cases same
      exact .inl inside

theorem reported_run {c d : Catalog Payload} {snapshot : TaskCatalogSnapshot Payload}
    {added : List (TaskDefinitionRecord Payload) × List TaskRunRecord}
    (ran : c.merge snapshot = (.ok added, d)) {run : TaskRunRecord} (member : run ∈ added.2) :
    run ∈ snapshot.runs ∧ c.runs.get? run.runId = none := by
  have items := Catalog.merge_items c snapshot
  rw [ran] at items
  have listed : Sum.inr run ∈ Catalog.reported added :=
    List.mem_append_right _ (List.mem_map_of_mem member)
  obtain ⟨inside, absent⟩ := Insertion.reported_new Catalog.names Item.name
    (fun _ _ _ taken => Catalog.names_mergeItem taken) (congrArg Prod.fst items) listed
  constructor
  · rcases List.mem_append.mp inside with definition | listed
    · obtain ⟨r, -, other⟩ := List.mem_map.mp definition
      cases other
    · obtain ⟨r, found, same⟩ := List.mem_map.mp listed
      cases same
      exact found
  · exact Option.not_isSome_iff_eq_none.mp absent

theorem mergeSnapshot_error {s : TaskCatalogStore Payload} {snapshot : TaskCatalogSnapshot Payload}
    {io : Option Exn} {e : Exn} {c : Catalog Payload} (ran : s.memory.merge snapshot = (.error e, c)) :
    s.mergeSnapshot snapshot io = (.error e, { s with memory := c }) := by
  simp only [TaskCatalogStore.mergeSnapshot, ran]

theorem mergeSnapshot_nothing {s : TaskCatalogStore Payload}
    {snapshot : TaskCatalogSnapshot Payload} {io : Option Exn} {c : Catalog Payload}
    (ran : s.memory.merge snapshot = (.ok ([], []), c)) :
    s.mergeSnapshot snapshot io = (.ok ([], []), { s with memory := c }) := by
  simp only [TaskCatalogStore.mergeSnapshot, ran]

theorem mergeSnapshot_added {s : TaskCatalogStore Payload}
    {snapshot : TaskCatalogSnapshot Payload} {io : Option Exn} {c : Catalog Payload}
    {added : List (TaskDefinitionRecord Payload) × List TaskRunRecord}
    (ran : s.memory.merge snapshot = (.ok added, c)) (new : added ≠ ([], [])) :
    s.mergeSnapshot snapshot io =
      ((persist io { s with memory := c }).1.map fun _ => added,
        (persist io { s with memory := c }).2) := by
  unfold TaskCatalogStore.mergeSnapshot
  rw [ran]
  split
  · rename_i same
    cases same
  · rename_i same
    cases same
    exact absurd rfl new
  · rename_i same
    cases same
    rfl

theorem merge_of_mergeSnapshot {s t : TaskCatalogStore Payload}
    {snapshot : TaskCatalogSnapshot Payload} {io : Option Exn}
    {added : List (TaskDefinitionRecord Payload) × List TaskRunRecord}
    (h : s.mergeSnapshot snapshot io = (.ok added, t)) :
    s.memory.merge snapshot = (.ok added, t.memory) := by
  cases ran : s.memory.merge snapshot with
  | mk result c =>
      cases result with
      | error e =>
          rw [mergeSnapshot_error ran] at h
          cases h
      | ok added' =>
          by_cases new : added' = ([], [])
          · subst new
            rw [mergeSnapshot_nothing ran] at h
            cases h
            rfl
          · rw [mergeSnapshot_added ran new] at h
            obtain ⟨returned, left⟩ := Prod.mk.inj h
            rw [persist_ok returned, ← left, persist_memory]

theorem atomic_iff_undivided {s : TaskCatalogStore Payload} (h : Coherent s.memory.content)
    (snapshot : TaskCatalogSnapshot Payload) (io : Option Exn) :
    Atomic s snapshot io ↔ Undivided s snapshot io := by
  have items := Catalog.merge_items s.memory snapshot
  have joint : _ ↔ Coherent (s.memory.content ∪ snapshot.entries) := Catalog.merge_ok_iff h
  have stops := stopsAtOnce_iff h (l := snapshot.items)
  unfold Atomic Undivided
  cases ran : s.memory.merge snapshot with
  | mk result c =>
      rw [ran] at items joint
      cases result with
      | error e =>
          have failed : (Insertion.insertAll Catalog.mergeItem snapshot.items s.memory).1 = .error e :=
            congrArg Prod.fst items
          have unchanged := Insertion.unchanged_iff_stopsClean Catalog.size
            (fun _ _ _ => Catalog.size_lt) failed
          have incoherent : ¬Coherent (s.memory.content ∪ snapshot.entries) := by
            intro coherent
            obtain ⟨added, none_⟩ := joint.mpr coherent
            cases none_
          rw [items] at unchanged
          rw [mergeSnapshot_error ran, stops, ← unchanged]
          simp [incoherent]
      | ok added =>
          have coherent := joint.mp ⟨added, rfl⟩
          have clean : ¬StopsAtOnce s.memory.content (snapshot.items.map Item.entry) := by
            rw [stops]
            intro stops
            obtain ⟨e, failed⟩ := Insertion.fails_of_stopsClean stops
            rw [failed] at items
            cases items
          have grown : c.content = s.memory.content ∪ snapshot.entries := by
            have merged := Catalog.content_merge (c := s.memory) (congrArg Prod.fst ran)
            rw [ran] at merged
            exact merged
          by_cases new : added = ([], [])
          · subst new
            have same : c = s.memory := by
              have nothing := Insertion.unchanged_of_nil (congrArg Prod.fst items)
              rw [items] at nothing
              exact nothing
            subst same
            have inside : snapshot.entries ⊆ s.memory.content := by
              rw [grown]
              exact Set.subset_union_right
            rw [mergeSnapshot_nothing ran]
            simp [clean, coherent, inside]
          · have outside : ¬snapshot.entries ⊆ s.memory.content := by
              intro inside
              have known : ∀ x ∈ snapshot.items, Insertion.Known Catalog.mergeItem s.memory x :=
                fun x member => (Catalog.known_iff h).mpr
                  (inside (TaskCatalogSnapshot.mem_entries.mpr ⟨x, member, rfl⟩))
              have nothing := congrArg Prod.fst (items.symm.trans (Insertion.nil_of_known known))
              have empty : Catalog.reported added = [] := Except.ok.inj nothing
              obtain ⟨one, two⟩ := List.append_eq_nil_iff.mp empty
              exact new (Prod.ext (List.map_eq_nil_iff.mp one) (List.map_eq_nil_iff.mp two))
            rw [mergeSnapshot_added ran new]
            cases io with
            | some e =>
                have changed : c ≠ s.memory := by
                  rintro rfl
                  exact outside (grown ▸ Set.subset_union_right)
                simp [persist, Except.map, clean, outside, changed]
            | none =>
                simp only [clean, coherent, outside, false_or, true_and, not_false_eq_true,
                  forall_const, IsEmpty.forall_iff, iff_true, persist, Except.map]
                exact ⟨load_dump c, fun run member => reported_or_old ran member⟩

end Magellan.Submission
