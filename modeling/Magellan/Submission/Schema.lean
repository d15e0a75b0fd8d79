import Magellan.Submission.Canonical

/-!
# Payloads of one model

The types of the fields of the submission models. Payloads of one type with one encoding differ in
nothing but what the encoding leaves out.
-/

namespace Magellan.Submission

variable {F K D : Type} {py : Python F K D}

/-- The types of the fields of a model. -/
inductive Ty where
  | bool
  | int
  | float
  | str
  | path
  | datetime
  /-- An enumeration of strings. -/
  | enum
  | optional (t : Ty)
  | list (t : Ty)
  | set (t : Ty)
  | dict (t : Ty)
  | model (fields : List (String × Ty))

inductive HasType : Ty → PyValue F K D → Prop
  | bool {b} : HasType .bool (.bool b)
  | int {i} : HasType .int (.int i)
  | float {x} : HasType .float (.float x)
  | str {s} : HasType .str (.str s)
  | path {p} : HasType .path (.path p)
  | datetime {d} : HasType .datetime (.datetime d)
  | enum {s} : HasType .enum (.enum (.str s))
  | absent {t} : HasType (.optional t) .none
  | present {t v} : HasType t v → HasType (.optional t) v
  | list {t items} : (∀ v ∈ items, HasType t v) → HasType (.list t) (.list items)
  | set {t items} : (∀ v ∈ items, HasType t v) → HasType (.set t) (.set items)
  | dict {t} {items : List (String × PyValue F K D)} : (items.map Prod.fst).Nodup →
      (∀ e ∈ items, HasType t e.2) →
      HasType (.dict t) (.dict (items.map fun e => (.str e.1, e.2)))
  | model {fields values} : (fields.map Prod.fst).Nodup →
      values.map Prod.fst = fields.map Prod.fst →
      (∀ p ∈ values.zip fields, HasType p.2.2 p.1.2) → HasType (.model fields) (.model values)

/-! ## The submission models -/

def taskResourceRequest : Ty := .model [
  ("cpu_cores", .float),
  ("memory_mb", .int),
  ("gpu_count", .int),
  ("accelerator_type", .optional .str)]

def taskCompatibilityRequirements : Ty := .model [
  ("architectures", .set .str),
  ("operating_systems", .set .str),
  ("minimum_cpu_cores", .optional .float),
  ("minimum_memory_mb", .optional .int),
  ("minimum_gpu_count", .optional .int),
  ("accelerator_types", .set .str),
  ("required_commands", .set .str),
  ("required_runtimes", .dict .str),
  ("required_features", .set .str),
  ("checkpoint_architecture_independent", .bool),
  ("requires_same_mpi_world_size", .bool)]

def taskTemplateProfile : Ty := .model [
  ("workload_type", .str),
  ("power_kw", .float),
  ("checkpoint_bytes", .int),
  ("data_bytes", .int),
  ("prestaged_node_ids", .set .str),
  ("estimated_remaining_seconds", .optional .float),
  ("accumulated_cost_usd", .float),
  ("cost_cap_usd", .optional .float),
  ("priority", .int),
  ("deadline_at_utc", .optional .datetime),
  ("resource_request", taskResourceRequest),
  ("compatibility", taskCompatibilityRequirements)]

def dendroCheckpointDiscoverySpec : Ty := .model [
  ("file_globs", .list .str),
  ("step_regex", .optional .str),
  ("rank_regex", .optional .str),
  ("expected_file_count", .optional .int),
  ("expected_rank_count", .optional .int),
  ("stability_seconds", .float),
  ("include_sha256", .bool),
  ("native_bssn_prefix", .optional .str),
  ("native_bssn_step_key", .str)]

def dendroProgressSpec : Ty := .model [
  ("log_relative_path", .str),
  ("step_regex", .str),
  ("total_steps", .optional .float),
  ("max_log_bytes", .int)]

def dendroCompletionSpec : Ty := .model [
  ("accept_zero_exit_code", .bool),
  ("log_relative_path", .str),
  ("success_regex", .optional .str),
  ("max_log_bytes", .int)]

def dendroRuntimeOptions : Ty := .model [
  ("checkpoint_discovery", .optional dendroCheckpointDiscoverySpec),
  ("progress", .optional dendroProgressSpec),
  ("completion", .optional dendroCompletionSpec)]

def localProcessSpec : Ty := .model [
  ("adapter", .str),
  ("module", .optional .str),
  ("command", .list .str),
  ("arguments", .list .str),
  ("resume_arguments", .list .str),
  ("environment", .dict .str),
  ("working_directory", .str),
  ("checkpoint_relative_path", .str),
  ("checkpoint_manifest_relative_path", .optional .str),
  ("readiness_relative_path", .optional .str),
  ("readiness_timeout_seconds", .float),
  ("progress_relative_path", .optional .str),
  ("completion_relative_path", .optional .str),
  ("output_relative_directory", .optional .str),
  ("stop_timeout_seconds", .float),
  ("minimum_process_count", .int),
  ("dendro_options", .optional dendroRuntimeOptions)]

def staticArtifactSpec : Ty := .model [
  ("artifact_id", .str),
  ("kind", .str),
  ("source_directory", .str),
  ("target_relative_directory", .str)]

def taskDefinitionSubmission : Ty := .model [
  ("definition_id", .str),
  ("profile", taskTemplateProfile),
  ("runtime", localProcessSpec),
  ("artifacts", .list staticArtifactSpec)]

def taskRunSubmission : Ty := .model [
  ("definition_id", .str),
  ("revision", .optional .int),
  ("initial_owner_node_id", .optional .str),
  ("idempotency_key", .str),
  ("auto_start", .bool),
  ("labels", .dict .str)]

/-! ## Similar items -/

section

variable {α : Type} {R : α → α → Prop}

theorem Similar.items (C : List α → PyValue F K D)
    (step : ∀ {before x y after}, R x y →
      Similar py (C (before ++ x :: after)) (C (before ++ y :: after)))
    (before : List α) {xs ys : List α} (h : List.Forall₂ R xs ys) :
    Similar py (C (before ++ xs)) (C (before ++ ys)) := by
  induction h generalizing before with
  | nil => exact .refl
  | @cons x y xs ys first _ ih =>
      have rest := ih (before ++ [y])
      rw [List.append_assoc, List.append_assoc] at rest
      exact (step first).trans rest

theorem Similar.lift {C : PyValue F K D → PyValue F K D}
    (step : ∀ {v v'}, Reorders py v v' → Reorders py (C v) (C v')) {v v' : PyValue F K D}
    (h : Similar py v v') : Similar py (C v) (C v') :=
  Relation.ReflTransGen.lift C (fun _ _ => step) _ _ h

theorem Similar.list {items items' : List (PyValue F K D)}
    (h : List.Forall₂ (Similar py) items items') : Similar py (.list items) (.list items') :=
  Similar.items .list (fun one => one.lift .inList) [] h

theorem Similar.setItems {items items' : List (PyValue F K D)}
    (h : List.Forall₂ (Similar py) items items') : Similar py (.set items) (.set items') :=
  Similar.items .set (fun one => one.lift .inSet) [] h

theorem Similar.dictItems {items items' : List (PyKey K × PyValue F K D)}
    (h : List.Forall₂ (fun e e' => e.1 = e'.1 ∧ Similar py e.2 e'.2) items items') :
    Similar py (.dict items) (.dict items') := by
  refine Similar.items .dict ?_ [] h
  rintro before ⟨key, v⟩ ⟨key', v'⟩ after ⟨rfl, one⟩
  exact one.lift .inDict

theorem Similar.model {fields fields' : List (String × PyValue F K D)}
    (h : List.Forall₂ (fun e e' => e.1 = e'.1 ∧ Similar py e.2 e'.2) fields fields') :
    Similar py (.model fields) (.model fields') := by
  refine Similar.items .model ?_ [] h
  rintro before ⟨name, v⟩ ⟨name', v'⟩ after ⟨rfl, one⟩
  exact one.lift .inModel

end

/-! ## One encoding, one payload -/

theorem forall₂_of_map_eq {α β : Type} {f : α → β} {R : α → α → Prop} {xs ys : List α}
    (h : xs.map f = ys.map f) (one : ∀ x ∈ xs, ∀ y ∈ ys, f x = f y → R x y) :
    List.Forall₂ R xs ys := by
  induction xs generalizing ys with
  | nil =>
      cases ys with
      | nil => exact .nil
      | cons y ys => cases h
  | cons x xs ih =>
      cases ys with
      | nil => cases h
      | cons y ys =>
          simp only [List.map_cons, List.cons.injEq] at h
          refine .cons (one x List.mem_cons_self y List.mem_cons_self h.1) (ih h.2 ?_)
          exact fun x mem y mem' => one x (List.mem_cons_of_mem _ mem) y (List.mem_cons_of_mem _ mem')

theorem exists_reordered {α β : Type} {f : α → β} {xs ys : List α} (h : (xs.map f).Perm (ys.map f)) :
    ∃ zs : List α, zs.Perm ys ∧ xs.map f = zs.map f := by
  obtain ⟨zs, same, perm⟩ := (congrFun₂ (List.eq_map_comp_perm f) (xs.map f) ys).mpr h
  exact ⟨zs, perm, same⟩

theorem eq_of_perm_of_keys {α β : Type} {l l' : List (α × β)} (perm : l.Perm l')
    (keys : l.map Prod.fst = l'.map Prod.fst) (distinct : (l.map Prod.fst).Nodup) : l = l' := by
  induction l generalizing l' with
  | nil =>
      cases l' with
      | nil => rfl
      | cons e l' => cases keys
  | cons e l ih =>
      cases l' with
      | nil => cases keys
      | cons e' l' =>
          simp only [List.map_cons, List.cons.injEq] at keys
          rw [List.map_cons, List.nodup_cons] at distinct
          rcases List.mem_cons.mp (perm.mem_iff.mp List.mem_cons_self) with rfl | later
          · rw [ih (List.perm_cons _ |>.mp perm) keys.2 distinct.2]
          · refine absurd ?_ distinct.1
            rw [keys.2]
            exact List.mem_map_of_mem later

theorem perm_of_insertionSort_eq {α : Type} {r : α → α → Prop} [DecidableRel r] {l l' : List α}
    (h : l.insertionSort r = l'.insertionSort r) : l.Perm l' :=
  ((l.perm_insertionSort r).symm.trans (h ▸ List.Perm.refl _)).trans (l'.perm_insertionSort r)

theorem mem_zip_of_get {α β : Type} {l : List α} {l' : List β} {i : Nat} (h : i < l.length)
    (h' : i < l'.length) : (l[i], l'[i]) ∈ l.zip l' := by
  have bound : i < (l.zip l').length := by
    rw [List.length_zip]
    exact lt_min h h'
  have at_ : (l.zip l')[i] = (l[i], l'[i]) := List.getElem_zip
  rw [← at_]
  exact List.getElem_mem bound

theorem normal_fields {items : List (String × PyValue F K D)} (distinct : (items.map Prod.fst).Nodup) :
    normal py (.model items) =
      .object ((items.map fun e => (e.1, normal py e.2)).insertionSort byKey) := by
  rw [normal_model, comprehension_of_nodup]
  rw [List.map_map]
  exact distinct

theorem normal_strDict (items : List (String × PyValue F K D)) :
    normal py (.dict (items.map fun e => (.str e.1, e.2))) = normal py (.model items) := by
  rw [normal_dict, normal_model, List.map_map]
  rfl

theorem items_perm {items items' : List (String × PyValue F K D)}
    (distinct : (items.map Prod.fst).Nodup) (distinct' : (items'.map Prod.fst).Nodup)
    (h : normal py (.model items) = normal py (.model items')) :
    (items.map fun e => (e.1, normal py e.2)).Perm (items'.map fun e => (e.1, normal py e.2)) := by
  rw [normal_fields distinct, normal_fields distinct', Json.object.injEq] at h
  exact perm_of_insertionSort_eq h

theorem none_of_normal {t : Ty} {v : PyValue F K D} (typed : HasType t v)
    (null : normal py v = .null) : v = .none := by
  induction typed with
  | absent => rfl
  | present _ ih => exact ih null
  | list => rw [normal_list] at null; cases null
  | set => rw [normal_set] at null; cases null
  | dict => rw [normal_dict] at null; cases null
  | model => rw [normal_model] at null; cases null
  | _ => simp [normal, canonicalJsonValue, Json.sortKeys] at null

/-- Payloads of one model that are written alike differ in the order of sets, the order of dicts and
datetimes that are written alike at most. -/
theorem similar_of_normal {t : Ty} {a b : PyValue F K D} (typed : HasType t a) (typed' : HasType t b)
    (h : normal py a = normal py b) : Similar py a b := by
  induction typed generalizing b with
  | bool =>
      cases typed'
      simp only [normal, canonicalJsonValue, Json.sortKeys, Json.bool.injEq] at h
      rw [h]
      exact .refl
  | int =>
      cases typed'
      simp only [normal, canonicalJsonValue, Json.sortKeys, Json.number.injEq, Number.int.injEq] at h
      rw [h]
      exact .refl
  | float =>
      cases typed'
      simp only [normal, canonicalJsonValue, Json.sortKeys, Json.number.injEq, Number.float.injEq] at h
      rw [h]
      exact .refl
  | str =>
      cases typed'
      simp only [normal, canonicalJsonValue, Json.sortKeys, Json.string.injEq] at h
      rw [h]
      exact .refl
  | path =>
      cases typed'
      simp only [normal, canonicalJsonValue, Json.sortKeys, Json.string.injEq] at h
      rw [h]
      exact .refl
  | datetime =>
      cases typed'
      simp only [normal, canonicalJsonValue, Json.sortKeys, Json.string.injEq] at h
      exact .single (.datetime h)
  | enum =>
      cases typed'
      simp only [normal, canonicalJsonValue, Json.sortKeys, Json.string.injEq] at h
      rw [h]
      exact .refl
  | absent =>
      have null : normal py (PyValue.none : PyValue F K D) = .null := by
        simp [normal, canonicalJsonValue, Json.sortKeys]
      rw [none_of_normal typed' (h.symm.trans null)]
      exact .refl
  | present typed ih =>
      cases typed' with
      | absent =>
          have null : normal py (PyValue.none : PyValue F K D) = .null := by
            simp [normal, canonicalJsonValue, Json.sortKeys]
          rw [none_of_normal typed (h.trans null)]
          exact .refl
      | present typed' => exact ih typed' h
  | list typed ih =>
      cases typed' with
      | list typed' =>
          rw [normal_list, normal_list, Json.array.injEq] at h
          exact .list (forall₂_of_map_eq h fun x mem y mem' => ih x mem (typed' y mem'))
  | set typed ih =>
      cases typed' with
      | set typed' =>
          rw [normal_set, normal_set, Json.array.injEq] at h
          obtain ⟨zs, perm, same⟩ := exists_reordered (perm_of_insertionSort_eq h)
          have items := Similar.setItems (forall₂_of_map_eq same fun x mem y mem' =>
            ih x mem (typed' y (perm.mem_iff.mp mem')))
          exact items.trans (.single (.set perm))
  | @dict t items distinct typed ih =>
      cases typed' with
      | @dict _ items' distinct' typed' =>
          rw [normal_strDict, normal_strDict] at h
          obtain ⟨zs, perm, same⟩ := exists_reordered (items_perm distinct distinct' h)
          have values : List.Forall₂ (fun e e' => e.1 = e'.1 ∧ Similar py e.2 e'.2) items zs := by
            refine forall₂_of_map_eq same fun x mem y mem' eq => ⟨(Prod.mk.inj eq).1, ?_⟩
            exact ih x mem (typed' y (perm.mem_iff.mp mem')) (Prod.mk.inj eq).2
          have changed : Similar py (.dict (items.map fun e => (.str e.1, e.2)))
              (.dict (zs.map fun e => (.str e.1, e.2))) := by
            apply Similar.dictItems
            rw [List.forall₂_map_left_iff, List.forall₂_map_right_iff]
            exact values.imp fun e e' one => ⟨congrArg PyKey.str one.1, one.2⟩
          refine changed.trans (.single (.dict (perm.map _) ?_))
          rw [List.map_map]
          exact (perm.map Prod.fst).nodup_iff.mpr distinct'
  | @model fields values distinct names typed ih =>
      cases typed' with
      | @model _ values' _ names' typed' =>
          have perm := items_perm (names ▸ distinct) (names' ▸ distinct) h
          have same := eq_of_perm_of_keys perm (by
            rw [List.map_map, List.map_map]
            exact names.trans names'.symm) (by
            rw [List.map_map]
            exact names ▸ distinct)
          have length : values.length = fields.length := by simpa using congrArg List.length names
          have length' : values'.length = fields.length := by simpa using congrArg List.length names'
          apply Similar.model
          refine List.forall₂_iff_get.mpr ⟨length.trans length'.symm, fun i bound bound' => ?_⟩
          have within : i < fields.length := length ▸ bound
          have one : (values[i].1, normal py values[i].2) = (values'[i].1, normal py values'[i].2) := by
            have at_ := congrArg (·[i]?) same
            simpa [List.getElem?_eq_getElem bound, List.getElem?_eq_getElem bound'] using at_
          exact ⟨(Prod.mk.inj one).1, ih _ (mem_zip_of_get bound within)
            (typed' _ (mem_zip_of_get bound' within)) (Prod.mk.inj one).2⟩

theorem similar_of_digest (lawful : py.Lawful) {t : Ty} {a b : PyValue F K D} (typed : HasType t a)
    (typed' : HasType t b) {d : Digest} (h : canonicalDigest py a = .ok d)
    (h' : canonicalDigest py b = .ok d) : Similar py a b :=
  similar_of_normal typed typed' (normal_of_digest lawful h h')

end Magellan.Submission
