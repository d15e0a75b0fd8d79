import Magellan.Artifacts.Staging

/-!
# Isolation

Staging leaves every target at its own payload and the cache as it is exactly where no target lies
below another one.
-/

namespace Magellan.Artifacts.Staging

variable {Content : Type} {c : Config Content} {taskId : TaskId} {specs : List StaticArtifactSpec}
  {bindings : List (ArtifactBinding String)} {artifactDigests artifactDigests' : Dict String String}
  {target target' : Target} {digest digest' : String} {fs fs' : FileSystem Content}
  {l m p path : Location}

/-! ## The rest of the file system -/

/-- The rest of the file system is as it was. -/
def Framed (c : Config Content) (taskId : TaskId) (fs fs' : FileSystem Content) : Prop :=
  ∀ l, ¬ c.artifactsDirectory taskId <+: l → fs'.node l = fs.node l ∨
    (l <+: c.artifactsDirectory taskId ∧ fs.node l = none ∧ fs'.node l = some .directory)

theorem Framed.trans {fs'' : FileSystem Content} (h : Framed c taskId fs fs')
    (h' : Framed c taskId fs' fs'') : Framed c taskId fs fs'' := by
  intro l outside
  rcases h l outside with same | ⟨before, absent, dir⟩
  · rw [← same]
    exact h' l outside
  · rcases h' l outside with same | ⟨-, absent', -⟩
    · exact .inr ⟨before, absent, same.trans dir⟩
    · rw [dir] at absent'
      cases absent'

theorem Framed.cached (h : Framed c taskId fs fs') (l : Location) :
    fs'.node (c.cacheRoot ++ l) = fs.node (c.cacheRoot ++ l) := by
  have apart : ¬ c.artifactsDirectory taskId <+: c.cacheRoot ++ l := fun own =>
    not_cached_of_artifact own (List.prefix_append ..)
  rcases h _ apart with same | ⟨before, -, -⟩
  · exact same
  · exact absurd ((List.prefix_append ..).trans before)
      (not_cached_of_artifact (List.prefix_refl _))

theorem Framed.payload (h : Framed c taskId fs fs') (digest : String) (l : Location) :
    fs'.node (c.payloadDirectory digest ++ l) = fs.node (c.payloadDirectory digest ++ l) := by
  have cached := h.cached ([digest, "payload"] ++ l)
  rwa [← List.append_assoc] at cached

theorem Linked.framed (linked : Linked c (c.artifactsDirectory taskId ++ target) digest fs fs') :
    Framed c taskId fs fs' := by
  intro l outside
  by_cases before : l <+: c.artifactsDirectory taskId ++ target
  · have within : l <+: c.artifactsDirectory taskId :=
      (List.prefix_or_prefix_of_prefix before (List.prefix_append ..)).resolve_right outside
    refine (linked.way l before ?_).imp_right fun new => ⟨within, new⟩
    rintro rfl
    exact outside (List.prefix_append ..)
  · exact .inl (linked.other l before fun below => outside ((List.prefix_append ..).trans below))

/-! ## Links above a target -/

theorem marked_iff_of_cached
    (same : ∀ digest l, fs'.node (c.payloadDirectory digest ++ l) = fs.node (c.payloadDirectory digest ++ l)) :
    Marked c fs' ↔ Marked c fs := by
  unfold Marked FileSystem.IsLink
  simp only [same]

theorem Linked.linkAbove (linked : Linked c (c.artifactsDirectory taskId ++ target) digest fs fs')
    (above : LinkAbove c taskId fs l) : LinkAbove c taskId fs' l := by
  obtain ⟨p, before, other, own, dest, link⟩ := above
  have nonempty : p ≠ [] := by
    rintro rfl
    simp [artifacts_eq] at own
  by_cases further : c.artifactsDirectory taskId ++ target <+: p
  · refine ⟨_, further.trans before, ?_, List.prefix_append .., _, linked.link⟩
    rintro rfl
    exact other (List.IsPrefix.eq_of_length_le before further.length_le)
  · by_cases shorter : p <+: c.artifactsDirectory taskId ++ target
    · refine absurd ⟨dest, link⟩ (linked.plain p shorter ?_ nonempty)
      rintro rfl
      exact further (List.prefix_refl _)
    · refine ⟨p, before, other, own, dest, ?_⟩
      rw [linked.other p shorter further]
      exact link

theorem Linked.old_link (linked : Linked c path digest fs fs') {dest : Location}
    (link : fs'.node m = some (.link dest)) (other : m ≠ path) : fs.node m = some (.link dest) := by
  by_cases before : m <+: path
  · rcases linked.way m before other with same | ⟨-, dir⟩
    · exact same.symm.trans link
    · rw [dir] at link
      cases link
  · by_cases below : path <+: m
    · obtain ⟨rest, rfl⟩ := below
      have nothing : fs'.node (path ++ rest) = none := by
        refine fs'.node_below (fun dir => ?_) fun empty => other ?_
        · rw [linked.link] at dir
          cases dir
        · rw [empty, List.append_nil]
      rw [nothing] at link
      cases link
    · exact (linked.other m before below).symm.trans link

theorem Linked.led {taskId' : TaskId} (led : Led c taskId' fs)
    (linked : Linked c (c.artifactsDirectory taskId ++ target) digest fs fs') :
    Led c taskId' fs' where
  task p road := by
    rintro ⟨dest, link⟩
    refine led.task p road ⟨dest, linked.old_link link ?_⟩
    rintro rfl
    have longer := road.length_le
    simp [Config.taskDirectory, artifacts_eq] at longer
  cache digest' p road := by
    rintro ⟨dest, link⟩
    refine led.cache digest' p road ⟨dest, linked.old_link link ?_⟩
    rintro rfl
    obtain ⟨rest, eq⟩ := road
    rw [List.append_assoc, ← List.append_nil (c.payloadDirectory digest')] at eq
    exact artifact_ne_payload eq
  links m dest link area := by
    by_cases here : m = c.artifactsDirectory taskId ++ target
    · rw [here, linked.link] at link
      cases link
      exact ⟨digest, rfl⟩
    · exact led.links m dest (linked.old_link link here) area

/-! ## A run that leaves the cache as it is -/

theorem stage_cons {binding : ArtifactBinding String}
    (h : stage c taskId specs (binding :: bindings) artifactDigests fs = some (fs', artifactDigests')) :
    ∃ spec fs₁, specification specs binding.artifactId = some spec ∧
      validateCache c fs binding.digest = true ∧
      stageBinding c fs taskId spec.targetRelativeDirectory binding.digest = some fs₁ ∧
      stage c taskId specs bindings (artifactDigests.set binding.artifactId binding.digest) fs₁ =
        some (fs', artifactDigests') := by
  rw [stage] at h
  split at h
  · cases h
  · rename_i spec found
    split_ifs at h with valid
    obtain ⟨fs₁, staged, rest⟩ := Option.bind_eq_some_iff.mp h
    exact ⟨spec, fs₁, found, valid, staged, rest⟩

theorem bound_cons {binding : ArtifactBinding String} {spec : StaticArtifactSpec}
    (bound : Bound specs (binding :: bindings) target digest)
    (found : specification specs binding.artifactId = some spec) :
    (target = spec.targetRelativeDirectory ∧ digest = binding.digest) ∨
      Bound specs bindings target digest := by
  obtain ⟨b, inside, spec', found', rfl, rfl⟩ := bound
  rcases List.mem_cons.mp inside with rfl | later
  · cases found.symm.trans found'
    exact .inl ⟨rfl, rfl⟩
  · exact .inr ⟨b, later, spec', found', rfl, rfl⟩

theorem stage_marked (led : Led c taskId fs) (marked : Marked c fs)
    (h : stage c taskId specs bindings artifactDigests fs = some (fs', artifactDigests')) :
    Marked c fs' := by
  induction bindings generalizing fs artifactDigests with
  | nil =>
      cases h
      exact marked
  | cons binding bindings ih =>
      obtain ⟨spec, fs₁, -, -, staged, rest⟩ := stage_cons h
      obtain ⟨led₁, linked | ⟨-, marked₁⟩⟩ := stageBinding_cases led staged
      · exact ih led₁ ((marked_iff_of_cached linked.framed.payload).mpr marked) rest
      · exact ih led₁ marked₁ rest

theorem stage_clear (led : Led c taskId fs) (clean : ¬ Marked c fs')
    (h : stage c taskId specs bindings artifactDigests fs = some (fs', artifactDigests')) :
    Led c taskId fs' ∧ (∀ l, LinkAbove c taskId fs l → LinkAbove c taskId fs' l) ∧
      ∀ target digest, Bound specs bindings target digest →
        ¬ LinkAbove c taskId fs (c.artifactsDirectory taskId ++ target) := by
  induction bindings generalizing fs artifactDigests with
  | nil =>
      cases h
      exact ⟨led, fun _ above => above, fun _ _ ⟨_, inside, _⟩ => nomatch inside⟩
  | cons binding bindings ih =>
      obtain ⟨spec, fs₁, found, -, staged, rest⟩ := stage_cons h
      obtain ⟨led₁, linked | ⟨-, marked⟩⟩ := stageBinding_cases led staged
      · obtain ⟨led', on, free⟩ := ih led₁ rest
        refine ⟨led', fun l above => on l (linked.linkAbove above), fun target digest bound => ?_⟩
        rcases bound_cons bound found with ⟨rfl, rfl⟩ | later
        · rintro ⟨p, before, other, own, link⟩
          refine linked.plain p before other ?_ link
          rintro rfl
          simp [artifacts_eq] at own
        · exact fun above => free target digest later (linked.linkAbove above)
      · exact absurd (stage_marked led₁ marked rest) clean

theorem Led.resolve_clean (led : Led c taskId fs) (clean : ¬ Marked c fs) {r : Location}
    (h : fs.resolve (c.artifactsDirectory taskId ++ target) = some r) :
    (r = c.artifactsDirectory taskId ++ target) ∨
      ∃ p name after digest, c.artifactsDirectory taskId ++ target = p ++ name :: after ∧
        c.artifactsDirectory taskId <+: p ++ [name] ∧
        fs.node (p ++ [name]) = some (.link (c.payloadDirectory digest)) ∧
        r = c.payloadDirectory digest ++ after := by
  rcases FileSystem.walkOn_cases h with ⟨rfl, -⟩ | ⟨p, name, after, dest, eq, link, on⟩
  · exact .inl rfl
  · have before : p ++ [name] <+: c.artifactsDirectory taskId ++ target := ⟨after, by simp [eq]⟩
    have own : c.artifactsDirectory taskId <+: p ++ [name] :=
      (way_cases before).resolve_left fun road => led.task _ road ⟨dest, link⟩
    obtain ⟨digest, rfl⟩ := led.links _ _ link (.inl own)
    refine .inr ⟨p, name, after, digest, eq, own, link, ?_⟩
    rcases FileSystem.walkOn_cases on with ⟨rfl, -⟩ | ⟨p', name', after', dest', eq', link', -⟩
    · rfl
    · have within : p' ++ [name'] <+: c.payloadDirectory digest ++ after := ⟨after', by simp [eq']⟩
      rw [List.nil_append] at link'
      rcases List.prefix_or_prefix_of_prefix within (List.prefix_append ..) with above | below
      · exact absurd ⟨dest', link'⟩ (led.cache digest _ above)
      · obtain ⟨rest, below⟩ := below
        exact absurd ⟨digest, rest, dest', below ▸ link'⟩ clean

theorem Led.link_of_resolve (led : Led c taskId fs) (clean : ¬ Marked c fs)
    (h : fs.resolve (c.artifactsDirectory taskId ++ target) = some (c.payloadDirectory digest)) :
    fs.node (c.artifactsDirectory taskId ++ target) = some (.link (c.payloadDirectory digest)) := by
  rcases led.resolve_clean clean h with same | ⟨p, name, after, digest', eq, -, link, same⟩
  · exact absurd same.symm artifact_ne_payloadDirectory
  · rw [← List.append_nil (c.payloadDirectory digest)] at same
    obtain ⟨rfl, rfl⟩ := payload_inj same
    rw [eq]
    exact link

theorem Led.grown (led : Led c taskId fs) (grown : FileSystem.Grown fs fs') : Led c taskId fs' :=
  led.of_links fun _ _ => grown.link.mp

theorem marked_grown (grown : FileSystem.Grown fs fs') : Marked c fs' ↔ Marked c fs := by
  unfold Marked
  simp only [grown.isLink]

theorem linkAbove_grown (grown : FileSystem.Grown fs fs') :
    LinkAbove c taskId fs' l ↔ LinkAbove c taskId fs l := by
  unfold LinkAbove
  simp only [grown.isLink]

theorem Isolated.apart (led : Led c taskId fs) (clean : ¬ Marked c fs)
    (h : stageBindings c fs taskId specs bindings = some (fs', artifactDigests))
    (isolated : Isolated c taskId specs bindings fs fs' artifactDigests) :
    Apart c taskId specs bindings fs := by
  obtain ⟨fs₁, made, staged⟩ := Option.bind_eq_some_iff.mp h
  have grown := FileSystem.makeDirectories_grown made
  have clean' : ¬ Marked c fs' := by rwa [marked_iff_of_cached isolated.payloads]
  obtain ⟨led', -, free⟩ := stage_clear (led.grown grown) clean' staged
  have linked (target : Target) (digest : String) (bound : Bound specs bindings target digest) :
      fs'.node (c.artifactsDirectory taskId ++ target) = some (.link (c.payloadDirectory digest)) :=
    led'.link_of_resolve clean' (isolated.resolves target digest bound)
  constructor
  · intro target digest target' digest' bound bound'
    refine ⟨?_, ?_⟩
    · rintro ⟨outer, other⟩
      have there : fs'.node (c.artifactsDirectory taskId ++ target') ≠ none := by
        rw [linked target' digest' bound']
        exact Option.some_ne_none _
      have dir := fs'.directory_above there ((List.prefix_append_right_inj _).mpr outer)
        fun eq => other (List.append_cancel_left eq)
      rw [linked target digest bound] at dir
      cases dir
    · rintro rfl
      have same := (linked target digest bound).symm.trans (linked target digest' bound')
      have paths : c.payloadDirectory digest ++ [] = c.payloadDirectory digest' ++ [] := by
        simpa using same
      exact (payload_inj paths).1
  · intro target digest bound above
    exact free target digest bound ((linkAbove_grown grown).mpr above)

/-! ## Targets that are apart -/

theorem payload_ne_nil : c.payloadDirectory digest ≠ [] := by simp [payload_eq]

theorem Led.isDirectory_payload (led : Led c taskId fs) :
    fs.isDirectory (c.payloadDirectory digest) = true ↔
      fs.node (c.payloadDirectory digest) = some .directory := by
  constructor
  · exact FileSystem.node_of_isDirectory fun p before _ => led.cache digest p before
  · intro dir
    exact FileSystem.isDirectory_of_node (FileSystem.directories_of_present dir) payload_ne_nil

theorem validateCache_framed (led : Led c taskId fs) (led' : Led c taskId fs')
    (framed : Framed c taskId fs fs') : validateCache c fs' digest = validateCache c fs digest := by
  have same : (fun l => fs'.node (c.cacheRoot ++ l)) = fun l => fs.node (c.cacheRoot ++ l) :=
    funext framed.cached
  have payload := framed.payload digest []
  rw [List.append_nil] at payload
  have dirs : fs'.isDirectory (c.payloadDirectory digest) = fs.isDirectory (c.payloadDirectory digest) := by
    rw [Bool.eq_iff_iff, led'.isDirectory_payload, led.isDirectory_payload, payload]
  rw [validateCache, validateCache, dirs, same]

/-- Staging in which each binding's link came to its target. -/
inductive Run (c : Config Content) (taskId : TaskId) (specs : List StaticArtifactSpec) :
    List (ArtifactBinding String) → FileSystem Content → FileSystem Content → Prop where
  | nil (fs : FileSystem Content) : Run c taskId specs [] fs fs
  | cons {binding : ArtifactBinding String} {bindings : List (ArtifactBinding String)}
      {spec : StaticArtifactSpec} {fs fs₁ fs' : FileSystem Content}
      (found : specification specs binding.artifactId = some spec)
      (led : Led c taskId fs) (valid : validateCache c fs binding.digest = true)
      (linked : Linked c (c.artifactsDirectory taskId ++ spec.targetRelativeDirectory) binding.digest fs fs₁)
      (rest : Run c taskId specs bindings fs₁ fs') : Run c taskId specs (binding :: bindings) fs fs'

theorem Bound.head {binding : ArtifactBinding String} {spec : StaticArtifactSpec}
    (found : specification specs binding.artifactId = some spec) :
    Bound specs (binding :: bindings) spec.targetRelativeDirectory binding.digest :=
  ⟨binding, List.mem_cons_self, spec, found, rfl, rfl⟩

theorem Bound.tail {binding : ArtifactBinding String} (bound : Bound specs bindings target digest) :
    Bound specs (binding :: bindings) target digest := by
  obtain ⟨b, inside, rest⟩ := bound
  exact ⟨b, List.mem_cons_of_mem _ inside, rest⟩

theorem Apart.of_grown (apart : Apart c taskId specs bindings fs)
    (grown : FileSystem.Grown fs fs') : Apart c taskId specs bindings fs' where
  targets := apart.targets
  clear target digest bound := mt (linkAbove_grown grown).mp (apart.clear target digest bound)

theorem Apart.run (apart : Apart c taskId specs bindings fs) (led : Led c taskId fs)
    (h : stage c taskId specs bindings artifactDigests fs = some (fs', artifactDigests')) :
    Run c taskId specs bindings fs fs' ∧ Led c taskId fs' := by
  induction bindings generalizing fs artifactDigests with
  | nil =>
      cases h
      exact ⟨.nil _, led⟩
  | cons binding bindings ih =>
      obtain ⟨spec, fs₁, found, valid, staged, rest⟩ := stage_cons h
      have head : Bound specs (binding :: bindings) spec.targetRelativeDirectory binding.digest := .head found
      obtain ⟨led₁, linked | ⟨above, -⟩⟩ := stageBinding_cases led staged
      · have apart₁ : Apart c taskId specs bindings fs₁ := by
          constructor
          · intro target digest target' digest' bound bound'
            exact apart.targets target digest target' digest' bound.tail bound'.tail
          · rintro target digest bound ⟨p, before, other, own, link⟩
            by_cases here : p = c.artifactsDirectory taskId ++ spec.targetRelativeDirectory
            · subst here
              refine (apart.targets _ _ target digest head bound.tail).1 ⟨?_, fun same => other ?_⟩
              · exact (List.prefix_append_right_inj _).mp before
              · rw [same]
            · obtain ⟨dest, link⟩ := link
              refine apart.clear target digest bound.tail ⟨p, before, other, own, dest, ?_⟩
              exact linked.old_link link here
        obtain ⟨run, led'⟩ := ih apart₁ led₁ rest
        exact ⟨.cons found led valid linked run, led'⟩
      · exact absurd above (apart.clear _ _ head)

theorem Framed.refl (fs : FileSystem Content) : Framed c taskId fs fs := fun _ _ => .inl rfl

theorem Run.framed (run : Run c taskId specs bindings fs fs') : Framed c taskId fs fs' := by
  induction run with
  | nil fs => exact .refl fs
  | cons _ _ _ linked _ ih => exact linked.framed.trans ih

theorem Run.keeps (run : Run c taskId specs bindings fs fs')
    (link : fs.node (c.artifactsDirectory taskId ++ target) = some (.link (c.payloadDirectory digest)))
    (apart : ∀ target' digest', Bound specs bindings target' digest' →
      ¬ Below target target' ∧ ¬ Below target' target ∧ (target = target' → digest = digest')) :
    fs'.node (c.artifactsDirectory taskId ++ target) = some (.link (c.payloadDirectory digest)) := by
  induction run with
  | nil fs => exact link
  | @cons _ _ spec _ _ _ found _ _ linked _ ih =>
      refine ih ?_ fun target' digest' bound => apart target' digest' bound.tail
      obtain ⟨outer, inner, same⟩ := apart _ _ (.head found)
      by_cases here : target = spec.targetRelativeDirectory
      · rw [here, same here]
        exact linked.link
      · rw [linked.other, link]
        · exact fun before => outer ⟨(List.prefix_append_right_inj _).mp before, here⟩
        · exact fun below => inner ⟨(List.prefix_append_right_inj _).mp below, Ne.symm here⟩

theorem Run.link (run : Run c taskId specs bindings fs fs')
    (apart : ∀ target digest target' digest', Bound specs bindings target digest →
      Bound specs bindings target' digest' →
        ¬ Below target target' ∧ (target = target' → digest = digest'))
    (bound : Bound specs bindings target digest) :
    fs'.node (c.artifactsDirectory taskId ++ target) = some (.link (c.payloadDirectory digest)) := by
  induction run with
  | nil fs =>
      obtain ⟨_, inside, _⟩ := bound
      cases inside
  | cons found _ _ linked rest ih =>
      rcases bound_cons bound found with ⟨rfl, rfl⟩ | later
      · refine rest.keeps linked.link fun target' digest' bound' => ⟨?_, ?_, ?_⟩
        · exact (apart _ _ _ _ bound bound'.tail).1
        · exact (apart _ _ _ _ bound'.tail bound).1
        · exact (apart _ _ _ _ bound bound'.tail).2
      · exact ih (fun _ _ _ _ first second => apart _ _ _ _ first.tail second.tail) later

theorem Run.valid (run : Run c taskId specs bindings fs fs') (led' : Led c taskId fs')
    (bound : Bound specs bindings target digest) : validateCache c fs' digest = true := by
  induction run with
  | nil fs =>
      obtain ⟨_, inside, _⟩ := bound
      cases inside
  | cons found led valid linked rest ih =>
      rcases bound_cons bound found with ⟨-, rfl⟩ | later
      · rw [validateCache_framed led led' (linked.framed.trans rest.framed)]
        exact valid
      · exact ih led' later

/-- The artifacts directory is one, or leads to a payload. -/
def Opened (c : Config Content) (taskId : TaskId) (fs : FileSystem Content) : Prop :=
  fs.node (c.artifactsDirectory taskId) = some .directory ∨
    ∃ digest, fs.node (c.artifactsDirectory taskId) = some (.link (c.payloadDirectory digest)) ∧
      fs.node (c.payloadDirectory digest) = some .directory

theorem Opened.linked (opened : Opened c taskId fs) (led : Led c taskId fs)
    (valid : validateCache c fs digest = true)
    (linked : Linked c (c.artifactsDirectory taskId ++ target) digest fs fs') :
    Opened c taskId fs' := by
  have nonempty : c.artifactsDirectory taskId ≠ [] := by simp [artifacts_eq]
  have before : c.artifactsDirectory taskId <+: c.artifactsDirectory taskId ++ target :=
    List.prefix_append ..
  by_cases root : c.artifactsDirectory taskId = c.artifactsDirectory taskId ++ target
  · right
    refine ⟨digest, ?_, ?_⟩
    · rw [root]
      exact linked.link
    · have same := linked.framed.payload digest []
      rw [List.append_nil] at same
      rw [same, ← led.isDirectory_payload]
      rw [validateCache, Bool.and_eq_true] at valid
      exact valid.1
  · left
    rcases linked.way _ before root with same | ⟨-, dir⟩
    · rcases opened with dir | ⟨digest', link, -⟩
      · exact same.trans dir
      · exact absurd ⟨_, link⟩ (linked.plain _ before root nonempty)
    · exact dir

theorem Run.opened (run : Run c taskId specs bindings fs fs') (opened : Opened c taskId fs) :
    Opened c taskId fs' := by
  induction run with
  | nil fs => exact opened
  | cons _ led valid linked _ ih => exact ih (opened.linked led valid linked)

theorem Opened.makeDirectories (opened : Opened c taskId fs) :
    fs.makeDirectories [] (c.artifactsDirectory taskId) = some fs := by
  apply FileSystem.makeDirectories_there
  intro p before nonempty
  rw [List.nil_append]
  have there : fs.node (c.artifactsDirectory taskId) ≠ none := by
    rcases opened with dir | ⟨_, link, -⟩
    · rw [dir]
      exact Option.some_ne_none _
    · rw [link]
      exact Option.some_ne_none _
  by_cases whole : p = c.artifactsDirectory taskId
  · subst whole
    rcases opened with dir | ⟨digest, link, dir⟩
    · exact FileSystem.isDirectory_of_node (FileSystem.directories_of_present dir) nonempty
    · have leads := FileSystem.resolve_link link nonempty (FileSystem.directories_of_present dir)
      rw [FileSystem.isDirectory, leads, Option.bind_some, dir]
  · have dir := fs.directory_above there before whole
    exact FileSystem.isDirectory_of_node (FileSystem.directories_of_present dir) nonempty

theorem Led.opened (led : Led c taskId fs) (clean : ¬ Marked c fs)
    (found : fs.isDirectory (c.artifactsDirectory taskId) = true) : Opened c taskId fs := by
  unfold FileSystem.isDirectory at found
  split at found
  · rename_i dir
    obtain ⟨r, resolved, node⟩ := Option.bind_eq_some_iff.mp dir
    have whole : c.artifactsDirectory taskId ++ [] = c.artifactsDirectory taskId := List.append_nil _
    rw [← whole] at resolved
    rcases led.resolve_clean clean resolved with rfl | ⟨p, name, after, digest, eq, own, link, rfl⟩
    · rw [whole] at node
      exact .inl node
    · rw [whole, ← List.singleton_append, ← List.append_assoc] at eq
      have same : p ++ [name] = c.artifactsDirectory taskId :=
        (List.IsPrefix.eq_of_length_le own (eq ▸ (List.prefix_append ..).length_le)).symm
      rw [same] at eq link
      rw [List.self_eq_append_right.mp eq, List.append_nil] at node
      exact .inr ⟨digest, link, node⟩
  · cases found

theorem Led.enter (led : Led c taskId fs) (clean : ¬ Marked c fs)
    (h : fs.makeDirectories [] (c.artifactsDirectory taskId) = some fs') :
    Framed c taskId fs fs' ∧ Opened c taskId fs' := by
  have grown := FileSystem.makeDirectories_grown h
  rw [Config.artifactsDirectory, FileSystem.makeDirectories_append] at h
  obtain ⟨fs₁, road, last⟩ := Option.bind_eq_some_iff.mp h
  obtain ⟨dirs, same⟩ := FileSystem.makeDirectories_plain
    (fun p inside nonempty => absurd (List.prefix_nil.mp inside) nonempty)
    (fun p inside => led.task p inside) road
  rw [List.nil_append] at dirs same last
  have other (m : Location) (outside : ¬ m <+: c.artifactsDirectory taskId) :
      fs₁.node m = fs.node m :=
    same m fun before => outside (before.trans (List.prefix_append ..))
  rw [FileSystem.makeDirectories] at last
  split at last
  · rename_i found
    cases last
    refine ⟨fun m _ => ?_, (led.grown grown).opened (mt (marked_grown grown).mp clean) found⟩
    by_cases before : m <+: c.artifactsDirectory taskId
    · exact (grown m).imp_right fun new => ⟨before, new⟩
    · exact .inl (other m before)
  · obtain ⟨fs₂, made, rest⟩ := Option.bind_eq_some_iff.mp last
    cases rest
    obtain ⟨l, resolved, -, -, node⟩ := FileSystem.create_ok made
    cases (FileSystem.resolve_of_directories dirs).symm.trans resolved
    refine ⟨fun m _ => ?_, .inl ?_⟩
    · by_cases before : m <+: c.artifactsDirectory taskId
      · exact (grown m).imp_right fun new => ⟨before, new⟩
      · left
        rw [node, Function.update_of_ne, other m before]
        rintro rfl
        exact before (List.prefix_refl _)
    · rw [node]
      exact Function.update_self ..

/-! ## Staging again -/

theorem stageBinding_again
    (link : fs.node (c.artifactsDirectory taskId ++ target) = some (.link (c.payloadDirectory digest))) :
    stageBinding c fs taskId target digest = some fs := by
  have nonempty : c.artifactsDirectory taskId ++ target ≠ [] := by simp [artifacts_eq]
  unfold stageBinding
  generalize c.artifactsDirectory taskId ++ target = path at link nonempty ⊢
  obtain ⟨parent, name, rfl⟩ : ∃ parent name, path = parent ++ [name] :=
    ⟨path.dropLast, path.getLast nonempty, (List.dropLast_append_getLast nonempty).symm⟩
  have there : fs.node (parent ++ [name]) ≠ none := by
    rw [link]
    exact Option.some_ne_none _
  have dirs := FileSystem.directories_of_child there
  have made : fs.makeDirectories [] parent = some fs := by
    apply FileSystem.makeDirectories_there
    intro p before nonempty
    have dir := dirs p before nonempty
    exact FileSystem.isDirectory_of_node (FileSystem.directories_of_present dir) nonempty
  obtain ⟨fs₁, removed, created⟩ := FileSystem.link_again link
  have isLink : fs.isSymlink parent name = true := by
    rw [FileSystem.isSymlink, FileSystem.resolve_of_directories dirs, Option.bind_some, link]
  simp only [List.dropLast_concat, List.getLastD_concat, made, Option.bind_some]
  rw [clear, if_pos (.inl isLink), removed, Option.bind_some]
  exact created

theorem stage_again {fs'' : FileSystem Content}
    (h : stage c taskId specs bindings artifactDigests fs = some (fs', artifactDigests'))
    (valid : ∀ target digest, Bound specs bindings target digest → validateCache c fs'' digest = true)
    (linked : ∀ target digest, Bound specs bindings target digest →
      fs''.node (c.artifactsDirectory taskId ++ target) = some (.link (c.payloadDirectory digest))) :
    stage c taskId specs bindings artifactDigests fs'' = some (fs'', artifactDigests') := by
  induction bindings generalizing fs artifactDigests with
  | nil =>
      cases h
      rfl
  | cons binding bindings ih =>
      obtain ⟨spec, fs₁, found, -, -, rest⟩ := stage_cons h
      have head : Bound specs (binding :: bindings) spec.targetRelativeDirectory binding.digest := .head found
      have tail := ih rest (fun _ _ bound => valid _ _ bound.tail) fun _ _ bound => linked _ _ bound.tail
      rw [stage, found]
      dsimp only
      rw [if_pos (valid _ _ head), stageBinding_again (linked _ _ head), Option.bind_some]
      exact tail

theorem Apart.isolated (apart : Apart c taskId specs bindings fs) (led : Led c taskId fs)
    (clean : ¬ Marked c fs)
    (h : stageBindings c fs taskId specs bindings = some (fs', artifactDigests)) :
    Isolated c taskId specs bindings fs fs' artifactDigests := by
  obtain ⟨fs₁, made, staged⟩ := Option.bind_eq_some_iff.mp h
  have grown := FileSystem.makeDirectories_grown made
  obtain ⟨framed, opened⟩ := led.enter clean made
  obtain ⟨run, led'⟩ := (apart.of_grown grown).run (led.grown grown) staged
  have whole := framed.trans run.framed
  have link (target : Target) (digest : String) (bound : Bound specs bindings target digest) :=
    run.link apart.targets bound
  have valid (target : Target) (digest : String) (bound : Bound specs bindings target digest) :=
    run.valid led' bound
  refine ⟨fun target digest bound => ?_, whole, whole.payload, ?_⟩
  · have dir : fs'.node (c.payloadDirectory digest) = some .directory := by
      have found := valid target digest bound
      rw [validateCache, Bool.and_eq_true] at found
      exact led'.isDirectory_payload.mp found.1
    refine FileSystem.resolve_link (link target digest bound) ?_ (FileSystem.directories_of_present dir)
    simp [artifacts_eq]
  · rw [stageBindings, (run.opened opened).makeDirectories, Option.bind_some]
    exact stage_again staged valid link

/-! ## Every reachable file system -/

theorem Run.led {taskId' : TaskId} (run : Run c taskId specs bindings fs fs')
    (led : Led c taskId' fs) : Led c taskId' fs' := by
  induction run with
  | nil fs => exact led
  | cons _ _ _ linked _ ih => exact ih (linked.led led)

/-- From a file system without links: staging of targets that are apart, and changes of any other
kind, which make no link in the area. -/
inductive Reached (c : Config Content) : FileSystem Content → Prop where
  | start {fs : FileSystem Content} (plain : ∀ l, ¬ fs.IsLink l) : Reached c fs
  | change {fs fs' : FileSystem Content} (before : Reached c fs)
      (links : ∀ l target, fs'.node l = some (.link target) → fs.node l = some (.link target)) :
      Reached c fs'
  | stage {fs fs' : FileSystem Content} {taskId : TaskId} {specs : List StaticArtifactSpec}
      {bindings : List (ArtifactBinding String)} {artifactDigests : Dict String String}
      (before : Reached c fs) (apart : Apart c taskId specs bindings fs)
      (staged : stageBindings c fs taskId specs bindings = some (fs', artifactDigests)) :
      Reached c fs'

theorem Reached.kept (reached : Reached c fs) : (∀ taskId, Led c taskId fs) ∧ ¬ Marked c fs := by
  induction reached with
  | start plain =>
      refine ⟨fun taskId => ⟨fun p _ => plain p, fun _ p _ => plain p, ?_⟩, ?_⟩
      · exact fun l target link => absurd ⟨target, link⟩ (plain l)
      · exact fun ⟨_, l, link⟩ => plain _ link
  | change _ links ih =>
      refine ⟨fun taskId => (ih.1 taskId).of_links links, ?_⟩
      rintro ⟨digest, l, target, link⟩
      exact ih.2 ⟨digest, l, target, links _ _ link⟩
  | stage _ apart staged ih =>
      obtain ⟨led, clean⟩ := ih
      have isolated := apart.isolated (led _) clean staged
      refine ⟨fun taskId => ?_, mt (marked_iff_of_cached isolated.payloads).mp clean⟩
      obtain ⟨fs₁, made, staged⟩ := Option.bind_eq_some_iff.mp staged
      have grown := FileSystem.makeDirectories_grown made
      exact (apart.of_grown grown |>.run ((led _).grown grown) staged).1.led ((led taskId).grown grown)

/-- Staging is isolating exactly where the targets are apart. -/
theorem isolated_iff_apart (reached : Reached c fs)
    (h : stageBindings c fs taskId specs bindings = some (fs', artifactDigests)) :
    Isolated c taskId specs bindings fs fs' artifactDigests ↔
      Apart c taskId specs bindings fs := by
  obtain ⟨led, clean⟩ := reached.kept
  exact ⟨Isolated.apart (led taskId) clean h, fun apart => apart.isolated (led taskId) clean h⟩

/-! ## Two artifacts -/

def sampleConfig : Config Unit where
  stateRoot := []
  accepts _ _ := true

/-- A cache with one file below each payload. -/
def sampleCache (digests : List String) : FileSystem Unit where
  node l :=
    if ∃ digest ∈ digests, l <+: sampleConfig.payloadDirectory digest then some .directory
    else if ∃ digest ∈ digests, l = sampleConfig.payloadDirectory digest ++ ["data"] then some (.file ())
    else none
  parent := by
    intro l name present
    split_ifs at present with dir file
    · obtain ⟨digest, inside, before⟩ := dir
      exact if_pos ⟨digest, inside, (List.prefix_append ..).trans before⟩
    · obtain ⟨digest, inside, same⟩ := file
      obtain ⟨rfl, -⟩ := List.append_inj' same rfl
      exact if_pos ⟨digest, inside, List.prefix_refl _⟩
    · exact absurd rfl present

theorem sampleCache_plain (digests : List String) (l : Location) : ¬ (sampleCache digests).IsLink l := by
  rintro ⟨target, link⟩
  unfold sampleCache at link
  dsimp only at link
  split_ifs at link <;> cases link

theorem model_safe : ".." ∉ ["model"] := by decide

/-- A model, and its tokenizer at a target. -/
def sampleSpecs (target : Target) (safe : ".." ∉ target) : List StaticArtifactSpec :=
  [⟨"model", .model, "model", ["model"], model_safe⟩, ⟨"tokenizer", .model, "tokenizer", target, safe⟩]

def sampleBindings : List (ArtifactBinding String) := [⟨"model", "m", 1⟩, ⟨"tokenizer", "t", 1⟩]

theorem sampleSpecs_bound {safe : ".." ∉ target'}
    (bound : Bound (sampleSpecs target' safe) sampleBindings target digest) :
    (target, digest) ∈ [(["model"], "m"), (target', "t")] := by
  obtain ⟨b, inside, spec, found, rfl, rfl⟩ := bound
  rcases List.mem_cons.mp inside with rfl | later
  · cases found
    exact List.mem_cons_self
  · cases List.mem_singleton.mp later
    cases found
    exact List.mem_cons_of_mem _ List.mem_cons_self

theorem sample_isolated :
    ∃ fs' artifactDigests,
      stageBindings sampleConfig (sampleCache ["m", "t"]) "task"
        (sampleSpecs ["tokenizer"] (by decide)) sampleBindings = some (fs', artifactDigests) ∧
      Isolated sampleConfig "task" (sampleSpecs ["tokenizer"] (by decide)) sampleBindings
        (sampleCache ["m", "t"]) fs' artifactDigests := by
  have staged : (stageBindings sampleConfig (sampleCache ["m", "t"]) "task"
      (sampleSpecs ["tokenizer"] (by decide)) sampleBindings).isSome = true := by decide +kernel
  obtain ⟨⟨fs', artifactDigests⟩, h⟩ := Option.isSome_iff_exists.mp staged
  have others : ∀ first ∈ [(["model"], "m"), (["tokenizer"], "t")],
      ∀ second ∈ [(["model"], "m"), (["tokenizer"], "t")],
        ¬ Below first.1 second.1 ∧ (first.1 = second.1 → first.2 = second.2) := by decide
  refine ⟨fs', artifactDigests, h, (isolated_iff_apart (.start (sampleCache_plain _)) h).mpr ⟨?_, ?_⟩⟩
  · intro target digest target' digest' bound bound'
    exact others _ (sampleSpecs_bound bound) _ (sampleSpecs_bound bound')
  · rintro target digest - ⟨p, -, -, -, link⟩
    exact sampleCache_plain _ p link

/-- A tokenizer below the model: its link lands in the model's payload. -/
theorem nested_target_disturbs :
    ∃ fs' artifactDigests,
      stageBindings sampleConfig (sampleCache ["m", "t"]) "task"
        (sampleSpecs ["model", "tokenizer"] (by decide)) sampleBindings = some (fs', artifactDigests) ∧
      ¬ Isolated sampleConfig "task" (sampleSpecs ["model", "tokenizer"] (by decide)) sampleBindings
        (sampleCache ["m", "t"]) fs' artifactDigests := by
  have staged : ((stageBindings sampleConfig (sampleCache ["m", "t"]) "task"
      (sampleSpecs ["model", "tokenizer"] (by decide)) sampleBindings).bind fun staged =>
        staged.1.node ["artifact-cache", "m", "payload", "tokenizer"]).isSome = true := by
    decide +kernel
  have free : (sampleCache ["m", "t"]).node ["artifact-cache", "m", "payload", "tokenizer"] = none := by
    decide +kernel
  obtain ⟨n, there⟩ := Option.isSome_iff_exists.mp staged
  obtain ⟨⟨fs', artifactDigests⟩, h, new⟩ := Option.bind_eq_some_iff.mp there
  refine ⟨fs', artifactDigests, h, fun isolated => ?_⟩
  have same := (new.symm.trans (isolated.payloads "m" ["tokenizer"])).trans free
  cases same

end Magellan.Artifacts.Staging
