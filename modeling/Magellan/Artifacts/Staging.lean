import Magellan.Artifacts.Manager
import Magellan.Data.FileSystem

/-!
# Staging in the file system

The targets of a task are replaced one after another by links into the cache. A target that lies
below another one is reached through the link, and what is done there is done to the cached payload.
-/

namespace Magellan.Artifacts.Staging

variable {Content : Type}

/-- Where the state of the node is, and how `validate_cache` judges an entry of the cache whose
payload is a directory. -/
structure Config (Content : Type) where
  stateRoot : Location
  accepts : (Location → Option (Node Content)) → String → Bool

section

variable (c : Config Content)

def Config.taskDirectory (taskId : TaskId) : Location := c.stateRoot ++ ["tasks", taskId]

def Config.artifactsDirectory (taskId : TaskId) : Location := c.taskDirectory taskId ++ ["artifacts"]

def Config.cacheRoot : Location := c.stateRoot ++ ["artifact-cache"]

/-- A digest is a name in the cache. -/
def Config.payloadDirectory (digest : String) : Location := c.cacheRoot ++ [digest, "payload"]

def validateCache (fs : FileSystem Content) (digest : String) : Bool :=
  fs.isDirectory (c.payloadDirectory digest) &&
    c.accepts (fun l => fs.node (c.cacheRoot ++ l)) digest

/-- Of two specifications with one id the mapping holds the later one. -/
def specification (specs : List StaticArtifactSpec) (artifactId : String) : Option StaticArtifactSpec :=
  specs.reverse.find? (·.artifactId = artifactId)

/-- Removes what is at a target. -/
def clear (fs : FileSystem Content) (directory : Location) (name : String) :
    Option (FileSystem Content) :=
  if fs.isSymlink directory name ∨ fs.isFile (directory ++ [name]) then fs.unlink directory name
  else if fs.isDirectory (directory ++ [name]) then fs.removeTree directory name
  else some fs

/-- One binding. The link that is made under a fresh name and moved to the target is made there at
once. -/
def stageBinding (fs : FileSystem Content) (taskId : TaskId) (target : Target) (digest : String) :
    Option (FileSystem Content) :=
  let path := c.artifactsDirectory taskId ++ target
  let directory := path.dropLast
  let name := path.getLastD ""
  (fs.makeDirectories [] directory).bind fun fs =>
    (clear fs directory name).bind fun fs =>
      fs.create (.link (c.payloadDirectory digest)) directory name

def stage (taskId : TaskId) (specs : List StaticArtifactSpec) :
    List (ArtifactBinding String) → Dict String String → FileSystem Content →
      Option (FileSystem Content × Dict String String)
  | [], artifactDigests, fs => some (fs, artifactDigests)
  | binding :: bindings, artifactDigests, fs =>
      match specification specs binding.artifactId with
      | none => none
      | some spec =>
          if validateCache c fs binding.digest then
            (stageBinding c fs taskId spec.targetRelativeDirectory binding.digest).bind fun fs =>
              stage taskId specs bindings (artifactDigests.set binding.artifactId binding.digest) fs
          else none

/-- The file system and the digests to record for the task; `none` where the call raises. -/
def stageBindings (fs : FileSystem Content) (taskId : TaskId) (specs : List StaticArtifactSpec)
    (bindings : List (ArtifactBinding String)) :
    Option (FileSystem Content × Dict String String) :=
  (fs.makeDirectories [] (c.artifactsDirectory taskId)).bind fun fs =>
    stage c taskId specs bindings .empty fs

/-! ## Isolation -/

/-- A binding of the list has this target and this digest. -/
def Bound (specs : List StaticArtifactSpec) (bindings : List (ArtifactBinding String))
    (target : Target) (digest : String) : Prop :=
  ∃ b ∈ bindings, ∃ spec, specification specs b.artifactId = some spec ∧
    spec.targetRelativeDirectory = target ∧ b.digest = digest

/-- What staging is to leave. -/
structure Isolated (taskId : TaskId) (specs : List StaticArtifactSpec)
    (bindings : List (ArtifactBinding String)) (fs fs' : FileSystem Content)
    (artifactDigests : Dict String String) : Prop where
  resolves : ∀ target digest, Bound specs bindings target digest →
    fs'.resolve (c.artifactsDirectory taskId ++ target) = some (c.payloadDirectory digest)
  /-- The directories that lead to the artifacts directory may be new. -/
  outside : ∀ l, ¬ c.artifactsDirectory taskId <+: l → fs'.node l = fs.node l ∨
    (l <+: c.artifactsDirectory taskId ∧ fs.node l = none ∧ fs'.node l = some .directory)
  payloads : ∀ digest l,
    fs'.node (c.payloadDirectory digest ++ l) = fs.node (c.payloadDirectory digest ++ l)
  again : stageBindings c fs' taskId specs bindings = some (fs', artifactDigests)

/-- A link of the artifacts directory lies above a location. -/
def LinkAbove (taskId : TaskId) (fs : FileSystem Content) (l : Location) : Prop :=
  ∃ p, p <+: l ∧ p ≠ l ∧ c.artifactsDirectory taskId <+: p ∧ fs.IsLink p

/-- No target lies below another one or below a link that is there, and equal targets have equal
digests. -/
structure Apart (taskId : TaskId) (specs : List StaticArtifactSpec)
    (bindings : List (ArtifactBinding String)) (fs : FileSystem Content) : Prop where
  targets : ∀ target digest target' digest', Bound specs bindings target digest →
    Bound specs bindings target' digest' →
      ¬ Below target target' ∧ (target = target' → digest = digest')
  clear : ∀ target digest, Bound specs bindings target digest →
    ¬ LinkAbove c taskId fs (c.artifactsDirectory taskId ++ target)

/-- The links of the area: none on the way to it, and those of the artifacts directory and of the
cache lead to cached payloads. -/
structure Led (taskId : TaskId) (fs : FileSystem Content) : Prop where
  task : ∀ p, p <+: c.taskDirectory taskId → ¬ fs.IsLink p
  cache : ∀ digest p, p <+: c.payloadDirectory digest → ¬ fs.IsLink p
  links : ∀ l target, fs.node l = some (.link target) →
    (c.artifactsDirectory taskId <+: l ∨ ∃ digest, c.payloadDirectory digest <+: l) →
      ∃ digest, target = c.payloadDirectory digest

/-- A cached payload has got a link. -/
def Marked (fs : FileSystem Content) : Prop :=
  ∃ digest l, fs.IsLink (c.payloadDirectory digest ++ l)

end

/-! ## Locations -/

variable {c : Config Content} {taskId : TaskId} {digest digest' : String} {l l' m p path : Location}
  {target : Target} {fs fs' : FileSystem Content}

theorem artifacts_eq : c.artifactsDirectory taskId = c.stateRoot ++ ["tasks", taskId, "artifacts"] := by
  simp [Config.artifactsDirectory, Config.taskDirectory]

theorem payload_eq : c.payloadDirectory digest = c.stateRoot ++ ["artifact-cache", digest, "payload"] := by
  simp [Config.payloadDirectory, Config.cacheRoot]

theorem payload_inj (h : c.payloadDirectory digest ++ l = c.payloadDirectory digest' ++ l') :
    digest = digest' ∧ l = l' := by
  simpa [payload_eq] using h

theorem not_cached_of_artifact (inside : c.artifactsDirectory taskId <+: m) :
    ¬ c.cacheRoot <+: m := by
  rintro ⟨rest, rfl⟩
  obtain ⟨rest', eq⟩ := inside
  simp [artifacts_eq, Config.cacheRoot] at eq

theorem cached_of_payload : c.cacheRoot <+: c.payloadDirectory digest ++ l := by
  rw [Config.payloadDirectory, List.append_assoc]
  exact List.prefix_append ..

theorem artifact_ne_payload : c.artifactsDirectory taskId ++ l ≠ c.payloadDirectory digest ++ l' := by
  simp [artifacts_eq, payload_eq]

theorem artifact_ne_payloadDirectory :
    c.artifactsDirectory taskId ++ l ≠ c.payloadDirectory digest := by
  simp [artifacts_eq, payload_eq]

theorem way_cases (h : p <+: c.artifactsDirectory taskId ++ target) :
    p <+: c.taskDirectory taskId ∨ c.artifactsDirectory taskId <+: p := by
  rcases List.prefix_or_prefix_of_prefix h (List.prefix_append ..) with inside | beyond
  · rcases List.prefix_concat_iff.mp inside with rfl | before
    · exact .inr (List.prefix_refl _)
    · exact .inl before
  · exact .inr beyond

/-! ## Walks in the area -/

theorem Led.walk_payload (led : Led c taskId fs) {links : Nat} {r : Location}
    (h : fs.walk links [] (c.payloadDirectory digest ++ l) = some r) :
    ∃ digest' l', r = c.payloadDirectory digest' ++ l' := by
  induction links generalizing digest l with
  | zero =>
      rcases FileSystem.walkOn_cases h with ⟨rfl, -⟩ | ⟨p, name, after, target, -, -, on⟩
      · exact ⟨digest, l, rfl⟩
      · cases on
  | succ links ih =>
      rcases FileSystem.walkOn_cases h with ⟨rfl, -⟩ | ⟨p, name, after, target, eq, link, on⟩
      · exact ⟨digest, l, rfl⟩
      · have inside : p ++ [name] <+: c.payloadDirectory digest ++ l := ⟨after, by rw [eq]; simp⟩
        have beyond : c.payloadDirectory digest <+: p ++ [name] := by
          rcases List.prefix_or_prefix_of_prefix inside (List.prefix_append ..) with before | beyond
          · exact absurd ⟨target, link⟩ (led.cache digest _ before)
          · exact beyond
        obtain ⟨digest', rfl⟩ := led.links _ _ link (.inr ⟨digest, beyond⟩)
        exact ih on

/-- A walk to a target leads there, or a link on the way leads it to a cached payload. -/
theorem Led.resolve_cases (led : Led c taskId fs) {r : Location}
    (inside : path <+: c.artifactsDirectory taskId ++ target) (h : fs.resolve path = some r) :
    (r = path ∧ ∀ p, p <+: path → p ≠ [] → ¬ fs.IsLink p) ∨
      ((∃ p, p <+: path ∧ c.artifactsDirectory taskId <+: p ∧ fs.IsLink p) ∧
        ∃ digest l, r = c.payloadDirectory digest ++ l) := by
  rcases FileSystem.walkOn_cases h with plain | ⟨p, name, after, target, rfl, link, on⟩
  · exact .inl plain
  · have before : p ++ [name] <+: p ++ name :: after := ⟨after, by simp⟩
    rcases way_cases (before.trans inside) with road | own
    · exact absurd ⟨target, link⟩ (led.task _ road)
    · obtain ⟨digest, rfl⟩ := led.links _ _ link (.inl own)
      exact .inr ⟨⟨p ++ [name], before, own, ⟨_, link⟩⟩, led.walk_payload on⟩

theorem Led.of_links (led : Led c taskId fs)
    (fewer : ∀ m target, fs'.node m = some (.link target) → fs.node m = some (.link target)) :
    Led c taskId fs' where
  task p road := fun ⟨target, link⟩ => led.task p road ⟨target, fewer p target link⟩
  cache digest p road := fun ⟨target, link⟩ => led.cache digest p road ⟨target, fewer p target link⟩
  links m target link := led.links m target (fewer m target link)

theorem clear_ok {directory : Location} {name : String} (h : clear fs directory name = some fs') :
    fs' = fs ∨ ∃ l, fs.resolve directory = some l ∧ fs' = fs.remove (l ++ [name]) := by
  unfold clear at h
  split_ifs at h
  · unfold FileSystem.unlink at h
    split at h
    · cases h
    · rename_i l resolved
      split at h
      · exact .inr ⟨l, resolved, (Option.some.inj h).symm⟩
      · exact .inr ⟨l, resolved, (Option.some.inj h).symm⟩
      · cases h
  · unfold FileSystem.removeTree at h
    split at h
    · cases h
    · rename_i l resolved
      split at h
      · exact .inr ⟨l, resolved, (Option.some.inj h).symm⟩
      · cases h
  · exact .inl (Option.some.inj h).symm

/-! ## One binding -/

/-- The file system with the link at its target. -/
structure Linked (c : Config Content) (path : Location) (digest : String)
    (fs fs' : FileSystem Content) : Prop where
  plain : ∀ p, p <+: path → p ≠ path → p ≠ [] → ¬ fs.IsLink p
  link : fs'.node path = some (.link (c.payloadDirectory digest))
  way : ∀ p, p <+: path → p ≠ path →
    fs'.node p = fs.node p ∨ (fs.node p = none ∧ fs'.node p = some .directory)
  other : ∀ m, ¬ m <+: path → ¬ path <+: m → fs'.node m = fs.node m

theorem shorter_of_proper {way : Location} {name : String} (inside : p <+: way ++ [name])
    (other : p ≠ way ++ [name]) : p <+: way := by
  rcases List.prefix_concat_iff.mp inside with same | before
  · exact absurd same other
  · exact before

theorem not_whole {way : Location} {name : String} (inside : p <+: way) : p ≠ way ++ [name] := by
  rintro rfl
  have shorter := inside.length_le
  rw [List.length_append, List.length_singleton] at shorter
  omega

theorem Led.create {directory : Location} {name : String} (led : Led c taskId fs)
    (inside : directory ++ [name] <+: c.artifactsDirectory taskId ++ target)
    (whole : c.artifactsDirectory taskId <+: directory ++ [name])
    (h : fs.create (.link (c.payloadDirectory digest)) directory name = some fs') :
    Led c taskId fs' := by
  obtain ⟨l, resolved, -, -, node⟩ := FileSystem.create_ok h
  have place : c.artifactsDirectory taskId <+: l ++ [name] ∨
      ∃ digest rest, l ++ [name] = c.payloadDirectory digest ++ rest ∧ rest ≠ [] := by
    rcases led.resolve_cases ((List.prefix_append ..).trans inside) resolved with
      ⟨rfl, -⟩ | ⟨-, digest, rest, rfl⟩
    · exact .inl whole
    · exact .inr ⟨digest, rest ++ [name], by simp, by simp⟩
  have old (m target) (link : fs'.node m = some (.link target)) (other : m ≠ l ++ [name]) :
      fs.node m = some (.link target) := by
    rwa [node, Function.update_of_ne other] at link
  constructor
  · rintro p road ⟨target, link⟩
    refine led.task p road ⟨target, old p target link ?_⟩
    rintro rfl
    rcases place with own | ⟨digest, rest, eq, -⟩
    · have longer := (own.trans road).length_le
      rw [Config.artifactsDirectory, List.length_append, List.length_singleton] at longer
      omega
    · rw [eq] at road
      have cached := (cached_of_payload.trans road).trans (List.prefix_append _ ["artifacts"])
      exact not_cached_of_artifact (List.prefix_refl _) cached
  · rintro digest p road ⟨target, link⟩
    refine led.cache digest p road ⟨target, old p target link ?_⟩
    rintro rfl
    rcases place with own | ⟨digest', rest, eq, nonempty⟩
    · obtain ⟨rest, eq⟩ := own.trans road
      exact artifact_ne_payloadDirectory eq
    · obtain ⟨after, eq'⟩ := road
      rw [eq, List.append_assoc, ← List.append_nil (c.payloadDirectory digest)] at eq'
      have nothing := (payload_inj eq').2
      exact nonempty (List.append_eq_nil_iff.mp nothing).1
  · intro m target link area
    by_cases here : m = l ++ [name]
    · rw [node, here, Function.update_self] at link
      cases link
      exact ⟨digest, rfl⟩
    · exact led.links m target (old m target link here) area

/-- Staging one binding puts the link at its target, or a link on the way leads it into a payload. -/
theorem stageBinding_cases (led : Led c taskId fs)
    (h : stageBinding c fs taskId target digest = some fs') :
    Led c taskId fs' ∧
      (Linked c (c.artifactsDirectory taskId ++ target) digest fs fs' ∨
        (LinkAbove c taskId fs (c.artifactsDirectory taskId ++ target) ∧ Marked c fs')) := by
  have whole : c.artifactsDirectory taskId <+: c.artifactsDirectory taskId ++ target :=
    List.prefix_append ..
  have refl : c.artifactsDirectory taskId ++ target <+: c.artifactsDirectory taskId ++ target :=
    List.prefix_refl _
  have nonempty : c.artifactsDirectory taskId ++ target ≠ [] := by simp [artifacts_eq]
  generalize path_eq : c.artifactsDirectory taskId ++ target = path at whole nonempty ⊢
  obtain ⟨parent, name, rfl⟩ : ∃ parent name, path = parent ++ [name] :=
    ⟨path.dropLast, path.getLast nonempty, (List.dropLast_append_getLast nonempty).symm⟩
  rw [path_eq] at refl
  nth_rewrite 2 [← path_eq] at refl
  have inside := (List.prefix_append ..).trans refl
  simp only [stageBinding, path_eq, List.dropLast_concat, List.getLastD_concat] at h
  obtain ⟨fs₁, made, h⟩ := Option.bind_eq_some_iff.mp h
  obtain ⟨fs₂, cleared, created⟩ := Option.bind_eq_some_iff.mp h
  have grown := FileSystem.makeDirectories_grown made
  have led₁ : Led c taskId fs₁ := led.of_links fun m target => grown.link.mp
  have removed := clear_ok cleared
  have fewer : ∀ m target, fs₂.node m = some (.link target) → fs₁.node m = some (.link target) := by
    intro m target link
    rcases removed with rfl | ⟨l, -, rfl⟩
    · exact link
    · simp only [FileSystem.remove] at link
      split_ifs at link
      exact link
  have led₂ := led₁.of_links fewer
  refine ⟨led₂.create refl whole created, ?_⟩
  obtain ⟨l, resolved, -, -, node⟩ := FileSystem.create_ok created
  rcases led₂.resolve_cases inside resolved with
    ⟨rfl, plain⟩ | ⟨⟨p, before, own, target', link⟩, digest', rest, rfl⟩
  · left
    have plain₁ : ∀ p, p <+: l → p ≠ [] → ¬ fs₁.IsLink p := by
      rcases removed with rfl | ⟨l₁, resolved₁, rfl⟩
      · exact plain
      · rcases led₁.resolve_cases inside resolved₁ with
          ⟨-, plain₁⟩ | ⟨⟨p, before, own, target', link⟩, digest', rest, rfl⟩
        · exact plain₁
        · have still : (fs₁.remove (c.payloadDirectory digest' ++ rest ++ [name])).node p =
              some (.link target') := by
            simp only [FileSystem.remove]
            rw [if_neg, link]
            intro below
            rw [List.append_assoc] at below
            exact not_cached_of_artifact own (cached_of_payload.trans below)
          refine absurd ⟨target', still⟩ (plain p before ?_)
          rintro rfl
          simp [artifacts_eq] at own
    have noLink : ∀ p, p <+: l → ¬ fs.IsLink ([] ++ p) := by
      intro p before
      by_cases start : p = []
      · rw [start]
        exact led.task [] List.nil_prefix
      · exact fun link => plain₁ p before start (grown.isLink.mpr link)
    obtain ⟨dirs, same⟩ := FileSystem.makeDirectories_plain (fun p inside nonempty =>
      absurd (List.prefix_nil.mp inside) nonempty) noLink made
    have kept : ∀ m, ¬ l ++ [name] <+: m → fs₂.node m = fs₁.node m := by
      intro m outside
      rcases removed with rfl | ⟨l₁, resolved₁, rfl⟩
      · rfl
      · cases (FileSystem.resolve_of_directories dirs).symm.trans resolved₁
        exact if_neg outside
    refine ⟨fun p inside other _ => noLink p (shorter_of_proper inside other), ?_, ?_, ?_⟩
    · rw [node, Function.update_self]
    · intro p inside other
      have before := shorter_of_proper inside other
      rw [node, Function.update_of_ne other, kept p]
      · exact grown p
      · exact fun longer => other (List.IsPrefix.eq_of_length_le inside longer.length_le)
    · intro m outside below
      rw [node, Function.update_of_ne, kept m below]
      · exact same m fun before => outside (before.trans (List.prefix_append ..))
      · rintro rfl
        exact below (List.prefix_refl _)
  · right
    refine ⟨⟨p, before.trans (List.prefix_append ..), not_whole before, own, ?_⟩, ?_⟩
    · exact ⟨target', grown.link.mp (fewer p target' link)⟩
    · refine ⟨digest', rest ++ [name], c.payloadDirectory digest, ?_⟩
      rw [node, ← List.append_assoc, Function.update_self]

end Magellan.Artifacts.Staging
