import Magellan.Artifacts.Prefetch
import Magellan.Coroutine.Rules

/-!
# What a prefetch brings about

Once it has returned, the destination holds every artifact of the task and can stage it.
-/

namespace Magellan.Artifacts

open Coroutine

variable {Content FileHash Digest : Type}

/-! ## What lasts -/

def PrefetchError.Foreign : PrefetchError Digest → Prop
  | .ensure _ | .connection => True
  | .missingCache _ | .notCommitted _ => False

/-- Every entry of a cache is still there. -/
def Kept (peers peers' : Peers Content FileHash Digest) : Prop :=
  ∀ n digest entry, (peers.stores n).cache digest = some entry →
    (peers'.stores n).cache digest = some entry

def Peers.Has (peers : Peers Content FileHash Digest) (n : NodeId) (digest : Digest) : Prop :=
  ∃ entry, (peers.stores n).cache digest = some entry

/-- The bindings are those of the task, and both sides have what they name. -/
def Fulfilled (definition : TaskId → List StaticArtifactSpec) (p : Prefetch Digest)
    (peers : Peers Content FileHash Digest) : Prop :=
  match p.outcome with
  | .ok bindings =>
      bindings.map ArtifactBinding.artifactId =
          (definition p.taskId).map StaticArtifactSpec.artifactId ∧
        ∀ binding ∈ bindings,
          (peers.stores p.source).Backs binding ∧ peers.Has p.destination binding.digest
  | .error e => e.Foreign

structure PeersSound (h : Hashes Content FileHash Digest)
    (definition : TaskId → List StaticArtifactSpec) (peers : Peers Content FileHash Digest) : Prop where
  intact : ∀ n, Intact h definition (peers.stores n)
  fulfilled : ∀ p ∈ peers.ended, Fulfilled definition p peers

/-- What a prefetch lets the others see: nothing in their incoming directories. -/
def Guards (m : MigrationId) (peers peers' : Peers Content FileHash Digest) : Prop :=
  Kept peers peers' ∧ ∀ other, other ≠ m → ∀ n,
    (peers'.stores n).incoming other = (peers.stores n).incoming other

def Relies (m : MigrationId) (peers peers' : Peers Content FileHash Digest) : Prop :=
  Kept peers peers' ∧ ∀ n, (peers'.stores n).incoming m = (peers.stores n).incoming m

def Lasts (F : Peers Content FileHash Digest → Prop) : Prop :=
  ∀ peers peers', Kept peers peers' → F peers → F peers'

variable {h : Hashes Content FileHash Digest} {definition : TaskId → List StaticArtifactSpec}
  {peers : Peers Content FileHash Digest} {s : Store Content FileHash Digest}
  {w : Surroundings Content Digest} {m : MigrationId} {n source destination : NodeId}
  {taskId : TaskId} {digest : Digest} {F G : Peers Content FileHash Digest → Prop}

theorem Kept.refl (peers : Peers Content FileHash Digest) : Kept peers peers :=
  fun _ _ _ found => found

theorem Peers.Has.lasts : Lasts fun peers : Peers Content FileHash Digest => peers.Has n digest :=
  fun _ _ kept => Exists.imp fun entry => kept n digest entry

theorem Store.Backs.lasts {binding : ArtifactBinding Digest} :
    Lasts fun peers : Peers Content FileHash Digest => (peers.stores n).Backs binding :=
  fun _ _ kept backs => backs.later fun digest entry => kept n digest entry

theorem Store.Backs.has {binding : ArtifactBinding Digest} (backs : (peers.stores n).Backs binding) :
    peers.Has n binding.digest := by
  obtain ⟨manifest, payload, found, -⟩ := backs
  exact ⟨_, found⟩

theorem Lasts.and (f : Lasts F) (g : Lasts G) : Lasts fun peers => F peers ∧ G peers :=
  fun peers peers' kept both => ⟨f peers peers' kept both.1, g peers peers' kept both.2⟩

theorem Lasts.imp (f : Lasts F) (P : Prop) : Lasts fun peers => P → F peers :=
  fun peers peers' kept given p => f peers peers' kept (given p)

theorem Lasts.all {α : Type} {f : α → Peers Content FileHash Digest → Prop} {l : List α}
    (each : ∀ a, Lasts (f a)) : Lasts fun peers => ∀ a ∈ l, f a peers :=
  fun peers peers' kept given a member => each a peers peers' kept (given a member)

theorem Fulfilled.lasts (p : Prefetch Digest) :
    Lasts fun peers : Peers Content FileHash Digest => Fulfilled definition p peers := by
  intro peers peers' kept fulfilled
  unfold Fulfilled at fulfilled ⊢
  split
  · rename_i bindings outcome
    rw [outcome] at fulfilled
    refine ⟨fulfilled.1, fun binding member => ?_⟩
    obtain ⟨backs, has⟩ := fulfilled.2 binding member
    exact ⟨Store.Backs.lasts _ _ kept backs, Peers.Has.lasts _ _ kept has⟩
  · rename_i e outcome
    rw [outcome] at fulfilled
    exact fulfilled

theorem set_steps (sound : PeersSound h definition peers) (intact : Intact h definition s)
    (cache : ∀ digest entry, (peers.stores n).cache digest = some entry → s.cache digest = some entry) :
    PeersSound h definition (peers.set n s) ∧ Kept peers (peers.set n s) := by
  have kept : Kept peers (peers.set n s) := by
    intro k digest entry found
    by_cases same : k = n
    · subst same
      simpa [Peers.set] using cache digest entry found
    · simpa [Peers.set, same] using found
  refine ⟨⟨fun k => ?_, fun p ended => Fulfilled.lasts p _ _ kept (sound.fulfilled p ended)⟩, kept⟩
  by_cases same : k = n
  · subst same
    simpa [Peers.set] using intact
  · simpa [Peers.set, same] using sound.intact k

/-! ## Operations -/

section

variable [DecidableEq FileHash] [DecidableEq Digest]

def peerContract (h : Hashes Content FileHash Digest) (definition : TaskId → List StaticArtifactSpec)
    (m : MigrationId) :
    Contract (PeerOp Digest) (Weather Content FileHash Digest) (Peers Content FileHash Digest) :=
  ⟨fun _ c _ => c.Steady definition, Relies m, PeersSound h definition, Guards m⟩

/-- One operation of `m` from a state with `F`. -/
def Does (h : Hashes Content FileHash Digest) (definition : TaskId → List StaticArtifactSpec)
    (m : MigrationId) (F : Peers Content FileHash Digest → Prop) (o : PeerOp Digest)
    (B : o.Ret → Peers Content FileHash Digest → Prop) : Prop :=
  OpTriple (execPeer h) (peerContract h definition m) F o B fun e _ => e.Foreign

omit [DecidableEq FileHash] [DecidableEq Digest] in
theorem set_does (sound : PeersSound h definition peers) (intact : Intact h definition s)
    (cache : ∀ digest entry, (peers.stores n).cache digest = some entry → s.cache digest = some entry)
    (incoming : ∀ other, other ≠ m → s.incoming other = (peers.stores n).incoming other) :
    PeersSound h definition (peers.set n s) ∧ Guards m peers (peers.set n s) := by
  obtain ⟨sound', kept⟩ := set_steps sound intact cache
  refine ⟨sound', kept, fun other different k => ?_⟩
  by_cases same : k = n
  · subst same
    simpa [Peers.set] using incoming other different
  · simp [Peers.set, same]

omit [DecidableEq FileHash] [DecidableEq Digest] in
theorem advances_does (sound : PeersSound h definition peers)
    (advances : Advances h definition (peers.stores n) s) :
    PeersSound h definition (peers.set n s) ∧ Guards m peers (peers.set n s) :=
  set_does sound advances.intact advances.cache fun other _ => congrFun advances.incoming other

theorem ensureTaskArtifacts_does (apart : Apart definition) :
    Does h definition m (fun _ => True) (.ensureTaskArtifacts n taskId)
      fun (bindings : List (ArtifactBinding Digest)) peers =>
      bindings.map ArtifactBinding.artifactId =
          (definition taskId).map StaticArtifactSpec.artifactId ∧
        ∀ binding ∈ bindings, (peers.stores n).Backs binding := by
  intro peers c r peers' _ sound steady step
  cases c with
  | runs w =>
      cases step
      obtain ⟨advances, backed⟩ := (sound.intact n).ensureTaskArtifacts apart steady taskId
      obtain ⟨sound', guards⟩ := advances_does (m := m) sound advances
      refine ⟨sound', guards, ?_⟩
      cases outcome : ((peers.stores n).ensureTaskArtifacts h w taskId).1 with
      | error e => exact trivial
      | ok bindings => simpa [answer, outcome, Except.mapError, endsWith, Peers.set] using backed bindings outcome
  | fails left => cases step
  | lost w => cases step

theorem hasArtifact_does :
    Does h definition m F (.hasArtifact n digest) fun (present : Bool) peers =>
      F peers ∧ (present = true → peers.Has n digest) := by
  intro peers c r peers' fact sound steady step
  have stays : Guards m peers peers := ⟨.refl peers, fun _ _ _ => rfl⟩
  cases c with
  | runs w =>
      cases step
      rw [(sound.intact n).hasArtifact]
      exact ⟨sound, stays, fact, Option.isSome_iff_exists.mp⟩
  | fails left =>
      cases step
      exact ⟨sound, stays, trivial⟩
  | lost w => cases step

/-- What `m` has copied to a node and not yet had committed. -/
def Delivered (h : Hashes Content FileHash Digest) (m : MigrationId) (n : NodeId) (digest : Digest)
    (peers : Peers Content FileHash Digest) : Prop :=
  ∃ entry, (peers.stores n).incoming m digest = some entry ∧ entry.Whole h digest

omit [DecidableEq FileHash] in
theorem receive_steps (sound : PeersSound h definition peers)
    (entry : Option (Entry Content FileHash Digest)) :
    PeersSound h definition (peers.set n ((peers.stores n).receive m digest entry)) ∧
      Guards m peers (peers.set n ((peers.stores n).receive m digest entry)) := by
  have intact := sound.intact n
  have received : Intact h definition ((peers.stores n).receive m digest entry) :=
    ⟨intact.cached, intact.linked⟩
  apply set_does sound received fun _ _ found => found
  intro other different
  simp [Store.receive, different]

theorem send_does (lasts : Lasts F) :
    Does h definition m (fun peers => F peers ∧ peers.Has source digest)
      (.send digest source destination m) fun _ peers => F peers ∧ Delivered h m destination digest peers := by
  intro peers c r peers' a sound steady step
  obtain ⟨fact, entry, found⟩ := a
  have whole := (sound.intact source).cached digest entry found
  cases c with
  | runs w =>
      simp only [execPeer, found] at step
      cases step
      obtain ⟨sound', guards⟩ := receive_steps (n := destination) (m := m) sound (some entry)
      refine ⟨sound', guards, lasts _ _ guards.1 fact, entry, ?_, whole⟩
      simp [Peers.set, Store.receive]
  | fails left =>
      simp only [execPeer, found] at step
      cases step
      obtain ⟨sound', guards⟩ := receive_steps (n := destination) (m := m) sound left
      exact ⟨sound', guards, trivial⟩
  | lost w => cases step

omit [DecidableEq FileHash] in
theorem takeIncoming_steps (sound : PeersSound h definition peers)
    (delivered : Delivered h m n digest peers) :
    (∃ published, ((peers.stores n).takeIncoming m digest).1 = .ok published) ∧
      (PeersSound h definition (peers.set n ((peers.stores n).takeIncoming m digest).2) ∧
        Guards m peers (peers.set n ((peers.stores n).takeIncoming m digest).2)) ∧
      (peers.set n ((peers.stores n).takeIncoming m digest).2).Has n digest := by
  obtain ⟨entry, found, whole⟩ := delivered
  have intact := sound.intact n
  have received : Intact h definition ((peers.stores n).receive m digest none) :=
    ⟨intact.cached, intact.linked⟩
  cases cached : (peers.stores n).cache digest with
  | some e =>
      have result : (peers.stores n).takeIncoming m digest =
          (.ok false, (peers.stores n).receive m digest none) := by
        simp [Store.takeIncoming, found, cached]
      rw [result]
      refine ⟨⟨false, rfl⟩, receive_steps sound none, e, ?_⟩
      simpa [Peers.set, Store.receive] using cached
  | none =>
      have result : (peers.stores n).takeIncoming m digest =
          (.ok true, ((peers.stores n).receive m digest none).publish digest (some entry)) := by
        simp [Store.takeIncoming, found, cached]
      have advances := received.publish cached whole
      rw [result]
      refine ⟨⟨true, rfl⟩, set_does sound advances.intact advances.cache ?_, entry, ?_⟩
      · intro other different
        simp [Store.publish, Store.receive, different]
      · simp [Peers.set, Store.publish]

theorem takeIncoming_does (lasts : Lasts F) :
    Does h definition m (fun peers => F peers ∧ Delivered h m n digest peers)
      (.takeIncoming n m digest) fun (_ : Bool) peers => F peers ∧ peers.Has n digest := by
  intro peers c r peers' a sound steady step
  obtain ⟨fact, delivered⟩ := a
  obtain ⟨⟨published, ok⟩, ⟨sound', guards⟩, has⟩ := takeIncoming_steps sound delivered
  cases c with
  | runs w =>
      cases step
      refine ⟨sound', guards, ?_⟩
      simpa [answer, ok, Except.mapError, endsWith] using ⟨lasts _ _ guards.1 fact, has⟩
  | fails left =>
      cases step
      exact ⟨sound, ⟨.refl peers, fun _ _ _ => rfl⟩, trivial⟩
  | lost w =>
      cases step
      exact ⟨sound', guards, trivial⟩

/-- The validation that ends a commit takes nothing away. -/
theorem Intact.validateTaken (intact : Intact h definition s) (digest : Digest) (published : Bool) :
    Advances h definition s (s.validateTaken h w digest published).2 := by
  have advances := intact.validateCache (w := w) digest
  unfold Store.validateTaken
  split
  · rename_i manifest s' result
    rw [result] at advances
    exact advances
  · rename_i e s' result
    rw [result] at advances
    split_ifs
    swap
    · exact advances
    -- only a missing entry fails
    have absent : s.cache digest = none := by
      apply Option.eq_none_iff_forall_ne_some.mpr
      intro entry found
      obtain ⟨manifest, payload, -, -, ok⟩ := intact.validateCache_ok (w := w) found
      rw [result] at ok
      cases ok
    have same : s' = s := by
      simp [Store.validateCache, Store.validated, absent] at result
      exact result.2.symm
    have cache : (s.publish digest none).cache = s.cache := by
      simp [Store.publish, ← absent]
    rw [same]
    refine ⟨⟨fun other entry found => ?_, intact.linked⟩, fun other entry found => ?_, rfl⟩
    · exact intact.cached other entry (cache ▸ found)
    · exact cache.symm ▸ found

theorem validateTaken_does (lasts : Lasts F) {published : Bool} :
    Does h definition m (fun peers => F peers ∧ peers.Has n digest)
      (.validateTaken n digest published) fun _ peers => F peers ∧ peers.Has n digest := by
  intro peers c r peers' a sound steady step
  obtain ⟨fact, has⟩ := a
  have advances (w : Surroundings Content Digest) :=
    advances_does (m := m) sound ((sound.intact n).validateTaken (w := w) digest published)
  cases c with
  | runs w =>
      cases step
      obtain ⟨sound', guards⟩ := advances w
      refine ⟨sound', guards, ?_⟩
      obtain ⟨entry, found⟩ := id has
      obtain ⟨manifest, payload, -, -, ok⟩ := (sound.intact n).validateCache_ok (w := w) found
      have done : ((peers.stores n).validateTaken h w digest published).1 = .ok () := by
        unfold Store.validateTaken
        split
        · rfl
        · rename_i e s' result
          rw [result] at ok
          cases ok
      simpa [answer, done, Except.mapError, endsWith] using
        ⟨lasts _ _ guards.1 fact, Peers.Has.lasts _ _ guards.1 has⟩
  | fails left =>
      cases step
      exact ⟨sound, ⟨.refl peers, fun _ _ _ => rfl⟩, trivial⟩
  | lost w =>
      cases step
      obtain ⟨sound', guards⟩ := advances w
      exact ⟨sound', guards, trivial⟩

/-! ## The protocol -/

/-- `m` runs `p` from a state with `A`, and nothing but the environment stops it. -/
def Achieves {α : Type} (h : Hashes Content FileHash Digest)
    (definition : TaskId → List StaticArtifactSpec) (m : MigrationId)
    (A : Peers Content FileHash Digest → Prop) (p : PeerWork Digest α)
    (B : α → Peers Content FileHash Digest → Prop) : Prop :=
  Triple (execPeer h) (peerContract h definition m) A p B fun e _ => e.Foreign

omit [DecidableEq FileHash] [DecidableEq Digest] in
theorem Lasts.stable (lasts : Lasts F) : (peerContract h definition m).Stable F :=
  fun _ _ step => lasts _ _ step.1

omit [DecidableEq FileHash] [DecidableEq Digest] in
theorem stable_delivered : (peerContract h definition m).Stable (Delivered h m n digest) := by
  rintro peers peers' ⟨-, incoming⟩ ⟨entry, found, whole⟩
  exact ⟨entry, by rw [incoming, found], whole⟩

theorem Does.achieves {o : PeerOp Digest} {B : o.Ret → Peers Content FileHash Digest → Prop}
    (does : Does h definition m F o B) (stable : (peerContract h definition m).Stable F)
    (stableB : ∀ a, (peerContract h definition m).Stable (B a)) :
    Achieves h definition m F (ask o) B :=
  Triple.op stable stableB (fun _ => .const _) does

theorem artifactStatus_achieves (lasts : Lasts F) (bindings : List (ArtifactBinding Digest)) :
    Achieves h definition m F (artifactStatus destination bindings) fun missing peers =>
      F peers ∧ ∀ binding ∈ bindings, binding.digest ∉ missing →
        peers.Has destination binding.digest := by
  induction bindings generalizing F with
  | nil => exact .pure (lasts.and (.all fun _ => Peers.Has.lasts.imp _)).stable (by simp)
  | cons binding bindings ih =>
      have asked (present : Bool) :
          Lasts fun peers => F peers ∧ (present = true → peers.Has destination binding.digest) :=
        lasts.and (Peers.Has.lasts.imp _)
      refine Triple.bind (hasArtifact_does.achieves lasts.stable fun present => (asked present).stable)
        fun present => Triple.bind (ih (asked present)) fun missing => ?_
      apply Triple.pure (lasts.and (.all fun _ => Peers.Has.lasts.imp _)).stable
      rintro peers ⟨⟨fact, here⟩, others⟩
      refine ⟨fact, List.forall_mem_cons.mpr ⟨?_, ?_⟩⟩
      · intro absent
        cases present with
        | true => exact here rfl
        | false => simp at absent
      · intro other member absent
        apply others other member
        cases present with
        | true => exact absent
        | false => exact fun listed => absent (List.mem_cons_of_mem _ listed)

theorem sendArtifact_achieves (lasts : Lasts F) :
    Achieves h definition m (fun peers => F peers ∧ peers.Has source digest)
      (sendArtifact digest source destination m) fun _ peers => F peers ∧ peers.Has destination digest := by
  have has (n : NodeId) : Lasts fun peers => F peers ∧ peers.Has n digest := lasts.and Peers.Has.lasts
  refine Triple.bind ((send_does lasts).achieves (has source).stable fun _ =>
    lasts.stable.and stable_delivered) fun _ => ?_
  refine Triple.bind ((takeIncoming_does lasts).achieves (lasts.stable.and stable_delivered) fun _ =>
    (has destination).stable) fun published => ?_
  exact (validateTaken_does lasts).achieves (has destination).stable fun _ => (has destination).stable

theorem sendMissing_achieves (lasts : Lasts F) (missing : List Digest)
    (bindings : List (ArtifactBinding Digest)) :
    Achieves h definition m
      (fun peers => (F peers ∧ ∀ binding ∈ bindings, peers.Has source binding.digest) ∧
        ∀ binding ∈ bindings, binding.digest ∉ missing → peers.Has destination binding.digest)
      (sendMissing source destination m missing bindings)
      fun _ peers => F peers ∧ ∀ binding ∈ bindings, peers.Has destination binding.digest := by
  induction bindings generalizing F with
  | nil => exact .pure (lasts.and (.all fun _ => Peers.Has.lasts)).stable (by simp)
  | cons binding bindings ih =>
      have rest : Lasts fun peers => (F peers ∧ ∀ binding ∈ bindings, peers.Has source binding.digest) ∧
          ∀ binding ∈ bindings, binding.digest ∉ missing → peers.Has destination binding.digest :=
        (lasts.and (.all fun _ => Peers.Has.lasts)).and (.all fun _ => Peers.Has.lasts.imp _)
      have later : Achieves h definition m (fun peers => ((F peers ∧ ∀ binding ∈ bindings,
          peers.Has source binding.digest) ∧ ∀ binding ∈ bindings, binding.digest ∉ missing →
            peers.Has destination binding.digest) ∧ peers.Has destination binding.digest)
          (sendMissing source destination m missing bindings) fun _ peers =>
            F peers ∧ ∀ b ∈ binding :: bindings, peers.Has destination b.digest := by
        apply (ih (lasts.and (G := fun peers => peers.Has destination binding.digest)
          Peers.Has.lasts)).weaken
        · rintro peers ⟨⟨⟨fact, sourced⟩, known⟩, here⟩
          exact ⟨⟨⟨fact, here⟩, sourced⟩, known⟩
        · rintro _ peers ⟨⟨fact, here⟩, all⟩
          exact ⟨fact, List.forall_mem_cons.mpr ⟨here, all⟩⟩
        · exact fun _ _ foreign => foreign
      rw [sendMissing]
      apply Triple.ite
      · intro _
        refine Triple.bind ((sendArtifact_achieves rest).pre ?_) fun _ => later
        rintro peers ⟨⟨fact, sourced⟩, known⟩
        obtain ⟨here, sourced⟩ := List.forall_mem_cons.mp sourced
        exact ⟨⟨⟨fact, sourced⟩, (List.forall_mem_cons.mp known).2⟩, here⟩
      · intro present
        apply later.pre
        rintro peers ⟨⟨fact, sourced⟩, known⟩
        obtain ⟨here, known⟩ := List.forall_mem_cons.mp known
        exact ⟨⟨⟨fact, (List.forall_mem_cons.mp sourced).2⟩, known⟩, here present⟩

/-- What holds once the bindings of a task are known. -/
def Sourced (definition : TaskId → List StaticArtifactSpec) (source : NodeId) (taskId : TaskId)
    (bindings : List (ArtifactBinding Digest)) (peers : Peers Content FileHash Digest) : Prop :=
  bindings.map ArtifactBinding.artifactId =
      (definition taskId).map StaticArtifactSpec.artifactId ∧
    ∀ binding ∈ bindings, (peers.stores source).Backs binding

omit [DecidableEq FileHash] [DecidableEq Digest] in
theorem Sourced.lasts {bindings : List (ArtifactBinding Digest)} :
    Lasts (Sourced definition source taskId bindings : Peers Content FileHash Digest → Prop) :=
  fun peers peers' kept => And.imp_right fun backed binding member =>
    Store.Backs.lasts peers peers' kept (backed binding member)

theorem prefetch_achieves (apart : Apart definition) :
    Achieves h definition m (fun _ => True) (prefetch taskId source destination m)
      fun bindings peers => Sourced definition source taskId bindings peers ∧
        ∀ binding ∈ bindings, peers.Has destination binding.digest := by
  apply Triple.bind ((ensureTaskArtifacts_does apart).achieves .top fun bindings =>
    Sourced.lasts.stable)
  intro bindings
  have sourced : Lasts (Sourced definition source taskId bindings : Peers Content FileHash Digest → Prop) :=
    Sourced.lasts
  refine Triple.bind (artifactStatus_achieves sourced bindings) fun missing => ?_
  apply Triple.bind
  · apply (sendMissing_achieves sourced missing bindings).pre
    rintro peers ⟨facts, known⟩
    exact ⟨⟨facts, fun binding member => (facts.2 binding member).has⟩, known⟩
  · intro _
    exact .pure (sourced.and (.all fun _ => Peers.Has.lasts)).stable fun _ facts => facts

theorem ended_achieves (p : Prefetch Digest) :
    Achieves h definition m (Fulfilled definition p) (ask (.ended p)) fun _ _ => True := by
  apply Does.achieves _ (Fulfilled.lasts p).stable fun _ => .top
  intro peers c r peers' fulfilled sound _ step
  cases c with
  | runs w =>
      cases step
      exact ⟨⟨sound.intact, List.forall_mem_cons.mpr ⟨fulfilled, sound.fulfilled⟩⟩,
        ⟨.refl peers, fun _ _ _ => rfl⟩, trivial⟩
  | fails left => cases step
  | lost w => cases step

/-! ## Runs -/

theorem Intact.step (intact : Intact h definition s) (apart : Apart definition)
    (steady : Steady definition w) {op : Operation Content FileHash Digest} (own : op.isLocal = true) :
    Advances h definition s (s.step h w op) := by
  cases op with
  | importSource spec => exact (intact.importSource steady spec).1
  | ensureTaskArtifacts taskId => exact (intact.ensureTaskArtifacts apart steady taskId).1
  | stageBindings taskId bindings => exact intact.stageBindings apart steady taskId bindings
  | validateCache digest => exact intact.validateCache digest
  | setArtifactDigests taskId artifactDigests =>
      exact ⟨⟨intact.cached, intact.linked⟩, fun _ _ found => found, rfl⟩
  | commitIncoming migrationId digest => cases own
  | receive migrationId digest entry => cases own

omit [DecidableEq FileHash] [DecidableEq Digest] in
theorem advances_relies (sound : PeersSound h definition peers)
    (advances : Advances h definition (peers.stores n) s) :
    PeersSound h definition (peers.set n s) ∧ ∀ m, Relies m peers (peers.set n s) := by
  obtain ⟨sound', kept⟩ := set_steps sound advances.intact advances.cache
  refine ⟨sound', fun m => ⟨kept, fun k => ?_⟩⟩
  by_cases same : k = n
  · subst same
    simpa [Peers.set] using congrFun advances.incoming m
  · simp [Peers.set, same]

theorem prefetches_verified (apart : Apart definition) :
    (prefetches h).Verified (sourcesRest definition) (PeersSound h definition) Relies Guards
      fun _ _ => True where
  trans := fun _ _ => trivial
  interference := fun different guards => ⟨guards.1, guards.2 _ different⟩
  within := fun _ => trivial
  call := by
    intro m call peers peers' sound _ accepted
    simp only [prefetches] at accepted
    split_ifs at accepted
    cases accepted
    refine ⟨⟨sound.intact, sound.fulfilled⟩, ⟨.refl peers, fun _ _ _ => rfl⟩, ?_⟩
    apply Safe.mono _ fun _ _ _ => trivial
    · exact endsWith (fun _ _ => True) fun _ _ => True
    apply Triple.andThen (prefetch_achieves apart) _ trivial
    intro outcome
    apply (ended_achieves _).weaken
    · intro peers ends
      cases outcome with
      | ok bindings => exact ⟨ends.1.1, fun b member => ⟨ends.1.2 b member, ends.2 b member⟩⟩
      | error e => exact ends
    · exact fun _ _ _ => trivial
    · exact fun _ _ _ => trivial
  crash := fun sound _ => ⟨sound, .refl _, fun _ _ _ => rfl⟩
  event := by
    intro e peers peers' sound steady happened
    cases e with
    | manage n w op =>
        simp only [prefetches, PeerEvent.apply] at happened
        split_ifs at happened with own
        cases happened
        obtain ⟨sound', relies⟩ := advances_relies sound ((sound.intact n).step apart steady own)
        exact ⟨sound', relies, trivial⟩
    | validateTaken n w digest published =>
        cases happened
        obtain ⟨sound', relies⟩ := advances_relies sound
          ((sound.intact n).validateTaken (w := w) digest published)
        exact ⟨sound', relies, trivial⟩

/-- What a migration can build on after a prefetch. -/
structure Stageable (h : Hashes Content FileHash Digest)
    (definition : TaskId → List StaticArtifactSpec) (p : Prefetch Digest)
    (bindings : List (ArtifactBinding Digest)) (peers : Peers Content FileHash Digest) : Prop where
  all : bindings.map ArtifactBinding.artifactId =
    (definition p.taskId).map StaticArtifactSpec.artifactId
  sound : ∀ binding ∈ bindings, ∀ w, (peers.stores p.destination).Sound h w binding.digest
  stages : ∀ w, Steady definition w → w.definition p.taskId = some (definition p.taskId) →
    ((peers.stores p.destination).stageBindings h w p.taskId bindings).1 = .ok ()
  same : Function.Injective h.sha256File → Function.Injective h.canonical →
    ∀ binding ∈ bindings, ∃ manifest payload manifest' payload',
      (peers.stores p.source).cache binding.digest = some ⟨.valid manifest, some payload⟩ ∧
      (peers.stores p.destination).cache binding.digest = some ⟨.valid manifest', some payload'⟩ ∧
      manifest'.sizeBytes = binding.sizeBytes ∧
      ∀ path, payload'.byName.get? path = payload.byName.get? path

theorem Fulfilled.stageable (apart : Apart definition) (sound : PeersSound h definition peers)
    {p : Prefetch Digest} {bindings : List (ArtifactBinding Digest)}
    (fulfilled : Fulfilled definition p peers) (outcome : p.outcome = .ok bindings) :
    Stageable h definition p bindings peers := by
  unfold Fulfilled at fulfilled
  rw [outcome] at fulfilled
  obtain ⟨ids, held⟩ := fulfilled
  have intact := sound.intact p.destination
  refine ⟨ids, fun binding member w => ?_, fun w steady defined => ?_, ?_⟩
  · obtain ⟨entry, found⟩ := (held binding member).2
    obtain ⟨manifest, payload, -, -, ok⟩ := intact.validated found w true
    exact ⟨_, ok⟩
  · rw [Store.stageBindings, defined]
    apply intact.stage_ok apart p.taskId .empty fun binding member => (held binding member).2
    intro binding member
    have named : binding.artifactId ∈ (definition p.taskId).map StaticArtifactSpec.artifactId := by
      rw [← ids]
      exact List.mem_map_of_mem member
    simpa using named
  · intro files identities binding member
    obtain ⟨⟨manifest, payload, found, size⟩, entry, found'⟩ := held binding member
    obtain ⟨_, _, same, imported⟩ := (sound.intact p.source).cached _ _ found
    cases same
    obtain ⟨manifest', payload', rfl, imported'⟩ := intact.cached _ _ found'
    have identity : manifest'.toIdentity = manifest.toIdentity :=
      identities (imported'.canonical.trans imported.canonical.symm)
    refine ⟨manifest, payload, manifest', payload', found, found', ?_, ?_⟩
    · rw [imported'.size, identity, ← imported.size, size]
    · exact imported'.genuine.same_files files identities imported.genuine

/-- However prefetches, crashes and the managers' own operations interleave: a prefetch that has
returned has the task's artifacts at the destination from then on, and one that has raised was
stopped by its source or by the network. -/
theorem prefetched_artifacts_stage (apart : Apart definition)
    {start v : Config (PeerOp Digest) PeerOp.Ret (PrefetchError Digest)
      (Peers Content FileHash Digest) MigrationId}
    (idle : ∀ m, start.running m = none) (fresh : start.world = {})
    (reach : (prefetches h).Reachable (sourcesRest definition) start v) (p : Prefetch Digest)
    (ended : p ∈ v.world.ended) :
    match p.outcome with
    | .ok bindings => Stageable h definition p bindings v.world
    | .error e => e.Foreign := by
  have initial : PeersSound h definition start.world := by
    rw [fresh]
    refine ⟨fun n => ⟨fun digest entry found => ?_, fun taskId link linked => ?_⟩, fun p listed => ?_⟩
    · cases found
    · cases linked
    · cases listed
  have sound := ((prefetches_verified apart).reachable initial idle reach).holds
  have fulfilled := sound.fulfilled p ended
  cases outcome : p.outcome with
  | ok bindings => exact fulfilled.stageable apart sound outcome
  | error e => simpa only [Fulfilled, outcome] using fulfilled

end

/-! ## One model for another node -/

def sampleScript : List (Label (Weather String String (Identity String)) MigrationId PrefetchCall
    (PeerEvent String String (Identity String))) :=
  .call "m" ⟨"t", "a", "b"⟩ (.runs sampleWorld) :: List.replicate 5 (.perform "m" (.runs sampleWorld))

theorem sample_apart : Apart fun _ => [sampleSpec] := by
  intro taskId a here b there
  rw [List.mem_singleton.mp here, List.mem_singleton.mp there]
  exact fun below => below.2 rfl

theorem sample_steady : Steady (fun _ => [sampleSpec]) sampleWorld := by
  refine ⟨sample_known, ?_⟩
  rintro directory source copy ⟨⟩ ⟨⟩
  rfl

theorem sampleScript_meets (l) (member : l ∈ sampleScript)
    (cfg : Config (PeerOp (Identity String)) PeerOp.Ret (PrefetchError (Identity String))
      (Peers String String (Identity String)) MigrationId) :
    (prefetches sampleHashes).Meets (sourcesRest fun _ => [sampleSpec]) l cfg := by
  have first (n : MigrationId) (p : PeerWork (Identity String) Unit)
      (w : Peers String String (Identity String)) :
      System.Meets.first (sourcesRest fun _ => [sampleSpec]) n (.runs sampleWorld) p w := by
    cases p with
    | done r => trivial
    | perform o k => exact sample_steady
  rcases List.mem_cons.mp member with rfl | more
  · exact ⟨trivial, fun w _ => first _ _ w⟩
  · cases List.eq_of_mem_replicate more
    exact fun p _ => first _ p _

set_option maxRecDepth 100000 in
theorem prefetched_artifacts_stage_sample : ∃ v, (prefetches sampleHashes).run sampleScript
      { world := {} } = some v ∧ ∃ p ∈ v.world.ended, ∃ bindings, p.outcome = .ok bindings ∧
        Stageable sampleHashes (fun _ => [sampleSpec]) p bindings v.world := by
  have returned : (((prefetches sampleHashes).run sampleScript { world := {} }).any fun v =>
      v.world.ended.any fun p => isOk p.outcome) = true := by decide +kernel
  obtain ⟨v, run, some⟩ := (Option.any_eq_true _ _).mp returned
  obtain ⟨p, ended, ok⟩ := List.any_eq_true.mp some
  refine ⟨v, run, p, ended, ?_⟩
  have reach := System.reachable_of_run (prefetches sampleHashes) (sourcesRest fun _ => [sampleSpec])
    sampleScript_meets .refl run
  have result := prefetched_artifacts_stage sample_apart (fun _ => rfl) rfl reach p ended
  cases outcome : p.outcome with
  | ok bindings => exact ⟨bindings, rfl, by simpa only [outcome] using result⟩
  | error e => simp [outcome, isOk] at ok

end Magellan.Artifacts
