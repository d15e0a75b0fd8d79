import Magellan.Migration.Departing

/-!
# Agreement

What runs beside the coroutines lowers no generation, and so in whole runs nodes that record the
same generation of the task record the same owner.
-/

namespace Magellan.Departures

open Coroutine Commitment Claims MigrationService Propagation CommittedClaims

section

variable {services : Services} {initial : Ownership} {n : NodeId} {w v : World}

/-! ## What runs beside -/

/-- A step that writes no record, sends no request and lowers no generation. -/
theorem beside (claims : Claims.Invariant initial w) (inv : Departures.Invariant w) (log : v.log = w.log)
    (journals : ∀ i, (v.nodes i).journal = (w.nodes i).journal)
    (passes : ∀ {i r}, r ∈ (v.nodes i).pass → r ∈ (w.nodes i).pass ∨ r.status.isTerminal = false)
    (generations : ∀ i, (w.nodes i).registry.generation ≤ (v.nodes i).registry.generation)
    (requests : v.requests = w.requests) (responses : v.responses = w.responses)
    (answers : ∀ {d m}, (d, m, none) ∈ v.answers → (d, m, none) ∈ w.answers ∨ (w.nodes d).journal.get m = none)
    (answered : w.answers ⊆ v.answers) : Departures.Invariant v ∧ ∀ i, Departures.Rely i w v := by
  have history : v.history = w.history := by
    unfold World.history
    rw [log]
  have still : Still w v := ⟨history, journals, passes, fun i bound => bound.mono (generations i), fun q sent =>
    .inl (requests ▸ sent), fun q sent => requests ▸ sent, fun a sent => .inl (responses ▸ sent), answers, answered⟩
  refine ⟨still.invariant claims inv, fun i => ⟨⟨history ▸ List.suffix_refl _, fun r mem => history ▸ mem,
    journals i, ?_, answered⟩, generations i⟩⟩
  rw [requests]
  exact ⟨List.Subset.refl _, fun q sent _ => sent⟩

theorem modified {f : NodeState → NodeState} (claims : Claims.Invariant initial w) (inv : Departures.Invariant w)
    (journal : (f (w.nodes n)).journal = (w.nodes n).journal)
    (pass : ∀ r ∈ (f (w.nodes n)).pass, r ∈ (w.nodes n).pass ∨ r.status.isTerminal = false)
    (generation : (w.nodes n).registry.generation ≤ (f (w.nodes n)).registry.generation) :
    Departures.Invariant (w.modify n f) ∧ ∀ i, Departures.Rely i w (w.modify n f) := by
  refine beside claims inv rfl (fun i => ?_) (fun {i r} mem => ?_) (fun i => ?_) rfl rfl (fun unknown => .inl unknown)
    (List.Subset.refl _)
  all_goals by_cases here : i = n
  · subst here
    rw [World.modify_self]
    exact journal
  · rw [w.modify_of_ne f here]
  · subst here
    rw [World.modify_self] at mem
    exact pass r mem
  · rw [w.modify_of_ne f here] at mem
    exact .inl mem
  · subst here
    rw [World.modify_self]
    exact generation
  · rw [w.modify_of_ne f here]

/-- A node is changed from outside, and its generation is not lowered. -/
theorem raised {f : NodeState → NodeState} (claims : Claims.Invariant initial w) (inv : Departures.Invariant w)
    (journal : (f (w.nodes n)).journal = (w.nodes n).journal) (pass : (f (w.nodes n)).pass = (w.nodes n).pass)
    (generation : (w.nodes n).registry.generation ≤ (f (w.nodes n)).registry.generation) :
    Departures.Invariant (w.modify n f) ∧ ∀ i, Departures.Rely i w (w.modify n f) :=
  modified claims inv journal (fun _ mem => .inl (pass ▸ mem)) generation

theorem generation_le_mergeUpdate (u : Registry.OwnershipUpdate) (s : NodeState) :
    s.registry.generation ≤ (mergeUpdate n u s).registry.generation := by
  unfold mergeUpdate
  split
  · exact le_rfl
  · rename_i state applied
    have raised : s.registry.generation ≤ state.generation := by
      unfold Registry.applyOwnership at applied
      split_ifs at applied with stale <;> cases applied <;> exact not_lt.mp stale
    dsimp only
    split <;> exact raised

theorem generation_le_postOwnership (u : Registry.OwnershipUpdate) (s : NodeState) :
    s.registry.generation ≤ (postOwnership n u s).registry.generation := by
  unfold postOwnership
  split
  · split <;> exact le_rfl
  · exact generation_le_mergeUpdate u s

theorem beside_event {e : Event} (claims : Claims.Invariant initial w) (inv : Departures.Invariant w)
    (happened : event e w = some v) : Departures.Invariant v ∧ ∀ i, Departures.Rely i w v := by
  have same {s t : TaskRuntimeState} (ownership : t.ownership = s.ownership) : s.generation ≤ t.generation :=
    ((Ownership.mk.injEq ..).mp ownership).1.ge
  cases e with
  | answerQuery d m =>
      simp only [event] at happened
      split at happened <;> cases happened
      refine beside claims inv rfl (fun _ => rfl) (fun mem => .inl mem) (fun _ => le_rfl) rfl rfl
        (fun {d' m'} unknown => ?_) (List.subset_cons_self _ _)
      rcases List.mem_cons.mp unknown with here | before
      · obtain ⟨rfl, here⟩ := Prod.mk.inj here
        obtain ⟨rfl, missing⟩ := Prod.mk.inj here
        exact .inr missing.symm
      · exact .inl before
  | exportSnapshot i =>
      cases happened
      exact beside claims inv rfl (fun _ => rfl) (fun mem => .inl mem) (fun _ => le_rfl) rfl rfl
        (fun unknown => .inl unknown) (List.Subset.refl _)
  | mergeUpdate i u =>
      simp only [event] at happened
      split at happened <;> cases happened
      exact raised claims inv (Absorption.mergeUpdate_journal u _) (mergeUpdate_pass u _)
        (generation_le_mergeUpdate u _)
  | postOwnership i u =>
      simp only [event] at happened
      split at happened <;> cases happened
      exact raised claims inv (Absorption.postOwnership_journal u _) (postOwnership_pass u _)
        (generation_le_postOwnership u _)
  | settle i input =>
      cases happened
      exact raised claims inv rfl rfl (same (ownership_settleTask _ input _))
  | reconcileRuntime i verdict =>
      cases happened
      exact raised claims inv (Absorption.reconcileRuntime_journal verdict _) (reconcileRuntime_pass verdict _)
        (same (ownership_reconcileRuntime verdict _))
  | beginPass i =>
      cases happened
      refine modified claims inv rfl (fun r mem => ?_) le_rfl
      refine (List.mem_append.mp mem).imp id fun listed => ?_
      simpa using (List.mem_filter.mp listed).2
  | cancelReservation =>
      simp only [event] at happened
      split at happened <;> cases happened
      exact raised claims inv rfl rfl le_rfl
  | bidStore =>
      cases happened
      exact raised claims inv rfl rfl le_rfl
  | exit =>
      simp only [event] at happened
      split at happened <;> cases happened
      exact raised claims inv rfl rfl le_rfl
  | writeCheckpoint =>
      simp only [event] at happened
      split at happened <;> cases happened
      exact raised claims inv rfl rfl le_rfl

/-! ## Runs -/

/-- A step that changes nothing but what `n` has in memory. -/
theorem keeps_of_modify {f : NodeState → NodeState} : Departures.Keeps n w (w.modify n f) :=
  ⟨List.suffix_refl _, fun _ ne => w.modify_of_ne f ne, fun _ _ _ mem => mem,
    ⟨List.Subset.refl _, fun _ sent => .inl sent⟩, rfl⟩

theorem departures_verified (services : Services) :
    (cluster services).VerifiedAtOnce (oneAtATime initial)
      (fun w => Claims.Invariant initial w ∧ Departures.Invariant w)
      (fun n w v => Claims.Rely initial n w v ∧ Departures.Rely n w v)
      (fun n w v => Claims.Keeps n w v ∧ Departures.Keeps n w v) fun _ _ => True := by
  refine (propagation_verified services).extend (oneAtATime_implies initial)
    (fun ne _ keeps => keeps.rely ne) (fun {n a v w} claims inv meets accepted _ => ?_) (fun {n v} claims inv _ => ?_)
      fun claims inv _ happened _ => beside_event claims inv happened
  · change accept n a v = some w at accepted
    have refl : Departures.Keeps n v v := ⟨List.suffix_refl _, fun _ _ => rfl, fun _ _ _ mem => mem,
      ⟨List.Subset.refl _, fun _ sent => .inl sent⟩, rfl⟩
    cases a with
    | migrate call =>
        simp only [accept] at accepted
        split at accepted <;> cases accepted
        exact ⟨inv, refl, .mono (.bind (C := fun _ _ => True) (migrate_respects meets.2) (fun _ => .top)
          fun _ => .pure .top fun _ _ => trivial) fun _ _ _ => trivial⟩
    | activate request =>
        simp only [accept] at accepted
        split at accepted <;> cases accepted
        rename_i sent _
        have begun := claims.mail.requests request sent.1
        rw [sent.2] at begun
        refine ⟨inv, refl, .mono (serveActivation_respects sent.2 sent.1 begun meets.2) fun _ _ _ => trivial⟩
    | reconcile record =>
        simp only [accept] at accepted
        split at accepted <;> cases accepted
        rename_i held _
        have taken := (modified (n := n) (f := fun s => { s with pass := s.pass.erase record }) claims inv rfl
          (fun r mem => .inl (List.mem_of_mem_erase mem)) le_rfl).1
        refine ⟨taken, keeps_of_modify, (reconcileRecord_respects taken ?_ (inv.pending held)).atOnce⟩
        rw [World.modify_self]
        exact meets.2
  · let f (s : NodeState) : NodeState := { s with starting := none, pass := [] }
    have lost := (modified (n := n) (f := f) claims inv rfl (fun r mem => by cases mem) le_rfl).1
    exact ⟨lost, keeps_of_modify (f := f)⟩

theorem departures_of_fresh (fresh : Fresh initial w) : Departures.Invariant w := by
  have none : w.history = [] := by
    unfold World.history
    rw [fresh.log]
    rfl
  have empty {n : NodeId} {m : MigrationId} {r : MigrationRecord} (found : (w.nodes n).journal.get m = some r) :
      False := by
    rw [(fresh.journals n).1] at found
    cases found
  obtain ⟨requests, responses, answers, -⟩ := fresh.mail
  constructor
  case pending =>
    intro n r mem
    rw [(fresh.journals n).2] at mem
    cases mem
  case senders => simp [requests]
  case absent => simp [answers]
  case refused => simp [responses]
  case single => exact fun found => (empty found).elim
  case ahead => exact fun n i r found => (empty found).elim
  case floors => exact fun found => (empty found).elim
  all_goals simp [none]

/-- In every run in which a node takes part in one migration at a time, nodes that record the same
generation of the task record the same owner, and a generation is committed by one activation. -/
theorem generations_have_one_owner (services : Services) {start v : ClusterConfig}
    (idle : ∀ n, start.running n = none) (fresh : Fresh initial start.world)
    (reach : (cluster services).Reachable (oneAtATime initial) start v) :
    (∀ n n', (v.world.nodes n).registry.generation = (v.world.nodes n').registry.generation →
      (v.world.nodes n).registry.ownerNodeId = (v.world.nodes n').registry.ownerNodeId) ∧
    ∀ d d' m m' g, Committed d m g v.world.history → Committed d' m' g v.world.history → d = d' ∧ m = m' := by
  obtain ⟨claims, inv⟩ := ((departures_verified services).reachable
    ⟨fresh.invariant, departures_of_fresh fresh⟩ idle reach).holds
  refine ⟨fun n n' same => ?_, fun d d' m m' g committed committed' => ?_⟩
  · have holder := holder_of_recorded claims inv n
    rw [same] at holder
    exact holder.unique claims inv (holder_of_recorded claims inv n')
  · exact (live_of_committed inv committed).unique claims inv (live_of_committed inv committed')

end

/-! ## A run -/

/-- A node takes up a call with nothing else on the way. -/
def takesTurns (n : NodeId) (a : Call) (w : World) : Bool :=
  match a with
  | .migrate _ => (w.nodes n).journal.all (·.status.isTerminal)
  | .activate request =>
      (w.nodes n).journal.all fun r => r.status.isTerminal ∨ r.migrationId = request.migrationId
  | .reconcile _ => false

/-- An operation goes through and keeps what is finished. -/
def goesThrough (n : NodeId) (o : Op) (c : Choice) (w : World) : Bool :=
  !c.isFail && match o with
    | .journalPut record => record.role = .source ∨
        w.answers.all fun a => a.1 ≠ n ∨ a.2.1 ≠ record.migrationId ∨ a.2.2.isSome
    | .setRecordStatus m status _ _ => ((w.nodes n).journal.get m).all fun r =>
        r.role = .source ∨ r.status.isTerminal = false ∨ status = r.status
    | _ => true

/-- A test of the conditions, by evaluation. -/
def inTurn (services : Services) (l : ClusterLabel) (cfg : ClusterConfig) : Bool :=
  staysHome l cfg && (cluster services).passes goesThrough l cfg && match l with
    | .call n a _ => takesTurns n a cfg.world
    | _ => true

theorem op_of_goesThrough {n : NodeId} {o : Op} {c : Choice} {w : World}
    (home : (claimsStayHome ⟨0, "a"⟩).op n o c w) (passed : goesThrough n o c w = true) :
    (oneAtATime ⟨0, "a"⟩).op n o c w := by
  obtain ⟨through, keeps⟩ := Bool.and_eq_true_iff.mp passed
  have through : c.isFail = false := by simpa using through
  refine ⟨home, fun fails => ?_, ?_⟩
  · rw [through] at fails
    cases fails
  cases o with
  | journalPut record =>
      intro role unknown
      rcases of_decide_eq_true keeps with source | reached
      · rw [role] at source
        cases source
      · simpa using List.all_eq_true.mp reached _ unknown
  | setRecordStatus m status pid error =>
      intro r found role finished
      dsimp only at keeps
      rw [found] at keeps
      rcases of_decide_eq_true keeps with source | open_ | same
      · rw [role] at source
        cases source
      · rw [finished] at open_
        cases open_
      · exact same
  | awaitStatus d m =>
      intro fails
      rw [through] at fails
      cases fails
  | _ => trivial

theorem first_of_goesThrough {n : NodeId} {c : Choice} {p : Async Unit} {w : World}
    (home : System.Meets.first (claimsStayHome ⟨0, "a"⟩) n c p w)
    (passed : System.passesFirst goesThrough n c p w = true) :
    System.Meets.first (oneAtATime ⟨0, "a"⟩) n c p w := by
  cases p with
  | done r => trivial
  | perform o k => exact op_of_goesThrough home passed

theorem call_of_takesTurns {n : NodeId} {a : Call} {w : World} (home : (claimsStayHome ⟨0, "a"⟩).call n a w)
    (turn : takesTurns n a w = true) : (oneAtATime ⟨0, "a"⟩).call n a w := by
  refine ⟨home, ?_⟩
  cases a with
  | migrate call =>
      intro i r found
      exact List.all_eq_true.mp turn r (List.mem_of_find?_eq_some found)
  | activate request =>
      intro i r found open_
      have here := of_decide_eq_true (List.all_eq_true.mp turn r (List.mem_of_find?_eq_some found))
      rw [open_, Journal.get_migrationId found] at here
      exact here.resolve_left Bool.false_ne_true
  | reconcile record => cases turn

theorem meets_of_inTurn {services : Services} (l : ClusterLabel) (cfg : ClusterConfig)
    (h : inTurn services l cfg = true) : (cluster services).Meets (oneAtATime ⟨0, "a"⟩) l cfg := by
  obtain ⟨h, turn⟩ := Bool.and_eq_true_iff.mp h
  obtain ⟨home, passed⟩ := Bool.and_eq_true_iff.mp h
  have home : (cluster services).Meets (claimsStayHome ⟨0, "a"⟩) l cfg := meets_of_staysHome l cfg home
  cases l with
  | call n a c =>
      refine ⟨call_of_takesTurns home.1 turn, fun w accepted => first_of_goesThrough (home.2 w accepted) ?_⟩
      simpa only [System.passes, accepted, Option.all_some] using passed
  | perform n c =>
      intro p busy
      refine first_of_goesThrough (home p busy) ?_
      simpa only [System.passes, busy, Option.all_some] using passed
  | crash n => trivial
  | event e => exact home

/-- Node `a` learns that the activation went through, and hands the task over. -/
def handOverScript : List ClusterLabel :=
  [.perform "a" (.response (activationResponse "b" sampleRequest true (some 7) none))] ++ proceed "a" 4

set_option maxRecDepth 100000 in
theorem generations_have_one_owner_sample : ∃ v,
    (cluster bareServices).run (requestScript ++ shareScript ++ handOverScript) sampleCluster = some v ∧
    (v.world.nodes "a").registry.generation = 1 ∧ (v.world.nodes "c").registry.generation = 1 ∧
    (v.world.nodes "a").registry.ownerNodeId = (v.world.nodes "c").registry.ownerNodeId := by
  have script : ((cluster bareServices).runChecked (inTurn bareServices)
      (requestScript ++ shareScript ++ handOverScript) sampleCluster).any (fun v =>
        (v.world.nodes "a").registry.generation = 1 ∧ (v.world.nodes "c").registry.generation = 1) = true := by
    decide
  obtain ⟨v, run, recorded⟩ := Option.any_eq_true _ _ |>.mp script
  have reach := System.reachable_of_runChecked _ (oneAtATime ⟨0, "a"⟩) meets_of_inTurn .refl run
  obtain ⟨here, there⟩ := of_decide_eq_true recorded
  refine ⟨v, System.run_of_runChecked _ run, here, there, ?_⟩
  exact (generations_have_one_owner bareServices (fun _ => rfl) ⟨rfl, fun _ => ⟨rfl, rfl⟩,
    ⟨rfl, rfl, rfl, rfl⟩, fun _ => rfl⟩ reach).1 "a" "c" (here.trans there.symm)

end Magellan.Departures
