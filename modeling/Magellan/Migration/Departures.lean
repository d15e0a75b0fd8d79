import Magellan.Coroutine.Layers
import Magellan.Migration.CommittedClaims

/-!
# Departures

A task departs from a generation at most once: a source that begins another migration has taken the
last one back, and nobody takes it up any more.
-/

namespace Magellan.Departures

open Coroutine Coro Commitment Claims MigrationService Propagation

/-- `n` has a migration of its own on the way whose activation is committed. -/
def Arrived (n : NodeId) (w : World) : Prop :=
  ∃ m r, (w.nodes n).journal.get m = some r ∧ r.role = .source ∧ r.status.isTerminal = false ∧
    Committed r.destinationNodeId m r.generation w.history

/-- Claims stay home. A node takes up a call only when no other migration is open there, and a pass
only works on records as they are. An activation is not recorded after a status query about it has
been answered with a 404, nor after it was finished; a destination that has answered with an open
record goes on answering; and from the moment its activation is committed, no step of a source
fails. -/
def oneAtATime (initial : Ownership) : ClusterConditions where
  call n a w := (claimsStayHome initial).call n a w ∧ match a with
    | .migrate _ => ∀ i r, (w.nodes n).journal.get i = some r → r.status.isTerminal = true
    | .activate request => ∀ i r, (w.nodes n).journal.get i = some r → r.status.isTerminal = false →
        i = request.migrationId
    | .reconcile record => (w.nodes n).journal.get record.migrationId = some record
  op n o c w := (claimsStayHome initial).op n o c w ∧
    (c.isFail = true → o.isAwait = true ∨ ¬ Arrived n w) ∧ match o with
    | .journalPut record => record.role = .destination → (n, record.migrationId, none) ∉ w.answers
    | .setRecordStatus m status _ _ => ∀ r, (w.nodes n).journal.get m = some r →
        r.role = .destination → r.status.isTerminal = true → status = r.status
    | .awaitStatus d m => c.isFail = true → ∀ r, (d, m, some r) ∈ w.answers → r.status.isTerminal = true
    | _ => True
  event e w := (claimsStayHome initial).event e w

theorem oneAtATime_implies (initial : Ownership) : (oneAtATime initial).Implies (claimsStayHome initial) where
  call _ _ _ meets := meets.1
  op _ _ _ _ meets := meets.1
  crash _ _ _ := trivial
  event _ _ meets := meets

/-- Nobody will commit the activation of `m` at `d`. -/
def Harmless (d : NodeId) (m : MigrationId) (w : World) : Prop :=
  RolledBack d m w.history ∨ (d, m, none) ∈ w.answers ∨ ∀ q ∈ w.requests, q.migrationId ≠ m

/-- The source has taken the migration `m` back. -/
def Closed (n : NodeId) (m : MigrationId) (h : History) : Prop :=
  ∃ r, (n, r) ∈ h ∧ r.role = .source ∧ r.migrationId = m ∧ r.status = .rolledBack

/-- No migration from a generation above `b` has been handed over by `n`. -/
def Bound (n : NodeId) (b : Nat) (w : World) : Prop :=
  ∀ i r, (w.nodes n).journal.get i = some r → r.role = .source → r.status = .activated → r.generation ≤ b

/-- The generation to which a node goes back when it takes back what a record says. -/
def floor (r : MigrationRecord) : Option Nat :=
  match r.role with
  | .source => some (r.generation - 1)
  | .destination => r.originalState.map (·.generation)

/-- What the journals say about departures. -/
structure Invariant (w : World) : Prop where
  kept : ∀ {n r}, (n, r) ∈ w.history → ∃ x, (w.nodes n).journal.get r.migrationId = some x
  stays : ∀ {n r}, (n, r) ∈ w.history → r.status.isTerminal = true →
    ∃ x, (w.nodes n).journal.get r.migrationId = some x ∧ x.status = r.status
  pending : ∀ {n r}, r ∈ (w.nodes n).pass → r.status.isTerminal = false
  positive : ∀ {n r}, (n, r) ∈ w.history → r.role = .source → 1 ≤ r.generation
  origin : ∀ {n n' r r'}, (n, r) ∈ w.history → (n', r') ∈ w.history → r.role = .source →
    r'.role = .source → r.migrationId = r'.migrationId → n = n'
  senders : ∀ q ∈ w.requests, ∃ r, (w.nodes q.sourceNodeId).journal.get q.migrationId = some r ∧
    r.role = .source ∧ r.status ≠ .preparing
  asked : ∀ {n r}, (n, r) ∈ w.history → r.role = .destination →
    ∃ q ∈ w.requests, q.migrationId = r.migrationId
  absent : ∀ {d m}, (d, m, none) ∈ w.answers → ∀ r, (d, r) ∈ w.history → r.role = .destination →
    r.migrationId ≠ m
  refused : ∀ a ∈ w.responses, a.activated = false →
    RolledBack a.destinationNodeId a.migrationId w.history
  closed : ∀ {n r}, (n, r) ∈ w.history → r.role = .source → r.status = .rolledBack →
    Harmless r.destinationNodeId r.migrationId w
  once : ∀ {n r r'}, (n, r) ∈ w.history → (n, r') ∈ w.history → r.role = .source → r'.role = .source →
    r.generation = r'.generation → r.migrationId = r'.migrationId ∨
      Closed n r.migrationId w.history ∨ Closed n r'.migrationId w.history
  single : ∀ {n i i' r r'}, (w.nodes n).journal.get i = some r → (w.nodes n).journal.get i' = some r' →
    r.status.isTerminal = false → r'.status.isTerminal = false → i = i'
  ahead : ∀ n, Bound n (w.nodes n).registry.generation w
  floors : ∀ {n i r b}, (w.nodes n).journal.get i = some r → r.status.isTerminal = false →
    floor r = some b → Bound n b w

/-- What a step that leaves the journal of `n` keeps for it. -/
structure Around (n : NodeId) (w v : World) : Prop where
  later : w.history <:+ v.history
  own : ∀ r, (n, r) ∈ v.history → (n, r) ∈ w.history
  journal : (v.nodes n).journal = (w.nodes n).journal
  requests : w.requests ⊆ v.requests ∧ ∀ q ∈ v.requests, q.sourceNodeId = n → q ∈ w.requests
  answers : w.answers ⊆ v.answers

/-- What the others leave at `n`. -/
structure Rely (n : NodeId) (w v : World) : Prop extends Around n w v where
  generation : (w.nodes n).registry.generation ≤ (v.nodes n).registry.generation

/-- A step at `n`. -/
structure Keeps (n : NodeId) (w v : World) : Prop where
  later : w.history <:+ v.history
  others : ∀ i, i ≠ n → v.nodes i = w.nodes i
  history : ∀ i r, i ≠ n → (i, r) ∈ v.history → (i, r) ∈ w.history
  requests : w.requests ⊆ v.requests ∧ ∀ q ∈ v.requests, q ∈ w.requests ∨ q.sourceNodeId = n
  answers : v.answers = w.answers

section

variable {initial : Ownership} {n i d : NodeId} {m : MigrationId} {g b : Nat} {w v : World} {c : Choice}
  {r x : MigrationRecord} {h h' : History}

theorem Closed.mono (later : h <:+ h') : Closed n m h → Closed n m h'
  | ⟨r, mem, said⟩ => ⟨r, later.subset mem, said⟩

/-- The record in the journal says what has been written under its id, up to the status. -/
theorem agrees (claims : Claims.Invariant initial w) (mem : (n, r) ∈ w.history)
    (found : (w.nodes n).journal.get r.migrationId = some x) :
    x.role = r.role ∧ x.generation = r.generation ∧
      (r.role = .source → x.destinationNodeId = r.destinationNodeId) := by
  obtain ⟨mem', same⟩ := claims.recorded found
  have begun := claims.sound.begun mem
  rw [← same] at begun
  obtain ⟨destination, generation⟩ := claims.sound.agree mem' begun
  have here := (claims.sound.entries mem).elsewhere
  have here' := (claims.sound.entries mem').elsewhere
  unfold claimant at destination
  cases role : r.role <;> cases role' : x.role <;> rw [role, role'] at destination
  · exact ⟨rfl, generation, fun _ => destination⟩
  · exact absurd destination.symm (here role)
  · exact absurd destination (here' role')
  · exact ⟨rfl, generation, fun source => nomatch source⟩

/-! ## Writes of records -/

theorem get_putRecord : ((w.putRecord n r).nodes i).journal.get m =
    if i = n ∧ m = r.migrationId then some r else (w.nodes i).journal.get m := by
  by_cases here : i = n
  · subst here
    simp
  · simp [putRecord_ne here, here]

theorem mem_putRecord {y : NodeId × MigrationRecord} :
    y ∈ (w.putRecord n r).history ↔ y = (n, r) ∨ y ∈ w.history := by
  simp

/-- A record that may be written. -/
structure Fits (n : NodeId) (r : MigrationRecord) (w : World) : Prop where
  finished : ∀ x, (w.nodes n).journal.get r.migrationId = some x → x.status.isTerminal = true →
    r.status = x.status
  positive : r.role = .source → 1 ≤ r.generation
  origin : r.role = .source → ∀ i x, (i, x) ∈ w.history → x.role = .source →
    x.migrationId = r.migrationId → i = n
  sender : ∀ q ∈ w.requests, q.sourceNodeId = n → q.migrationId = r.migrationId →
    r.role = .source ∧ r.status ≠ .preparing
  asked : r.role = .destination → ∃ q ∈ w.requests, q.migrationId = r.migrationId
  absent : r.role = .destination → (n, r.migrationId, none) ∉ w.answers
  closes : r.role = .source → r.status = .rolledBack → Harmless r.destinationNodeId r.migrationId w
  once : r.role = .source → ∀ x, (n, x) ∈ w.history → x.role = .source → x.generation = r.generation →
    x.migrationId = r.migrationId ∨ Closed n x.migrationId w.history ∨ Closed n r.migrationId w.history
  single : r.status.isTerminal = false ∨ r.role = .source ∧ r.status = .activated →
    ∀ i x, (w.nodes n).journal.get i = some x → x.status.isTerminal = false → i = r.migrationId
  ahead : r.role = .source → r.status = .activated → r.generation ≤ (w.nodes n).registry.generation
  floors : r.status.isTerminal = false → ∀ b, floor r = some b → Bound n b w

theorem Harmless.mono (later : w.history <:+ v.history) (answers : w.answers ⊆ v.answers)
    (requests : v.requests = w.requests) : Harmless d m w → Harmless d m v
  | .inl back => .inl (back.mono later)
  | .inr (.inl unknown) => .inr (.inl (answers unknown))
  | .inr (.inr unasked) => .inr (.inr (requests ▸ unasked))

theorem invariant_write (inv : Invariant w) (fits : Fits n r w) :
    Invariant (w.putRecord n r) := by
  have later : w.history <:+ (w.putRecord n r).history := by
    rw [history_putRecord]
    exact List.suffix_cons ..
  have harmless {d m} (h : Harmless d m w) : Harmless d m (w.putRecord n r) :=
    h.mono later (fun _ mem => mem) rfl
  have bound {i b} (fine : i = n → r.role = .source → r.status = .activated → r.generation ≤ b)
      (h : Bound i b w) : Bound i b (w.putRecord n r) := by
    intro j x found role status
    rw [get_putRecord] at found
    split_ifs at found with here
    · cases found
      exact fine here.1 role status
    · exact h j x found role status
  constructor
  case kept =>
    intro i x mem
    rw [get_putRecord]
    split_ifs with here
    · exact ⟨r, rfl⟩
    · rcases mem_putRecord.mp mem with same | before
      · cases same
        exact absurd ⟨rfl, rfl⟩ here
      · exact inv.kept before
  case stays =>
    intro i x mem terminal
    rw [get_putRecord]
    rcases mem_putRecord.mp mem with same | before
    · cases same
      exact ⟨r, by simp, rfl⟩
    · obtain ⟨y, found, status⟩ := inv.stays before terminal
      split_ifs with here
      · obtain ⟨rfl, same⟩ := here
        refine ⟨r, rfl, ?_⟩
        rw [same] at found
        rw [fits.finished y found (by rw [status]; exact terminal), status]
      · exact ⟨y, found, status⟩
  case pending =>
    intro i x mem
    refine inv.pending (n := i) ?_
    by_cases here : i = n
    · subst here
      simpa using mem
    · rwa [putRecord_ne here] at mem
  case positive =>
    intro i x mem role
    rcases mem_putRecord.mp mem with same | before
    · cases same
      exact fits.positive role
    · exact inv.positive before role
  case origin =>
    intro i i' x x' mem mem' role role' same
    rcases mem_putRecord.mp mem with new | before <;> rcases mem_putRecord.mp mem' with new' | before'
    · cases new
      cases new'
      rfl
    · cases new
      exact (fits.origin role i' x' before' role' same.symm).symm
    · cases new'
      exact fits.origin role' i x before role same
    · exact inv.origin before before' role role' same
  case senders =>
    intro q sent
    rw [get_putRecord]
    split_ifs with here
    · exact ⟨r, rfl, fits.sender q sent here.1 here.2⟩
    · exact inv.senders q sent
  case asked =>
    intro i x mem role
    rcases mem_putRecord.mp mem with same | before
    · cases same
      exact fits.asked role
    · exact inv.asked before role
  case absent =>
    intro d m unknown x mem role same
    rcases mem_putRecord.mp mem with new | before
    · cases new
      exact fits.absent role (same ▸ unknown)
    · exact inv.absent unknown x before role same
  case refused => exact fun a sent no => (inv.refused a sent no).mono later
  case closed =>
    intro i x mem role status
    rcases mem_putRecord.mp mem with same | before
    · cases same
      exact harmless (fits.closes role status)
    · exact harmless (inv.closed before role status)
  case once =>
    intro i x x' mem mem' role role' same
    rcases mem_putRecord.mp mem with new | before <;> rcases mem_putRecord.mp mem' with new' | before'
    · cases new
      cases new'
      exact .inl rfl
    · cases new
      rcases fits.once role x' before' role' same.symm with id | back | back
      · exact .inl id.symm
      · exact .inr (.inr (back.mono later))
      · exact .inr (.inl (back.mono later))
    · cases new'
      rcases fits.once role' x before role same with id | back | back
      · exact .inl id
      · exact .inr (.inl (back.mono later))
      · exact .inr (.inr (back.mono later))
    · exact (inv.once before before' role role' same).imp id (.imp (.mono later) (.mono later))
  case single =>
    intro i j j' x x' found found' open_ open_'
    rw [get_putRecord] at found found'
    split_ifs at found found' with here here' here'
    · exact here.2.trans here'.2.symm
    · cases found
      obtain ⟨rfl, rfl⟩ := here
      exact (fits.single (.inl open_) j' x' found' open_').symm
    · cases found'
      obtain ⟨rfl, rfl⟩ := here'
      exact fits.single (.inl open_') j x found open_
    · exact inv.single found found' open_ open_'
  case ahead =>
    intro i
    have same : ((w.putRecord n r).nodes i).registry = (w.nodes i).registry := by
      by_cases here : i = n
      · rw [here, World.putRecord_self]
      · rw [putRecord_ne here]
    rw [same]
    exact bound (fun here role status => here ▸ fits.ahead role status) (inv.ahead i)
  case floors =>
    intro i j x b found open_ low
    rw [get_putRecord] at found
    split_ifs at found with here
    · cases found
      obtain ⟨rfl, -⟩ := here
      exact bound (fun _ _ status => by rw [status] at open_; cases open_) (fits.floors open_ b low)
    · refine bound (fun same role status => ?_) (inv.floors found open_ low)
      subst same
      exact absurd ⟨rfl, fits.single (.inr ⟨role, status⟩) j x found open_⟩ here

/-- A new status for a record that is open, or is an activation that keeps its outcome. -/
structure Moves (n : NodeId) (x : MigrationRecord) (status : MigrationStatus) (w : World) : Prop where
  started : status ≠ .preparing
  opened : x.role = .source → x.status.isTerminal = false
  finished : x.role = .destination → x.status.isTerminal = true → status = x.status
  closes : x.role = .source → status = .rolledBack → Harmless x.destinationNodeId x.migrationId w
  ahead : x.role = .source → status = .activated → x.generation ≤ (w.nodes n).registry.generation

theorem invariant_move {status : MigrationStatus} {pid : Option Pid} {error : Option String}
    (claims : Claims.Invariant initial w) (inv : Invariant w) (found : (w.nodes n).journal.get m = some x)
    (moves : Moves n x status w) : Invariant (w.putRecord n { x with status, pid, error }) := by
  obtain ⟨mem, rfl⟩ := claims.recorded found
  have open_of {status : MigrationStatus} (moves : Moves n x status w) (open_ : status.isTerminal = false) :
      x.status.isTerminal = false := by
    cases role : x.role with
    | source => exact moves.opened role
    | destination =>
        by_contra finished
        rw [moves.finished role (eq_true_of_ne_false finished)] at open_
        exact finished open_
  refine invariant_write inv ⟨?_, fun role => inv.positive (r := x) mem role, ?_, ?_, fun role => inv.asked (r := x) mem role, ?_, moves.closes, ?_, ?_,
    moves.ahead, ?_⟩
  · intro y found' terminal
    cases found.symm.trans found'
    cases role : x.role with
    | source => rw [moves.opened role] at terminal; cases terminal
    | destination => exact moves.finished role terminal
  · exact fun role i y before role' same => inv.origin before mem role' role same
  · intro q sent from_ same
    obtain ⟨y, found', role, -⟩ := inv.senders q sent
    rw [from_, same] at found'
    cases found.symm.trans found'
    exact ⟨role, moves.started⟩
  · exact fun role unknown => inv.absent unknown x mem role rfl
  · intro role y before role' same
    have known : y.migrationId = x.migrationId ∨ Closed n y.migrationId w.history ∨
        Closed n x.migrationId w.history := inv.once before mem role' role same
    exact known
  · intro closing i y found' open_
    refine inv.single found' found open_ ?_
    rcases closing with open_' | ⟨role, -⟩
    · exact open_of moves open_'
    · exact moves.opened role
  · intro open_ b low
    exact inv.floors found (open_of moves open_) low

/-! ## What leaves the journals -/

/-- A step that writes no record and lowers no generation. -/
structure Still (w v : World) : Prop where
  history : v.history = w.history
  journals : ∀ i, (v.nodes i).journal = (w.nodes i).journal
  passes : ∀ {i r}, r ∈ (v.nodes i).pass → r ∈ (w.nodes i).pass ∨ r.status.isTerminal = false
  generations : ∀ i, Bound i (w.nodes i).registry.generation w → Bound i (v.nodes i).registry.generation w
  senders : ∀ q ∈ v.requests, q ∈ w.requests ∨ ∃ r, (w.nodes q.sourceNodeId).journal.get q.migrationId = some r ∧
    r.role = .source ∧ r.status.isTerminal = false ∧ r.status ≠ .preparing
  requests : w.requests ⊆ v.requests
  responses : ∀ a ∈ v.responses, a ∈ w.responses ∨
    (a.activated = false → RolledBack a.destinationNodeId a.migrationId w.history)
  answers : ∀ {d m}, (d, m, none) ∈ v.answers → (d, m, none) ∈ w.answers ∨ (w.nodes d).journal.get m = none
  answered : w.answers ⊆ v.answers

theorem Still.invariant (still : Still w v) (claims : Claims.Invariant initial w) (inv : Invariant w) :
    Invariant v := by
  have bound {i b} : Bound i b v ↔ Bound i b w := by
    unfold Bound
    rw [still.journals]
  constructor
  case kept =>
    intro n r mem
    rw [still.history] at mem
    rw [still.journals]
    exact inv.kept mem
  case stays =>
    intro n r mem
    rw [still.history] at mem
    rw [still.journals]
    exact inv.stays mem
  case pending => exact fun mem => (still.passes mem).elim inv.pending id
  case positive => rw [still.history]; exact inv.positive
  case origin => rw [still.history]; exact inv.origin
  case senders =>
    intro q sent
    rw [still.journals]
    rcases still.senders q sent with before | ⟨r, found, role, -, started⟩
    · exact inv.senders q before
    · exact ⟨r, found, role, started⟩
  case asked =>
    rw [still.history]
    intro n r mem role
    obtain ⟨q, sent, same⟩ := inv.asked mem role
    exact ⟨q, still.requests sent, same⟩
  case absent =>
    rw [still.history]
    intro d m unknown r mem role same
    rcases still.answers unknown with before | missing
    · exact inv.absent before r mem role same
    · obtain ⟨x, found⟩ := inv.kept mem
      rw [same, missing] at found
      cases found
  case refused =>
    rw [still.history]
    exact fun a sent no => (still.responses a sent).elim (fun before => inv.refused a before no) fun h => h no
  case closed =>
    rw [still.history]
    intro n r mem role status
    rcases inv.closed mem role status with back | unknown | unasked
    · exact .inl (still.history ▸ back)
    · exact .inr (.inl (still.answered unknown))
    · refine .inr (.inr fun q sent same => ?_)
      rcases still.senders q sent with before | ⟨x, found, role', open_, -⟩
      · exact unasked q before same
      · obtain ⟨mem', id⟩ := claims.recorded found
        have here := inv.origin mem mem' role role' (same.symm.trans id.symm)
        obtain ⟨y, found', status'⟩ := inv.stays mem (by rw [status]; rfl)
        rw [← here, same] at found
        cases found.symm.trans found'
        rw [status', status] at open_
        cases open_
  case once => rw [still.history]; exact inv.once
  case single =>
    intro n i i' r r' found found'
    rw [still.journals] at found found'
    exact inv.single found found'
  case ahead => exact fun n => bound.mpr (still.generations n (inv.ahead n))
  case floors =>
    intro n i r b found open_ low
    rw [still.journals] at found
    exact bound.mpr (inv.floors found open_ low)

theorem still_of_calm (calm : Calm w v) : Still w v := by
  obtain ⟨requests, responses, answers, -⟩ := (Mail.mk.injEq ..).mp calm.mail
  refine ⟨calm.history, calm.journals, fun mem => .inl (calm.passes _ mem), fun i bound => ?_, fun q sent =>
    .inl (requests ▸ sent), fun q sent => requests ▸ sent, fun a sent => .inl (responses ▸ sent), fun unknown =>
      .inl (answers ▸ unknown), fun a sent => answers ▸ sent⟩
  rw [((Ownership.mk.injEq ..).mp (calm.ownerships i)).1]
  exact bound

/-! ## One owner -/

/-- An activation of `m` at `d` with generation `g` that has not been rolled back. -/
def Live (d : NodeId) (m : MigrationId) (g : Nat) (h : History) : Prop :=
  ¬ RolledBack d m h ∧ ∃ r, (d, r) ∈ h ∧ r.role = .destination ∧ r.migrationId = m ∧ r.generation = g

/-- Who may hold the task with generation `g`. -/
def Holder (initial : Ownership) (g : Nat) (d : NodeId) (h : History) : Prop :=
  initial = ⟨g, d⟩ ∨ ∃ m, Live d m g h

/-- A record that finished otherwise, or is open, was not rolled back. -/
theorem notRolledBack (inv : Invariant w) (mem : (d, r) ∈ w.history)
    (found : (w.nodes d).journal.get r.migrationId = some x) (other : x.status ≠ .rolledBack) :
    ¬ RolledBack d r.migrationId w.history := by
  rintro ⟨⟨_, y⟩, mem', rfl, -, same, status⟩
  obtain ⟨z, found', status'⟩ := inv.stays mem' (by rw [status]; rfl)
  rw [same] at found'
  cases found.symm.trans found'
  exact other (status'.trans status)

theorem live_of_committed (inv : Invariant w) (committed : Committed d m g w.history) : Live d m g w.history := by
  obtain ⟨r, mem, role, rfl, rfl, status⟩ := committed.exists_write
  obtain ⟨x, found, status'⟩ := inv.stays mem (by rw [status]; rfl)
  refine ⟨notRolledBack inv mem found ?_, r, mem, role, rfl, rfl⟩
  rw [status', status]
  exact MigrationStatus.noConfusion

theorem live_of_open (claims : Claims.Invariant initial w) (inv : Invariant w)
    (open_ : OpenRecord m g (w.nodes d).journal) : Live d m g w.history := by
  obtain ⟨r, found, role, status, rfl⟩ := open_
  obtain ⟨mem, rfl⟩ := claims.recorded found
  refine ⟨notRolledBack inv mem found fun back => ?_, r, mem, role, rfl, rfl⟩
  rw [back] at status
  cases status

theorem Live.not_harmless (inv : Invariant w) (live : Live d m g w.history) : ¬ Harmless d m w := by
  obtain ⟨kept, r, mem, role, rfl, -⟩ := live
  rintro (back | unknown | unasked)
  · exact kept back
  · exact inv.absent unknown r mem role rfl
  · obtain ⟨q, sent, same⟩ := inv.asked mem role
    exact unasked q sent same

/-- A live activation comes from a holder of the generation before. -/
theorem Live.source (claims : Claims.Invariant initial w) (inv : Invariant w) (live : Live d m g w.history) :
    ∃ s r, (s, r) ∈ w.history ∧ r.role = .source ∧ r.migrationId = m ∧ r.destinationNodeId = d ∧
      r.generation = g ∧ 1 ≤ g ∧ Holder initial (g - 1) s w.history := by
  obtain ⟨-, x, mem, role, rfl, rfl⟩ := live
  obtain ⟨⟨s, r⟩, mem', role', same, destination, generation⟩ := (claims.sound.entries mem).begun role
  have origin := (claims.sound.entries mem').origin role'
  rw [generation] at origin
  refine ⟨s, r, mem', role', same, destination, generation, generation ▸ inv.positive mem' role', ?_⟩
  exact origin.imp id fun ⟨m, committed⟩ => ⟨m, live_of_committed inv committed⟩

theorem Holder.above (claims : Claims.Invariant initial w) (inv : Invariant w)
    (holder : Holder initial g d w.history) : initial.generation ≤ g := by
  induction g using Nat.strong_induction_on generalizing d with
  | _ g ih =>
      rcases holder with rfl | ⟨m, live⟩
      · exact le_rfl
      · obtain ⟨s, -, -, -, -, -, -, positive, before⟩ := live.source claims inv
        exact (ih (g - 1) (by omega) before).trans (Nat.sub_le _ _)

theorem harmless_of_closed (claims : Claims.Invariant initial w) (inv : Invariant w) {s : NodeId}
    (mem : (s, r) ∈ w.history) (role : r.role = .source) (back : Closed s r.migrationId w.history) :
    Harmless r.destinationNodeId r.migrationId w := by
  obtain ⟨x, mem', role', same, status⟩ := back
  have begun : Begun r.migrationId r.destinationNodeId r.generation w.history := ⟨_, mem, role, rfl, rfl, rfl⟩
  have begun' : Begun x.migrationId x.destinationNodeId x.generation w.history := ⟨_, mem', role', rfl, rfl, rfl⟩
  rw [← same, (claims.sound.unique begun (same ▸ begun')).1]
  exact inv.closed mem' role' status

/-- Two migrations from one generation of a node are one. -/
theorem departs_once (claims : Claims.Invariant initial w) (inv : Invariant w) {s : NodeId} {r' : MigrationRecord} (mem : (s, r) ∈ w.history)
    (mem' : (s, r') ∈ w.history) (role : r.role = .source) (role' : r'.role = .source)
    (same : r.generation = r'.generation) (live : ¬ Harmless r.destinationNodeId r.migrationId w)
    (live' : ¬ Harmless r'.destinationNodeId r'.migrationId w) : r.migrationId = r'.migrationId := by
  rcases inv.once mem mem' role role' same with same | back | back
  · exact same
  · exact absurd (harmless_of_closed claims inv mem role back) live
  · exact absurd (harmless_of_closed claims inv mem' role' back) live'

/-- Two live activations that come from one holder are one. -/
theorem Live.same (claims : Claims.Invariant initial w) (inv : Invariant w) {d' : NodeId} {m' : MigrationId}
    (live : Live d m g w.history) (live' : Live d' m' g w.history)
    (before : ∀ {s s'}, 1 ≤ g → Holder initial (g - 1) s w.history → Holder initial (g - 1) s' w.history → s = s') :
    d = d' ∧ m = m' := by
  obtain ⟨s, r, mem, role, rfl, rfl, generation, positive, holder⟩ := live.source claims inv
  obtain ⟨s', r', mem', role', rfl, rfl, generation', -, holder'⟩ := live'.source claims inv
  obtain rfl := before positive holder holder'
  have same := departs_once claims inv mem mem' role role' (generation.trans generation'.symm)
    (live.not_harmless inv) (live'.not_harmless inv)
  have begun : Begun r.migrationId r.destinationNodeId g w.history := ⟨_, mem, role, rfl, rfl, generation⟩
  have begun' : Begun r'.migrationId r'.destinationNodeId g w.history := ⟨_, mem', role', rfl, rfl, generation'⟩
  exact ⟨(claims.sound.unique begun (same ▸ begun')).1, same⟩

theorem Holder.unique (claims : Claims.Invariant initial w) (inv : Invariant w) {d' : NodeId}
    (holder : Holder initial g d w.history) (holder' : Holder initial g d' w.history) : d = d' := by
  induction g using Nat.strong_induction_on generalizing d d' with
  | _ g ih =>
      have initially {d d'} (first : initial = ⟨g, d⟩) (live : ∃ m, Live d' m g w.history) : False := by
        obtain ⟨m, live⟩ := live
        obtain ⟨s, -, -, -, -, -, -, positive, before⟩ := live.source claims inv
        have above := before.above claims inv
        rw [first] at above
        dsimp only at above
        omega
      rcases holder with first | live <;> rcases holder' with first' | live'
      · cases first.symm.trans first'
        rfl
      · exact (initially first live').elim
      · exact (initially first' live).elim
      · obtain ⟨m, live⟩ := live
        obtain ⟨m', live'⟩ := live'
        exact (live.same claims inv live' fun positive => ih _ (by omega)).1

theorem Live.unique (claims : Claims.Invariant initial w) (inv : Invariant w) {d' : NodeId} {m' : MigrationId}
    (live : Live d m g w.history) (live' : Live d' m' g w.history) : d = d' ∧ m = m' :=
  live.same claims inv live' fun _ => Holder.unique claims inv

/-- What a node records. -/
theorem holder_of_recorded (claims : Claims.Invariant initial w) (inv : Invariant w) (n : NodeId) :
    Holder initial (w.nodes n).registry.generation (w.nodes n).registry.ownerNodeId w.history := by
  rcases claims.claims n with good | ⟨m, owner, open_⟩
  · exact good.imp id fun ⟨m, committed⟩ => ⟨m, live_of_committed inv committed⟩
  · rw [owner]
    exact .inr ⟨m, live_of_open claims inv open_⟩

end

end Magellan.Departures
