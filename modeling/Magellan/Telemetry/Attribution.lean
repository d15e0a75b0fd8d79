import Magellan.Telemetry.Power
import Mathlib.Algebra.BigOperators.Group.Finset.Basic
import Mathlib.Algebra.Order.BigOperators.Group.Finset
import Mathlib.Algebra.Order.BigOperators.Group.List
import Mathlib.Algebra.BigOperators.Ring.List
import Mathlib.Algebra.Order.Field.Rat
import Mathlib.Tactic.FieldSimp
import Mathlib.Tactic.Linarith
import Mathlib.Tactic.NormNum

/-!
# The energy of the node goes to its tasks

Over every sequence of rounds the powers that the sampled tasks are given add up to what the energy
counters of the node have moved on, whatever the counters have wrapped around.
-/

namespace Magellan.Telemetry

open Finset PowerTelemetry

/-! ## Counters that wrap around -/

/-- A counter that wraps around at most once between two readings gives the energy in between. -/
theorem counter_moved {before after range : Nat} (grows : before ≤ after) (once : after < before + range) :
    (if ((before % range : Nat) : Int) ≤ (after % range : Nat) then
      ((after % range : Nat) : Int) - (before % range : Nat)
    else max 0 ((range : Int) - (before % range : Nat) + (after % range : Nat))) = (after : Int) - before := by
  obtain ⟨moved, rfl⟩ := Nat.exists_eq_add_of_le grows
  have reading : (before + moved) % range = (before % range + moved) % range := (Nat.mod_add_mod _ _ _).symm
  have small : before % range < range := Nat.mod_lt _ (by omega)
  rw [reading]
  by_cases wraps : before % range + moved < range
  · rw [Nat.mod_eq_of_lt wraps, if_pos (by omega)]
    omega
  · have wrapped : (before % range + moved) % range = before % range + moved - range := by
      rw [Nat.mod_eq_sub_mod (by omega), Nat.mod_eq_of_lt (by omega)]
    rw [wrapped, if_neg (by omega)]
    omega

/-- The files of a zone, where its energy is `energy`. -/
def Reads (range energy : String → Nat) (zone : PowercapEntry) : Prop :=
  zone.energyUj = some (.ok (energy zone.name % range zone.name : Nat)) ∧
    zone.maxEnergyRangeUj = some (.ok (range zone.name : Nat))

variable {range energy energy' : String → Nat} {zones : List PowercapEntry} {names : List String}

def reading (range energy : String → Nat) (name : String) : Int := (energy name % range name : Nat)

theorem readZones_of_reads (reads : ∀ zone ∈ zones, Reads range energy zone) :
    readZones zones = .ok (zones.map fun zone => (zone, reading range energy zone.name)) := by
  induction zones with
  | nil => rfl
  | cons zone rest ih =>
      obtain ⟨here, later⟩ := List.forall_mem_cons.mp reads
      simp only [readZones, here.1, ih later]
      rfl

/-- The values that a reader keeps. -/
def readings (range energy : String → Nat) (names : List String) : Dict String Int :=
  .ofList (names.map fun name => (name, reading range energy name))

theorem get?_readings (distinct : names.Nodup) {name : String} (member : name ∈ names) :
    (readings range energy names).get? name = some (reading range energy name) := by
  have keys : ((names.map fun name => (name, reading range energy name)).map Prod.fst).Nodup := by
    simpa [Function.comp_def] using distinct
  rw [readings, ← Dict.mem_entries_iff, Dict.entries_ofList keys]
  exact List.mem_map_of_mem member

theorem movedUj_of_reads {previousValues : Dict String Int} (deltaUj : Int)
    (reads : ∀ zone ∈ zones, Reads range energy' zone)
    (kept : ∀ zone ∈ zones, previousValues.get? zone.name = some (reading range energy zone.name))
    (moves : ∀ zone ∈ zones, energy zone.name ≤ energy' zone.name ∧
      energy' zone.name < energy zone.name + range zone.name) :
    movedUj previousValues deltaUj (zones.map fun zone => (zone, reading range energy' zone.name)) =
      .ok (deltaUj + (zones.map fun zone => (energy' zone.name : Int) - energy zone.name).sum) := by
  induction zones generalizing deltaUj with
  | nil => simp [movedUj]
  | cons zone rest ih =>
      obtain ⟨here, later⟩ := List.forall_mem_cons.mp reads
      obtain ⟨old, older⟩ := List.forall_mem_cons.mp kept
      obtain ⟨⟨grows, once⟩, move⟩ := List.forall_mem_cons.mp moves
      have moved := counter_moved grows once
      have step : movedUj previousValues deltaUj ((zone, reading range energy' zone.name) ::
          rest.map fun zone => (zone, reading range energy' zone.name)) =
            movedUj previousValues (deltaUj + ((energy' zone.name : Int) - energy zone.name))
              (rest.map fun zone => (zone, reading range energy' zone.name)) := by
        rw [← moved]
        simp only [movedUj, old, here.2, reading]
        split_ifs <;> rfl
      rw [List.map_cons, step, ih _ later older move, List.map_cons, List.sum_cons, add_assoc]

/-- The counters of a node: the names of the zones, and what their files are like. -/
structure Meters where
  names : List String
  range : String → Nat
  distinct : names.Nodup

/-- The counters as a round finds them. -/
def Meters.Read (m : Meters) (energy : String → Nat) (root : Option (List PowercapEntry)) : Prop :=
  (raplZones root).map (·.name) = m.names ∧ ∀ zone ∈ raplZones root, Reads m.range energy zone

def Meters.kept (m : Meters) (energy : String → Nat) (now : Rat) : RaplPowerReader :=
  ⟨some (readings m.range energy m.names, now)⟩

variable {m : Meters} {root : Option (List PowercapEntry)} {now before : Rat}

/-- The energy between two readings. -/
def Meters.moved (m : Meters) (energy energy' : String → Nat) : Int :=
  (m.names.map fun name => (energy' name : Int) - energy name).sum

variable (now) in
theorem samplePowerKw_first (read : m.Read energy root) {reader : RaplPowerReader}
    (first : reader.previous = none) :
    (samplePowerKw root now reader).1 = .ok none ∧
      ((samplePowerKw root now reader).2 = m.kept energy now ∨ m.names = []) := by
  obtain ⟨names, reads⟩ := read
  unfold samplePowerKw
  by_cases absent : raplZones root = []
  · rw [if_pos absent]
    simp [← names, absent]
  · rw [if_neg absent, readZones_of_reads reads]
    simp only [first]
    refine ⟨trivial, .inl ?_⟩
    simp [Meters.kept, readings, ← names, Function.comp_def]

theorem samplePowerKw_next (read : m.Read energy' root) (later : before < now)
    (moves : ∀ name ∈ m.names, energy name ≤ energy' name ∧ energy' name < energy name + m.range name)
    {reader : RaplPowerReader} (last : reader = m.kept energy before ∨ m.names = []) :
    ((samplePowerKw root now reader).2 = m.kept energy' now ∨ m.names = []) ∧
      (samplePowerKw root now reader).1 = .ok (if m.moved energy energy' ≤ 0 then none
        else some ((m.moved energy energy' : Rat) / 1000000 / (now - before) / 1000)) := by
  obtain ⟨names, reads⟩ := read
  unfold samplePowerKw
  by_cases absent : raplZones root = []
  · rw [if_pos absent]
    simp [Meters.moved, ← names, absent]
  · have some_ : m.names ≠ [] := by simpa [← names] using absent
    obtain rfl := last.resolve_right some_
    have named : ∀ zone ∈ raplZones root, zone.name ∈ m.names := by
      intro zone member
      rw [← names]
      exact List.mem_map_of_mem member
    have moved := movedUj_of_reads 0 reads (fun zone member => get?_readings m.distinct (named zone member))
      fun zone member => moves zone.name (named zone member)
    have total : ((raplZones root).map fun zone => (energy' zone.name : Int) - energy zone.name).sum =
        m.moved energy energy' := by
      rw [Meters.moved, ← names, List.map_map]
      rfl
    rw [if_neg absent, readZones_of_reads reads]
    simp only [Meters.kept, if_neg (not_le.mpr (sub_pos.mpr later)), moved, total, zero_add]
    constructor
    · left
      split_ifs <;> simp [readings, ← names, Function.comp_def]
    · split_ifs <;> rfl

/-! ## Shares -/

theorem sum_shares {weights : List Rat} {total least power : Rat} (sum : weights.sum = total) (some_ : 0 < total)
    (nonneg : ∀ w ∈ weights, 0 ≤ w) (floor : 0 ≤ least) (positive : 0 ≤ power) :
    power ≤ (weights.map fun w => max least (power * w / total)).sum ∧
      (weights.map fun w => max least (power * w / total)).sum ≤ power + weights.length * least := by
  have exact_ : (weights.map fun w => power * w / total).sum = power := by
    have factor : (weights.map fun w => power * w / total) = weights.map fun w => power / total * w := by
      apply List.map_congr_left
      intro w _
      ring
    rw [factor, List.sum_map_mul_left, List.map_id', sum]
    field_simp
  constructor
  · calc power = (weights.map fun w => power * w / total).sum := exact_.symm
      _ ≤ _ := List.sum_le_sum fun w _ => le_max_right _ _
  · have each : ∀ w ∈ weights, max least (power * w / total) ≤ power * w / total + least := by
      intro w member
      have share : 0 ≤ power * w / total := div_nonneg (mul_nonneg positive (nonneg w member)) some_.le
      exact max_le (by linarith) (by linarith)
    calc (weights.map fun w => max least (power * w / total)).sum ≤
          (weights.map fun w => power * w / total + least).sum := List.sum_le_sum each
      _ = power + weights.length * least := by
          rw [List.sum_map_add, exact_]
          simp

theorem weightsOf_spec {records : List TaskTelemetryRecord} (some_ : records ≠ []) :
    (weightsOf records).1.length = records.length ∧ (weightsOf records).1.sum = (weightsOf records).2 ∧
      0 < (weightsOf records).2 ∧ ∀ w ∈ (weightsOf records).1, 0 ≤ w := by
  have count : (0 : Rat) < records.length := by
    exact_mod_cast List.length_pos_iff.mpr some_
  unfold weightsOf
  dsimp only
  split_ifs with idle
  · refine ⟨by simp, by simp, count, ?_⟩
    simp
  · refine ⟨by simp, rfl, not_le.mp idle, ?_⟩
    simp

/-! ## The records -/

variable {policy : PowerPolicy} {localNode : NodeId} {t : PowerTelemetry} {taskId : TaskId}

/-- Records are kept under their tasks. -/
def Keyed (t : PowerTelemetry) : Prop := ∀ taskId record, t.records.get? taskId = some record → record.taskId = taskId

theorem get?_update (t : PowerTelemetry) (record : TaskTelemetryRecord) (taskId : TaskId) :
    (t.update record).records.get? taskId = if taskId = record.taskId then some record else t.records.get? taskId := by
  simp [PowerTelemetry.update, Dict.get?_set]

theorem Keyed.update (keyed : Keyed t) (record : TaskTelemetryRecord) : Keyed (t.update record) := by
  intro taskId r found
  rw [get?_update] at found
  split_ifs at found with same
  · cases found
    exact same.symm
  · exact keyed taskId r found

/-- Sampling a task is an update of its record, and leaves the reader. -/
theorem sampleTask_updates (policy : PowerPolicy) (localNode : NodeId) (keyed : Keyed t) (taskId : TaskId)
    (sampling : TaskSampling) :
    ∃ (u : PowerTelemetry) (record : TaskTelemetryRecord), u.records = t.records ∧ u.reader = t.reader ∧
      record.taskId = taskId ∧ t.sampleTask policy localNode taskId sampling = u.update record := by
  have own : ((t.records.get? taskId).getD { taskId, nodeId := localNode }).taskId = taskId := by
    cases found : t.records.get? taskId with
    | none => rfl
    | some record => exact keyed taskId record found
  unfold sampleTask
  dsimp only
  split_ifs
  · refine ⟨t, _, rfl, rfl, ?_, rfl⟩
    exact own
  · cases measured : sampling.measurement with
    | error e =>
        refine ⟨t, _, rfl, rfl, ?_, rfl⟩
        exact own
    | ok measurement =>
        let u := { t with previousCpu := t.previousCpu.set taskId (measurement.cpuTimeSeconds, measurement.sampledAtUtc) }
        cases sampling.checkpointBytes with
        | error e =>
            refine ⟨u, _, rfl, rfl, ?_, rfl⟩
            exact own
        | ok bytes =>
            refine ⟨u, _, rfl, rfl, ?_, rfl⟩
            rfl

/-- Sampling leaves the reader, and records that are kept under their tasks, more of them than before. -/
structure Sampled (t u : PowerTelemetry) : Prop where
  keyed : Keyed u
  reader : u.reader = t.reader
  grows : ∀ taskId, (t.records.get? taskId).isSome → (u.records.get? taskId).isSome

variable (policy localNode) in
theorem sampleTask_sampled (keyed : Keyed t) (taskId : TaskId) (sampling : TaskSampling) :
    Sampled t (t.sampleTask policy localNode taskId sampling) ∧
      ((t.sampleTask policy localNode taskId sampling).records.get? taskId).isSome := by
  obtain ⟨u, record, records, reader, own, same⟩ := sampleTask_updates policy localNode keyed taskId sampling
  have keyed' : Keyed u := fun taskId r found => keyed taskId r (records ▸ found)
  rw [same]
  refine ⟨⟨keyed'.update record, reader, ?_⟩, ?_⟩
  · intro other there
    rw [get?_update, records]
    split_ifs
    · rfl
    · exact there
  · rw [get?_update, if_pos own.symm]
    rfl

variable (policy localNode) in
theorem sampleTasks_sampled (keyed : Keyed t) (sampled : List (TaskId × TaskSampling)) :
    Sampled t (t.sampleTasks policy localNode sampled) ∧
      ∀ scan ∈ sampled, ((t.sampleTasks policy localNode sampled).records.get? scan.1).isSome := by
  induction sampled generalizing t with
  | nil => exact ⟨⟨keyed, rfl, fun _ there => there⟩, by simp⟩
  | cons scan rest ih =>
      obtain ⟨first, here⟩ := sampleTask_sampled policy localNode keyed scan.1 scan.2
      obtain ⟨later, all⟩ := ih first.keyed
      exact ⟨⟨later.keyed, later.reader.trans first.reader, fun taskId there => later.grows taskId (first.grows taskId there)⟩,
        List.forall_mem_cons.mpr ⟨later.grows _ here, all⟩⟩

/-- The power of tasks, by their records. -/
def kilowatts (t : PowerTelemetry) (taskIds : List TaskId) : Rat :=
  (taskIds.map fun taskId => ((t.records.get? taskId).bind (·.measuredPowerKw)).getD 0).sum

section

variable {power total : Rat} {shares : List (TaskTelemetryRecord × Rat)}

theorem get?_giveShares (absent : ∀ share ∈ shares, share.1.taskId ≠ taskId) :
    (t.giveShares power total shares).records.get? taskId = t.records.get? taskId := by
  induction shares generalizing t with
  | nil => rfl
  | cons share rest ih =>
      obtain ⟨here, later⟩ := List.forall_mem_cons.mp absent
      rw [giveShares, ih later, get?_update, if_neg (fun same => here same.symm)]

theorem kilowatts_giveShares (distinct : (shares.map fun share => share.1.taskId).Nodup) :
    kilowatts (t.giveShares power total shares) (shares.map fun share => share.1.taskId) =
      (shares.map fun share => max leastPowerKw (power * share.2 / total)).sum := by
  induction shares generalizing t with
  | nil => rfl
  | cons share rest ih =>
      obtain ⟨fresh, distinct⟩ := List.nodup_cons.mp distinct
      have absent : ∀ other ∈ rest, other.1.taskId ≠ share.1.taskId := by
        intro other member same
        exact fresh (List.mem_map.mpr ⟨other, member, same⟩)
      have later : kilowatts ((t.update (withShare power total share.1 share.2)).giveShares power total rest)
          (rest.map fun share => share.1.taskId) =
            (rest.map fun share => max leastPowerKw (power * share.2 / total)).sum := ih distinct
      have own : share.1.taskId = (withShare power total share.1 share.2).taskId := rfl
      simp only [kilowatts, List.map_cons, List.sum_cons, giveShares] at later ⊢
      rw [later, get?_giveShares absent, get?_update, if_pos own]
      rfl

end

theorem Keyed.records {taskIds : List TaskId} (keyed : Keyed t)
    (there : ∀ taskId ∈ taskIds, (t.records.get? taskId).isSome) :
    (taskIds.filterMap t.records.get?).map (·.taskId) = taskIds := by
  induction taskIds with
  | nil => rfl
  | cons taskId rest ih =>
      obtain ⟨here, later⟩ := List.forall_mem_cons.mp there
      obtain ⟨record, found⟩ := Option.isSome_iff_exists.mp here
      rw [List.filterMap_cons_some found, List.map_cons, keyed taskId record found, ih later]

/-- The tasks are given what the node has used, up to the least power of each. -/
theorem kilowatts_applyShares {taskIds : List TaskId} {power : Rat} (keyed : Keyed t)
    (there : ∀ taskId ∈ taskIds, (t.records.get? taskId).isSome) (distinct : taskIds.Nodup)
    (some_ : taskIds ≠ []) (positive : 0 ≤ power) :
    power ≤ kilowatts (t.applyShares power (taskIds.filterMap t.records.get?)) taskIds ∧
      kilowatts (t.applyShares power (taskIds.filterMap t.records.get?)) taskIds ≤
        power + taskIds.length * leastPowerKw := by
  have ids := keyed.records there
  generalize recorded : taskIds.filterMap t.records.get? = records at ids ⊢
  have present : records ≠ [] := by
    rintro rfl
    exact some_ ids.symm
  obtain ⟨length, sum, whole, nonneg⟩ := weightsOf_spec present
  have zipped : (records.zip (weightsOf records).1).map (fun share => share.1.taskId) = taskIds := by
    rw [← ids]
    conv_rhs => rw [← List.map_fst_zip length.ge, List.map_map]
    rfl
  have shares : kilowatts (t.applyShares power records)
      ((records.zip (weightsOf records).1).map fun share => share.1.taskId) =
        ((records.zip (weightsOf records).1).map fun share =>
          max leastPowerKw (power * share.2 / (weightsOf records).2)).sum :=
    kilowatts_giveShares (zipped ▸ distinct)
  have weights : ((records.zip (weightsOf records).1).map fun share =>
      max leastPowerKw (power * share.2 / (weightsOf records).2)) =
        (weightsOf records).1.map fun w => max leastPowerKw (power * w / (weightsOf records).2) := by
    conv_rhs => rw [← List.map_snd_zip length.le, List.map_map]
    rfl
  have bounds := sum_shares sum whole nonneg (by norm_num [leastPowerKw] : 0 ≤ leastPowerKw) positive
  rw [zipped, weights] at shares
  have count : taskIds.length = records.length := by rw [← ids, List.length_map]
  rw [shares, count, ← length]
  exact bounds

/-! ## Rounds -/

theorem giveShares_kept (keyed : Keyed t) (power total : Rat) (shares : List (TaskTelemetryRecord × Rat)) :
    Keyed (t.giveShares power total shares) ∧ (t.giveShares power total shares).reader = t.reader := by
  induction shares generalizing t with
  | nil => exact ⟨keyed, rfl⟩
  | cons share rest ih => exact ih (keyed.update _)

theorem applyShares_kept (keyed : Keyed t) (power : Rat) (records : List TaskTelemetryRecord) :
    Keyed (t.applyShares power records) ∧ (t.applyShares power records).reader = t.reader :=
  giveShares_kept keyed _ _ _

/-- The state of the service after a round at `now`. -/
structure Metered (m : Meters) (energy : String → Nat) (now : Rat) (t : PowerTelemetry) : Prop where
  keyed : Keyed t
  reader : t.reader = m.kept energy now ∨ m.names = []

/-- The tasks of a round. -/
def PowerTelemetry.Round.taskIds (round : Round) (localNode : NodeId) : List TaskId :=
  (round.sampled localNode).map Prod.fst

/-- What the powers of the tasks of a round amount to since `before`, in microjoules. -/
def givenUj (localNode : NodeId) (before : Rat) (round : Round) (t : PowerTelemetry) : Rat :=
  (round.at_ - before) * kilowatts t (round.taskIds localNode) * 1000000000

theorem givenUj_bounds {round : Round} {u : PowerTelemetry} {moved : Int} (elapsed : 0 < round.at_ - before)
    (least : (moved : Rat) / 1000000 / (round.at_ - before) / 1000 ≤ kilowatts u (round.taskIds localNode))
    (most : kilowatts u (round.taskIds localNode) ≤ (moved : Rat) / 1000000 / (round.at_ - before) / 1000 +
      (round.taskIds localNode).length * leastPowerKw) :
    moved ≤ givenUj localNode before round u ∧
      givenUj localNode before round u ≤ moved + (round.taskIds localNode).length * (round.at_ - before) := by
  have scaled : (moved : Rat) =
      (round.at_ - before) * ((moved : Rat) / 1000000 / (round.at_ - before) / 1000) * 1000000000 := by
    field_simp
    ring
  unfold givenUj
  constructor
  · calc (moved : Rat) = _ := scaled
      _ ≤ _ := by gcongr
  · calc (round.at_ - before) * kilowatts u (round.taskIds localNode) * 1000000000
        ≤ (round.at_ - before) * ((moved : Rat) / 1000000 / (round.at_ - before) / 1000 +
            (round.taskIds localNode).length * leastPowerKw) * 1000000000 := by gcongr
      _ = _ := by
          rw [mul_add, add_mul, ← scaled, leastPowerKw]
          ring

theorem applyRaplPower_none {u : PowerTelemetry} (taskIds : List TaskId)
    (sample : (samplePowerKw root now u.reader).1 = .ok none) :
    applyRaplPower root now taskIds u = (.ok (), { u with reader := (samplePowerKw root now u.reader).2 }) := by
  unfold applyRaplPower
  cases sampled : samplePowerKw root now u.reader with
  | mk result next =>
      rw [sampled] at sample
      cases sample
      rfl

theorem applyRaplPower_some {u : PowerTelemetry} {taskIds : List TaskId} {power : Rat}
    (sample : (samplePowerKw root now u.reader).1 = .ok (some power)) :
    applyRaplPower root now taskIds u =
      (.ok (), ({ u with reader := (samplePowerKw root now u.reader).2 } : PowerTelemetry).applyShares power
        (taskIds.filterMap u.records.get?)) := by
  unfold applyRaplPower
  cases sampled : samplePowerKw root now u.reader with
  | mk result next =>
      rw [sampled] at sample
      cases sample
      rfl

variable {round : Round}

theorem runOnce_first (keyed : Keyed t) (first : t.reader.previous = none) (read : m.Read energy round.root) :
    (runOnce policy localNode round t).1 = .ok () ∧
      Metered m energy round.at_ (runOnce policy localNode round t).2 := by
  obtain ⟨after, -⟩ := sampleTasks_sampled policy localNode keyed (round.sampled localNode)
  obtain ⟨nothing, reader⟩ := samplePowerKw_first round.at_ read (after.reader.symm ▸ first)
  have step := applyRaplPower_none (round.taskIds localNode) nothing
  have whole : runOnce policy localNode round t = _ := step
  rw [whole]
  exact ⟨rfl, ⟨after.keyed, reader⟩⟩

variable (policy) in
/-- A round keeps the readings and gives its tasks what the counters have moved on since the last one. -/
theorem runOnce_next (metered : Metered m energy before t) (read : m.Read energy' round.root)
    (later : before < round.at_)
    (moves : ∀ name ∈ m.names, energy name ≤ energy' name ∧ energy' name < energy name + m.range name)
    (distinct : (round.taskIds localNode).Nodup) :
    (runOnce policy localNode round t).1 = .ok () ∧
      Metered m energy' round.at_ (runOnce policy localNode round t).2 ∧
      (0 < m.moved energy energy' → round.taskIds localNode ≠ [] →
        m.moved energy energy' ≤ givenUj localNode before round (runOnce policy localNode round t).2 ∧
          givenUj localNode before round (runOnce policy localNode round t).2 ≤
            m.moved energy energy' + (round.taskIds localNode).length * (round.at_ - before)) := by
  obtain ⟨after, there⟩ := sampleTasks_sampled policy localNode metered.keyed
    (round.sampled localNode)
  have whole : runOnce policy localNode round t = applyRaplPower round.root round.at_ (round.taskIds localNode)
    (t.sampleTasks policy localNode (round.sampled localNode)) := rfl
  generalize t.sampleTasks policy localNode (round.sampled localNode) = u at *
  have last : u.reader = m.kept energy before ∨ m.names = [] := by
    rw [after.reader]
    exact metered.reader
  obtain ⟨reader, power⟩ := samplePowerKw_next read later moves last
  by_cases still : m.moved energy energy' ≤ 0
  · rw [if_pos still] at power
    rw [whole, applyRaplPower_none _ power]
    exact ⟨rfl, ⟨after.keyed, reader⟩, fun moved => absurd moved (not_lt.mpr still)⟩
  · rw [if_neg still] at power
    rw [whole, applyRaplPower_some power]
    have keyed : Keyed ({ u with reader := (samplePowerKw round.root round.at_ u.reader).2 } : PowerTelemetry) :=
      after.keyed
    obtain ⟨keyed', reader'⟩ := applyShares_kept keyed
      ((m.moved energy energy' : Rat) / 1000000 / (round.at_ - before) / 1000)
      ((round.taskIds localNode).filterMap u.records.get?)
    refine ⟨rfl, ⟨keyed', reader'.symm ▸ reader⟩, fun _ some_ => ?_⟩
    have elapsed : 0 < round.at_ - before := sub_pos.mpr later
    have moved : (0 : Rat) < m.moved energy energy' := by exact_mod_cast not_le.mp still
    have all : ∀ taskId ∈ round.taskIds localNode, (u.records.get? taskId).isSome := by
      intro taskId member
      obtain ⟨scan, scanned, rfl⟩ := List.mem_map.mp member
      exact there scan scanned
    have positive : 0 ≤ (m.moved energy energy' : Rat) / 1000000 / (round.at_ - before) / 1000 := by positivity
    obtain ⟨least, most⟩ := kilowatts_applyShares keyed all distinct some_ positive
    exact givenUj_bounds elapsed least most

/-! ## Runs -/

/-- The states of the service: the round `k` begins in the `k`th. -/
def runFrom (policy : PowerPolicy) (localNode : NodeId) (rounds : Nat → Round) (start : PowerTelemetry) :
    Nat → PowerTelemetry
  | 0 => start
  | k + 1 => (runOnce policy localNode (rounds k) (runFrom policy localNode rounds start k)).2

/-- The rounds find the counters of a node where zone `name` has used `energy k name` by round `k`. -/
structure Meters.Rounds (m : Meters) (localNode : NodeId) (energy : Nat → String → Nat) (rounds : Nat → Round) :
    Prop where
  read : ∀ k, m.Read (energy k) (rounds k).root
  later : ∀ k, (rounds k).at_ < (rounds (k + 1)).at_
  moves : ∀ k, ∀ name ∈ m.names,
    energy k name ≤ energy (k + 1) name ∧ energy (k + 1) name < energy k name + m.range name
  distinct : ∀ k, ((rounds k).taskIds localNode).Nodup

section

variable (m : Meters) (policy : PowerPolicy) (localNode : NodeId) (energy : Nat → String → Nat)
  (rounds : Nat → Round) (start : PowerTelemetry)

/-- What the first `n` rounds that follow a round have given to tasks, in microjoules. -/
def attributedUj (n : Nat) : Rat :=
  ∑ k ∈ Finset.range n,
    if 0 < m.moved (energy k) (energy (k + 1)) ∧ (rounds (k + 1)).taskIds localNode ≠ [] then
      givenUj localNode (rounds k).at_ (rounds (k + 1)) (runFrom policy localNode rounds start (k + 2))
    else 0

/-- What the node has used before rounds that find no task. -/
def unattendedUj (n : Nat) : Int :=
  ∑ k ∈ Finset.range n, if (rounds (k + 1)).taskIds localNode = [] then m.moved (energy k) (energy (k + 1)) else 0

/-- The time of each task in rounds, by which its least power counts. -/
def taskSeconds (n : Nat) : Rat :=
  ∑ k ∈ Finset.range n, ((rounds (k + 1)).taskIds localNode).length * ((rounds (k + 1)).at_ - (rounds k).at_)

end

theorem Meters.sum_moved (m : Meters) (energy : Nat → String → Nat) (n : Nat) :
    ∑ k ∈ Finset.range n, m.moved (energy k) (energy (k + 1)) = m.moved (energy 0) (energy n) := by
  induction n with
  | zero => simp [moved]
  | succ n ih =>
      rw [Finset.sum_range_succ, ih]
      unfold moved
      rw [← List.sum_map_add]
      simp

variable (policy) in
theorem Meters.Rounds.metered {energy : Nat → String → Nat} {rounds : Nat → Round} {start : PowerTelemetry}
    (found : m.Rounds localNode energy rounds) (keyed : Keyed start) (fresh : start.reader.previous = none)
    (k : Nat) :
    (runOnce policy localNode (rounds k) (runFrom policy localNode rounds start k)).1 = .ok () ∧
      Metered m (energy k) (rounds k).at_ (runFrom policy localNode rounds start (k + 1)) := by
  induction k with
  | zero => exact runOnce_first keyed fresh (found.read 0)
  | succ k ih =>
      obtain ⟨done, metered, -⟩ := runOnce_next policy ih.2 (found.read (k + 1)) (found.later k)
        (found.moves k) (found.distinct (k + 1))
      exact ⟨done, metered⟩

theorem Meters.moved_nonneg {energy energy' : String → Nat} (grows : ∀ name ∈ m.names, energy name ≤ energy' name) :
    0 ≤ m.moved energy energy' := by
  apply List.sum_nonneg
  simp only [List.forall_mem_map]
  intro name member
  have := grows name member
  omega

/-- One round of a run. -/
theorem Meters.Rounds.attributed {energy : Nat → String → Nat} {rounds : Nat → Round} {start : PowerTelemetry}
    (found : m.Rounds localNode energy rounds) (keyed : Keyed start) (fresh : start.reader.previous = none)
    (k : Nat) :
    (m.moved (energy k) (energy (k + 1)) : Rat) -
        (if (rounds (k + 1)).taskIds localNode = [] then m.moved (energy k) (energy (k + 1)) else 0 : Int) ≤
      (if 0 < m.moved (energy k) (energy (k + 1)) ∧ (rounds (k + 1)).taskIds localNode ≠ [] then
        givenUj localNode (rounds k).at_ (rounds (k + 1)) (runFrom policy localNode rounds start (k + 2))
      else 0) ∧
    (if 0 < m.moved (energy k) (energy (k + 1)) ∧ (rounds (k + 1)).taskIds localNode ≠ [] then
        givenUj localNode (rounds k).at_ (rounds (k + 1)) (runFrom policy localNode rounds start (k + 2))
      else 0) ≤
      (m.moved (energy k) (energy (k + 1)) : Rat) -
        (if (rounds (k + 1)).taskIds localNode = [] then m.moved (energy k) (energy (k + 1)) else 0 : Int) +
        ((rounds (k + 1)).taskIds localNode).length * ((rounds (k + 1)).at_ - (rounds k).at_) := by
  obtain ⟨-, metered⟩ := found.metered policy keyed fresh k
  obtain ⟨-, -, given⟩ := runOnce_next policy metered (found.read (k + 1)) (found.later k)
    (found.moves k) (found.distinct (k + 1))
  by_cases idle : (rounds (k + 1)).taskIds localNode = []
  · simp [idle]
  · have elapsed : (0 : Rat) ≤ ((rounds (k + 1)).taskIds localNode).length * ((rounds (k + 1)).at_ - (rounds k).at_) :=
      mul_nonneg (by positivity) (sub_nonneg.mpr (found.later k).le)
    have grows := m.moved_nonneg fun name member => (found.moves k name member).1
    rcases grows.lt_or_eq with moved | still
    · simp only [idle, moved, ne_eq, not_false_eq_true, and_self, if_true, if_false, Int.cast_zero, sub_zero]
      exact given moved idle
    · simp only [idle, ← still, lt_self_iff_false, false_and, if_false, Int.cast_zero, sub_zero, zero_add]
      exact ⟨le_rfl, elapsed⟩

/-- No round fails, and what the tasks are given is what the node has used, but for rounds without
tasks and up to the least power of each task. -/
theorem power_attribution_conserves_energy {energy : Nat → String → Nat} {rounds : Nat → Round}
    {start : PowerTelemetry} (found : m.Rounds localNode energy rounds) (keyed : Keyed start)
    (fresh : start.reader.previous = none) :
    (∀ k, (runOnce policy localNode (rounds k) (runFrom policy localNode rounds start k)).1 = .ok ()) ∧
      ∀ n, (m.moved (energy 0) (energy n) - unattendedUj m localNode energy rounds n : Rat) ≤
          attributedUj m policy localNode energy rounds start n ∧
        attributedUj m policy localNode energy rounds start n ≤
          m.moved (energy 0) (energy n) - unattendedUj m localNode energy rounds n +
            taskSeconds localNode rounds n := by
  refine ⟨fun k => (found.metered policy keyed fresh k).1, fun n => ?_⟩
  rw [← m.sum_moved energy n]
  unfold unattendedUj attributedUj taskSeconds
  push_cast
  rw [← Finset.sum_sub_distrib, ← Finset.sum_add_distrib]
  constructor
  · apply Finset.sum_le_sum
    intro k _
    exact_mod_cast (found.attributed keyed fresh k).1
  · apply Finset.sum_le_sum
    intro k _
    exact_mod_cast (found.attributed keyed fresh k).2

/-! ## A counter that wraps around -/

def busyState : TaskRuntimeState := { taskId := "t", ownerNodeId := "n", status := .running, pid := some 1 }

def busySampling (k : Nat) : TaskSampling where
  state := busyState
  powerKw := 1 / 10
  cpuCores := 1
  now := k * 1000000
  measurement := .ok { pid := 1, cpuTimeSeconds := k / 2, memoryRssMb := 100, sampledAtUtc := k * 1000000 }
  checkpointBytes := .ok 0

def busyZone (k : Nat) : PowercapEntry where
  name := "intel-rapl:0"
  energyUj := some (.ok (600 * k % 1000 : Nat))
  maxEnergyRangeUj := some (.ok (1000 : Nat))

def busyRound (k : Nat) : Round := ⟨[(busyState, busySampling k)], some [busyZone k], k⟩

def busyMeters : Meters := ⟨["intel-rapl:0"], fun _ => 1000, List.nodup_singleton _⟩

theorem power_attribution_conserves_energy_sample :
    (1800 : Rat) ≤ attributedUj busyMeters {} "n" (fun k _ => 600 * k) busyRound {} 3 ∧
      attributedUj busyMeters {} "n" (fun k _ => 600 * k) busyRound {} 3 ≤ 1803 := by
  have tasks : ∀ k, (busyRound k).taskIds "n" = ["t"] := fun k => rfl
  have topLevel : isTopLevel "intel-rapl:0" = true := by decide +kernel
  have zones : ∀ k, raplZones (busyRound k).root = [busyZone k] := by
    intro k
    simp [raplZones, busyRound, busyZone, topLevel]
  have found : busyMeters.Rounds "n" (fun k _ => 600 * k) busyRound := by
    constructor
    · intro k
      constructor
      · rw [zones]
        rfl
      · rw [zones]
        simp [busyZone, Reads, busyMeters]
    · intro k
      simp [busyRound]
    · intro k name _
      simp [busyMeters]
      omega
    · intro k
      rw [tasks]
      exact List.nodup_singleton _
  obtain ⟨-, conserved⟩ := @power_attribution_conserves_energy _ {} _ _ _ {} found
    (fun taskId record absent => nomatch absent) rfl
  have used : busyMeters.moved (fun _ => 600 * 0) (fun _ => 600 * 3) = 1800 := by decide
  have attended : unattendedUj busyMeters "n" (fun k _ => 600 * k) busyRound 3 = 0 := by
    simp [unattendedUj, tasks]
  have seconds : taskSeconds "n" busyRound 3 = 3 := by
    simp only [taskSeconds, tasks]
    simp [busyRound]
  have bounds := conserved 3
  rw [used, attended, seconds] at bounds
  norm_num at bounds
  exact bounds

end Magellan.Telemetry
